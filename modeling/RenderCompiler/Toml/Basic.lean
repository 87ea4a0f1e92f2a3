set_option autoImplicit false

namespace RenderCompiler

-- How a table came about: written in place, by a dotted key, by a header of its own, or by a
-- longer header.
inductive TableOrigin where
  | inline
  | dotted
  | header
  | implied
deriving DecidableEq, Repr

inductive Toml where
  | string (value : String)
  | scalar
  | dateTime
  | array (items : List Toml)
  | table (origin : TableOrigin) (entries : List (String × Toml))
  | tables (items : List (List (String × Toml)))
deriving Inhabited

abbrev TomlEntries := List (String × Toml)

namespace TomlEntries

def replace (key : String) (value : Toml) : TomlEntries → TomlEntries
  | [] => []
  | (k, v) :: rest => if k == key then (key, value) :: rest else (k, v) :: replace key value rest

def changeLast (change : TomlEntries → Option TomlEntries) :
    List TomlEntries → Option (List TomlEntries)
  | [] => none
  | [last] => (change last).map fun changed => [changed]
  | first :: rest => (changeLast change rest).map (first :: ·)

-- A dotted path may not enter a table that has a header of its own, and no path enters a table
-- written in place.
def descend (dotted : Bool) (change : TableOrigin → TomlEntries → Option TomlEntries) :
    List String → TableOrigin → TomlEntries → Option TomlEntries
  | [], origin, entries => change origin entries
  | key :: path, _, entries =>
    match entries.lookup key with
    | none => do
      let origin := if dotted then TableOrigin.dotted else .implied
      let inner ← descend dotted change path origin []
      return entries ++ [(key, .table origin inner)]
    | some (.table origin inner) =>
      if origin = .inline ∨ (dotted ∧ origin = .header) then none
      else do
        let inner ← descend dotted change path origin inner
        return replace key (.table origin inner) entries
    | some (.tables items) => do
      let items ← changeLast (descend dotted change path .header) items
      return replace key (.tables items) entries
    | some _ => none

-- Sets a dotted key in a table. Only tables made by dotted keys take more of them.
def assign (path : List String) (key : String) (value : Toml) :
    TableOrigin → TomlEntries → Option TomlEntries :=
  descend true
    (fun origin entries =>
      -- At the start of the path the table must not stem from dotted keys; past it, it must.
      if (origin == .dotted) == path.isEmpty then none
      else if (entries.lookup key).isSome then none
      else some (entries ++ [(key, value)]))
    path

def openTable (path : List String) (key : String) : TomlEntries → Option TomlEntries :=
  descend false
    (fun _ entries =>
      match entries.lookup key with
      | none => some (entries ++ [(key, .table .header [])])
      | some (.table .implied inner) => some (replace key (.table .header inner) entries)
      | some _ => none)
    path .header

def openTables (path : List String) (key : String) : TomlEntries → Option TomlEntries :=
  descend false
    (fun _ entries =>
      match entries.lookup key with
      | none => some (entries ++ [(key, .tables [[]])])
      | some (.tables items) => some (replace key (.tables (items ++ [[]])) entries)
      | some _ => none)
    path .header

end TomlEntries

structure TomlKey where
  path : List String
  key : String
deriving DecidableEq, Repr

def TomlKey.segments (key : TomlKey) : List String := key.path ++ [key.key]

inductive TomlLine where
  | entry (key : TomlKey) (value : Toml)
  | header (key : TomlKey)
  | tables (key : TomlKey)

namespace TomlLine

def add (current : List String) (entries : TomlEntries) :
    TomlLine → Option (List String × TomlEntries)
  | .entry key value => do
    let change := TomlEntries.assign key.path key.key value
    return (current, ← TomlEntries.descend false change current .header entries)
  | .header key => do
    return (key.segments, ← TomlEntries.openTable key.path key.key entries)
  | .tables key => do
    return (key.segments, ← TomlEntries.openTables key.path key.key entries)

def build : List String → TomlEntries → List TomlLine → Option TomlEntries
  | _, entries, [] => some entries
  | current, entries, line :: rest => do
    let (current, entries) ← line.add current entries
    build current entries rest

end TomlLine

end RenderCompiler
