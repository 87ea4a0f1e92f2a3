import RenderCompiler.Binary64.Reading
import RenderCompiler.Template.Basic

set_option autoImplicit false

namespace RenderCompiler

structure ImportTable where
  entries : List (String × String) := []
deriving DecidableEq, Repr, Inhabited

namespace ImportTable

def isAlphanumeric (c : Char) : Bool := isAsciiLetter c || isDigit c

private def toAsciiUpper (c : Char) : Char :=
  if 'a' ≤ c && c ≤ 'z' then Char.ofNat (c.toNat - 32) else c

-- Letters and digits of a specifier; each that follows another character is raised, unless it is
-- the first.
def camelCase : Bool → Bool → List Char → List Char
  | _, _, [] => []
  | started, raise, c :: rest =>
    if isAlphanumeric c then (if raise then toAsciiUpper c else c) :: camelCase true false rest
    else camelCase started started rest

private theorem isAlphanumeric_toAsciiUpper {c : Char} (alphanumeric : isAlphanumeric c = true) :
    isAlphanumeric (toAsciiUpper c) = true := by
  unfold toAsciiUpper
  split
  next lower =>
    rw [Bool.and_eq_true, decide_eq_true_eq, decide_eq_true_eq] at lower
    have above : 97 ≤ c.toNat := lower.1
    have below : c.toNat ≤ 122 := lower.2
    have each : ∀ code : Fin 123, 97 ≤ code.val →
        isAlphanumeric (Char.ofNat (code.val - 32)) = true := by decide
    exact each ⟨c.toNat, by omega⟩ above
  next => exact alphanumeric

theorem isAlphanumeric_of_mem_camelCase {chars : List Char} {started raise : Bool} {c : Char}
    (member : c ∈ camelCase started raise chars) : isAlphanumeric c = true := by
  induction chars generalizing started raise with
  | nil => cases member
  | cons first rest ih =>
    unfold camelCase at member
    split at member
    next alphanumeric =>
      rcases List.mem_cons.mp member with rfl | later
      · split
        · exact isAlphanumeric_toAsciiUpper alphanumeric
        · exact alphanumeric
      · exact ih later
    next => exact ih member

def baseName (specifier : String) : String :=
  String.ofList ('_' :: camelCase false false specifier.toList)

def firstFree (taken : List String) (base : String) : Nat → Nat → String
  | 0, k => base ++ toString k
  | tries + 1, k =>
    let name := base ++ toString k
    if name ∈ taken then firstFree taken base tries (k + 1) else name

def freeName (taken : List String) (base : String) : String :=
  -- The base is taken itself, so fewer numbered names than entries can be taken.
  if base ∈ taken then firstFree taken base taken.length 2 else base

def specifiers (table : ImportTable) : List String := table.entries.map (·.1)

def locals (table : ImportTable) : List String := table.entries.map (·.2)

def size (table : ImportTable) : Nat := table.entries.length

def isEmpty (table : ImportTable) : Bool := table.entries.isEmpty

def local? (table : ImportTable) (specifier : String) : Option String :=
  table.entries.lookup specifier

/-- The local name of a specifier, with the table that holds it. -/
def register (specifier : String) (table : ImportTable) : String × ImportTable :=
  match table.local? specifier with
  | some name => (name, table)
  | none =>
    let name := freeName table.locals (baseName specifier)
    (name, ⟨table.entries ++ [(specifier, name)]⟩)

def ofSpecifiers (specifiers : List String) : ImportTable :=
  specifiers.foldl (fun table specifier => (table.register specifier).2) {}

theorem register_of_known {specifier name : String} {table : ImportTable}
    (known : table.local? specifier = some name) : table.register specifier = (name, table) := by
  simp [register, known]

end ImportTable

def Metadata.imports (metadata : Metadata) : ImportTable :=
  ImportTable.ofSpecifiers metadata.dependencies

end RenderCompiler
