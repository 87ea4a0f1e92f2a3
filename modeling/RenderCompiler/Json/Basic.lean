import RenderCompiler.Binary64.Rounding

set_option autoImplicit false

namespace RenderCompiler

-- Integers stay apart from the numbers written with a point or an exponent.
inductive JsonNumber where
  | integer (value : Int)
  | real (value : Binary64)
deriving DecidableEq, Repr

def JsonNumber.toBinary64 : JsonNumber → Binary64
  | .integer i => Binary64.ofInt i
  | .real x => x

inductive Json where
  | null
  | boolean (value : Bool)
  | number (value : JsonNumber)
  | string (value : String)
  | array (items : List Json)
  | object (entries : List (String × Json))
  -- Well-formed text without a value: a number beyond the range, half a surrogate pair, nesting
  -- beyond the limit. The value of an entry is marked where its key is unfit.
  | unfit
  | unfitKey
  -- Here a text stops being JSON.
  | broken
deriving Inhabited, Repr

namespace Json

def ofNat (n : Nat) : Json := .number (.integer n)

def ofStrings (items : List String) : Json := .array (items.map .string)

def get? (key : String) : Json → Option Json
  | .object entries => (entries.find? (·.1 == key)).map (·.2)
  | _ => none

mutual

def skippable : Json → Bool
  | .broken => false
  | .array items => allSkippable items
  | .object entries => allEntriesSkippable entries
  | _ => true

def allSkippable : List Json → Bool
  | [] => true
  | item :: rest => skippable item && allSkippable rest

def allEntriesSkippable : List (String × Json) → Bool
  | [] => true
  | (_, value) :: rest => skippable value && allEntriesSkippable rest

end

mutual

def intact : Json → Bool
  | .broken | .unfit | .unfitKey => false
  | .array items => allIntact items
  | .object entries => allEntriesIntact entries
  | _ => true

def allIntact : List Json → Bool
  | [] => true
  | item :: rest => intact item && allIntact rest

def allEntriesIntact : List (String × Json) → Bool
  | [] => true
  | (_, value) :: rest => intact value && allEntriesIntact rest

end

mutual

def height : Json → Nat
  | .array items => itemsHeight items + 1
  | .object entries => entriesHeight entries + 1
  | _ => 0

def itemsHeight : List Json → Nat
  | [] => 0
  | item :: rest => max (height item) (itemsHeight rest)

def entriesHeight : List (String × Json) → Nat
  | [] => 0
  | (_, value) :: rest => max (height value) (entriesHeight rest)

end

end Json

end RenderCompiler
