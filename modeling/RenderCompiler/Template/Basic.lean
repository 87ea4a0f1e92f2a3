import RenderCompiler.Json.Decoding
import RenderCompiler.Script.Basic
import RenderCompiler.Text.Parts

set_option autoImplicit false

namespace RenderCompiler

-- Parting a text at its points leaves at least one name, so a path has a first name. The
-- names may be empty.
structure Path where
  head : String
  rest : List String
deriving DecidableEq, Repr, Inhabited

namespace Path

def segments (path : Path) : List String := path.head :: path.rest

def ofSegments : List String → Path
  | [] => ⟨"", []⟩
  | head :: rest => ⟨head, rest⟩

def ofText (text : String) : Path := ofSegments (stringParts '.' text)

theorem segments_ofText (text : String) : (ofText text).segments = stringParts '.' text := by
  unfold ofText ofSegments segments stringParts
  cases parts : partsOf '.' text.toList with
  | nil => exact absurd parts (partsOf_ne_nil '.' text.toList)
  | cons first rest => rfl

def text (path : Path) : String := String.intercalate "." path.segments

end Path

inductive Value where
  | text (value : String)
  | number (value : Binary64)
  | bound (path : Path)
deriving DecidableEq, Repr, Inhabited

-- The modifier is kept as it is spelled. What it asks for is read off its spelling alone, so one
-- that spells a test is never taken for an unknown one.
structure Condition where
  path : Path
  modifier : String := "true"
deriving DecidableEq, Repr, Inhabited

structure Loop where
  path : Path
  item : String := "item"
  index : String := "index"
  key : Option Expr := none
deriving Inhabited

def Loop.names (loop : Loop) : List String := [loop.item, loop.index]

structure Element where
  tag : String := ""
  condition : Option Condition := none
  loop : Option Loop := none
  className : Option Value := none
  classMap : Option (Entries Value) := none
  style : Option (Entries Value) := none
  attrs : Option (Entries Value) := none
  props : Option (Entries Value) := none
  on : Option (Entries Path) := none
deriving Inhabited

inductive Node where
  | text (value : Value)
  | element (element : Element) (children : List Node)
  | template (element : Element) (children : List Node)
  | slot (element : Element) (children : List Node) (name : String)
  | custom (element : Element) (children : List Node) (component : String)
      (content : List (String × List Node))
deriving Inhabited

namespace Node

def element? : Node → Option Element
  | .text _ => none
  | .element el _ => some el
  | .template el _ => some el
  | .slot el _ _ => some el
  | .custom el _ _ _ => some el

def children : Node → List Node
  | .text _ => []
  | .element _ children => children
  | .template _ children => children
  | .slot _ children _ => children
  | .custom _ children _ _ => children

def tag (node : Node) : String := (node.element?.map Element.tag).getD ""

def loop? (node : Node) : Option Loop := node.element?.bind Element.loop

def isLooped (node : Node) : Bool := node.loop?.isSome

def slotTemplate (content : List Node) : Node :=
  .template { tag := "template" } content

mutual

-- How deep slot content is nested in slot content. Children of custom elements do not count.
def projectionDepth : Node → Nat
  | .text _ => 0
  | .element _ children => childrenDepth children
  | .template _ children => childrenDepth children
  | .slot _ children _ => childrenDepth children
  | .custom _ _ _ content => contentDepth content

def childrenDepth : List Node → Nat
  | [] => 0
  | node :: rest => max (projectionDepth node) (childrenDepth rest)

def contentDepth : List (String × List Node) → Nat
  | [] => 0
  | (_, nodes) :: rest => max (childrenDepth nodes + 1) (contentDepth rest)

end

end Node

structure Metadata where
  dependencies : List String := []
deriving DecidableEq, Repr, Inhabited

structure Document where
  root : Node
  metadata : Metadata := {}
deriving Inhabited

end RenderCompiler
