import RenderCompiler.Binary64.Rounding
import RenderCompiler.Script.Basic

set_option autoImplicit false

namespace RenderCompiler

inductive Primitive where
  | element
  | text
  | customElement
  | iterate
  | flatten
  | bind
deriving DecidableEq, Repr

inductive Datum where
  | undefined
  | null
  | boolean (value : Bool)
  | number (value : Binary64)
  | string (value : String)
  | list (items : List Datum)
  | record (fields : List (String × Datum))
  | primitive (primitive : Primitive)
  | closure (params : List String) (body : List Stmt) (bindings : List (String × Datum))
  | host (name : String)
  | component (specifier : String)
  | handle (handler : Datum)
  | element (tag data children : Datum)
  | text (value : Datum)
  | custom (tag constructor data : Datum)
deriving Inhabited

abbrev Bindings := List (String × Datum)

namespace Datum

def truthy : Datum → Bool
  | .undefined | .null => false
  | .boolean value => value
  | .number value => !(value.isZero || value.isNaN)
  | .string value => !value.isEmpty
  | _ => true

-- The member of a value, if it has one. The last property of a name counts.
def read (property : String) : Datum → Datum
  | .record fields => (fields.reverse.lookup property).getD .undefined
  | _ => .undefined

def readAll (value : Datum) (properties : List String) : Datum :=
  properties.foldl (fun value property => value.read property) value

def isPlain : Datum → Bool
  | .undefined | .null | .boolean _ | .number _ | .string _ => true
  | _ => false

-- Which composite values are the same is left open.
def same : Datum → Datum → Option Bool
  | .undefined, .undefined => some true
  | .null, .null => some true
  | .boolean left, .boolean right => some (left == right)
  | .number left, .number right =>
    some (!left.isNaN && !right.isNaN && (left == right || left.isZero && right.isZero))
  | .string left, .string right => some (left == right)
  | left, right => if left.isPlain || right.isPlain then some false else none

def items? : Datum → Option (List Datum)
  | .list items => some items
  | _ => none

def spread : Datum → List Datum
  | .list items => items
  | value => [value]

mutual

def leaves : Datum → List Datum
  | .list items => leavesAll items
  | value => [value]

def leavesAll : List Datum → List Datum
  | [] => []
  | item :: rest => leaves item ++ leavesAll rest

end

mutual

/-- The nodes that a value shows as: lists are spliced and null is dropped, also in the children of
elements and in what is projected into slots. -/
def nodes : Datum → List Datum
  | .null => []
  | .list items => nodesAll items
  | .element tag data children => [.element tag data (.list (nodes children))]
  | .custom tag constructor data => [.custom tag constructor (settled data)]
  | value => [value]

def nodesAll : List Datum → List Datum
  | [] => []
  | item :: rest => nodes item ++ nodesAll rest

def settled : Datum → Datum
  | .record fields => .record (settledFields fields)
  | value => value

def settledFields : List (String × Datum) → List (String × Datum)
  | [] => []
  | (name, value) :: rest =>
    (name, if name = "slotset" then projected value else value) :: settledFields rest

def projected : Datum → Datum
  | .record slots => .record (projectedSlots slots)
  | value => value

def projectedSlots : List (String × Datum) → List (String × Datum)
  | [] => []
  | (name, value) :: rest => (name, .list (nodes value)) :: projectedSlots rest

end

theorem nodesAll_eq_flatMap (items : List Datum) : nodesAll items = items.flatMap nodes := by
  induction items with
  | nil => rfl
  | cons item rest ih => rw [nodesAll, ih, List.flatMap_cons]

theorem nodes_list (items : List Datum) : nodes (.list items) = items.flatMap nodes := by
  rw [nodes, nodesAll_eq_flatMap]

theorem nodes_spread (value : Datum) : value.spread.flatMap nodes = value.nodes := by
  cases value with
  | list items => exact (nodes_list items).symm
  | _ => exact List.flatMap_singleton _ _

theorem nodes_results (results : List Datum) :
    nodes (.list (results.flatMap spread)) = results.flatMap nodes := by
  rw [nodes_list, List.flatMap_assoc]
  simp only [nodes_spread]

mutual

theorem nodes_leaves (value : Datum) : value.leaves.flatMap nodes = value.nodes := by
  cases value with
  | list items => rw [leaves, nodes, nodes_leavesAll items]
  | _ => exact List.flatMap_singleton _ _

theorem nodes_leavesAll (items : List Datum) :
    (leavesAll items).flatMap nodes = nodesAll items := by
  cases items with
  | nil => rfl
  | cons item rest =>
    rw [leavesAll, List.flatMap_append, nodes_leaves item, nodes_leavesAll rest, nodesAll]

end

theorem settledFields_append (first others : List (String × Datum)) :
    settledFields (first ++ others) = settledFields first ++ settledFields others := by
  induction first with
  | nil => rfl
  | cons field rest ih => simp [settledFields, ih]

theorem settledFields_eq_self {fields : List (String × Datum)}
    (apart : ∀ field ∈ fields, field.1 ≠ "slotset") : settledFields fields = fields := by
  induction fields with
  | nil => rfl
  | cons field rest ih =>
    have here := apart field List.mem_cons_self
    have others := ih fun other member => apart other (List.mem_cons_of_mem _ member)
    simp [settledFields, here, others]

end Datum

end RenderCompiler
