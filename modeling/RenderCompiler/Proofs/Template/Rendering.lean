import RenderCompiler.Lowering.Directive
import RenderCompiler.Proofs.Script.Evaluation

set_option autoImplicit false

namespace RenderCompiler

structure Stage where
  component : Datum
  slotSet : Datum
  -- What the names stand for that only keys use, besides those of loops.
  outside : Bindings
  host : String → List Datum → Option Datum

namespace Stage

variable (stage : Stage)

section Data

variable (locals : Bindings)

-- A path starts at the innermost loop name it fits, or else at the component.
def pathValue (path : Path) : Datum :=
  ((locals.lookup path.head).getD (stage.component.read path.head)).readAll path.rest

def valueOf : Value → Datum
  | .text value => .string value
  | .number value => .number value
  | .bound path => stage.pathValue locals path

def attributeOf : Value → Datum
  | .text "" => .boolean true
  | value => stage.valueOf locals value

theorem attributeOf_eq (value : Value) :
    stage.attributeOf locals value =
      if value = .text "" then .boolean true else stage.valueOf locals value := by
  unfold attributeOf
  split
  next => rw [if_pos rfl]
  next apart => rw [if_neg apart]

def recordOf {α : Type} (make : α → Datum) (entries : Entries α) : Datum :=
  .record (entries.map fun (name, value) => (name, make value))

def field {α : Type} (name : String) (make : α → Datum) : Option α → List (String × Datum)
  | none => []
  | some value => [(name, make value)]

noncomputable def keyField : Option Expr → Option (List (String × Datum))
  | none => some []
  | some key => do return [("key", ← key.eval stage.host (locals ++ stage.outside))]

noncomputable def data (el : Element) : Option (List (String × Datum)) := do
  let key ← stage.keyField locals (el.loop.bind Loop.key)
  return field "className" (stage.valueOf locals) el.className ++
    field "classMap" (recordOf fun _ => .boolean true) el.classMap ++
    field "style" (recordOf (stage.valueOf locals)) el.style ++
    field "attrs" (recordOf (stage.attributeOf locals)) el.attrs ++
    field "props" (recordOf (stage.attributeOf locals)) el.props ++
    key ++
    field "on" (recordOf fun path => .handle (stage.pathValue locals path)) el.on

def holds (condition : Condition) : Bool :=
  let value := stage.pathValue locals condition.path
  match Lowering.Test.ofModifier? condition.modifier with
  | some .truthy => value.truthy
  | some .falsy => !value.truthy
  | some .exactlyTrue => value.same (.boolean true) == some true
  | none => false

def gating (condition : Option Condition) (shown : Option (List Datum)) : Option (List Datum) :=
  match condition with
  | none => shown
  | some condition => if stage.holds locals condition then shown else some []

def repeating (loop : Option Loop) (shown : Bindings → Option (List Datum)) :
    Option (List Datum) :=
  match loop with
  | none => shown locals
  | some loop => do
    let items ← (stage.pathValue locals loop.path).items?
    let shows ← items.zipIdx.mapM fun (value, position) =>
      shown ((loop.index, .number (.ofNat position)) :: (loop.item, value) :: locals)
    return shows.flatten

end Data

mutual

/-- What a node shows, with the values of the loop names around it, innermost first. -/
noncomputable def render : Bindings → Node → Option (List Datum)
  | locals, .text value => some [.text (stage.valueOf locals value)]
  | locals, .element el children =>
    stage.repeating locals el.loop fun locals => stage.gating locals el.condition do
      let data ← stage.data locals el
      let children ← renderAll locals children
      return [.element (.string el.tag) (.record data) (.list children)]
  | locals, .template el children =>
    stage.repeating locals el.loop fun locals =>
      stage.gating locals el.condition (renderAll locals children)
  | locals, .slot _ children name =>
    -- What is projected takes the place of the children.
    let projected := stage.slotSet.read name
    if projected.truthy then some projected.nodes else renderAll locals children
  | locals, .custom el _ component content =>
    stage.repeating locals el.loop fun locals => stage.gating locals el.condition do
      let data ← stage.data locals el
      let slots ← renderContent locals content
      let slotSet := if content.isEmpty then [] else [("slotset", .record slots)]
      return [.custom (.string el.tag) (.component component) (.record (data ++ slotSet))]

noncomputable def renderAll : Bindings → List Node → Option (List Datum)
  | _, [] => some []
  | locals, node :: rest => do
    let shown ← render locals node
    let others ← renderAll locals rest
    return shown ++ others

noncomputable def renderContent :
    Bindings → List (String × List Node) → Option (List (String × Datum))
  | _, [] => some []
  | locals, (name, nodes) :: rest => do
    let shown ← renderAll locals nodes
    let others ← renderContent locals rest
    return (name, .list shown) :: others

end

end Stage

end RenderCompiler
