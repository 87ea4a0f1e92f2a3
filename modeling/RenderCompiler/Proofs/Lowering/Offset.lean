import RenderCompiler.Proofs.Lowering.Slots

set_option autoImplicit false

namespace RenderCompiler

open Lowering

namespace Sketch

section Raising

variable (env : Environment) (names : String → String) (offset : Nat)

def Raises (sketch sketch' : Sketch) : Prop :=
  sketch'.expr env names = (sketch.expr env names).raised env.api offset

def RaisesAll (sketches sketches' : List Sketch) : Prop :=
  sketches'.map (expr env names) =
    (sketches.map (expr env names)).map (Expr.raised env.api offset)

def RaisesFields (fields fields' : List (String × Sketch)) : Prop :=
  exprProperties env names fields' =
    Expr.propertiesRaised env.api offset (exprProperties env names fields)

variable {env names offset} {sketch sketch' : Sketch} {sketches sketches' : List Sketch}

theorem raises_plain (plain : sketch.calls env names = []) :
    Raises env names offset sketch sketch :=
  (Expr.raised_of_plain env.api offset _ plain).symm

theorem raises_array (raises : RaisesAll env names offset sketches sketches') :
    Raises env names offset (.array sketches) (.array sketches') := by
  simp only [Raises, expr, exprs_eq_map, Expr.raised, listRaised_eq_map]
  rw [raises]

theorem raises_object {fields fields' : List (String × Sketch)}
    (raises : RaisesFields env names offset fields fields') :
    Raises env names offset (.object fields) (.object fields') := by
  simp only [Raises, expr, Expr.raised]
  rw [raises]

theorem RaisesFields.append {first first' others others' : List (String × Sketch)}
    (here : RaisesFields env names offset first first')
    (later : RaisesFields env names offset others others') :
    RaisesFields env names offset (first ++ others) (first' ++ others') := by
  simp only [RaisesFields, exprProperties_append, propertiesRaised_eq_map, List.map_append] at *
  rw [here, later]

theorem RaisesAll.append {first first' others others' : List Sketch}
    (here : RaisesAll env names offset first first')
    (later : RaisesAll env names offset others others') :
    RaisesAll env names offset (first ++ others) (first' ++ others') := by
  simp only [RaisesAll, List.map_append] at *
  rw [here, later]

theorem RaisesAll.singleton (raises : Raises env names offset sketch sketch') :
    RaisesAll env names offset [sketch] [sketch'] := by
  simp only [RaisesAll, List.map_cons, List.map_nil]
  rw [raises]

theorem RaisesAll.length (raises : RaisesAll env names offset sketches sketches') :
    sketches'.length = sketches.length := by
  simpa using congrArg List.length raises

variable (hands : env.HandsOver)

include hands

theorem raises_call {primitive : Primitive} {arguments arguments' : List Sketch}
    (apart : primitive ≠ .bind) (raises : RaisesAll env names offset arguments arguments') :
    Raises env names offset (.call primitive arguments) (.call primitive arguments') := by
  have other : env.api.primitiveName primitive ≠ env.api.bind := fun same =>
    apart (hands.own primitive same)
  simp only [Raises, expr, exprs_eq_map, RuntimeApi.primitive, Expr.raised, Expr.isBind,
    listRaised_eq_map]
  rw [raises]
  simp [other]

theorem raises_gatedOn (scope : Scope) (condition : Option Condition)
    (raises : Raises env names offset sketch sketch') :
    Raises env names offset (gatedOn scope condition sketch) (gatedOn scope condition sketch') := by
  cases condition with
  | none => exact raises
  | some condition =>
    have test : Raises env names offset (ofTest scope condition) (ofTest scope condition) :=
      raises_plain (calls_ofTest names hands scope condition)
    simp only [Raises, gatedOn, gated, expr, Expr.raised] at *
    rw [raises, ← test]

theorem raises_repeatedOver (outer : Scope) (loop : Option Loop)
    (raises : Raises env names offset sketch sketch') :
    Raises env names offset (repeatedOver outer loop sketch) (repeatedOver outer loop sketch') := by
  cases loop with
  | none => exact raises
  | some loop =>
    have apart : env.api.iterate ≠ env.api.bind := fun same => by
      cases hands.own .iterate same
    have list := Expr.raised_of_plain env.api offset _ (hands.plain loop.path outer)
    simp only [Raises, repeatedOver, expr, RuntimeApi.iterateCall, RuntimeApi.primitive,
      Expr.raised, Expr.isBind, Expr.listRaised, Stmt.listRaised, Stmt.raised, list] at *
    rw [raises]
    simp [apart]

theorem RaisesAll.gatedOn (scope : Scope) (condition : Option Condition)
    (raises : RaisesAll env names offset sketches sketches') :
    RaisesAll env names offset (sketches.map (Sketch.gatedOn scope condition))
      (sketches'.map (Sketch.gatedOn scope condition)) := by
  induction sketches generalizing sketches' with
  | nil =>
    obtain rfl := List.eq_nil_of_length_eq_zero raises.length
    rfl
  | cons sketch rest ih =>
    cases sketches' with
    | nil => cases raises.length
    | cons sketch' rest' =>
      obtain ⟨here, later⟩ := List.cons.inj raises
      exact (RaisesAll.singleton (raises_gatedOn hands scope condition here)).append (ih later)

omit hands in
theorem raises_single (raises : RaisesAll env names offset sketches sketches') :
    Raises env names offset (single sketches) (single sketches') := by
  have length := raises.length
  match sketches, sketches' with
  | [only], [only'] => exact (List.cons.inj raises).1
  | [], [] => exact raises_array raises
  | _ :: _ :: _, _ :: _ :: _ => exact raises_array raises

end Raising

section Children

variable (env : Environment) (names : String → String) (offset : Nat)

inductive RaisesChildren : SketchedChildren → SketchedChildren → Prop
  | separate {sketches sketches' : List Sketch}
      (raises : RaisesAll env names offset sketches sketches') :
      RaisesChildren (.separate sketches) (.separate sketches')
  | joined {sketch sketch' : Sketch} (raises : Raises env names offset sketch sketch') :
      RaisesChildren (.joined sketch) (.joined sketch')

variable {env names offset} {children children' : SketchedChildren}

theorem RaisesChildren.whole (raises : RaisesChildren env names offset children children') :
    Raises env names offset children.whole children'.whole := by
  cases raises with
  | separate raises => exact raises_array raises
  | joined raises => exact raises

variable (hands : env.HandsOver)

include hands

theorem raises_children (nodes : List Node) {lowered lowered' : List Sketch}
    (raises : RaisesAll env names offset lowered lowered') :
    RaisesChildren env names offset (.of nodes lowered) (.of nodes lowered') := by
  have flatten : Raises env names offset (.call .flatten [.array lowered])
      (.call .flatten [.array lowered']) :=
    raises_call hands (by decide) (.singleton (raises_array raises))
  have length := raises.length
  unfold SketchedChildren.of
  split
  · exact .separate raises
  · match nodes, lowered, lowered' with
    | [_], [only], [only'] => exact .joined (List.cons.inj raises).1
    | [], _, _ => exact .joined flatten
    | _ :: _ :: _, _, _ => exact .joined flatten
    | [_], [], [] => exact .joined flatten
    | [_], _ :: _ :: _, _ :: _ :: _ => exact .joined flatten

theorem RaisesChildren.template (inner outer : Scope) (el : Element)
    (raises : RaisesChildren env names offset children children') :
    RaisesAll env names offset (children.template inner outer el)
      (children'.template inner outer el) := by
  cases raises with
  | joined raises =>
    exact .singleton (raises_repeatedOver hands outer el.loop
      (raises_gatedOn hands inner el.condition raises))
  | separate raises =>
    have gated := raises.gatedOn hands inner el.condition
    simp only [SketchedChildren.template]
    split
    next loop _ =>
      exact .singleton (raises_repeatedOver hands outer (some loop) (raises_single gated))
    next => exact gated
    next => exact .singleton (raises_array gated)

end Children

section Data

variable {env : Environment} {names : String → String} {offset : Nat} (hands : env.HandsOver)

theorem raisesFields_plain {fields : List (String × Sketch)}
    (plain : fieldCalls env names fields = []) :
    RaisesFields env names offset fields fields := by
  have none : Expr.propertyBindCalls env.api (exprProperties env names fields) = [] := by
    rw [← plain, ← calls_object]
    rfl
  exact (Expr.propertiesRaised_of_plain env.api offset _ none).symm

theorem raisesFields_single (name : String) {sketch sketch' : Sketch}
    (raises : Raises env names offset sketch sketch') :
    RaisesFields env names offset [(name, sketch)] [(name, sketch')] := by
  simp only [RaisesFields, exprProperties, Expr.propertiesRaised]
  rw [raises]

include hands

theorem raises_ofHandlers (scope : Scope) (given : Nat) (handlers : Entries Path) :
    Raises env names offset (ofHandlers scope given handlers)
      (ofHandlers scope (given + offset) handlers) := by
  refine raises_object ?_
  induction handlers generalizing given with
  | nil => rfl
  | cons handler rest ih =>
    obtain ⟨event, path⟩ := handler
    have others := ih (given + 1)
    rw [Nat.add_right_comm] at others
    have handed := Expr.raised_of_plain env.api offset _ (hands.plain path scope)
    refine RaisesFields.append (raisesFields_single event ?_) others
    simp [Raises, expr, RuntimeApi.primitive, RuntimeApi.primitiveName, Expr.raised, Expr.isBind,
      handed]

variable (names offset) in
theorem raisesFields_dataFields (scope : Scope) (given : Nat) (el : Element)
    (plain : ∀ key ∈ el.loop.bind Loop.key, key.bindCalls env.api = []) :
    RaisesFields env names offset (dataFields scope given el)
      (dataFields scope (given + offset) el) := by
  have handlers : RaisesFields env names offset
      (field "on" (ofHandlers scope given) el.on)
      (field "on" (ofHandlers scope (given + offset)) el.on) := by
    cases el.on with
    | none => rfl
    | some handlers => exact raisesFields_single "on" (raises_ofHandlers hands scope given handlers)
  refine RaisesFields.append (raisesFields_plain ?_) handlers
  -- What stands before the handlers is the data of the element without them.
  have silent := fieldCalls_dataFields names hands scope given { el with on := none } plain
  simpa [dataFields, field, Element.handlers, handlerCalls] using silent

end Data

end Sketch

namespace Node

open Sketch

section Nodes

variable {env : Environment} (names : String → String) (offset : Nat)

mutual

theorem sketches_raised (hands : env.HandsOver) (node : Node) (scope : Scope) (given : Nat)
    (plain : PlainKeys env node.reached) :
    RaisesAll env names offset (node.sketches scope given)
      (node.sketches scope (given + offset)) := by
  have silent (sketch : Sketch) (none : sketch.calls env names = []) :
      RaisesAll env names offset [sketch] [sketch] := .singleton (raises_plain none)
  cases node with
  | text value =>
    refine silent _ ?_
    rw [calls_call names hands .text _ (by decide), listCalls, List.flatMap_singleton,
      calls_ofValue names hands]
  | element el children =>
    obtain ⟨below, own⟩ := plain.append
    have inside := raises_children hands children (sketchesAll_raised hands children
      (innerScope scope el.loop) given below)
    have data := raisesFields_dataFields names offset hands
      (innerScope scope el.loop) (given + handlerTotal (reachedAll children)) el (own.own rfl)
     
    rw [Nat.add_right_comm] at data
    refine .singleton (raises_repeatedOver hands scope el.loop (raises_gatedOn hands _ _ ?_))
    refine raises_call hands (by decide) ?_
    exact (silent (.string el.tag) rfl).append
      ((RaisesAll.singleton (raises_object data)).append (.singleton inside.whole))
  | template el children =>
    have inside := raises_children hands children (sketchesAll_raised hands children
      (innerScope scope el.loop) given plain.append.1)
    exact inside.template hands _ scope el
  | slot el children name =>
    have inside := raises_children hands children (sketchesAll_raised hands children
      (innerScope scope el.loop) given plain.append.1)
    refine .singleton ?_
    simp only [Raises, expr, Expr.raised]
    rw [inside.whole]
    rfl
  | custom el children component content =>
    obtain ⟨below, own⟩ := plain.append
    have data := raisesFields_dataFields names offset hands
      (innerScope scope el.loop) given el (own.own rfl)
    have slots := sketchesContent_raised hands content (innerScope scope el.loop)
      (given + el.handlerCount) below
    rw [Nat.add_right_comm] at slots
    refine .singleton (raises_repeatedOver hands scope el.loop (raises_gatedOn hands _ _ ?_))
    refine raises_call hands (by decide) ?_
    refine (silent (.string el.tag) rfl).append ((silent (.component component) rfl).append
      (.singleton (raises_object (data.append ?_))))
    split
    · rfl
    · exact raisesFields_single "slotset" (raises_object slots)

theorem sketchesAll_raised (hands : env.HandsOver) (nodes : List Node) (scope : Scope)
    (given : Nat) (plain : PlainKeys env (reachedAll nodes)) :
    RaisesAll env names offset (sketchesAll scope given nodes)
      (sketchesAll scope (given + offset) nodes) := by
  cases nodes with
  | nil => rfl
  | cons node rest =>
    obtain ⟨here, later⟩ := plain.append
    have first := sketches_raised hands node scope given here
    have others := sketchesAll_raised hands rest scope (given + handlerTotal node.reached) later
     
    rw [Nat.add_right_comm] at others
    exact first.append others

theorem sketchesContent_raised (hands : env.HandsOver) (content : List (String × List Node))
    (scope : Scope) (given : Nat) (plain : PlainKeys env (reachedContent content)) :
    RaisesFields env names offset (sketchesContent scope given content)
      (sketchesContent scope (given + offset) content) := by
  cases content with
  | nil => rfl
  | cons slot rest =>
    obtain ⟨name, nodes⟩ := slot
    obtain ⟨here, later⟩ := plain.append
    have first := raises_children hands nodes
      (sketchesAll_raised hands nodes scope given here)
    have others := sketchesContent_raised hands rest scope
      (given + handlerTotal (reachedAll nodes)) later
    rw [Nat.add_right_comm] at others
    exact (raisesFields_single name first.whole).append others

end

theorem sketch_raised (hands : env.HandsOver) (root : Node) (scope : Scope) (given : Nat)
    (plain : PlainKeys env root.reached) :
    Raises env names offset (root.sketch scope given) (root.sketch scope (given + offset)) :=
  raises_single (sketches_raised names offset hands root scope given plain)

end Nodes

end Node

end RenderCompiler
