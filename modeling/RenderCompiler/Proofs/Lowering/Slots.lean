import RenderCompiler.Proofs.Lowering.Outcome
import RenderCompiler.Proofs.Script.Handlers

set_option autoImplicit false

namespace RenderCompiler

def Element.handlers (scope : Scope) (el : Element) : List (Path × Scope) :=
  (el.on.getD []).map fun handler => (handler.2, scope)

namespace Node

open Lowering

mutual

-- The handlers that are lowered with a node, in the order in which they get their slots.
def handlers : Scope → Node → List (Path × Scope)
  | _, .text _ => []
  | scope, .element el children =>
    let inner := innerScope scope el.loop
    handlersAll inner children ++ el.handlers inner
  | scope, .template el children => handlersAll (innerScope scope el.loop) children
  | scope, .slot el children _ => handlersAll (innerScope scope el.loop) children
  | scope, .custom el _ _ content =>
    let inner := innerScope scope el.loop
    el.handlers inner ++ handlersContent inner content

def handlersAll : Scope → List Node → List (Path × Scope)
  | _, [] => []
  | scope, node :: rest => handlers scope node ++ handlersAll scope rest

def handlersContent : Scope → List (String × List Node) → List (Path × Scope)
  | _, [] => []
  | scope, (_, nodes) :: rest => handlersAll scope nodes ++ handlersContent scope rest

end

theorem length_element_handlers (scope : Scope) (el : Element) :
    (el.handlers scope).length = el.handlerCount :=
  List.length_map _

mutual

theorem length_handlers (node : Node) (scope : Scope) :
    (node.handlers scope).length = handlerTotal node.reached := by
  cases node with
  | text value => simp [handlers, reached, handlerCount, carrier?]
  | element el children =>
    simp [handlers, reached, length_handlersAll children, length_element_handlers, handlerCount,
      carrier?]
  | template el children =>
    simp [handlers, reached, length_handlersAll children, handlerCount, carrier?]
  | slot el children name =>
    simp [handlers, reached, length_handlersAll children, handlerCount, carrier?]
  | custom el children component content =>
    simp [handlers, reached, length_handlersContent content, length_element_handlers, handlerCount,
      carrier?, Nat.add_comm]

theorem length_handlersAll (nodes : List Node) (scope : Scope) :
    (handlersAll scope nodes).length = handlerTotal (reachedAll nodes) := by
  cases nodes with
  | nil => rfl
  | cons node rest => simp [handlersAll, reachedAll, length_handlers node, length_handlersAll rest]

theorem length_handlersContent (content : List (String × List Node)) (scope : Scope) :
    (handlersContent scope content).length = handlerTotal (reachedContent content) := by
  cases content with
  | nil => rfl
  | cons slot rest =>
    simp [handlersContent, reachedContent, length_handlersAll slot.2, length_handlersContent rest]

end

end Node

namespace Lowering

-- Nothing that is read looks as if it handed over a handler, and no primitive but one does.
structure Environment.HandsOver (env : Environment) : Prop where
  own : ∀ primitive, env.api.primitiveName primitive = env.api.bind → primitive = .bind
  plain : ∀ path scope, (env.binder path scope).bindCalls env.api = []

theorem handsOver_default : (Environment.ofApi {}).HandsOver where
  own primitive := by cases primitive <;> decide
  plain path scope := by
    simp only [Environment.ofApi, componentBinder, bindCalls_members]
    split <;> rfl

def handlerCalls (env : Environment) (given : Nat) (handlers : List (Path × Scope)) :
    List (List Expr) :=
  (handlers.zipIdx given).map fun ((path, scope), slot) =>
    [env.binder path scope, .number (.ofUInt32 (.ofNat slot))]

def slotLimit : Nat := 0x100000000

theorem handlerCalls_append (env : Environment) (given : Nat) (first others : List (Path × Scope)) :
    handlerCalls env given (first ++ others) =
      handlerCalls env given first ++ handlerCalls env (given + first.length) others := by
  simp [handlerCalls, List.zipIdx_append]

end Lowering

namespace Sketch

open Lowering

section Calls

variable (env : Environment) (names : String → String)

def calls (sketch : Sketch) : List (List Expr) := (sketch.expr env names).bindCalls env.api

def listCalls (sketches : List Sketch) : List (List Expr) := sketches.flatMap (calls env names)

def fieldCalls (fields : List (String × Sketch)) : List (List Expr) :=
  fields.flatMap fun field => field.2.calls env names

variable {env}

theorem calls_array (elements : List Sketch) :
    (Sketch.array elements).calls env names = listCalls env names elements := by
  simp only [calls, expr, Expr.bindCalls, exprs_eq_map, listBindCalls_eq_flatMap, List.flatMap_map]
  rfl

theorem calls_object (fields : List (String × Sketch)) :
    (Sketch.object fields).calls env names = fieldCalls env names fields := by
  induction fields with
  | nil => rfl
  | cons field rest ih =>
    simp only [calls, expr, Expr.bindCalls, fieldCalls] at ih
    simp [calls, expr, Expr.bindCalls, exprProperties, Expr.propertyBindCalls, fieldCalls, ih]

theorem listCalls_append (sketches others : List Sketch) :
    listCalls env names (sketches ++ others) =
      listCalls env names sketches ++ listCalls env names others :=
  List.flatMap_append

theorem fieldCalls_append (fields others : List (String × Sketch)) :
    fieldCalls env names (fields ++ others) =
      fieldCalls env names fields ++ fieldCalls env names others :=
  List.flatMap_append

theorem calls_single (sketches : List Sketch) :
    (single sketches).calls env names = listCalls env names sketches := by
  unfold single
  split
  · simp [listCalls]
  · exact calls_array names _

theorem calls_ofEntries {make : Value → Sketch} (entries : Entries Value)
    (each : ∀ value, (make value).calls env names = []) :
    (ofEntries make entries).calls env names = [] := by
  simp [ofEntries, calls_object, fieldCalls, List.flatMap_map, each]

theorem fieldCalls_field {α : Type} (name : String) {make : α → Sketch}
    (each : ∀ value, (make value).calls env names = []) (value : Option α) :
    fieldCalls env names (field name make value) = [] := by
  cases value <;> simp [field, fieldCalls, each]

theorem fieldCalls_key {key : Option Expr}
    (plain : ∀ expr ∈ key, expr.bindCalls env.api = []) :
    fieldCalls env names (field "key" Sketch.verbatim key) = [] := by
  cases key with
  | none => rfl
  | some expr => simpa [field, fieldCalls, calls, Sketch.expr] using plain expr rfl

variable (hands : env.HandsOver)

include hands

theorem calls_call (primitive : Primitive) (arguments : List Sketch) (apart : primitive ≠ .bind) :
    (Sketch.call primitive arguments).calls env names = listCalls env names arguments := by
  have other : env.api.primitiveName primitive ≠ env.api.bind := fun same =>
    apart (hands.own primitive same)
  simp [calls, expr, RuntimeApi.primitive, Expr.bindCalls, Expr.isBind, other, List.flatMap_map]
  rfl

theorem calls_read (path : Path) (scope : Scope) : (Sketch.read path scope).calls env names = [] :=
  hands.plain path scope

theorem calls_ofValue (scope : Scope) (value : Value) :
    (ofValue scope value).calls env names = [] := by
  cases value with
  | text value => rfl
  | number value => rfl
  | bound path => exact calls_read names hands path scope

theorem calls_ofAttribute (scope : Scope) (value : Value) :
    (ofAttribute scope value).calls env names = [] := by
  rw [ofAttribute_eq]
  split
  · rfl
  · exact calls_ofValue names hands scope value

theorem calls_ofHandlers (scope : Scope) (given : Nat) (handlers : Entries Path) :
    (ofHandlers scope given handlers).calls env names =
      handlerCalls env given (handlers.map fun handler => (handler.2, scope)) := by
  have one (path : Path) (slot : Nat) :
      (Sketch.call .bind [.read path scope, .number (.ofUInt32 (.ofNat slot))]).calls env names =
        [[env.binder path scope, .number (.ofUInt32 (.ofNat slot))]] := by
    simp [calls, expr, exprs, RuntimeApi.primitive, RuntimeApi.primitiveName, Expr.bindCalls,
      Expr.isBind, hands.plain]
  simp only [ofHandlers, calls_object, fieldCalls, List.flatMap_map, one, handlerCalls,
    List.zipIdx_map, List.map_map, ← List.map_eq_flatMap]
  rfl

theorem fieldCalls_on (scope : Scope) (given : Nat) (handlers : Option (Entries Path)) :
    fieldCalls env names (field "on" (ofHandlers scope given) handlers) =
      handlerCalls env given ((handlers.getD []).map fun handler => (handler.2, scope)) := by
  cases handlers with
  | none => rfl
  | some handlers => simp [field, fieldCalls, calls_ofHandlers names hands]

theorem fieldCalls_dataFields (scope : Scope) (given : Nat) (el : Element)
    (plain : ∀ key ∈ el.loop.bind Loop.key, key.bindCalls env.api = []) :
    fieldCalls env names (dataFields scope given el) =
      handlerCalls env given (el.handlers scope) := by
  have values := calls_ofValue names hands scope
  have attributes := calls_ofAttribute names hands scope
  have truths (_ : Value) : (Sketch.boolean true).calls env names = [] := rfl
  simp only [dataFields, fieldCalls_append, fieldCalls_field names _ values,
    fieldCalls_field names _ (calls_ofEntries names · truths),
    fieldCalls_field names _ (calls_ofEntries names · values),
    fieldCalls_field names _ (calls_ofEntries names · attributes), fieldCalls_key names plain,
    fieldCalls_on names hands, List.nil_append]
  rfl

theorem calls_ofTest (scope : Scope) (condition : Condition) :
    (ofTest scope condition).calls env names = [] := by
  have read := calls_read names hands condition.path scope
  unfold ofTest
  split <;> simpa [calls, expr, Expr.bindCalls] using read

theorem calls_gatedOn (scope : Scope) (condition : Option Condition) (sketch : Sketch) :
    (gatedOn scope condition sketch).calls env names = sketch.calls env names := by
  cases condition with
  | none => rfl
  | some condition =>
    have test := calls_ofTest names hands scope condition
    simp only [calls] at test
    simp [gatedOn, gated, calls, expr, Expr.bindCalls, test]

theorem calls_repeatedOver (outer : Scope) (loop : Option Loop) (sketch : Sketch) :
    (repeatedOver outer loop sketch).calls env names = sketch.calls env names := by
  cases loop with
  | none => rfl
  | some loop =>
    have apart : env.api.iterate ≠ env.api.bind := fun same => by
      cases hands.own .iterate same
    simp [repeatedOver, calls, expr, RuntimeApi.iterateCall, RuntimeApi.primitive, Expr.bindCalls,
      Expr.isBind, apart, hands.plain, Expr.listBindCalls, Stmt.listBindCalls, Stmt.bindCalls]

theorem listCalls_gatedOn (scope : Scope) (condition : Option Condition)
    (sketches : List Sketch) :
    listCalls env names (sketches.map (gatedOn scope condition)) =
      listCalls env names sketches := by
  simp only [listCalls, List.flatMap_map, calls_gatedOn names hands]

theorem calls_whole (nodes : List Node) (lowered : List Sketch) :
    (SketchedChildren.of nodes lowered).whole.calls env names = listCalls env names lowered := by
  have list : (Sketch.array lowered).calls env names = listCalls env names lowered :=
    calls_array names lowered
  have flatten : (Sketch.call .flatten [.array lowered]).calls env names =
      listCalls env names lowered := by
    rw [calls_call names hands .flatten _ (by decide), listCalls, List.flatMap_singleton, list]
  unfold SketchedChildren.of
  split
  · exact list
  · split
    · simp [SketchedChildren.whole, listCalls]
    · exact flatten

theorem listCalls_template (inner outer : Scope) (el : Element) (children : SketchedChildren) :
    listCalls env names (children.template inner outer el) = children.whole.calls env names := by
  cases children with
  | joined sketch =>
    simp [SketchedChildren.template, SketchedChildren.whole, listCalls,
      calls_repeatedOver names hands, calls_gatedOn names hands]
  | separate sketches =>
    simp only [SketchedChildren.template, SketchedChildren.whole, calls_array]
    cases loop : el.loop with
    | some loop =>
      simp only [listCalls, List.flatMap_singleton, calls_repeatedOver names hands, calls_single]
      exact listCalls_gatedOn names hands inner el.condition sketches
    | none =>
      cases el.condition with
      | some condition => exact listCalls_gatedOn names hands inner _ sketches
      | none =>
        simp only [listCalls, List.flatMap_singleton, calls_array]
        exact listCalls_gatedOn names hands inner none sketches

theorem calls_directed (inner outer : Scope) (el : Element) (sketch : Sketch) :
    listCalls env names [repeatedOver outer el.loop (gatedOn inner el.condition sketch)] =
      sketch.calls env names := by
  rw [listCalls, List.flatMap_singleton, calls_repeatedOver names hands, calls_gatedOn names hands]

end Calls

end Sketch

namespace Node

open Lowering Sketch

section Calls

variable {env : Environment} (names : String → String)

def PlainKeys (env : Environment) (nodes : List Node) : Prop :=
  ∀ key ∈ keys nodes, key.bindCalls env.api = []

theorem PlainKeys.append {nodes others : List Node} (plain : PlainKeys env (nodes ++ others)) :
    PlainKeys env nodes ∧ PlainKeys env others := by
  simp only [PlainKeys, keys_append, List.mem_append] at plain ⊢
  exact ⟨fun key member => plain key (.inl member), fun key member => plain key (.inr member)⟩

theorem PlainKeys.own {node : Node} {el : Element} (plain : PlainKeys env [node])
    (carrier : node.carrier? = some el) :
    ∀ key ∈ el.loop.bind Loop.key, key.bindCalls env.api = [] := by
  intro key member
  refine plain key ?_
  rw [keys_singleton, Node.key?, carrier]
  simpa using member

mutual

-- The data of an element stands before its children but is built after them.
theorem sketches_calls (hands : env.HandsOver) (node : Node) (scope : Scope) (given : Nat)
    (plain : PlainKeys env node.reached) :
    (listCalls env names (node.sketches scope given)).Perm
      (handlerCalls env given (node.handlers scope)) := by
  cases node with
  | text value =>
    have text := calls_call names hands .text [ofValue scope value] (by decide)
    simp [sketches, listCalls, text, calls_ofValue names hands, handlers, handlerCalls]
  | element el children =>
    obtain ⟨below, own⟩ := plain.append
    have inside := sketchesAll_calls hands children (innerScope scope el.loop) given below
    have data := fieldCalls_dataFields names hands (innerScope scope el.loop)
      (given + handlerTotal (reachedAll children)) el (own.own rfl)
    have call := calls_call names hands .element [.string el.tag,
      .object (dataFields (innerScope scope el.loop)
        (given + handlerTotal (reachedAll children)) el),
      (SketchedChildren.of children
        (sketchesAll (innerScope scope el.loop) given children)).whole] (by decide)
    have tag : (Sketch.string el.tag).calls env names = [] := rfl
    rw [sketches, calls_directed names hands, call]
    simp only [listCalls, List.flatMap_cons, List.flatMap_nil, tag, calls_object, data,
      calls_whole names hands, List.nil_append, List.append_nil]
    rw [handlers, handlerCalls_append, length_handlersAll]
    exact List.perm_append_comm.trans (inside.append_right _)
  | template el children =>
    have inside := sketchesAll_calls hands children (innerScope scope el.loop) given plain.append.1
    rw [sketches, listCalls_template names hands, calls_whole names hands]
    exact inside
  | slot el children name =>
    have inside := sketchesAll_calls hands children (innerScope scope el.loop) given plain.append.1
    have whole := calls_whole names hands children
      (sketchesAll (innerScope scope el.loop) given children)
    have either : listCalls env names (sketches scope given (.slot el children name)) =
        listCalls env names (sketchesAll (innerScope scope el.loop) given children) := by
      rw [sketches, listCalls, List.flatMap_singleton, ← whole]
      rfl
    rw [either]
    exact inside
  | custom el children component content =>
    obtain ⟨below, own⟩ := plain.append
    have inside := sketchesContent_calls hands content (innerScope scope el.loop)
      (given + el.handlerCount) below
    have data := fieldCalls_dataFields names hands (innerScope scope el.loop) given el (own.own rfl)
    have slots : fieldCalls env names (if content.isEmpty then [] else
        [("slotset", .object (sketchesContent (innerScope scope el.loop)
          (given + el.handlerCount) content))]) =
        fieldCalls env names (sketchesContent (innerScope scope el.loop)
          (given + el.handlerCount) content) := by
      cases content with
      | nil => rfl
      | cons slot rest => simp [fieldCalls, calls_object]
    have call := calls_call names hands .customElement [.string el.tag, .component component,
      .object (dataFields (innerScope scope el.loop) given el ++
        if content.isEmpty then [] else
          [("slotset", .object (sketchesContent (innerScope scope el.loop)
            (given + el.handlerCount) content))])] (by decide)
    have tag : (Sketch.string el.tag).calls env names = [] := rfl
    have constructor : (Sketch.component component).calls env names = [] := rfl
    rw [sketches, calls_directed names hands, call]
    simp only [listCalls, List.flatMap_cons, List.flatMap_nil, tag, constructor, calls_object,
      List.nil_append, List.append_nil]
    rw [fieldCalls_append, data, slots]
    rw [handlers, handlerCalls_append, length_element_handlers]
    exact inside.append_left _

theorem sketchesAll_calls (hands : env.HandsOver) (nodes : List Node) (scope : Scope) (given : Nat)
    (plain : PlainKeys env (reachedAll nodes)) :
    (listCalls env names (sketchesAll scope given nodes)).Perm
      (handlerCalls env given (handlersAll scope nodes)) := by
  cases nodes with
  | nil => exact .refl _
  | cons node rest =>
    obtain ⟨here, later⟩ := plain.append
    have first := sketches_calls hands node scope given here
    have others := sketchesAll_calls hands rest scope (given + handlerTotal node.reached) later
    rw [sketchesAll, listCalls_append, handlersAll, handlerCalls_append, length_handlers]
    exact first.append others

theorem sketchesContent_calls (hands : env.HandsOver) (content : List (String × List Node))
    (scope : Scope) (given : Nat) (plain : PlainKeys env (reachedContent content)) :
    (fieldCalls env names (sketchesContent scope given content)).Perm
      (handlerCalls env given (handlersContent scope content)) := by
  cases content with
  | nil => exact .refl _
  | cons slot rest =>
    obtain ⟨name, nodes⟩ := slot
    obtain ⟨here, later⟩ := plain.append
    have first := sketchesAll_calls hands nodes scope given here
    have others := sketchesContent_calls hands rest scope
      (given + handlerTotal (reachedAll nodes)) later
    have whole := calls_whole names hands nodes (sketchesAll scope given nodes)
    rw [sketchesContent, fieldCalls, List.flatMap_cons, whole, handlersContent,
      handlerCalls_append, length_handlersAll]
    exact first.append others

end

theorem sketch_calls (hands : env.HandsOver) (node : Node) (scope : Scope) (given : Nat)
    (plain : PlainKeys env node.reached) :
    ((node.sketch scope given).calls env names).Perm
      (handlerCalls env given (node.handlers scope)) := by
  rw [Node.sketch, calls_single]
  exact sketches_calls names hands node scope given plain

end Calls

end Node

end RenderCompiler
