import RenderCompiler.Proofs.Lowering.Outcome
import RenderCompiler.Proofs.Template.Rendering

set_option autoImplicit false

namespace RenderCompiler

def RuntimeApi.runtime (api : RuntimeApi) : Datum :=
  .record [(api.element, .primitive .element), (api.text, .primitive .text),
    (api.customElement, .primitive .customElement), (api.iterate, .primitive .iterate),
    (api.flatten, .primitive .flatten), (api.bind, .primitive .bind)]

theorem RuntimeApi.runtime_read (primitive : Primitive) :
    (runtime {}).read (primitiveName {} primitive) = .primitive primitive := by
  cases primitive <;> rfl

def RuntimeApi.bindings (api : RuntimeApi) (component slotSet context : Datum)
    (imports : ImportTable) : Bindings :=
  api.params.zip [api.runtime, component, slotSet, context] ++
    imports.entries.map fun (specifier, name) => (name, .component specifier)

theorem mapM_map_flatMap {α β γ : Type} (step : α → Option β) (shown : β → List γ)
    (items : List α) :
    (items.mapM step).map (·.flatMap shown) =
      (items.mapM fun item => (step item).map shown).map List.flatten := by
  induction items with
  | nil => rfl
  | cons item rest ih =>
    simp only [List.mapM_cons]
    cases step item with
    | none => rfl
    | some result =>
      cases h : rest.mapM step <;> cases k : rest.mapM fun item => (step item).map shown <;>
        simp_all

namespace Lowering

def scopeOf (locals : Bindings) : Scope := (locals.map (·.1)).reverse

def iteration (loop : Loop) (item : Datum × Nat) (locals : Bindings) : Bindings :=
  (loop.index, .number (.ofNat item.2)) :: (loop.item, item.1) :: locals

theorem scopeOf_iteration (loop : Loop) (item : Datum × Nat) (locals : Bindings) :
    scopeOf (iteration loop item locals) = innerScope (scopeOf locals) (some loop) := by
  simp [scopeOf, iteration, innerScope, Loop.names]

theorem lookup_eq_none_iff (locals : Bindings) (name : String) :
    locals.lookup name = none ↔ name ∉ scopeOf locals := by
  rw [List.lookup_eq_none_iff]
  simp only [scopeOf, List.mem_reverse, List.mem_map, not_exists, not_and, bne_iff_ne]
  exact ⟨fun apart entry member same => apart entry member same.symm,
    fun apart entry member same => apart entry member same.symm⟩

def Clear (reserved : List String) (locals : Bindings) : Prop :=
  ∀ name ∈ reserved, locals.lookup name = none

theorem Clear.iteration {reserved : List String} {locals : Bindings} {loop : Loop}
    (clear : Clear reserved locals) (apart : ∀ name ∈ loop.names, name ∉ reserved)
    (item : Datum × Nat) : Clear reserved (iteration loop item locals) := by
  intro name member
  have ne (other : String) (of : other ∈ loop.names) : (name == other) = false := by
    rw [beq_eq_false_iff_ne]
    rintro rfl
    exact apart name of member
  simp only [Lowering.iteration, List.lookup_cons]
  rw [ne loop.index (by simp [Loop.names]), ne loop.item (by simp [Loop.names])]
  exact clear name member

structure Provides (stage : Stage) (names : String → String) (reserved : List String)
    (imported : List String) : Prop where
  api : "$api" ∈ reserved ∧ stage.outside.lookup "$api" = some (RuntimeApi.runtime {})
  component : "$cmp" ∈ reserved ∧ stage.outside.lookup "$cmp" = some stage.component
  slotSet : "$slotset" ∈ reserved ∧ stage.outside.lookup "$slotset" = some stage.slotSet
  imports : ∀ component ∈ imported, names component ∈ reserved ∧
    stage.outside.lookup (names component) = some (.component component)

theorem Provides.append {stage : Stage} {names : String → String} {reserved : List String}
    {nodes others : List Node}
    (provides : Provides stage names reserved (components (nodes ++ others))) :
    Provides stage names reserved (components nodes) ∧
      Provides stage names reserved (components others) := by
  obtain ⟨api, component, slotSet, imports⟩ := provides
  rw [components_append] at imports
  exact ⟨⟨api, component, slotSet, fun component member => imports component
      (List.mem_append_left _ member)⟩,
    ⟨api, component, slotSet, fun component member => imports component
      (List.mem_append_right _ member)⟩⟩

section Runtime

variable {host : String → List Datum → Option Datum} {names : String → String}
  {bindings : Bindings} (api : bindings.lookup "$api" = some (RuntimeApi.runtime {}))

include api

theorem call_eval (primitive : Primitive) (arguments : List Sketch) :
    ((Sketch.call primitive arguments).expr (.ofApi {}) names).eval host bindings = (do
      (Datum.primitive primitive).apply host
        (← arguments.mapM fun sketch => (sketch.expr (.ofApi {}) names).eval host bindings)) := by
  simp only [Sketch.expr, Environment.ofApi, RuntimeApi.primitive, Expr.eval_call,
    Expr.eval_member, Expr.eval_identifier, api, Option.map_some, RuntimeApi.runtime_read,
    Sketch.exprs_eq_map, List.mapM_map]
  rfl

theorem iterate_eval (iterable : Sketch) (item index : String) (body : Sketch) :
    ((Sketch.iterate iterable item index body).expr (.ofApi {}) names).eval host bindings = (do
      let value ← (iterable.expr (.ofApi {}) names).eval host bindings
      let items ← value.items?
      let results ← items.zipIdx.mapM fun (value, position) =>
        (body.expr (.ofApi {}) names).eval host
          ((index, .number (.ofNat position)) :: (item, value) :: bindings)
      return .list (results.flatMap Datum.spread)) := by
  simp only [Sketch.expr, Environment.ofApi, RuntimeApi.iterateCall, RuntimeApi.primitive,
    Expr.eval_call, Expr.eval_member, Expr.eval_identifier, api, Option.map_some,
    List.mapM_cons, List.mapM_nil, Expr.eval_function]
  cases (iterable.expr ⟨{}, componentBinder _⟩ names).eval host bindings with
  | none => rfl
  | some value => exact Datum.apply_iterate _ _ _ _ _ _

end Runtime

section Values

variable (stage : Stage) (names : String → String) (locals : Bindings)

noncomputable def sketchValue (sketch : Sketch) : Option Datum :=
  (sketch.expr (.ofApi {}) names).eval stage.host (locals ++ stage.outside)

variable {stage names locals} {reserved imported : List String}

theorem lookup_outside (clear : Clear reserved locals) {name : String} (member : name ∈ reserved) :
    (locals ++ stage.outside).lookup name = stage.outside.lookup name := by
  rw [List.lookup_append, clear name member]
  rfl

section Provided

variable (provides : Provides stage names reserved imported) (clear : Clear reserved locals)

include provides clear

theorem read_value (path : Path) :
    sketchValue stage names locals (.read path (scopeOf locals)) =
      some (stage.pathValue locals path) := by
  simp only [sketchValue, Sketch.expr, Environment.ofApi]
  by_cases known : path.head ∈ scopeOf locals
  -- A name in scope has a value, so the binder and the rendering go the same way.
  · have found : locals.lookup path.head ≠ none := fun unknown =>
      (lookup_eq_none_iff locals path.head).mp unknown known
    obtain ⟨value, bound⟩ := Option.ne_none_iff_exists'.mp found
    rw [componentBinder_local known, Expr.eval_members, Expr.eval_identifier, List.lookup_append,
      bound]
    simp [Stage.pathValue, bound]
  · have unbound := (lookup_eq_none_iff locals path.head).mpr known
    rw [componentBinder_member known, Expr.eval_members, Expr.eval_member, Expr.eval_identifier,
      lookup_outside clear provides.component.1, provides.component.2]
    simp [Stage.pathValue, unbound]

theorem call_value (primitive : Primitive) (arguments : List Sketch) :
    sketchValue stage names locals (.call primitive arguments) = (do
      (Datum.primitive primitive).apply stage.host
        (← arguments.mapM (sketchValue stage names locals))) :=
  call_eval ((lookup_outside clear provides.api.1).trans provides.api.2) primitive arguments

theorem ofValue_value (value : Value) :
    sketchValue stage names locals (Sketch.ofValue (scopeOf locals) value) =
      some (stage.valueOf locals value) := by
  cases value with
  | text value => exact Expr.eval_string _ _ _
  | number value => exact Expr.eval_number _ _ _
  | bound path => exact read_value provides clear path

theorem ofAttribute_value (value : Value) :
    sketchValue stage names locals (Sketch.ofAttribute (scopeOf locals) value) =
      some (stage.attributeOf locals value) := by
  rw [Sketch.ofAttribute_eq, Stage.attributeOf_eq]
  by_cases empty : value = .text ""
  · rw [if_pos empty, if_pos empty]
    exact Expr.eval_boolean _ _ _
  · rw [if_neg empty, if_neg empty]
    exact ofValue_value provides clear value

theorem ofTest_holds (condition : Condition) (known : Known (some condition)) :
    (sketchValue stage names locals (Sketch.ofTest (scopeOf locals) condition)).map Datum.truthy =
      some (stage.holds locals condition) := by
  obtain ⟨test, found⟩ := Option.isSome_iff_exists.mp (known condition rfl)
  have read := read_value provides clear condition.path
  simp only [Sketch.ofTest, Stage.holds, found]
  cases test with
  | truthy => rw [read]; rfl
  | falsy =>
    simp only [sketchValue, Sketch.expr, Expr.eval_not] at read ⊢
    rw [read]
    simp [Datum.truthy]
  | exactlyTrue =>
    simp only [sketchValue, Sketch.expr, Expr.eval_strictEqual, Expr.eval_boolean] at read ⊢
    rw [read]
    -- Composite values are not plain, so comparing them with true has an answer as well.
    cases stage.pathValue locals condition.path <;> simp [Datum.same, Datum.isPlain, Datum.truthy]

theorem gatedOn_nodes (condition : Option Condition) (known : Known condition) (sketch : Sketch) :
    (sketchValue stage names locals
        (Sketch.gatedOn (scopeOf locals) condition sketch)).map Datum.nodes =
      stage.gating locals condition ((sketchValue stage names locals sketch).map Datum.nodes) := by
  cases condition with
  | none => rfl
  | some condition =>
    have holds := ofTest_holds provides clear condition known
    obtain ⟨test, tested, truth⟩ := Option.map_eq_some_iff.mp holds
    simp only [sketchValue, Sketch.gatedOn, Sketch.gated, Sketch.expr, Expr.eval_conditional,
      Expr.eval_null, Stage.gating] at tested ⊢
    rw [tested, ← truth]
    cases truthy : test.truthy with
    | false => simp [truthy, Datum.nodes]
    | true => simp [truthy]

theorem iterate_value (loop : Loop) (sketch : Sketch) :
    sketchValue stage names locals
        (.iterate (.read loop.path (scopeOf locals)) loop.item loop.index sketch) = (do
      let items ← (stage.pathValue locals loop.path).items?
      let results ← items.zipIdx.mapM fun item =>
        sketchValue stage names (iteration loop item locals) sketch
      return .list (results.flatMap Datum.spread)) := by
  have read := read_value provides clear loop.path
  rw [sketchValue] at read
  rw [sketchValue, iterate_eval ((lookup_outside clear provides.api.1).trans provides.api.2), read]
  rfl

theorem repeatedOver_nodes (loop : Option Loop) (sketch : Sketch) :
    (sketchValue stage names locals
        (Sketch.repeatedOver (scopeOf locals) loop sketch)).map Datum.nodes =
      stage.repeating locals loop fun locals =>
        (sketchValue stage names locals sketch).map Datum.nodes := by
  cases loop with
  | none => rfl
  | some loop =>
    rw [Sketch.repeatedOver, iterate_value provides clear]
    simp only [Stage.repeating]
    cases (stage.pathValue locals loop.path).items? with
    | none => rfl
    | some items =>
      -- What the concatenated results show is what each of them shows, in turn.
      have shows := mapM_map_flatMap
        (fun item => sketchValue stage names (iteration loop item locals) sketch) Datum.nodes
        items.zipIdx
      calc
        _ = (items.zipIdx.mapM fun item =>
              sketchValue stage names (iteration loop item locals) sketch).map
                (·.flatMap Datum.nodes) := by
          simp only [Option.bind_eq_bind, Option.bind_some, Option.pure_def, Option.map_bind]
          rw [Option.map_eq_bind]
          refine congrArg _ (funext fun results => ?_)
          simp only [Function.comp_apply, Option.map_some, Datum.nodes_results]
        _ = _ := shows
        _ = _ := Option.map_eq_bind

theorem slot_nodes (name : String) (whole : Sketch) :
    (sketchValue stage names locals (.or (.slot name) whole)).map Datum.nodes =
      let projected := stage.slotSet.read name
      if projected.truthy then some projected.nodes
      else (sketchValue stage names locals whole).map Datum.nodes := by
  simp only [sketchValue, Sketch.expr, Environment.ofApi, RuntimeApi.slotContent, Expr.eval_or,
    Expr.eval_member, Expr.eval_identifier, lookup_outside clear provides.slotSet.1,
    provides.slotSet.2, Option.map_some]
  cases truthy : (stage.slotSet.read name).truthy with
  | false => simp [truthy]
  | true => simp [truthy]

end Provided

noncomputable def fieldValues (stage : Stage) (names : String → String) (locals : Bindings)
    (fields : List (String × Sketch)) : Option (List (String × Datum)) :=
  fields.mapM fun field => do return (field.1, ← sketchValue stage names locals field.2)

theorem fieldValues_append (first others : List (String × Sketch)) :
    fieldValues stage names locals (first ++ others) = (do
      return (← fieldValues stage names locals first) ++
        (← fieldValues stage names locals others)) :=
  List.mapM_append

theorem fieldValues_cons (field : String × Sketch) (rest : List (String × Sketch)) :
    fieldValues stage names locals (field :: rest) = (do
      let value ← sketchValue stage names locals field.2
      let values ← fieldValues stage names locals rest
      return (field.1, value) :: values) := by
  rw [fieldValues, List.mapM_cons]
  cases sketchValue stage names locals field.2 <;> rfl

theorem object_value (fields : List (String × Sketch)) :
    sketchValue stage names locals (.object fields) =
      (fieldValues stage names locals fields).map .record := by
  have properties := Sketch.exprProperties_map (.ofApi {}) names id fields
  rw [List.map_id] at properties
  simp only [sketchValue, Sketch.expr, properties, Expr.eval_object, List.mapM_map]
  exact Option.map_eq_bind.symm

theorem fieldValues_field {α : Type} {make : α → Sketch} {value : α → Datum} (name : String)
    (each : ∀ item, sketchValue stage names locals (make item) = some (value item))
    (item : Option α) :
    fieldValues stage names locals (Sketch.field name make item) =
      some (Stage.field name value item) := by
  cases item with
  | none => rfl
  | some item => simp [fieldValues, Sketch.field, Stage.field, each]

theorem fieldValues_map {α : Type} {make : α → String × Sketch} {value : α → Datum}
    (each : ∀ item, sketchValue stage names locals (make item).2 = some (value item))
    (items : List α) :
    fieldValues stage names locals (items.map make) =
      some (items.map fun item => ((make item).1, value item)) := by
  induction items with
  | nil => rfl
  | cons item rest ih =>
    rw [List.map_cons, fieldValues_cons, each, ih]
    rfl

theorem ofEntries_value {α : Type} {make : α → Sketch} {value : α → Datum}
    (each : ∀ item, sketchValue stage names locals (make item) = some (value item))
    (entries : Entries α) :
    sketchValue stage names locals (Sketch.ofEntries make entries) =
      some (Stage.recordOf value entries) := by
  have fields : fieldValues stage names locals
      (entries.map fun entry => (entry.1, make entry.2)) =
      some (entries.map fun entry => (entry.1, value entry.2)) :=
    fieldValues_map (fun entry => each entry.2) entries
  rw [Sketch.ofEntries, object_value, fields]
  rfl

theorem fieldValues_key (key : Option Expr) :
    fieldValues stage names locals (Sketch.field "key" .verbatim key) =
      stage.keyField locals key := by
  cases key with
  | none => rfl
  | some key =>
    simp only [fieldValues, Sketch.field, Stage.keyField, sketchValue, Sketch.expr,
      List.mapM_cons, List.mapM_nil]
    cases key.eval stage.host (locals ++ stage.outside) <;> rfl

section Provided

variable (provides : Provides stage names reserved imported) (clear : Clear reserved locals)

include provides clear

theorem ofHandlers_value (given : Nat) (handlers : Entries Path) :
    sketchValue stage names locals (Sketch.ofHandlers (scopeOf locals) given handlers) =
      some (Stage.recordOf (fun path => .handle (stage.pathValue locals path)) handlers) := by
  have handle (path : Path) (slot : Nat) :
      sketchValue stage names locals
          (.call .bind [.read path (scopeOf locals), .number (.ofUInt32 (.ofNat slot))]) =
        some (.handle (stage.pathValue locals path)) := by
    rw [call_value provides clear, List.mapM_cons, read_value provides clear]
    simp [sketchValue, Sketch.expr]
  have fields : fieldValues stage names locals
      ((handlers.zipIdx given).map fun entry =>
        (entry.1.1, .call .bind
          [.read entry.1.2 (scopeOf locals), .number (.ofUInt32 (.ofNat entry.2))])) =
      some ((handlers.zipIdx given).map fun entry =>
        (entry.1.1, .handle (stage.pathValue locals entry.1.2))) :=
    fieldValues_map (fun entry => handle entry.1.2 entry.2) _
  -- The slots are numbered in the expression alone.
  have unnumbered := congrArg (List.map fun entry : String × Path =>
    (entry.1, Datum.handle (stage.pathValue locals entry.2))) (List.zipIdx_map_fst given handlers)
  rw [List.map_map] at unnumbered
  rw [Sketch.ofHandlers, object_value, fields]
  exact congrArg (some <| Datum.record ·) unnumbered

theorem dataFields_values (given : Nat) (el : Element) :
    fieldValues stage names locals (Sketch.dataFields (scopeOf locals) given el) =
      stage.data locals el := by
  have value := ofValue_value provides clear
  have attr := ofAttribute_value provides clear
  have on (given : Bool) : sketchValue stage names locals (.boolean given) =
      some (.boolean given) := Expr.eval_boolean _ _ _
  simp only [Sketch.dataFields, fieldValues_append, fieldValues_key,
    fieldValues_field "className" value,
    fieldValues_field "classMap" (ofEntries_value fun _ => on _),
    fieldValues_field "style" (ofEntries_value value),
    fieldValues_field "attrs" (ofEntries_value attr),
    fieldValues_field "props" (ofEntries_value attr),
    fieldValues_field "on" (ofHandlers_value provides clear given)]
  unfold Stage.data
  cases stage.keyField locals (el.loop.bind Loop.key) <;> rfl

end Provided

noncomputable def shownAll (stage : Stage) (names : String → String) (locals : Bindings)
    (sketches : List Sketch) : Option (List Datum) :=
  (sketches.mapM (sketchValue stage names locals)).map (·.flatMap Datum.nodes)

theorem shownAll_singleton (sketch : Sketch) :
    shownAll stage names locals [sketch] =
      (sketchValue stage names locals sketch).map Datum.nodes := by
  rw [shownAll, List.mapM_cons, List.mapM_nil]
  cases sketchValue stage names locals sketch <;> simp

theorem shownAll_append (first others : List Sketch) :
    shownAll stage names locals (first ++ others) = (do
      return (← shownAll stage names locals first) ++ (← shownAll stage names locals others)) := by
  simp only [shownAll, List.mapM_append]
  cases first.mapM (sketchValue stage names locals) with
  | none => rfl
  | some values =>
    cases others.mapM (sketchValue stage names locals) with
    | none => rfl
    | some more => simp

theorem shownAll_cons (sketch : Sketch) (rest : List Sketch) :
    shownAll stage names locals (sketch :: rest) = (do
      return (← (sketchValue stage names locals sketch).map Datum.nodes) ++
        (← shownAll stage names locals rest)) := by
  rw [← shownAll_singleton]
  exact shownAll_append [sketch] rest

theorem array_nodes (sketches : List Sketch) :
    (sketchValue stage names locals (.array sketches)).map Datum.nodes =
      shownAll stage names locals sketches := by
  simp only [sketchValue, Sketch.expr, Sketch.exprs_eq_map, Expr.eval_array, List.mapM_map,
    Option.map_map, shownAll]
  refine congrArg (Option.map · _) (funext fun values => ?_)
  exact Datum.nodes_list values

theorem single_nodes (sketches : List Sketch) :
    (sketchValue stage names locals (Sketch.single sketches)).map Datum.nodes =
      shownAll stage names locals sketches := by
  match sketches with
  | [] => exact array_nodes []
  | [only] => exact (shownAll_singleton only).symm
  | first :: second :: rest => exact array_nodes _

section Provided

variable (provides : Provides stage names reserved imported) (clear : Clear reserved locals)

include provides clear

theorem flatten_nodes (sketch : Sketch) :
    (sketchValue stage names locals (.call .flatten [sketch])).map Datum.nodes =
      (sketchValue stage names locals sketch).map Datum.nodes := by
  rw [call_value provides clear, List.mapM_cons, List.mapM_nil]
  cases sketchValue stage names locals sketch with
  | none => rfl
  | some value => simp [Datum.nodes_list, Datum.nodes_leaves]

theorem whole_nodes (children : List Node) (lowered : List Sketch) :
    (sketchValue stage names locals (SketchedChildren.of children lowered).whole).map Datum.nodes =
      shownAll stage names locals lowered := by
  unfold SketchedChildren.of
  split
  · exact array_nodes lowered
  · split
    · exact (shownAll_singleton _).symm
    · exact (flatten_nodes provides clear _).trans (array_nodes lowered)

theorem gatedOn_shownAll (condition : Option Condition) (known : Known condition)
    (sketches : List Sketch) :
    shownAll stage names locals (sketches.map (Sketch.gatedOn (scopeOf locals) condition)) =
      stage.gating locals condition (shownAll stage names locals sketches) := by
  have gated (sketch : Sketch) := gatedOn_nodes provides clear condition known sketch
  induction sketches with
  | nil =>
    cases condition with
    | none => rfl
    | some condition => simp [Stage.gating, shownAll]
  | cons sketch rest ih =>
    rw [List.map_cons, shownAll_cons, gated, ih, shownAll_cons]
    cases condition with
    | none => rfl
    | some condition =>
      simp only [Stage.gating]
      split
      · rfl
      · rfl

end Provided

def Inside (loop : Option Loop) (locals inner : Bindings) : Prop :=
  match loop with
  | none => inner = locals
  | some loop => ∃ item, inner = iteration loop item locals

theorem Inside.scopeOf {loop : Option Loop} {inner : Bindings} (inside : Inside loop locals inner) :
    scopeOf inner = innerScope (scopeOf locals) loop := by
  cases loop with
  | none => rw [inside, innerScope_none]
  | some loop =>
    obtain ⟨item, rfl⟩ := inside
    exact scopeOf_iteration loop item locals

theorem Inside.clear {loop : Option Loop} {inner : Bindings} (inside : Inside loop locals inner)
    (clear : Clear reserved locals)
    (apart : ∀ name ∈ (loop.map Loop.names).getD [], name ∉ reserved) : Clear reserved inner := by
  cases loop with
  | none => exact inside ▸ clear
  | some loop =>
    obtain ⟨item, rfl⟩ := inside
    exact clear.iteration apart item

theorem repeating_congr {loop : Option Loop} {first second : Bindings → Option (List Datum)}
    (same : ∀ inner, Inside loop locals inner → first inner = second inner) :
    stage.repeating locals loop first = stage.repeating locals loop second := by
  cases loop with
  | none => exact same locals rfl
  | some loop =>
    have each (item : Datum × Nat) := same (iteration loop item locals) ⟨item, rfl⟩
    simp only [iteration] at each
    simp only [Stage.repeating, each]

section Provided

variable (provides : Provides stage names reserved imported) (clear : Clear reserved locals)
  {el : Element} (known : Known el.condition)
  (apart : ∀ name ∈ (el.loop.map Loop.names).getD [], name ∉ reserved)

include provides clear known apart

theorem directed_nodes (sketch : Sketch) :
    (sketchValue stage names locals (Sketch.repeatedOver (scopeOf locals) el.loop
        (Sketch.gatedOn (innerScope (scopeOf locals) el.loop) el.condition sketch))).map
          Datum.nodes =
      stage.repeating locals el.loop fun inner => stage.gating inner el.condition
        ((sketchValue stage names inner sketch).map Datum.nodes) := by
  rw [repeatedOver_nodes provides clear]
  refine repeating_congr fun inner inside => ?_
  rw [← inside.scopeOf]
  exact gatedOn_nodes provides (inside.clear clear apart) el.condition known sketch

theorem template_nodes (children : SketchedChildren) :
    shownAll stage names locals
        (children.template (innerScope (scopeOf locals) el.loop) (scopeOf locals) el) =
      stage.repeating locals el.loop fun inner => stage.gating inner el.condition
        ((sketchValue stage names inner children.whole).map Datum.nodes) := by
  cases children with
  | joined sketch =>
    rw [SketchedChildren.template, shownAll_singleton]
    exact directed_nodes provides clear known apart sketch
  | separate sketches =>
    -- Gated one by one, children show what they show when they are gated together.
    have gated {inner : Bindings} (inside : Inside el.loop locals inner) :
        shownAll stage names inner (sketches.map
          (Sketch.gatedOn (innerScope (scopeOf locals) el.loop) el.condition)) =
        stage.gating inner el.condition
          ((sketchValue stage names inner (.array sketches)).map Datum.nodes) := by
      rw [← inside.scopeOf, array_nodes]
      exact gatedOn_shownAll provides (inside.clear clear apart) el.condition known sketches
    simp only [SketchedChildren.template, SketchedChildren.whole]
    cases loop : el.loop with
    | none =>
      rw [loop] at gated
      have shown := gated rfl
      cases condition : el.condition with
      | none =>
        rw [condition] at shown
        simpa [shownAll_singleton, array_nodes, Stage.repeating] using shown
      | some condition' =>
        rw [condition] at shown
        exact shown
    | some loop' =>
      rw [loop] at gated
      simp only [shownAll_singleton]
      rw [repeatedOver_nodes provides clear]
      refine repeating_congr fun inner inside => ?_
      rw [single_nodes]
      exact gated inside

end Provided

theorem field_apart {α : Type} {name : String} (given : name ≠ "slotset") (make : α → Datum)
    (item : Option α) : ∀ field ∈ Stage.field name make item, field.1 ≠ "slotset" := by
  intro field member
  cases item with
  | none => cases member
  | some item =>
    obtain rfl := List.mem_singleton.mp member
    exact given

theorem keyField_apart {key : Option Expr} {fields : List (String × Datum)}
    (valued : stage.keyField locals key = some fields) :
    ∀ field ∈ fields, field.1 ≠ "slotset" := by
  cases key with
  | none =>
    cases valued
    intro field member
    cases member
  | some key =>
    obtain ⟨value, -, same⟩ := Option.bind_eq_some_iff.mp valued
    cases same
    exact field_apart (by decide) id (some value)

theorem data_apart {el : Element} {fields : List (String × Datum)}
    (valued : stage.data locals el = some fields) : ∀ field ∈ fields, field.1 ≠ "slotset" := by
  obtain ⟨key, keyed, same⟩ := Option.bind_eq_some_iff.mp valued
  cases same
  intro field member
  simp only [List.mem_append] at member
  rcases member with (((((member | member) | member) | member) | member) | member) | member
  · exact field_apart (by decide) _ _ field member
  · exact field_apart (by decide) _ _ field member
  · exact field_apart (by decide) _ _ field member
  · exact field_apart (by decide) _ _ field member
  · exact field_apart (by decide) _ _ field member
  · exact keyField_apart keyed field member
  · exact field_apart (by decide) _ _ field member

theorem component_value (provides : Provides stage names reserved imported)
    (clear : Clear reserved locals) {component : String} (member : component ∈ imported) :
    sketchValue stage names locals (.component component) = some (.component component) := by
  have provided := provides.imports component member
  rw [sketchValue, Sketch.expr, Expr.eval_identifier, lookup_outside clear provided.1, provided.2]

section Provided

variable (provides : Provides stage names reserved imported) (clear : Clear reserved locals)

include provides clear

theorem element_nodes (given : Nat) (el : Element) (whole : Sketch) :
    (sketchValue stage names locals (.call .element
        [.string el.tag, .object (Sketch.dataFields (scopeOf locals) given el), whole])).map
          Datum.nodes = (do
      let data ← stage.data locals el
      let children ← (sketchValue stage names locals whole).map Datum.nodes
      return [.element (.string el.tag) (.record data) (.list children)]) := by
  have tag : sketchValue stage names locals (.string el.tag) = some (.string el.tag) :=
    Expr.eval_string _ _ _
  rw [call_value provides clear]
  simp only [List.mapM_cons, List.mapM_nil, tag, object_value, dataFields_values provides clear]
  cases stage.data locals el with
  | none => rfl
  | some data =>
    cases sketchValue stage names locals whole with
    | none => rfl
    | some value => simp [Datum.nodes]

theorem customElement_nodes (given : Nat) (el : Element) (component : String)
    (member : component ∈ imported) (bare : Bool) (slots : List (String × Sketch)) :
    (sketchValue stage names locals (.call .customElement
        [.string el.tag, .component component,
          .object (Sketch.dataFields (scopeOf locals) given el ++
            if bare then [] else [("slotset", .object slots)])])).map Datum.nodes = (do
      let data ← stage.data locals el
      let slots ← if bare then some [] else
        (fieldValues stage names locals slots).map Datum.projectedSlots
      let slotSet := if bare then [] else [("slotset", .record slots)]
      return [.custom (.string el.tag) (.component component) (.record (data ++ slotSet))]) := by
  have tag : sketchValue stage names locals (.string el.tag) = some (.string el.tag) :=
    Expr.eval_string _ _ _
  rw [call_value provides clear]
  simp only [List.mapM_cons, List.mapM_nil, tag, object_value, fieldValues_append,
    dataFields_values provides clear, component_value provides clear member]
  cases valued : stage.data locals el with
  | none => rfl
  | some data =>
    -- The data of the element itself holds nothing that could be taken for projected content.
    have kept := Datum.settledFields_eq_self (data_apart valued)
    cases bare with
    | true => simp [fieldValues, Datum.nodes, Datum.settled, kept]
    | false =>
      have field : fieldValues stage names locals [("slotset", .object slots)] =
          (fieldValues stage names locals slots).map fun slots => [("slotset", .record slots)] := by
        rw [fieldValues, List.mapM_cons, List.mapM_nil, object_value]
        cases fieldValues stage names locals slots <;> rfl
      simp only [Bool.false_eq_true, if_false, field]
      cases fieldValues stage names locals slots with
      | none => rfl
      | some slots =>
        simp [Datum.nodes, Datum.settled, Datum.settledFields_append, kept, Datum.settledFields,
          Datum.projected]

end Provided

end Values

end Lowering

end RenderCompiler
