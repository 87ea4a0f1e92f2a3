import Mathlib.Data.List.Nodup
import RenderCompiler.Proofs.Lowering.Handlers
import RenderCompiler.Proofs.Lowering.Places
import RenderCompiler.Proofs.Template.Decoding

set_option autoImplicit false

namespace RenderCompiler

open Lowering

namespace Element

def named {α : Type} (name : String) (value : Option α) : List String :=
  if value.isSome then [name] else []

def present (el : Element) : List String :=
  named "className" el.className ++ named "classMap" el.classMap ++ named "style" el.style ++
    named "attrs" el.attrs ++ named "props" el.props ++ named "key" (el.loop.bind Loop.key) ++
    named "on" el.on

theorem named_sublist {α : Type} (name : String) (value : Option α) :
    (named name value).Sublist [name] := by
  cases value with
  | none => exact List.nil_sublist _
  | some value => exact List.Sublist.refl _

theorem nodup_present (el : Element) : (el.present ++ ["slotset"]).Nodup := by
  have each {α : Type} := @named_sublist α
  have parts : (el.present ++ ["slotset"]).Sublist (["className"] ++ ["classMap"] ++ ["style"] ++
      ["attrs"] ++ ["props"] ++ ["key"] ++ ["on"] ++ ["slotset"]) :=
    (((((((each _ _).append (each _ _)).append (each _ _)).append (each _ _)).append
      (each _ _)).append (each _ _)).append (each _ _)).append (List.Sublist.refl _)
  exact parts.nodup (by decide)

structure ListsOnce (el : Element) : Prop where
  classMap : ∀ classes ∈ el.classMap, classes.Distinct
  style : ∀ rules ∈ el.style, rules.Distinct
  attrs : ∀ attributes ∈ el.attrs, attributes.Distinct
  props : ∀ properties ∈ el.props, properties.Distinct
  on : ∀ handlers ∈ el.on, handlers.Distinct

theorem IsProper.listsOnce {el : Element} (proper : el.IsProper) : el.ListsOnce where
  classMap classes given := (proper.classMap classes given).1
  style rules given := (proper.style rules given).1
  attrs attributes given := (proper.attrs attributes given).1
  props properties given := (proper.props properties given).1
  on handlers given := (proper.on handlers given).1

end Element

def Node.ListsOnce : Node → Prop
  | .element el _ => el.ListsOnce
  | .custom el _ _ content => el.ListsOnce ∧ Entries.Distinct content
  | .text _ | .template _ _ | .slot _ _ _ => True

theorem Node.IsProper.listsOnce {root : Node} (proper : root.IsProper) :
    ∀ node ∈ root.reached, node.ListsOnce := by
  intro node member
  have below := proper.reached ((mem_reached_iff _ _).mp member)
  cases node with
  | text | template | slot => trivial
  | element el children => exact below.1.listsOnce
  | custom el children component content => exact ⟨below.1.listsOnce, below.2.2.1⟩

namespace Value

variable (env : Environment) (scope : Scope)

def expr : Value → Expr
  | .text value => .string value
  | .number value => .number value
  | .bound path => env.binder path scope

def flagExpr (value : Value) : Expr :=
  if value = .text "" then .boolean true else value.expr env scope

theorem expr_eq (names : String → String) (value : Value) :
    (Sketch.ofValue scope value).expr env names = value.expr env scope := by
  cases value <;> rfl

theorem flagExpr_eq (names : String → String) (value : Value) :
    (Sketch.ofAttribute scope value).expr env names = value.flagExpr env scope := by
  rw [Sketch.ofAttribute_eq, flagExpr]
  split
  · rfl
  · exact expr_eq env scope names value

end Value

def Entries.expr {α : Type} (make : α → Expr) (entries : Entries α) : Expr :=
  .object (entries.map fun entry => (entry.1, make entry.2))

-- The properties are what an element carries in a scope, its handlers in the slots from a given one
-- on.
structure Element.IsBag (env : Environment) (scope : Scope) (given : Nat) (el : Element)
    (properties : Properties) : Prop where
  names : properties.map (·.1) = el.present
  className : ∀ value ∈ el.className, ("className", value.expr env scope) ∈ properties
  classMap : ∀ classes ∈ el.classMap,
    ("classMap", classes.expr fun _ => .boolean true) ∈ properties
  style : ∀ rules ∈ el.style, ("style", rules.expr (Value.expr env scope)) ∈ properties
  attrs : ∀ entries ∈ el.attrs, ("attrs", entries.expr (Value.flagExpr env scope)) ∈ properties
  props : ∀ entries ∈ el.props, ("props", entries.expr (Value.flagExpr env scope)) ∈ properties
  key : ∀ key ∈ el.loop.bind Loop.key, ("key", key) ∈ properties
  on : ∀ handlers ∈ el.on, ("on", .object ((handlers.zipIdx given).map fun handler =>
    (handler.1.1, env.api.bindCall (env.binder handler.1.2 scope) (.ofNat handler.2)))) ∈ properties

namespace Sketch

section Bags

variable (env : Environment) (names : String → String)

theorem names_field {α : Type} (name : String) (make : α → Sketch) (value : Option α) :
    (field name make value).map (·.1) = Element.named name value := by
  cases value <;> rfl

theorem names_dataFields (scope : Scope) (given : Nat) (el : Element) :
    (dataFields scope given el).map (·.1) = el.present := by
  simp only [dataFields, List.map_append, names_field, Element.present]

theorem names_exprProperties (fields : List (String × Sketch)) :
    (exprProperties env names fields).map (·.1) = fields.map (·.1) := by
  induction fields with
  | nil => rfl
  | cons field rest ih => simp [exprProperties, ih]

theorem names_sketchesContent (content : List (String × List Node)) (scope : Scope)
    (given : Nat) :
    (Node.sketchesContent scope given content).map (·.1) = content.map (·.1) := by
  induction content generalizing given with
  | nil => rfl
  | cons slot rest ih => simp [Node.sketchesContent, ih]

theorem expr_ofEntries {α : Type} {make : α → Sketch} {written : α → Expr}
    (each : ∀ value, (make value).expr env names = written value) (entries : Entries α) :
    (ofEntries make entries).expr env names = entries.expr written := by
  simp only [ofEntries, expr, exprProperties_map, each, Entries.expr]

theorem expr_ofHandlers (scope : Scope) (given : Nat) (handlers : Entries Path) :
    (ofHandlers scope given handlers).expr env names =
      .object ((handlers.zipIdx given).map fun handler =>
        (handler.1.1, env.api.bindCall (env.binder handler.1.2 scope) (.ofNat handler.2))) := by
  simp only [ofHandlers, expr, exprProperties_map]
  rfl

theorem mem_field {α : Type} {name : String} {make : α → Sketch} {given : Option α} {value : α}
    (present : value ∈ given) :
    (name, (make value).expr env names) ∈ exprProperties env names (field name make given) := by
  rw [Option.mem_def.mp present]
  exact List.mem_singleton.mpr rfl

theorem isBag_dataFields (scope : Scope) (given : Nat) (el : Element) :
    el.IsBag env scope given (exprProperties env names (dataFields scope given el)) := by
  have value := Value.expr_eq env scope names
  have flag := Value.flagExpr_eq env scope names
  have truth (_ : Value) : (Sketch.boolean true).expr env names = .boolean true := rfl
  have copied (key : Expr) : (Sketch.verbatim key).expr env names = key := rfl
  constructor
  · rw [names_exprProperties, names_dataFields]
  all_goals simp only [dataFields, exprProperties_append, List.mem_append]
  · intro name present
    rw [← value]
    simp only [mem_field env names present, true_or]
  · intro classes present
    rw [← expr_ofEntries env names truth]
    simp only [mem_field env names present, true_or, or_true]
  · intro rules present
    rw [← expr_ofEntries env names value]
    simp only [mem_field env names present, true_or, or_true]
  · intro attributes present
    rw [← expr_ofEntries env names flag]
    simp only [mem_field env names present, true_or, or_true]
  · intro properties present
    rw [← expr_ofEntries env names flag]
    simp only [mem_field env names present, true_or, or_true]
  · intro key present
    rw [← copied key]
    simp only [mem_field env names present, true_or, or_true]
  · intro handlers present
    rw [← expr_ofHandlers env names]
    simp only [mem_field env names present, or_true]

def maps (scope : Scope) (given : Nat) (el : Element) : List Sketch :=
  (el.classMap.map (ofEntries fun _ => .boolean true)).toList ++
    (el.style.map (ofEntries (ofValue scope))).toList ++
    (el.attrs.map (ofEntries (ofAttribute scope))).toList ++
    (el.props.map (ofEntries (ofAttribute scope))).toList ++
    (el.on.map (ofHandlers scope given)).toList

omit env names in
theorem fieldBuilt_plain {α : Type} (name : String) {make : α → Sketch} (value : Option α)
    (each : ∀ value, (make value).built = []) : fieldBuilt (field name make value) = [] := by
  cases value <;> simp [field, each]

omit env names in
theorem fieldBuilt_map {α : Type} (name : String) {make : α → Sketch} (value : Option α)
    (each : ∀ value, (make value).built = [make value]) :
    fieldBuilt (field name make value) = (value.map make).toList := by
  cases value <;> simp [field, each]

omit env names in
theorem fieldBuilt_dataFields (scope : Scope) (given : Nat) (el : Element) :
    fieldBuilt (dataFields scope given el) = maps scope given el := by
  have truth (_ : Value) : (Sketch.boolean true).built = [] := rfl
  have copied (key : Expr) : (Sketch.verbatim key).built = [] := rfl
  have className := fieldBuilt_plain "className" el.className (built_ofValue scope)
  have classMap := fieldBuilt_map "classMap" el.classMap (built_ofEntries · truth)
  have style := fieldBuilt_map "style" el.style (built_ofEntries · (built_ofValue scope))
  have attrs := fieldBuilt_map "attrs" el.attrs (built_ofEntries · (built_ofAttribute scope))
  have props := fieldBuilt_map "props" el.props (built_ofEntries · (built_ofAttribute scope))
  have key := fieldBuilt_plain "key" (el.loop.bind Loop.key) copied
  have on := fieldBuilt_map "on" el.on (built_ofHandlers scope given)
  simp only [fieldBuilt_eq_flatMap, dataFields, List.flatMap_append] at *
  simp only [className, classMap, style, attrs, props, key, on, List.append_nil, List.nil_append,
    maps]

def IsObject (listed : Prop) (sketch : Sketch) : Prop :=
  ∃ fields, sketch = .object fields ∧ (listed → (fields.map (·.1)).Nodup)

omit env names in
theorem isObject_ofEntries {α : Type} (make : α → Sketch) {entries : Entries α} {listed : Prop}
    (distinct : listed → entries.Distinct) : (ofEntries make entries).IsObject listed := by
  refine ⟨_, rfl, fun once => ?_⟩
  rw [List.map_map]
  exact distinct once

omit env names in
theorem isObject_ofHandlers (scope : Scope) (given : Nat) {handlers : Entries Path} {listed : Prop}
    (distinct : listed → handlers.Distinct) :
    (ofHandlers scope given handlers).IsObject listed := by
  refine ⟨_, rfl, fun once => ?_⟩
  -- The events are those of the handlers, however these are numbered.
  have unnumbered := congrArg (List.map Prod.fst) (List.zipIdx_map_fst given handlers)
  rw [List.map_map] at unnumbered ⊢
  exact unnumbered ▸ distinct once

omit env names in
theorem isObject_maps (scope : Scope) (given : Nat) (el : Element) :
    ∀ sketch ∈ maps scope given el, sketch.IsObject el.ListsOnce := by
  intro sketch member
  simp only [maps, List.mem_append, Option.mem_toList, Option.map_eq_some_iff] at member
  rcases member with (((member | member) | member) | member) | member <;>
    obtain ⟨entries, present, rfl⟩ := member
  · exact isObject_ofEntries _ fun once => once.classMap entries present
  · exact isObject_ofEntries _ fun once => once.style entries present
  · exact isObject_ofEntries _ fun once => once.attrs entries present
  · exact isObject_ofEntries _ fun once => once.props entries present
  · exact isObject_ofHandlers scope given fun once => once.on entries present

end Bags

end Sketch

namespace Place

/-- The expression is the call that builds what stands in the place: it passes on a bag with all
that the element carries, and with the content of a custom element if there is any. -/
def Builds (env : Environment) (place : Place) (expr : Expr) : Prop :=
  match place.node with
  | .element el children => ∃ properties whole,
      el.IsBag env place.inner (place.given + handlerTotal (Node.reachedAll children)) properties ∧
      expr = env.api.elementCall el.tag (.object properties) whole
  | .custom el _ _ content => ∃ properties slots constructor,
      el.IsBag env place.inner place.given properties ∧ slots.map (·.1) = content.map (·.1) ∧
      expr = env.api.customElementCall el.tag constructor (.object
        (properties ++ if content.isEmpty then [] else [("slotset", .object slots)]))
  | .text _ | .template _ _ | .slot _ _ _ => False

theorem slotSet_custom (el : Element) (children : List Node) (component : String)
    (content : List (String × List Node)) (scope : Scope) (given : Nat) :
    let place : Place := ⟨.custom el children component content, scope, given⟩
    place.slotSet = if content.isEmpty then [] else [("slotset", .object place.slots)] := by
  simp only [slotSet, slots, Node.sketchesContent_isEmpty]

theorem call_builds (env : Environment) (names : String → String) {place : Place} {call : Sketch}
    (built : place.call? = some call) : place.Builds env (call.expr env names) := by
  obtain ⟨node, scope, given⟩ := place
  cases node with
  | text | template | slot => cases built
  | element el children =>
    cases built
    exact ⟨_, _, Sketch.isBag_dataFields env names _ _ el, rfl⟩
  | custom el children component content =>
    cases built
    refine ⟨_, Sketch.exprProperties env names
      (slots ⟨.custom el children component content, scope, given⟩), .identifier (names component),
      Sketch.isBag_dataFields env names _ _ el, ?_, ?_⟩
    · rw [Sketch.names_exprProperties]
      exact Sketch.names_sketchesContent content _ _
    · rw [slotSet_custom]
      cases content <;> simp [Sketch.expr, Sketch.exprs, Sketch.exprProperties_append,
        Sketch.exprProperties, RuntimeApi.customElementCall] <;> rfl

theorem carried_iff (place : Place) : place.node.carrier?.isSome = place.call?.isSome := by
  obtain ⟨node, scope, given⟩ := place
  cases node <;> rfl

theorem slotSet_names (place : Place) : (place.slotSet.map (·.1)).Sublist ["slotset"] := by
  unfold slotSet
  split
  · exact List.nil_sublist _
  · exact List.Sublist.refl _

theorem nodup_bag (place : Place) : ((place.dataFields ++ place.slotSet).map (·.1)).Nodup := by
  have carried (el : Element) (scope : Scope) (given : Nat) :
      ((Sketch.dataFields scope given el ++ place.slotSet).map (·.1)).Nodup := by
    rw [List.map_append, Sketch.names_dataFields]
    exact el.nodup_present.sublist ((List.Sublist.refl _).append place.slotSet_names)
  obtain ⟨node, scope, given⟩ := place
  cases node with
  | text | template | slot => exact List.nodup_nil
  | element | custom => exact carried _ _ _

theorem isObject_slotSet (place : Place) :
    ∀ sketch ∈ place.slotSet.map (·.2), sketch.IsObject place.node.ListsOnce := by
  intro sketch member
  obtain ⟨node, scope, given⟩ := place
  cases node with
  | text | template | slot | element => cases member
  | custom el children component content =>
    rw [slotSet_custom] at member
    split at member
    · cases member
    · obtain rfl := List.mem_singleton.mp member
      refine ⟨_, rfl, fun once => ?_⟩
      rw [slots, Sketch.names_sketchesContent]
      exact once.2

theorem isObject_objects (place : Place) :
    ∀ sketch ∈ place.objects, sketch.IsObject place.node.ListsOnce := by
  simp only [objects, List.forall_mem_cons, List.mem_append, or_imp, forall_and]
  refine ⟨⟨_, rfl, fun _ => place.nodup_bag⟩, ?_, place.isObject_slotSet⟩
  obtain ⟨node, scope, given⟩ := place
  cases node with
  | text | template | slot =>
    intro sketch member
    cases member
  | element el children =>
    rw [dataFields, Sketch.fieldBuilt_dataFields]
    exact Sketch.isObject_maps _ _ el
  | custom el children component content =>
    rw [dataFields, Sketch.fieldBuilt_dataFields]
    intro sketch member
    obtain ⟨fields, same, distinct⟩ := Sketch.isObject_maps _ _ el sketch member
    exact ⟨fields, same, fun once => distinct once.1⟩

theorem built_calls (place : Place) : place.built.filter Sketch.isCall = place.call?.toList := by
  have objects : place.objects.filter Sketch.isCall = [] := by
    apply List.filter_eq_nil_iff.mpr
    intro sketch member
    obtain ⟨fields, rfl, -⟩ := place.isObject_objects sketch member
    exact Bool.false_ne_true
  unfold built
  cases built : place.call? with
  | none => rfl
  | some call =>
    have isCall : call.isCall = true := by
      obtain ⟨node, scope, given⟩ := place
      cases node <;> cases built <;> rfl
    rw [List.filter_cons_of_pos isCall, objects]
    rfl

end Place

namespace Lowering

variable (env : Environment)

theorem buildCalls_perm (root : Node) (scope : Scope) (given : Nat) :
    (root.sketch scope given).buildCalls.Perm
      ((root.places scope given).filterMap Place.call?) := by
  rw [List.filterMap_eq_flatMap_toList, Sketch.buildCalls]
  simp only [← Place.built_calls]
  rw [← List.filter_flatMap]
  exact (root.sketch_built scope given).filter _

theorem calls_build (names : String → String) (places : List Place) :
    List.Forall₂ (Place.Builds env) (places.filter fun place => place.node.carrier?.isSome)
      ((places.filterMap Place.call?).map (Sketch.expr env names)) := by
  induction places with
  | nil => exact .nil
  | cons place rest ih =>
    cases built : place.call? with
    | none =>
      rw [List.filter_cons_of_neg (by simp [Place.carried_iff, built]),
        List.filterMap_cons_none built]
      exact ih
    | some call =>
      rw [List.filter_cons_of_pos (by simp [Place.carried_iff, built]),
        List.filterMap_cons_some built, List.map_cons]
      exact .cons (place.call_builds env names built) ih

theorem objects_distinct {root : Node} (once : ∀ node ∈ root.reached, node.ListsOnce)
    (scope : Scope) (given : Nat) :
    ∀ fields ∈ (root.sketch scope given).objects, (fields.map (·.1)).Nodup := by
  intro fields member
  obtain ⟨sketch, among, same⟩ := List.mem_filterMap.mp member
  obtain ⟨place, reached, built⟩ :=
    List.mem_flatMap.mp ((root.sketch_built scope given).mem_iff.mp among)
  have lists : place.node.ListsOnce := by
    apply once
    rw [← root.places_nodes scope given]
    exact List.mem_map_of_mem reached
  unfold Place.built at built
  split at built
  next call found =>
    rcases List.mem_cons.mp built with rfl | inside
    · obtain ⟨node, scope, given⟩ := place
      cases node <;> cases found <;> cases same
    · obtain ⟨known, rfl, distinct⟩ := place.isObject_objects sketch inside
      cases same
      exact distinct lists
  next => cases built

/-- No object of a document that is read from text has a key twice, whatever the text holds. -/
theorem objects_distinct_of_run {text : String} {document : Document}
    (read : Decoder.document.run text = .ok document) :
    ∀ fields ∈ (document.root.sketch [] 0).objects, (fields.map (·.1)).Nodup :=
  objects_distinct (Decoder.isProper_run read).listsOnce [] 0

/-- Every element and custom element that is lowered is built by one call, whose bag is exact, and
nothing else is built. Where the maps list each key once, so do all objects. -/
theorem bags_exact {scope : Scope} {root : Node} {start finish : State} {expr : Expr}
    (ran : (lowerTree env scope root).run.run start = (.ok expr, finish)) :
    expr = (root.sketch scope start.slots).expr env finish.imports.nameOf ∧
    (root.places scope start.slots).map Place.node = root.reached ∧
    (∃ calls,
      ((root.sketch scope start.slots).buildCalls.map
        (Sketch.expr env finish.imports.nameOf)).Perm calls ∧
      List.Forall₂ (Place.Builds env)
        ((root.places scope start.slots).filter fun place => place.node.carrier?.isSome) calls) ∧
    ((∀ node ∈ root.reached, node.ListsOnce) →
      ∀ fields ∈ (root.sketch scope start.slots).objects, (fields.map (·.1)).Nodup) := by
  obtain ⟨written, -, imported⟩ := lowerTree_ran env ran
  rw [← imported] at written
  have placed := root.places_nodes scope start.slots
  have perm := (buildCalls_perm root scope start.slots).map (Sketch.expr env finish.imports.nameOf)
  have builds := calls_build env finish.imports.nameOf (root.places scope start.slots)
  exact ⟨written, placed, ⟨_, perm, builds⟩, fun once => objects_distinct once scope start.slots⟩

def row : Node :=
  .element { tag := "tr"
             loop := some { path := ⟨"rows", []⟩, key := some (.identifier "item") }
             className := some (.text "row")
             classMap := some [("odd", .bound ⟨"item", ["odd"]⟩)]
             style := some [("color", .text "")]
             attrs := some [("hidden", .text "")]
             props := some [("title", .bound ⟨"item", ["title"]⟩)]
             on := some [("click", ⟨"open", []⟩)] } []

theorem row_bag :
    row.ListsOnce ∧ ∃ expr finish properties whole,
      (lowerTree (.ofApi {}) [] row).run.run {} = (.ok expr, finish) ∧
      (row.sketch [] 0).buildCalls.map (Sketch.expr (.ofApi {}) finish.imports.nameOf) =
        [RuntimeApi.elementCall {} "tr" (.object properties) whole] ∧
      properties.map (·.1) = ["className", "classMap", "style", "attrs", "props", "key", "on"] ∧
      ("style", .object [("color", .string "")]) ∈ properties ∧
      ("attrs", .object [("hidden", .boolean true)]) ∈ properties ∧
      ∀ fields ∈ (row.sketch [] 0).objects, (fields.map (·.1)).Nodup := by
  have once : row.ListsOnce := by
    constructor <;> rintro entries ⟨⟩ <;> exact List.nodup_singleton _
  have ran : (lowerTree (.ofApi {}) [] row).run.run {} = (.ok _, _) := rfl
  obtain ⟨-, -, ⟨calls, perm, built⟩, distinct⟩ := bags_exact (.ofApi {}) ran
  cases built with
  | cons builds none =>
    cases none
    obtain ⟨properties, whole, bag, rfl⟩ := builds
    refine ⟨once, _, _, properties, whole, ran, List.perm_singleton.mp perm, bag.names,
      bag.style _ rfl, bag.attrs _ rfl, distinct ?_⟩
    intro node member
    obtain rfl := List.mem_singleton.mp member
    exact once

end Lowering

end RenderCompiler
