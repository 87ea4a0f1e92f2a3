import RenderCompiler.Proofs.Lowering.Values

set_option autoImplicit false

namespace RenderCompiler

namespace Lowering

section Nodes

structure Meaningful (reserved : List String) (nodes : List Node) : Prop where
  known : unknownModifiers nodes = []
  unlooped : slotLoops nodes = []
  apart : ∀ name ∈ localNames nodes, name ∉ reserved

theorem Meaningful.append {reserved : List String} {nodes others : List Node}
    (meaningful : Meaningful reserved (nodes ++ others)) :
    Meaningful reserved nodes ∧ Meaningful reserved others := by
  obtain ⟨known, unlooped, apart⟩ := meaningful
  rw [unknownModifiers_append, List.append_eq_nil_iff] at known
  rw [slotLoops_append, List.append_eq_nil_iff] at unlooped
  rw [localNames_append] at apart
  exact ⟨⟨known.1, unlooped.1, fun name member => apart name (List.mem_append_left _ member)⟩,
    ⟨known.2, unlooped.2, fun name member => apart name (List.mem_append_right _ member)⟩⟩

theorem Meaningful.gate {reserved : List String} {node : Node}
    (meaningful : Meaningful reserved [node]) : Known node.gate? := by
  have known := meaningful.known
  rw [unknownModifiers_singleton, Option.toList_eq_nil_iff] at known
  exact known_of_unknownModifier? known

theorem Meaningful.loop {reserved : List String} {node : Node}
    (meaningful : Meaningful reserved [node]) : ∀ name ∈ node.loopNames, name ∉ reserved := by
  have apart := meaningful.apart
  rwa [localNames_singleton] at apart

variable {stage : Stage} {names : String → String} {reserved : List String}

mutual

-- The induction is on the node, with any values for the loop names around it: a loop changes them,
-- and its body is shown with the new ones.
theorem sketches_shown (node : Node) (locals : Bindings) (given : Nat)
    (meaningful : Meaningful reserved node.reached)
    (provides : Provides stage names reserved (components node.reached))
    (clear : Clear reserved locals) :
    shownAll stage names locals (node.sketches (scopeOf locals) given) =
      stage.render locals node := by
  cases node with
  | text value =>
    rw [Node.sketches, Stage.render, shownAll_singleton, call_value provides clear,
      List.mapM_cons, List.mapM_nil, ofValue_value provides clear]
    simp [Datum.nodes]
  | element el children =>
    rw [Node.reached] at meaningful provides
    obtain ⟨below, here⟩ := meaningful.append
    obtain ⟨within, -⟩ := provides.append
    rw [Node.sketches, Stage.render, shownAll_singleton,
      directed_nodes provides clear here.gate here.loop]
    refine repeating_congr fun inner inside => congrArg _ ?_
    have clear' := inside.clear clear here.loop
    rw [← inside.scopeOf, element_nodes provides clear', whole_nodes provides clear',
      sketchesAll_shown children inner given below within clear']
  | template el children =>
    rw [Node.reached] at meaningful provides
    obtain ⟨below, here⟩ := meaningful.append
    obtain ⟨within, -⟩ := provides.append
    rw [Node.sketches, Stage.render, template_nodes provides clear here.gate here.loop]
    refine repeating_congr fun inner inside => congrArg _ ?_
    have clear' := inside.clear clear here.loop
    rw [← inside.scopeOf, whole_nodes provides clear',
      sketchesAll_shown children inner given below within clear']
  | slot el children name =>
    rw [Node.reached] at meaningful provides
    obtain ⟨below, here⟩ := meaningful.append
    obtain ⟨within, -⟩ := provides.append
    have unlooped : el.loop = none := by
      have loops := here.unlooped
      rwa [slotLoops_singleton, Option.toList_eq_nil_iff] at loops
    rw [Node.sketches, Stage.render, shownAll_singleton, unlooped, innerScope_none,
      slot_nodes provides clear, whole_nodes provides clear,
      sketchesAll_shown children locals given below within clear]
  | custom el children component content =>
    rw [Node.reached] at meaningful provides
    obtain ⟨below, here⟩ := meaningful.append
    obtain ⟨within, own⟩ := provides.append
    have member : component ∈ components [.custom el children component content] := by
      simp [Node.component?]
    rw [Node.sketches, Stage.render, shownAll_singleton,
      directed_nodes provides clear here.gate here.loop]
    refine repeating_congr fun inner inside => congrArg _ ?_
    have clear' := inside.clear clear here.loop
    rw [← inside.scopeOf, customElement_nodes own clear' _ _ _ member]
    have slots := content_shown content inner (given + el.handlerCount) below within clear'
    cases content with
    | nil => rfl
    | cons entry rest => simp only [List.isEmpty_cons, Bool.false_eq_true, if_false, slots]

theorem sketchesAll_shown (nodes : List Node) (locals : Bindings) (given : Nat)
    (meaningful : Meaningful reserved (Node.reachedAll nodes))
    (provides : Provides stage names reserved (components (Node.reachedAll nodes)))
    (clear : Clear reserved locals) :
    shownAll stage names locals (Node.sketchesAll (scopeOf locals) given nodes) =
      stage.renderAll locals nodes := by
  cases nodes with
  | nil => simp [Node.sketchesAll, Stage.renderAll, shownAll]
  | cons node rest =>
    rw [Node.reachedAll] at meaningful provides
    obtain ⟨here, later⟩ := meaningful.append
    obtain ⟨provided, provided'⟩ := provides.append
    have first := sketches_shown node locals given here provided clear
    have others := sketchesAll_shown rest locals (given + handlerTotal node.reached) later
      provided' clear
    rw [Node.sketchesAll, shownAll_append, first, others, Stage.renderAll]

theorem content_shown (content : List (String × List Node)) (locals : Bindings) (given : Nat)
    (meaningful : Meaningful reserved (Node.reachedContent content))
    (provides : Provides stage names reserved (components (Node.reachedContent content)))
    (clear : Clear reserved locals) :
    (fieldValues stage names locals (Node.sketchesContent (scopeOf locals) given content)).map
        Datum.projectedSlots =
      stage.renderContent locals content := by
  cases content with
  | nil => rfl
  | cons entry rest =>
    obtain ⟨name, nodes⟩ := entry
    rw [Node.reachedContent] at meaningful provides
    obtain ⟨here, later⟩ := meaningful.append
    obtain ⟨provided, provided'⟩ := provides.append
    have first : (sketchValue stage names locals
        (SketchedChildren.of nodes (Node.sketchesAll (scopeOf locals) given nodes)).whole).map
          Datum.nodes = stage.renderAll locals nodes := by
      rw [whole_nodes provides clear, sketchesAll_shown nodes locals given here provided clear]
    have others := content_shown rest locals (given + handlerTotal (Node.reachedAll nodes)) later
      provided' clear
    rw [Stage.renderContent, ← first, ← others, Node.sketchesContent, fieldValues_cons]
    cases sketchValue stage names locals
        (SketchedChildren.of nodes (Node.sketchesAll (scopeOf locals) given nodes)).whole with
    | none => rfl
    | some value =>
      cases fieldValues stage names locals (Node.sketchesContent (scopeOf locals)
          (given + handlerTotal (Node.reachedAll nodes)) rest) with
      | none => rfl
      | some values => rfl

end

end Nodes

section Root

theorem lookup_import {entries : List (String × String)} (distinct : (entries.map (·.2)).Nodup)
    {component name : String} (known : entries.lookup component = some name) :
    (entries.map fun (specifier, name) => (name, Datum.component specifier)).lookup name =
      some (.component component) := by
  induction entries with
  | nil => cases known
  | cons entry rest ih =>
    obtain ⟨specifier, first⟩ := entry
    rw [List.map_cons, List.nodup_cons] at distinct
    rw [List.lookup_cons] at known
    rw [List.map_cons, List.lookup_cons]
    cases same : component == specifier with
    | true =>
      rw [same] at known
      cases known
      simp [beq_iff_eq.mp same]
    | false =>
      rw [same] at known
      -- An entry before the component's own has another local name.
      have apart : (name == first) = false := by
        rw [beq_eq_false_iff_ne]
        rintro rfl
        exact distinct.1 (List.mem_map.mpr ⟨_, ImportTable.mem_of_lookup_eq_some known, rfl⟩)
      rw [apart]
      exact ih distinct.2 known

theorem provides_bindings (host : String → List Datum → Option Datum)
    (component slotSet context : Datum) {imports : ImportTable} (sound : imports.Sound)
    (imported : List String)
    (known : ∀ component ∈ imported, ∃ name, imports.local? component = some name) :
    Provides ⟨component, slotSet, RuntimeApi.bindings {} component slotSet context imports, host⟩
      imports.nameOf (RuntimeApi.params {} ++ imports.locals) imported := by
  refine ⟨⟨by simp [RuntimeApi.params], rfl⟩, ⟨by simp [RuntimeApi.params], rfl⟩,
    ⟨by simp [RuntimeApi.params], rfl⟩, fun component member => ?_⟩
  obtain ⟨name, named⟩ := known component member
  have member := ImportTable.mem_locals_of_local? named
  have same : imports.nameOf component = name := imports.names_nameOf component name named
  have notParam := sound.not_param member
  rw [same]
  refine ⟨List.mem_append_right _ member, ?_⟩
  -- Parameters are looked up before imports, and none of them has the name of an import.
  rw [RuntimeApi.bindings, List.lookup_append, List.lookup_eq_none_iff.mpr, Option.none_or]
  · exact lookup_import sound.distinct named
  · intro param within
    rw [bne_iff_ne]
    rintro rfl
    exact notParam (List.of_mem_zip within).1

/-- The expression of a template shows what the template shows. -/
theorem lowerRoot_preserves_nodes (declared : List String) (slots : Nat) (journal : Journal)
    (root : Node) (known : unknownModifiers root.reached = [])
    (unlooped : slotLoops root.reached = [])
    (apart : ∀ name ∈ localNames root.reached, name ∉ RuntimeApi.params {} ∧
      name ∉ ((ImportTable.ofSpecifiers declared).registerAll (components root.reached)).locals) :
    ∃ expr finish,
      (lowerRoot (.ofApi {}) root).run.run ⟨slots, .ofSpecifiers declared, journal⟩ =
        (.ok expr, finish) ∧
      finish.imports =
        (ImportTable.ofSpecifiers declared).registerAll (components root.reached) ∧
      ∀ (host : String → List Datum → Option Datum) (component slotSet context : Datum),
        let bindings := RuntimeApi.bindings {} component slotSet context finish.imports
        (expr.eval host bindings).map Datum.nodes =
          Stage.render ⟨component, slotSet, bindings, host⟩ [] root := by
  have agrees := ImportTable.names_nameOf
    ((ImportTable.ofSpecifiers declared).registerAll (components root.reached))
  obtain ⟨journal', ran⟩ := lowerTree_runs (.ofApi {}) _ [] root known agrees journal
  refine ⟨_, _, ran, rfl, ?_⟩
  intro host component slotSet context
  have sound := (ImportTable.Sound.ofSpecifiers declared).registerAll (components root.reached)
  have provides := provides_bindings host component slotSet context sound
    (components root.reached) fun _ member => ImportTable.local?_registerAll_of_mem _ member
  have meaningful : Meaningful (RuntimeApi.params {} ++
      ((ImportTable.ofSpecifiers declared).registerAll (components root.reached)).locals)
      root.reached := by
    refine ⟨known, unlooped, fun name member => ?_⟩
    rw [List.mem_append, not_or]
    exact apart name member
  have shown := sketches_shown root [] slots meaningful provides fun _ _ => rfl
  rw [← single_nodes] at shown
  exact shown

theorem gallery_preserves_nodes :
    ∃ expr finish,
      (lowerRoot (.ofApi {}) .gallery).run.run ⟨0, .ofSpecifiers ["cards/card"], #[]⟩ =
        (.ok expr, finish) ∧
      finish.imports =
        (ImportTable.ofSpecifiers ["cards/card"]).registerAll (components Node.gallery.reached) ∧
      ∀ (host : String → List Datum → Option Datum) (component slotSet context : Datum),
        let bindings := RuntimeApi.bindings {} component slotSet context finish.imports
        (expr.eval host bindings).map Datum.nodes =
          Stage.render ⟨component, slotSet, bindings, host⟩ [] .gallery :=
  lowerRoot_preserves_nodes ["cards/card"] 0 #[] .gallery (by decide) rfl (by decide)

end Root

end Lowering

end RenderCompiler
