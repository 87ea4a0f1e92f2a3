import RenderCompiler.Compilation
import RenderCompiler.Proofs.Lowering.Steps

set_option autoImplicit false

namespace RenderCompiler

def Document.finalImports (document : Document) : ImportTable :=
  document.metadata.imports.registerAll (components document.root.reached)

theorem Document.sound_finalImports (document : Document) : document.finalImports.Sound :=
  (ImportTable.Sound.ofSpecifiers _).registerAll _

namespace Lowering

section Children

variable (env : Environment) (names : String → String)

theorem childrenExpr_eq (node : Node) (lowered : List Sketch) :
    env.api.childrenExpr node (lowered.map (Sketch.expr env names)) =
      (SketchedChildren.of node.children lowered).whole.expr env names := by
  unfold RuntimeApi.childrenExpr SketchedChildren.of Node.needsFlattening
  split
  · simp [SketchedChildren.whole, Sketch.expr]
  · rcases node.children with _ | ⟨child, _ | ⟨second, rest⟩⟩ <;>
      rcases lowered with _ | ⟨only, _ | ⟨other, more⟩⟩ <;>
      simp [SketchedChildren.whole, Sketch.expr, RuntimeApi.flattenCall, RuntimeApi.primitiveName]

-- The sketch is built from others, so its expression is no list whatever the binder does.
def IsCompound : Sketch → Prop
  | .call _ _ | .iterate _ _ _ _ | .conditional _ _ _ | .or _ _ => True
  | _ => False

theorem IsCompound.notList {sketch : Sketch} (compound : IsCompound sketch) :
    NotList (sketch.expr env names) := by
  cases sketch with
  | call primitive arguments => exact fun _ => Expr.noConfusion
  | iterate iterable item index body => exact fun _ => Expr.noConfusion
  | conditional test consequent alternate => exact fun _ => Expr.noConfusion
  | or left right => exact fun _ => Expr.noConfusion
  | _ => exact compound.elim

theorem compound_gatedOn {sketch : Sketch} (compound : IsCompound sketch) (scope : Scope)
    (condition : Option Condition) : IsCompound (Sketch.gatedOn scope condition sketch) := by
  cases condition with
  | none => exact compound
  | some condition => trivial

theorem compound_repeatedOver {sketch : Sketch} (compound : IsCompound sketch) (outer : Scope)
    (loop : Option Loop) : IsCompound (Sketch.repeatedOver outer loop sketch) := by
  cases loop with
  | none => exact compound
  | some loop => trivial

theorem compound_directed {sketch : Sketch} (compound : IsCompound sketch) (inner outer : Scope)
    (el : Element) :
    IsCompound (Sketch.repeatedOver outer el.loop (Sketch.gatedOn inner el.condition sketch)) :=
  compound_repeatedOver (compound_gatedOn compound inner el.condition) outer el.loop

mutual

-- Of the nodes that stand for lists only a template hands on what its children contribute.
theorem sketches_of_yieldsList (node : Node) (scope : Scope) (given : Nat)
    (yields : node.yieldsList = true) :
    ∃ sketch, node.sketches scope given = [sketch] ∧ IsCompound sketch := by
  cases node with
  | text value => simp [Node.yieldsList] at yields
  | element el children =>
    rw [Node.sketches]
    refine ⟨_, rfl, compound_directed ?_ _ _ el⟩
    trivial
  | custom el children component content =>
    rw [Node.sketches]
    refine ⟨_, rfl, compound_directed ?_ _ _ el⟩
    trivial
  | slot el children name =>
    rw [Node.sketches]
    exact ⟨_, rfl, trivial⟩
  | template el children =>
    rw [Node.sketches]
    cases flatten : Node.anyYieldsList children with
    | true =>
      obtain ⟨sketch, joined, compound⟩ :=
        joined_of_anyYieldsList children (innerScope scope el.loop) given flatten
      exact ⟨_, by rw [joined]; rfl, compound_directed compound _ _ el⟩
    | false =>
      simp only [Node.yieldsList, flatten, Bool.or_false] at yields
      obtain ⟨loop, looped⟩ := Option.isSome_iff_exists.mp yields
      simp only [SketchedChildren.of, flatten, SketchedChildren.template, looped]
      exact ⟨_, rfl, trivial⟩

theorem joined_of_anyYieldsList (children : List Node) (scope : Scope) (given : Nat)
    (yields : Node.anyYieldsList children = true) :
    ∃ sketch, SketchedChildren.of children (Node.sketchesAll scope given children) =
      .joined sketch ∧ IsCompound sketch := by
  match children with
  | [] => simp [Node.anyYieldsList] at yields
  | [child] =>
    have yieldsOnly : child.yieldsList = true := by simpa [Node.anyYieldsList] using yields
    obtain ⟨sketch, contributes, compound⟩ := sketches_of_yieldsList child scope given yieldsOnly
    refine ⟨sketch, ?_, compound⟩
    simp [SketchedChildren.of, yields, Node.sketchesAll, contributes]
  | first :: second :: rest =>
    refine ⟨.call .flatten [.array (Node.sketchesAll scope given (first :: second :: rest))], ?_,
      trivial⟩
    simp [SketchedChildren.of, yields]

end

theorem loopBody_list (sketches : List Sketch) :
    loopBody (.array (sketches.map (Sketch.expr env names))) =
      (Sketch.single sketches).expr env names := by
  match sketches with
  | [] => rfl
  | [only] => rfl
  | first :: second :: rest => simp [loopBody, Sketch.single, Sketch.expr]

theorem ungated (scope : Scope) (sketches : List Sketch) :
    sketches.map (Sketch.gatedOn scope none) = sketches :=
  List.map_id _

theorem gatedChildren_list (scope : Scope) (condition : Condition) (sketches : List Sketch) :
    gatedChildren ((Sketch.ofTest scope condition).expr env names)
        (.array (sketches.map (Sketch.expr env names))) =
      .array ((sketches.map (Sketch.gatedOn scope (some condition))).map
        (Sketch.expr env names)) := by
  simp [gatedChildren, gated, Sketch.gatedOn, Sketch.gated, Sketch.expr]

theorem template_runs {slots : Nat} {imports : ImportTable} (inner outer : Scope) (el : Element)
    (known : Known el.condition) (children : SketchedChildren)
    (compound : ∀ sketch, children = .joined sketch → IsCompound sketch) :
    Runs (template env ⟨inner, outer⟩ el (children.whole.expr env names)) slots imports
      ((children.template inner outer el).map (Sketch.expr env names)) slots imports := by
  have looped (loop : Loop) (sketch : Sketch) :
      Runs (do return [← repeated env outer (some loop) (sketch.expr env names)]) slots imports
        [(Sketch.repeatedOver outer (some loop) sketch).expr env names] slots imports :=
    (repeated_runs env names outer (some loop) sketch).bind (.pure _)
  unfold template
  cases children with
  | joined sketch =>
    have notList := (compound sketch rfl).notList env names
    simp only [SketchedChildren.whole, SketchedChildren.template]
    cases condition : el.condition with
    | none =>
      cases el.loop with
      | none => exact .pure _
      | some loop =>
        simp only [pure_bind, loopBody_of_notList notList]
        exact looped loop sketch
    | some given =>
      rw [condition] at known
      refine (testExpr_runs env names inner given known).bind ?_
      simp only [pure_bind, gatedChildren_of_notList notList]
      cases el.loop with
      | none => exact .pure _
      | some loop => exact looped loop (.conditional (.ofTest inner given) sketch .null)
  | separate sketches =>
    simp only [SketchedChildren.whole, SketchedChildren.template, Sketch.expr, Sketch.exprs_eq_map]
    cases condition : el.condition with
    | none =>
      simp only [pure_bind, ungated]
      cases el.loop with
      | none => simpa [Sketch.expr] using Runs.pure _
      | some loop =>
        simp only [loopBody_list]
        exact looped loop (Sketch.single sketches)
    | some given =>
      rw [condition] at known
      refine (testExpr_runs env names inner given known).bind ?_
      simp only [pure_bind, gatedChildren_list]
      cases el.loop with
      | none => exact .pure _
      | some loop =>
        simp only [loopBody_list]
        exact looped loop _

end Children

section Nodes

variable (env : Environment) (names : String → String)

theorem known_of_unknownModifier? {node : Node} (known : node.unknownModifier? = none) :
    Known node.gate? := by
  intro condition present
  simp only [Node.unknownModifier?, Option.mem_def.mp present, Option.bind_some] at known
  cases found : Test.ofModifier? condition.modifier with
  | none => simp [found] at known
  | some test => rfl

theorem element_runs {slots : Nat} {imports : ImportTable} (lowerContent : TreeLowering)
    (scopes : Scopes) (el : Element) (children : List Node) (lowered : List Sketch)
    (known : Known el.condition) :
    Runs (contribution env lowerContent scopes (.element el children)
        (lowered.map (Sketch.expr env names)))
      slots imports
      [(Sketch.repeatedOver scopes.outer el.loop (Sketch.gatedOn scopes.inner el.condition
        (.call .element [.string el.tag, .object (Sketch.dataFields scopes.inner slots el),
          (SketchedChildren.of children lowered).whole]))).expr env names]
      (slots + el.handlerCount) imports := by
  have data : Runs (dataBag env scopes.inner el) slots imports
      ((Sketch.object (Sketch.dataFields scopes.inner slots el)).expr env names)
      (slots + el.handlerCount) imports :=
    (dataProperties_runs env names scopes.inner el).bind (.pure _)
  simp only [contribution, childrenExpr_eq]
  exact data.bind ((directed_runs env names scopes.inner scopes.outer el known
    (.call .element [.string el.tag, .object (Sketch.dataFields scopes.inner slots el),
      (SketchedChildren.of children lowered).whole])).bind (.pure _))

theorem gathered_runs {slots : Nat} {imports : ImportTable} (sketches : List Sketch) :
    Runs (gathered (sketches.map (Sketch.expr env names))) slots imports
      ((Sketch.single sketches).expr env names) slots imports := by
  match sketches with
  | [] => exact (log_runs _ _ _).bind (.pure _)
  | [only] => exact .pure _
  | first :: second :: rest =>
    simp only [Sketch.single, Sketch.expr, Sketch.exprs_eq_map]
    exact (log_runs _ _ _).bind (.pure _)

theorem slotSet_runs {slots slots' : Nat} {imports imports' : ImportTable}
    (lowerContent : TreeLowering) (scope : Scope) (tag : String)
    (content : List (String × List Node)) (projected : List (String × Sketch))
    (runs : Runs (content.mapM (projectedSlot lowerContent scope tag)) slots imports
      (Sketch.exprProperties env names projected) slots' imports') :
    Runs (slotSet lowerContent scope tag content) slots imports
      (Sketch.exprProperties env names
        (if content.isEmpty then [] else [("slotset", .object projected)])) slots' imports' := by
  rw [slotSet_eq]
  split
  next empty =>
    rw [List.isEmpty_iff.mp empty] at runs
    obtain ⟨journal, ran⟩ := runs #[]
    -- Where nothing is projected, nothing has been run.
    obtain ⟨rfl, rfl⟩ : slots = slots' ∧ imports = imports' := by
      injection ran with _ states
      injection states with slots imports
      exact ⟨slots, imports⟩
    exact .pure _
  next => exact runs.bind (.pure _)

theorem customElement_runs {slots slots' : Nat} {imports imports' : ImportTable}
    (lowerContent : TreeLowering) (scope : Scope) (el : Element) (component : String)
    (content : List (String × List Node)) (projected : List (String × Sketch))
    (agrees : (imports'.register component).2.Names names)
    (runs : Runs (content.mapM (projectedSlot lowerContent scope el.tag))
      (slots + el.handlerCount) imports (Sketch.exprProperties env names projected) slots'
      imports') :
    Runs (customElement env lowerContent scope el component content) slots imports
      ((Sketch.call .customElement [.string el.tag, .component component,
        .object (Sketch.dataFields scope slots el ++
          if content.isEmpty then [] else [("slotset", .object projected)])]).expr env names)
      slots' (imports'.register component).2 := by
  have slotSet := slotSet_runs env names lowerContent scope el.tag content projected runs
  refine (dataProperties_runs env names scope el).bind (slotSet.bind ?_)
  refine (localName_runs component).bind ?_
  rw [← agrees.of_register]
  simp only [Sketch.expr, Sketch.exprs, Sketch.exprProperties_append]
  exact .pure _

theorem compound_children (children : List Node) (scope : Scope) (given : Nat) (sketch : Sketch)
    (joined : SketchedChildren.of children (Node.sketchesAll scope given children) =
      .joined sketch) :
    IsCompound sketch := by
  cases flatten : Node.anyYieldsList children with
  | false => simp [SketchedChildren.of, flatten] at joined
  | true =>
    obtain ⟨other, joined', compound⟩ := joined_of_anyYieldsList children scope given flatten
    rw [joined] at joined'
    cases joined'
    exact compound

theorem bareTemplate_runs {slots : Nat} {imports : ImportTable} (scope : Scope)
    (children : SketchedChildren)
    (compound : ∀ sketch, children = .joined sketch → IsCompound sketch) :
    Runs (do gathered (← template env ⟨scope, scope⟩ { tag := "template" }
        (children.whole.expr env names)))
      slots imports (children.whole.expr env names) slots imports := by
  have single :
      Sketch.single (children.template scope scope { tag := "template" }) = children.whole := by
    cases children with
    | joined sketch => rfl
    | separate sketches => simp [SketchedChildren.template, Sketch.single, ungated,
        SketchedChildren.whole]
  refine (template_runs env names scope scope { tag := "template" } (by simp [Known]) children
    compound).bind ?_
  rw [← single]
  exact gathered_runs env names _

theorem slotTree_runs {slots slots' : Nat} {imports imports' : ImportTable} (scope : Scope)
    (nodes : List Node)
    (lowered : Runs (contributedAll env (lowerTree env) 1 scope nodes) slots imports
      ((Node.sketchesAll scope slots nodes).map (Sketch.expr env names)) slots' imports') :
    Runs (lowerTree env scope (Node.slotTemplate nodes)) slots imports
      ((SketchedChildren.of nodes (Node.sketchesAll scope slots nodes)).whole.expr env names)
      slots' imports' := by
  rw [lowerTree_eq, Node.slotTemplate, contributed]
  simp only [innerScope_none, bind_assoc]
  refine lowered.bind ?_
  simp only [exited, contribution, bind_assoc, childrenExpr_eq]
  refine (log_runs _ _ _).bind ?_
  simp only [Node.loop?, Node.element?, Option.bind_some, innerScope_none]
  exact bareTemplate_runs env names scope _ (compound_children nodes scope slots)

theorem warnPassedOver_runs {slots : Nat} {imports : ImportTable} (el : Element)
    (children : List Node) : Runs (warnPassedOver el children) slots imports () slots imports := by
  cases children with
  | nil => exact .pure _
  | cons child rest => exact log_runs _ _ _

mutual

-- A node starts with the slots and imports that the nodes before it leave, and ends after the nodes
-- below it. The names have to agree with the table in the end, which keeps every earlier name.
theorem contributed_runs (node : Node) (depth : Nat) (scope : Scope) (slots : Nat)
    (imports : ImportTable) (known : unknownModifiers node.reached = [])
    (agrees : (imports.registerAll (components node.reached)).Names names) :
    Runs (contributed env (lowerTree env) depth scope node) slots imports
      ((node.sketches scope slots).map (Sketch.expr env names))
      (slots + handlerTotal node.reached) (imports.registerAll (components node.reached)) := by
  cases node with
  | text value =>
    have text : Runs (textNode env scope value) slots imports
        ((Sketch.call .text [Sketch.ofValue scope value]).expr env names) slots imports :=
      (valueExpr_runs env names scope value).bind (.pure _)
    rw [contributed, Node.sketches]
    exact text.bind (.pure _)
  | element el children =>
    simp only [Node.reached, unknownModifiers_append, unknownModifiers_singleton,
      components_append, components_singleton, handlerTotal_append, handlerTotal_singleton,
      Node.component?, Option.toList_none, List.append_nil, List.append_eq_nil_iff,
      Option.toList_eq_nil_iff] at known agrees ⊢
    have lowered := contributedAll_runs children (depth + 1) (innerScope scope el.loop) slots
      imports known.1 agrees
    rw [contributed, Node.sketches, ← Nat.add_assoc]
    refine lowered.bind ((log_runs _ _ _).bind ?_)
    exact element_runs env names (lowerTree env) ⟨innerScope scope el.loop, scope⟩ el children _
      (known_of_unknownModifier? known.2)
  | template el children =>
    simp only [Node.reached, unknownModifiers_append, unknownModifiers_singleton,
      components_append, components_singleton, handlerTotal_append, handlerTotal_singleton,
      Node.component?, Option.toList_none, List.append_nil, List.append_eq_nil_iff,
      Option.toList_eq_nil_iff] at known agrees ⊢
    have lowered := contributedAll_runs children (depth + 1) (innerScope scope el.loop) slots
      imports known.1 agrees
    rw [contributed, Node.sketches]
    refine lowered.bind ((log_runs _ _ _).bind ?_)
    simp only [contribution, childrenExpr_eq]
    exact template_runs env names (innerScope scope el.loop) scope el
      (known_of_unknownModifier? known.2) _ (compound_children children _ slots)
  | slot el children name =>
    simp only [Node.reached, unknownModifiers_append, components_append, components_singleton,
      handlerTotal_append, handlerTotal_singleton, Node.component?, Option.toList_none,
      List.append_nil, List.append_eq_nil_iff] at known agrees ⊢
    have lowered := contributedAll_runs children (depth + 1) (innerScope scope el.loop) slots
      imports known.1 agrees
    rw [contributed, Node.sketches]
    refine lowered.bind ((log_runs _ _ _).bind ?_)
    simp only [contribution, childrenExpr_eq]
    exact .pure _
  | custom el children component content =>
    simp only [Node.reached, unknownModifiers_append, unknownModifiers_singleton,
      components_append, components_singleton, handlerTotal_append, handlerTotal_singleton,
      Node.component?, Option.toList_some, ImportTable.registerAll_append,
      ImportTable.registerAll_singleton, List.append_eq_nil_iff,
      Option.toList_eq_nil_iff] at known agrees ⊢
    have projected := content_runs content el.tag (innerScope scope el.loop)
      (slots + el.handlerCount) imports known.1 agrees.of_register_table
    have custom := customElement_runs env names (lowerTree env) (innerScope scope el.loop) el
      component content _ agrees projected
    -- The handlers of the element take their slots before those of its content.
    have total : slots + el.handlerCount + handlerTotal (Node.reachedContent content) =
        slots + (handlerTotal (Node.reachedContent content) + el.handlerCount) := by omega
    rw [total] at custom
    rw [contributed, Node.sketches]
    refine (warnPassedOver_runs el children).bind ((log_runs _ _ _).bind (custom.bind ?_))
    exact (directed_runs env names _ scope el (known_of_unknownModifier? known.2) _).bind (.pure _)

theorem contributedAll_runs (nodes : List Node) (depth : Nat) (scope : Scope) (slots : Nat)
    (imports : ImportTable) (known : unknownModifiers (Node.reachedAll nodes) = [])
    (agrees : (imports.registerAll (components (Node.reachedAll nodes))).Names names) :
    Runs (contributedAll env (lowerTree env) depth scope nodes) slots imports
      ((Node.sketchesAll scope slots nodes).map (Sketch.expr env names))
      (slots + handlerTotal (Node.reachedAll nodes))
      (imports.registerAll (components (Node.reachedAll nodes))) := by
  cases nodes with
  | nil => exact .pure _
  | cons node rest =>
    simp only [Node.reachedAll, unknownModifiers_append, components_append, handlerTotal_append,
      ImportTable.registerAll_append, List.append_eq_nil_iff] at known agrees ⊢
    have first := contributed_runs node depth scope slots imports known.1 agrees.of_registerAll
    have others := contributedAll_runs rest depth scope (slots + handlerTotal node.reached)
      (imports.registerAll (components node.reached)) known.2 agrees
    rw [contributedAll, Node.sketchesAll, List.map_append, ← Nat.add_assoc]
    exact first.bind (others.bind (.pure _))

theorem content_runs (content : List (String × List Node)) (tag : String) (scope : Scope)
    (slots : Nat) (imports : ImportTable)
    (known : unknownModifiers (Node.reachedContent content) = [])
    (agrees : (imports.registerAll (components (Node.reachedContent content))).Names names) :
    Runs (content.mapM (projectedSlot (lowerTree env) scope tag)) slots imports
      (Sketch.exprProperties env names (Node.sketchesContent scope slots content))
      (slots + handlerTotal (Node.reachedContent content))
      (imports.registerAll (components (Node.reachedContent content))) := by
  cases content with
  | nil => exact .pure _
  | cons entry rest =>
    obtain ⟨name, nodes⟩ := entry
    simp only [Node.reachedContent, unknownModifiers_append, components_append,
      handlerTotal_append, ImportTable.registerAll_append, List.append_eq_nil_iff]
      at known agrees ⊢
    have lowered := contributedAll_runs nodes 1 scope slots imports known.1 agrees.of_registerAll
    have others := content_runs rest tag scope (slots + handlerTotal (Node.reachedAll nodes))
      (imports.registerAll (components (Node.reachedAll nodes))) known.2 agrees
    have tree := slotTree_runs env names scope nodes lowered
    rw [List.mapM_cons, ← Nat.add_assoc]
    refine Runs.bind ?_ (others.bind (.pure _))
    exact (log_runs _ _ _).bind (tree.bind (.pure (name, _)))

end

end Nodes

section Failures

variable (env : Environment) {slots : Nat} {imports : ImportTable} {modifier : String}

theorem gate_of_unknownModifier? {node : Node} (unknown : node.unknownModifier? = some modifier) :
    ∃ condition, node.gate? = some condition ∧ condition.modifier = modifier ∧
      Test.ofModifier? condition.modifier = none := by
  simp only [Node.unknownModifier?, Option.bind_eq_some_iff, Option.ite_none_right_eq_some,
    Option.isNone_iff_eq_none, Option.some.injEq] at unknown
  obtain ⟨condition, present, none, same⟩ := unknown
  exact ⟨condition, present, same, none⟩

theorem directed_fails_of_unknown {node : Node} (scopes : Scopes) (el : Element) (expr : Expr)
    (gate : node.gate? = el.condition) (unknown : node.unknownModifier? = some modifier) :
    Fails (directed env scopes el expr) slots imports (.unknownModifier modifier) := by
  obtain ⟨condition, present, rfl, none⟩ := gate_of_unknownModifier? unknown
  exact directed_fails env scopes.inner scopes.outer el condition expr (gate ▸ present) none

theorem template_fails (scopes : Scopes) (el : Element) (nodes : List Node) (children : Expr)
    (unknown : (Node.template el nodes).unknownModifier? = some modifier) :
    Fails (template env scopes el children) slots imports (.unknownModifier modifier) := by
  obtain ⟨condition, present, rfl, none⟩ := gate_of_unknownModifier? unknown
  have gate : el.condition = some condition := present
  unfold template
  rw [gate]
  exact (testExpr_fails env scopes.inner condition none).bind

theorem element_fails (lowerContent : TreeLowering) (scopes : Scopes) (el : Element)
    (children : List Node) (lowered : List Expr)
    (unknown : (Node.element el children).unknownModifier? = some modifier) :
    Fails (contribution env lowerContent scopes (.element el children) lowered) slots imports
      (.unknownModifier modifier) := by
  refine Runs.bind_fails ((dataProperties_runs env imports.nameOf scopes.inner el).bind
    (.pure (Expr.object _))) ?_
  exact (directed_fails_of_unknown env scopes el _ rfl unknown).bind

theorem slotTree_fails (scope : Scope) (nodes : List Node)
    (fails : Fails (contributedAll env (lowerTree env) 1 scope nodes) slots imports
      (.unknownModifier modifier)) :
    Fails (lowerTree env scope (Node.slotTemplate nodes)) slots imports
      (.unknownModifier modifier) := by
  rw [lowerTree_eq, Node.slotTemplate, contributed]
  simp only [innerScope_none, bind_assoc]
  exact fails.bind

theorem slotSet_fails {scope : Scope} {tag : String} {content : List (String × List Node)}
    (lowerContent : TreeLowering)
    (fails : Fails (content.mapM (projectedSlot lowerContent scope tag)) slots imports
      (.unknownModifier modifier)) :
    Fails (slotSet lowerContent scope tag content) slots imports (.unknownModifier modifier) := by
  rw [slotSet_eq]
  split
  next empty =>
    rw [List.isEmpty_iff.mp empty] at fails
    obtain ⟨finish, ran⟩ := fails #[]
    cases ran
  next => exact fails.bind

mutual

-- The first unknown modifier stands below the node, or else all of those are known and it is the
-- node's own.
theorem contributed_fails (node : Node) (depth : Nat) (scope : Scope) (slots : Nat)
    (imports : ImportTable) (unknown : (unknownModifiers node.reached).head? = some modifier) :
    Fails (contributed env (lowerTree env) depth scope node) slots imports
      (.unknownModifier modifier) := by
  cases node with
  | text value => simp [Node.reached, Node.unknownModifier?, Node.gate?] at unknown
  | element el children =>
    simp only [Node.reached, unknownModifiers_append, unknownModifiers_singleton,
      List.head?_append, Option.or_eq_some_iff, List.head?_eq_none_iff] at unknown
    rw [contributed]
    rcases unknown with below | ⟨known, here⟩
    · exact (contributedAll_fails children (depth + 1) _ slots imports below).bind
    · refine (contributedAll_runs env _ children (depth + 1) _ slots imports known
        (ImportTable.names_nameOf _)).bind_fails ?_
      refine (log_runs _ _ _).bind_fails ?_
      exact element_fails env (lowerTree env) _ el children _ (by simpa using here)
  | template el children =>
    simp only [Node.reached, unknownModifiers_append, unknownModifiers_singleton,
      List.head?_append, Option.or_eq_some_iff, List.head?_eq_none_iff] at unknown
    rw [contributed]
    rcases unknown with below | ⟨known, here⟩
    · exact (contributedAll_fails children (depth + 1) _ slots imports below).bind
    · refine (contributedAll_runs env _ children (depth + 1) _ slots imports known
        (ImportTable.names_nameOf _)).bind_fails ?_
      refine (log_runs _ _ _).bind_fails ?_
      exact template_fails env _ el children _ (by simpa using here)
  | slot el children name =>
    simp only [Node.reached, unknownModifiers_append, unknownModifiers_singleton,
      Node.unknownModifier?, Node.gate?, Option.bind_none, Option.toList_none,
      List.append_nil] at unknown
    rw [contributed]
    exact (contributedAll_fails children (depth + 1) _ slots imports unknown).bind
  | custom el children component content =>
    simp only [Node.reached, unknownModifiers_append, unknownModifiers_singleton,
      List.head?_append, Option.or_eq_some_iff, List.head?_eq_none_iff] at unknown
    rw [contributed]
    refine (warnPassedOver_runs el children).bind_fails ((log_runs _ _ _).bind_fails ?_)
    rcases unknown with below | ⟨known, here⟩
    · have projected := slotSet_fails (lowerTree env) (content_fails content el.tag
        (innerScope scope el.loop) (slots + el.handlerCount) imports below)
      refine Fails.bind ?_
      exact (dataProperties_runs env imports.nameOf _ el).bind_fails projected.bind
    · have agrees := ImportTable.names_nameOf ((imports.registerAll
        (components (Node.reachedContent content))).register component).2
      have projected := content_runs env _ content el.tag (innerScope scope el.loop)
        (slots + el.handlerCount) imports known agrees.of_register_table
      refine (customElement_runs env _ (lowerTree env) _ el component content _ agrees
        projected).bind_fails ?_
      exact (directed_fails_of_unknown env _ el _ rfl (by simpa using here)).bind

theorem contributedAll_fails (nodes : List Node) (depth : Nat) (scope : Scope) (slots : Nat)
    (imports : ImportTable)
    (unknown : (unknownModifiers (Node.reachedAll nodes)).head? = some modifier) :
    Fails (contributedAll env (lowerTree env) depth scope nodes) slots imports
      (.unknownModifier modifier) := by
  cases nodes with
  | nil => simp [Node.reachedAll, unknownModifiers] at unknown
  | cons node rest =>
    simp only [Node.reachedAll, unknownModifiers_append, List.head?_append, Option.or_eq_some_iff,
      List.head?_eq_none_iff] at unknown
    rw [contributedAll]
    rcases unknown with here | ⟨known, later⟩
    · exact (contributed_fails node depth scope slots imports here).bind
    · refine (contributed_runs env _ node depth scope slots imports known
        (ImportTable.names_nameOf _)).bind_fails ?_
      exact (contributedAll_fails rest depth scope _ _ later).bind

theorem content_fails (content : List (String × List Node)) (tag : String) (scope : Scope)
    (slots : Nat) (imports : ImportTable)
    (unknown : (unknownModifiers (Node.reachedContent content)).head? = some modifier) :
    Fails (content.mapM (projectedSlot (lowerTree env) scope tag)) slots imports
      (.unknownModifier modifier) := by
  cases content with
  | nil => simp [Node.reachedContent, unknownModifiers] at unknown
  | cons entry rest =>
    obtain ⟨name, nodes⟩ := entry
    simp only [Node.reachedContent, unknownModifiers_append, List.head?_append,
      Option.or_eq_some_iff, List.head?_eq_none_iff] at unknown
    rw [List.mapM_cons]
    rcases unknown with here | ⟨known, later⟩
    · have tree := slotTree_fails env scope nodes
        (contributedAll_fails nodes 1 scope slots imports here)
      refine Fails.bind ?_
      exact (log_runs _ _ _).bind_fails tree.bind
    · have tree := slotTree_runs env _ scope nodes
        (contributedAll_runs env _ nodes 1 scope slots imports known (ImportTable.names_nameOf _))
      refine Runs.bind_fails ((log_runs _ _ _).bind (tree.bind (.pure (name, _)))) ?_
      exact (content_fails rest tag scope _ _ later).bind

end

end Failures

section Whole

variable (env : Environment) {slots : Nat} {imports : ImportTable}

theorem lowerTree_runs (names : String → String) (scope : Scope) (root : Node)
    (known : unknownModifiers root.reached = [])
    (agrees : (imports.registerAll (components root.reached)).Names names) :
    Runs (lowerTree env scope root) slots imports ((root.sketch scope slots).expr env names)
      (slots + handlerTotal root.reached) (imports.registerAll (components root.reached)) := by
  rw [lowerTree_eq]
  exact (contributed_runs env names root 0 scope slots imports known agrees).bind
    (gathered_runs env names _)

theorem lowerTree_fails {modifier : String} (scope : Scope) (root : Node)
    (unknown : (unknownModifiers root.reached).head? = some modifier) :
    Fails (lowerTree env scope root) slots imports (.unknownModifier modifier) := by
  rw [lowerTree_eq]
  exact (contributed_fails env root 0 scope slots imports unknown).bind

theorem compileDocument_runs (document : Document)
    (known : unknownModifiers document.root.reached = []) :
    Runs (compileDocument env document) 0 document.metadata.imports
      ⟨assemble ((document.root.sketch [] 0).expr env document.finalImports.nameOf)
        document.finalImports env.api, document.finalImports.specifiers⟩
      (0 + handlerTotal document.root.reached) document.finalImports := by
  have agrees := ImportTable.names_nameOf document.finalImports
  refine get_runs fun _ => (log_runs _ _ _).bind ?_
  refine (lowerTree_runs env _ [] document.root known agrees).bind (get_runs fun _ => ?_)
  exact (log_runs _ _ _).bind (.pure _)

theorem compileDocument_fails {modifier : String} (document : Document)
    (unknown : (unknownModifiers document.root.reached).head? = some modifier) :
    Fails (compileDocument env document) 0 document.metadata.imports
      (.unknownModifier modifier) := by
  refine get_fails fun _ => (log_runs _ _ _).bind_fails ?_
  exact (lowerTree_fails env [] document.root unknown).bind

end Whole

end Lowering

section Compiles

variable (env : Lowering.Environment) (document : Document)

theorem compileWith_eq_ok (known : unknownModifiers document.root.reached = []) :
    (compileWith env document).1 =
      .ok ⟨assemble ((document.root.sketch [] 0).expr env document.finalImports.nameOf)
        document.finalImports env.api, document.finalImports.specifiers⟩ := by
  obtain ⟨journal, ran⟩ := Lowering.compileDocument_runs env document known #[]
  simp only [compileWith, Lowering.fresh, ran]

theorem compileWith_eq_error {modifier : String}
    (unknown : (unknownModifiers document.root.reached).head? = some modifier) :
    (compileWith env document).1 = .error (.unknownModifier modifier) := by
  obtain ⟨finish, ran⟩ := Lowering.compileDocument_fails env document unknown #[]
  simp only [compileWith, Lowering.fresh, ran]

theorem known_of_compiles {compilation : Compilation}
    (compiles : (compileWith env document).1 = .ok compilation) :
    unknownModifiers document.root.reached = [] := by
  cases unknown : unknownModifiers document.root.reached with
  | nil => rfl
  | cons modifier rest =>
    rw [compileWith_eq_error env document (by rw [unknown]; rfl)] at compiles
    cases compiles

theorem eq_of_compiles {compilation : Compilation}
    (compiles : (compileWith env document).1 = .ok compilation) :
    compilation = ⟨assemble ((document.root.sketch [] 0).expr env document.finalImports.nameOf)
      document.finalImports env.api, document.finalImports.specifiers⟩ := by
  have known := known_of_compiles env document compiles
  rw [compileWith_eq_ok env document known] at compiles
  exact (Except.ok.inj compiles).symm

end Compiles

end RenderCompiler
