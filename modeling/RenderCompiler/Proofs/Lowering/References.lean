import RenderCompiler.Proofs.Lowering.Course

set_option autoImplicit false

namespace RenderCompiler

-- The path of a condition is bound for the modifier that tests it.
structure Reference where
  path : Path
  scope : Scope
  modifier : Option String := none
deriving DecidableEq, Repr

namespace Reference

def call (reference : Reference) : Path × Scope := (reference.path, reference.scope)

def refusal? (reference : Reference) : Option CompileError :=
  reference.modifier.bind fun modifier => (Step.tests modifier).refusal?

def outcome : List Reference → Option CompileError × List (Path × Scope)
  | [] => (none, [])
  | reference :: rest =>
    match reference.refusal? with
    | some error => (some error, [reference.call])
    | none => ((outcome rest).1, reference.call :: (outcome rest).2)

theorem outcome_append (references others : List Reference) :
    outcome (references ++ others) =
      match outcome references with
      | (some error, calls) => (some error, calls)
      | (none, calls) => ((outcome others).1, calls ++ (outcome others).2) := by
  induction references with
  | nil => rfl
  | cons reference rest ih =>
    rw [List.cons_append, outcome, outcome, ih]
    cases reference.refusal? with
    | some error => rfl
    | none => rcases outcome rest with ⟨_ | error, calls⟩ <;> rfl

theorem outcome_none {references : List Reference} (completed : (outcome references).1 = none) :
    (outcome references).2 = references.map call ∧
      ∀ reference ∈ references, reference.refusal? = none := by
  induction references with
  | nil => exact ⟨rfl, by simp⟩
  | cons reference rest ih =>
    rw [outcome] at completed ⊢
    cases refused : reference.refusal? with
    | some error => simp [refused] at completed
    | none =>
      simp only [refused] at completed ⊢
      obtain ⟨calls, accepted⟩ := ih completed
      exact ⟨by rw [calls, List.map_cons], List.forall_mem_cons.mpr ⟨refused, accepted⟩⟩

theorem outcome_some {references : List Reference} {error : CompileError}
    (stopped : (outcome references).1 = some error) :
    ∃ before last after, references = before ++ last :: after ∧
      (∀ reference ∈ before, reference.refusal? = none) ∧ last.refusal? = some error ∧
      (outcome references).2 = (before ++ [last]).map call := by
  induction references with
  | nil => cases stopped
  | cons reference rest ih =>
    rw [outcome] at stopped ⊢
    cases refused : reference.refusal? with
    | some own =>
      simp only [refused, Option.some.injEq] at stopped
      exact ⟨[], reference, rest, rfl, by simp, stopped ▸ refused, rfl⟩
    | none =>
      simp only [refused] at stopped ⊢
      obtain ⟨before, last, after, same, accepted, offends, calls⟩ := ih stopped
      refine ⟨reference :: before, last, after, by rw [same, List.cons_append], ?_, offends, ?_⟩
      · exact List.forall_mem_cons.mpr ⟨refused, accepted⟩
      · rw [calls, List.cons_append, List.map_cons]

end Reference

section Template

variable (scope : Scope)

def Value.references : Value → List Reference
  | .text _ | .number _ => []
  | .bound path => [{ path, scope }]

def entriesReferences (entries : Option (Entries Value)) : List Reference :=
  (entries.getD []).flatMap fun entry => entry.2.references scope

-- Classes of a class map are on whatever their values, and a key is no reference.
def Element.dataReferences (el : Element) : List Reference :=
  el.className.toList.flatMap (Value.references scope) ++ entriesReferences scope el.style ++
    entriesReferences scope el.attrs ++ entriesReferences scope el.props ++
    (el.on.getD []).map fun handler => { path := handler.2, scope }

def conditionReferences (condition : Option Condition) : List Reference :=
  condition.toList.map fun condition => ⟨condition.path, scope, some condition.modifier⟩

def loopReferences (loop : Option Loop) : List Reference :=
  loop.toList.map fun loop => { path := loop.path, scope }

end Template

namespace Node

mutual

/-- The references of a node whose looped ancestors have put these names in scope. Its own loop adds
its names for all of them but the list it repeats over. -/
def references : Scope → Node → List Reference
  | scope, .text value => value.references scope
  | scope, .element el children =>
    let inner := scope ++ (el.loop.map Loop.names).getD []
    referencesAll inner children ++ el.dataReferences inner ++
      conditionReferences inner el.condition ++ loopReferences scope el.loop
  | scope, .template el children =>
    let inner := scope ++ (el.loop.map Loop.names).getD []
    referencesAll inner children ++ conditionReferences inner el.condition ++
      loopReferences scope el.loop
  | scope, .slot el children _ =>
    referencesAll (scope ++ (el.loop.map Loop.names).getD []) children
  | scope, .custom el _ _ content =>
    let inner := scope ++ (el.loop.map Loop.names).getD []
    el.dataReferences inner ++ referencesContent inner content ++
      conditionReferences inner el.condition ++ loopReferences scope el.loop

def referencesAll : Scope → List Node → List Reference
  | _, [] => []
  | scope, node :: rest => references scope node ++ referencesAll scope rest

def referencesContent : Scope → List (String × List Node) → List Reference
  | _, [] => []
  | scope, (_, nodes) :: rest => referencesAll scope nodes ++ referencesContent scope rest

end

end Node

namespace Lowering

def Asks (steps : List Step) (references : List Reference) : Prop :=
  ∀ progress : Progress, ((progress.follow steps).1, (progress.follow steps).2.bindings) =
    ((Reference.outcome references).1, progress.bindings ++ (Reference.outcome references).2)

section Asking

variable {steps others : List Step} {references more : List Reference}

theorem Asks.nil : Asks [] [] := by
  intro progress
  simp [Progress.follow, Reference.outcome]

theorem Asks.append (first : Asks steps references) (second : Asks others more) :
    Asks (steps ++ others) (references ++ more) := by
  intro progress
  have here := first progress
  rw [Progress.follow_append, Reference.outcome_append]
  revert here
  rcases progress.follow steps with ⟨_ | error, reached⟩ <;>
    rcases Reference.outcome references with ⟨_ | error', calls⟩ <;>
    intro here <;> obtain ⟨same, asked⟩ := Prod.mk.inj here
  · dsimp only at asked
    rw [second reached, asked, List.append_assoc]
  · cases same
  · cases same
  · exact here

theorem Asks.flatMap {α : Type} {course : α → List Step} {asked : α → List Reference}
    (items : List α) (each : ∀ item, Asks (course item) (asked item)) :
    Asks (items.flatMap course) (items.flatMap asked) := by
  induction items with
  | nil => exact .nil
  | cons item rest ih =>
    rw [List.flatMap_cons, List.flatMap_cons]
    exact (each item).append ih

variable (scope : Scope)

theorem asks_read (path : Path) : Asks [.reads path scope] [{ path, scope }] := by
  intro progress
  simp [Progress.follow, Progress.step, Step.refusal?, Reference.outcome, Reference.refusal?,
    Reference.call]

-- The path is bound before its modifier is looked at.
theorem asks_condition (path : Path) (modifier : String) :
    Asks [.reads path scope, .tests modifier] [⟨path, scope, some modifier⟩] := by
  intro progress
  have read : (Step.reads path scope).refusal? = none := rfl
  cases tested : (Step.tests modifier).refusal? <;>
    simp [Progress.follow, Progress.step, Reference.outcome, Reference.refusal?, Reference.call,
      read, tested]

theorem asks_handled (path : Path) : Asks [.handles path scope] [] := by
  intro progress
  simp [Progress.follow, Progress.step, Step.refusal?, Reference.outcome]

theorem asks_imported (component : String) : Asks [.imports component] [] := by
  intro progress
  simp [Progress.follow, Progress.step, Step.refusal?, Reference.outcome]

theorem asks_value (value : Value) : Asks (value.course scope) (value.references scope) := by
  cases value with
  | text value => exact .nil
  | number value => exact .nil
  | bound path => exact asks_read scope path

theorem asks_entries (entries : Option (Entries Value)) :
    Asks (valuesCourse scope entries) (entriesReferences scope entries) :=
  .flatMap _ fun entry => asks_value scope entry.2

theorem asks_handlers (handlers : Entries Path) :
    Asks (handlersCourse scope handlers)
      (handlers.map fun handler => { path := handler.2, scope }) := by
  rw [List.map_eq_flatMap]
  exact .flatMap handlers fun handler => (asks_read scope handler.2).append (asks_handled scope _)

theorem asks_data (el : Element) : Asks (el.dataCourse scope) (el.dataReferences scope) :=
  ((((Asks.flatMap _ (asks_value scope)).append (asks_entries scope el.style)).append
    (asks_entries scope el.attrs)).append (asks_entries scope el.props)).append
      (asks_handlers scope _)

theorem asks_gate (condition : Option Condition) :
    Asks (conditionCourse scope condition) (conditionReferences scope condition) := by
  cases condition with
  | none => exact .nil
  | some condition => exact asks_condition scope condition.path condition.modifier

theorem asks_loop (loop : Option Loop) :
    Asks (loopCourse scope loop) (loopReferences scope loop) := by
  cases loop with
  | none => exact .nil
  | some loop => exact asks_read scope loop.path

end Asking

mutual

theorem asks_course (node : Node) (scope : Scope) :
    Asks (node.course scope) (node.references scope) := by
  cases node with
  | text value => exact asks_value scope value
  | element el children =>
    rw [Node.course, Node.references]
    exact (((asks_courseAll children _).append (asks_data _ el)).append
      (asks_gate _ el.condition)).append (asks_loop scope el.loop)
  | template el children =>
    rw [Node.course, Node.references]
    exact ((asks_courseAll children _).append (asks_gate _ el.condition)).append
      (asks_loop scope el.loop)
  | slot el children name =>
    rw [Node.course, Node.references]
    exact asks_courseAll children _
  | custom el children component content =>
    rw [Node.course, Node.references, ← List.append_nil (_ ++ Node.referencesContent _ content)]
    exact (((((asks_data _ el).append (asks_courseContent content _)).append
      (asks_imported component))).append (asks_gate _ el.condition)).append
        (asks_loop scope el.loop)

theorem asks_courseAll (nodes : List Node) (scope : Scope) :
    Asks (Node.courseAll scope nodes) (Node.referencesAll scope nodes) := by
  cases nodes with
  | nil => exact .nil
  | cons node rest =>
    rw [Node.courseAll, Node.referencesAll]
    exact (asks_course node scope).append (asks_courseAll rest scope)

theorem asks_courseContent (content : List (String × List Node)) (scope : Scope) :
    Asks (Node.courseContent scope content) (Node.referencesContent scope content) := by
  cases content with
  | nil => exact .nil
  | cons slot rest =>
    obtain ⟨name, nodes⟩ := slot
    rw [Node.courseContent, Node.referencesContent]
    exact (asks_courseAll nodes scope).append (asks_courseContent rest scope)

end

theorem lowerTree_outcome (env : Environment) (scope : Scope) (root : Node) (start : State) :
    let run := (lowerTree env scope root).run.run start
    failure? run.1 = (Reference.outcome (root.references scope)).1 ∧
      run.2.journal.bindings =
        start.journal.bindings ++ (Reference.outcome (root.references scope)).2 := by
  have performed := lowerTree_performs env scope root start
  have asked := asks_course root scope start.progress
  rw [← performed] at asked
  exact Prod.mk.inj asked

/-- The binder is asked for the references of the template, each once, in order and in its scope. A
lowering that fails has asked for those up to the first condition with an unknown modifier. -/
theorem lowerTree_asks (env : Environment) (scope : Scope) (root : Node) (start : State) :
    match (lowerTree env scope root).run.run start with
    | (.ok _, finish) =>
      finish.journal.bindings =
        start.journal.bindings ++ (root.references scope).map Reference.call
    | (.error error, finish) =>
      ∃ before last after, root.references scope = before ++ last :: after ∧
        (∀ reference ∈ before, reference.refusal? = none) ∧
        (∃ modifier, last.modifier = some modifier ∧ Test.ofModifier? modifier = none ∧
          error = .unknownModifier modifier) ∧
        finish.journal.bindings =
          start.journal.bindings ++ (before ++ [last]).map Reference.call := by
  have outcome := lowerTree_outcome env scope root start
  revert outcome
  rcases (lowerTree env scope root).run.run start with ⟨error | expr, finish⟩
  · rintro ⟨failed, asked⟩
    obtain ⟨before, last, after, same, accepted, offends, calls⟩ :=
      Reference.outcome_some failed.symm
    refine ⟨before, last, after, same, accepted, ?_, by rw [asked, calls]⟩
    obtain ⟨modifier, tested, refused⟩ := Option.bind_eq_some_iff.mp offends
    simp only [Step.refusal?, Option.ite_none_right_eq_some, Option.isNone_iff_eq_none,
      Option.some.injEq] at refused
    exact ⟨modifier, tested, refused.1, refused.2.symm⟩
  · rintro ⟨completed, asked⟩
    exact asked.trans (congrArg _ (Reference.outcome_none completed.symm).1)

def AgreeOn (binder binder' : Binder) (references : List Reference) : Prop :=
  ∀ reference ∈ references,
    binder reference.path reference.scope = binder' reference.path reference.scope

section Agreement

variable {binder binder' : Binder} {references more : List Reference}

theorem AgreeOn.append (agree : AgreeOn binder binder' (references ++ more)) :
    AgreeOn binder binder' references ∧ AgreeOn binder binder' more :=
  List.forall_mem_append.mp agree

theorem AgreeOn.of_flatMap {α : Type} {asked : α → List Reference} {items : List α}
    (agree : AgreeOn binder binder' (items.flatMap asked)) :
    ∀ item ∈ items, AgreeOn binder binder' (asked item) := by
  intro item member reference among
  exact agree reference (List.mem_flatMap.mpr ⟨item, member, among⟩)

variable (api : RuntimeApi) {scope : Scope}

theorem bind_congr {path : Path} {modifier : Option String}
    (agree : AgreeOn binder binder' [⟨path, scope, modifier⟩]) :
    Lowering.bind ⟨api, binder⟩ path scope = Lowering.bind ⟨api, binder'⟩ path scope := by
  have same : binder path scope = binder' path scope := agree _ List.mem_cons_self
  simp only [Lowering.bind, same]

theorem valueExpr_congr {value : Value} (agree : AgreeOn binder binder' (value.references scope)) :
    valueExpr ⟨api, binder⟩ scope value = valueExpr ⟨api, binder'⟩ scope value := by
  cases value with
  | text value => rfl
  | number value => rfl
  | bound path => exact bind_congr api agree

theorem attributeExpr_congr {value : Value}
    (agree : AgreeOn binder binder' (value.references scope)) :
    attributeExpr ⟨api, binder⟩ scope value = attributeExpr ⟨api, binder'⟩ scope value := by
  rw [attributeExpr_eq, attributeExpr_eq, valueExpr_congr api agree]

theorem entries_congr {α : Type} {lower lower' : α → Lower Expr} {entries : Entries α}
    (same : ∀ entry ∈ entries, lower entry.2 = lower' entry.2) :
    (do
      let properties ← entries.mapM fun (name, value) => do return (name, ← lower value)
      return Expr.object properties : Lower Expr) = do
      let properties ← entries.mapM fun (name, value) => do return (name, ← lower' value)
      return Expr.object properties := by
  refine congrArg (· >>= fun properties => pure (Expr.object properties)) (mapM_congr ?_)
  rintro ⟨name, value⟩ member
  simp only [same _ member]

theorem styleExpr_congr {rules : Entries Value}
    (agree : AgreeOn binder binder' (entriesReferences scope (some rules))) :
    styleExpr ⟨api, binder⟩ scope rules = styleExpr ⟨api, binder'⟩ scope rules :=
  entries_congr fun rule member => valueExpr_congr api (agree.of_flatMap rule member)

theorem attributesExpr_congr {attributes : Entries Value}
    (agree : AgreeOn binder binder' (entriesReferences scope (some attributes))) :
    attributesExpr ⟨api, binder⟩ scope attributes =
      attributesExpr ⟨api, binder'⟩ scope attributes :=
  entries_congr fun entry member => attributeExpr_congr api (agree.of_flatMap entry member)

theorem handlersExpr_congr {handlers : Entries Path}
    (agree : AgreeOn binder binder' (handlers.map fun handler => { path := handler.2, scope })) :
    handlersExpr ⟨api, binder⟩ scope handlers = handlersExpr ⟨api, binder'⟩ scope handlers := by
  refine congrArg (· >>= fun properties => pure (Expr.object properties)) (mapM_congr ?_)
  rintro ⟨event, path⟩ member
  have bound := bind_congr api (List.forall_mem_singleton.mpr
    (agree _ (List.mem_map_of_mem member)))
  simp only [bound]
  rfl

theorem propertyOf_congr {α : Type} (name : String) {lower lower' : α → Lower Expr}
    {value : Option α} (same : ∀ inside ∈ value, lower inside = lower' inside) :
    propertyOf name lower value = propertyOf name lower' value := by
  cases value with
  | none => rfl
  | some value => rw [propertyOf, propertyOf, same value rfl]

theorem dataProperties_congr {el : Element}
    (agree : AgreeOn binder binder' (el.dataReferences scope)) :
    dataProperties ⟨api, binder⟩ scope el = dataProperties ⟨api, binder'⟩ scope el := by
  obtain ⟨values, handlers⟩ := agree.append
  obtain ⟨values, props⟩ := values.append
  obtain ⟨values, attrs⟩ := values.append
  obtain ⟨className, style⟩ := values.append
  have className : propertyOf "className" (valueExpr ⟨api, binder⟩ scope) el.className =
      propertyOf "className" (valueExpr ⟨api, binder'⟩ scope) el.className :=
    propertyOf_congr _ fun value member =>
      valueExpr_congr api (className.of_flatMap value (Option.mem_toList.mpr member))
  have style : propertyOf "style" (styleExpr ⟨api, binder⟩ scope) el.style =
      propertyOf "style" (styleExpr ⟨api, binder'⟩ scope) el.style :=
    propertyOf_congr _ fun rules member => styleExpr_congr api (member ▸ style)
  have attrs : propertyOf "attrs" (attributesExpr ⟨api, binder⟩ scope) el.attrs =
      propertyOf "attrs" (attributesExpr ⟨api, binder'⟩ scope) el.attrs :=
    propertyOf_congr _ fun entries member => attributesExpr_congr api (member ▸ attrs)
  have props : propertyOf "props" (attributesExpr ⟨api, binder⟩ scope) el.props =
      propertyOf "props" (attributesExpr ⟨api, binder'⟩ scope) el.props :=
    propertyOf_congr _ fun entries member => attributesExpr_congr api (member ▸ props)
  have on : propertyOf "on" (handlersExpr ⟨api, binder⟩ scope) el.on =
      propertyOf "on" (handlersExpr ⟨api, binder'⟩ scope) el.on :=
    propertyOf_congr _ fun entries member => by
      rw [Option.mem_def.mp member] at handlers
      exact handlersExpr_congr api handlers
  simp only [dataProperties, className, style, attrs, props, on]

theorem testExpr_congr {condition : Condition}
    (agree : AgreeOn binder binder' [⟨condition.path, scope, some condition.modifier⟩]) :
    testExpr ⟨api, binder⟩ scope condition = testExpr ⟨api, binder'⟩ scope condition := by
  simp only [testExpr, bind_congr api agree]

theorem gate_congr {condition : Option Condition}
    (agree : AgreeOn binder binder' (conditionReferences scope condition)) (expr : Expr) :
    gate ⟨api, binder⟩ scope condition expr = gate ⟨api, binder'⟩ scope condition expr := by
  cases condition with
  | none => rfl
  | some condition => simp only [gate, testExpr_congr api agree]

theorem gateEach_congr {condition : Option Condition}
    (agree : AgreeOn binder binder' (conditionReferences scope condition)) (exprs : List Expr) :
    gateEach ⟨api, binder⟩ scope condition exprs =
      gateEach ⟨api, binder'⟩ scope condition exprs := by
  cases condition with
  | none => rfl
  | some condition => simp only [gateEach, testExpr_congr api agree]

theorem repeated_congr {outer : Scope} {loop : Option Loop}
    (agree : AgreeOn binder binder' (loopReferences outer loop)) (expr : Expr) :
    repeated ⟨api, binder⟩ outer loop expr = repeated ⟨api, binder'⟩ outer loop expr := by
  cases loop with
  | none => rfl
  | some loop => simp only [repeated, bind_congr api agree]

section Directed

variable {outer : Scope} {el : Element}
  (gates : AgreeOn binder binder' (conditionReferences scope el.condition))
  (repeats : AgreeOn binder binder' (loopReferences outer el.loop))

include gates repeats

theorem directed_congr (expr : Expr) :
    directed ⟨api, binder⟩ ⟨scope, outer⟩ el expr =
      directed ⟨api, binder'⟩ ⟨scope, outer⟩ el expr := by
  simp only [directed, gate_congr api gates, repeated_congr api repeats]

theorem templateContribution_congr (children : List Node) (lowered : List Expr) :
    templateContribution ⟨api, binder⟩ ⟨scope, outer⟩ el children lowered =
      templateContribution ⟨api, binder'⟩ ⟨scope, outer⟩ el children lowered := by
  simp only [templateContribution, directed_congr api gates repeats, gateEach_congr api gates]
  cases looped : el.loop with
  | none => cases el.condition <;> rfl
  | some loop =>
    rw [looped] at repeats
    simp only [repeated_congr api repeats]

end Directed

mutual

theorem contributions_congr (node : Node) (depth : Nat) (scope : Scope)
    (agree : AgreeOn binder binder' (node.references scope)) :
    contributions ⟨api, binder⟩ depth scope node =
      contributions ⟨api, binder'⟩ depth scope node := by
  cases node with
  | text value => simp only [contributions, textNode, valueExpr_congr api agree]
  | element el children =>
    obtain ⟨agree, repeats⟩ := agree.append
    obtain ⟨agree, gates⟩ := agree.append
    obtain ⟨below, data⟩ := agree.append
    have lowered := contributionsAll_congr children (depth + 1) _ below
    simp only [contributions, innerScope, dataBag, lowered, dataProperties_congr api data,
      directed_congr api gates repeats]
  | template el children =>
    obtain ⟨agree, repeats⟩ := agree.append
    obtain ⟨below, gates⟩ := agree.append
    have lowered := contributionsAll_congr children (depth + 1) _ below
    simp only [contributions, innerScope, lowered, templateContribution_congr api gates repeats]
  | slot el children name =>
    simp only [contributions, innerScope, contributionsAll_congr children (depth + 1) _ agree]
  | custom el children component content =>
    obtain ⟨agree, repeats⟩ := agree.append
    obtain ⟨agree, gates⟩ := agree.append
    obtain ⟨data, below⟩ := agree.append
    simp only [contributions, innerScope, dataProperties_congr api data,
      contributionsContent_congr content _ el.tag below, directed_congr api gates repeats]

theorem contributionsAll_congr (nodes : List Node) (depth : Nat) (scope : Scope)
    (agree : AgreeOn binder binder' (Node.referencesAll scope nodes)) :
    contributionsAll ⟨api, binder⟩ depth scope nodes =
      contributionsAll ⟨api, binder'⟩ depth scope nodes := by
  cases nodes with
  | nil => rfl
  | cons node rest =>
    obtain ⟨here, later⟩ := agree.append
    simp only [contributionsAll, contributions_congr node depth scope here,
      contributionsAll_congr rest depth scope later]

theorem contributionsContent_congr (content : List (String × List Node)) (scope : Scope)
    (tag : String) (agree : AgreeOn binder binder' (Node.referencesContent scope content)) :
    contributionsContent ⟨api, binder⟩ scope tag content =
      contributionsContent ⟨api, binder'⟩ scope tag content := by
  cases content with
  | nil => rfl
  | cons slot rest =>
    obtain ⟨name, nodes⟩ := slot
    obtain ⟨here, later⟩ := agree.append
    simp only [contributionsContent, contributionsAll_congr nodes 1 scope here,
      contributionsContent_congr rest scope tag later]

end

/-- What a lowering answers, and what it leaves behind, depends on its binder only through what that
answers for the references of the template. -/
theorem lowerTree_congr (scope : Scope) (root : Node)
    (agree : AgreeOn binder binder' (root.references scope)) :
    lowerTree ⟨api, binder⟩ scope root = lowerTree ⟨api, binder'⟩ scope root := by
  rw [lowerTree_eq_gathered, lowerTree_eq_gathered, contributions_congr api root 0 scope agree]

end Agreement

end Lowering

end RenderCompiler
