import RenderCompiler.Proofs.Lowering.Direct

set_option autoImplicit false

namespace RenderCompiler

inductive Step where
  | reads (path : Path) (scope : Scope)
  | handles (path : Path) (scope : Scope)
  | tests (modifier : String)
  | imports (component : String)
deriving DecidableEq, Repr

def Step.refusal? : Step → Option CompileError
  | .tests modifier =>
    if (Lowering.Test.ofModifier? modifier).isNone then some (.unknownModifier modifier) else none
  | .reads _ _ | .handles _ _ | .imports _ => none

section Template

variable (scope : Scope)

def Value.course : Value → List Step
  | .text _ | .number _ => []
  | .bound path => [.reads path scope]

def valuesCourse (entries : Option (Entries Value)) : List Step :=
  (entries.getD []).flatMap fun entry => entry.2.course scope

def handlersCourse (handlers : Entries Path) : List Step :=
  handlers.flatMap fun handler => [.reads handler.2 scope, .handles handler.2 scope]

-- The values of a class map are never looked at.
def Element.dataCourse (el : Element) : List Step :=
  el.className.toList.flatMap (Value.course scope) ++ valuesCourse scope el.style ++
    valuesCourse scope el.attrs ++ valuesCourse scope el.props ++
    handlersCourse scope (el.on.getD [])

def conditionCourse (condition : Option Condition) : List Step :=
  condition.toList.flatMap fun condition =>
    [.reads condition.path scope, .tests condition.modifier]

def loopCourse (loop : Option Loop) : List Step :=
  loop.toList.map fun loop => .reads loop.path scope

end Template

namespace Node

open Lowering

mutual

/-- The steps that lowering a node in a scope takes. -/
def course : Scope → Node → List Step
  | scope, .text value => value.course scope
  | scope, .element el children =>
    let inner := innerScope scope el.loop
    courseAll inner children ++ el.dataCourse inner ++ conditionCourse inner el.condition ++
      loopCourse scope el.loop
  | scope, .template el children =>
    let inner := innerScope scope el.loop
    courseAll inner children ++ conditionCourse inner el.condition ++ loopCourse scope el.loop
  | scope, .slot el children _ => courseAll (innerScope scope el.loop) children
  | scope, .custom el _ component content =>
    let inner := innerScope scope el.loop
    el.dataCourse inner ++ courseContent inner content ++ [.imports component] ++
      conditionCourse inner el.condition ++ loopCourse scope el.loop

def courseAll : Scope → List Node → List Step
  | _, [] => []
  | scope, node :: rest => course scope node ++ courseAll scope rest

def courseContent : Scope → List (String × List Node) → List Step
  | _, [] => []
  | scope, (_, nodes) :: rest => courseAll scope nodes ++ courseContent scope rest

end

end Node

namespace Lowering

structure Progress where
  slots : Nat
  imports : ImportTable
  bindings : List (Path × Scope)

def State.progress (state : State) : Progress :=
  ⟨state.slots, state.imports, state.journal.bindings⟩

def Progress.step (progress : Progress) : Step → Progress
  | .reads path scope => { progress with bindings := progress.bindings ++ [(path, scope)] }
  | .handles _ _ => { progress with slots := progress.slots + 1 }
  | .tests _ => progress
  | .imports component => { progress with imports := (progress.imports.register component).2 }

def Progress.follow : Progress → List Step → Option CompileError × Progress
  | progress, [] => (none, progress)
  | progress, step :: rest =>
    match step.refusal? with
    | some error => (some error, progress)
    | none => follow (progress.step step) rest

def failure? {α : Type} : Except CompileError α → Option CompileError
  | .ok _ => none
  | .error error => some error

-- The journal holds log records as well, of which a course says nothing.
def Performs {α : Type} (program : Lower α) (steps : List Step) : Prop :=
  ∀ start, (failure? (program.run.run start).1, (program.run.run start).2.progress) =
    start.progress.follow steps

section Following

variable (progress : Progress) (steps others : List Step)

theorem Progress.follow_append :
    progress.follow (steps ++ others) =
      match progress.follow steps with
      | (some error, reached) => (some error, reached)
      | (none, reached) => reached.follow others := by
  induction steps generalizing progress with
  | nil => rfl
  | cons step rest ih =>
    rw [List.cons_append, follow, follow]
    cases step.refusal? with
    | some error => rfl
    | none => exact ih (progress.step step)

def taken : List Step := steps.takeWhile (·.refusal?.isNone)

theorem Progress.follow_eq :
    progress.follow steps =
      (steps.findSome? Step.refusal?, (taken steps).foldl Progress.step progress) := by
  induction steps generalizing progress with
  | nil => rfl
  | cons step rest ih =>
    rw [follow, List.findSome?_cons, taken, List.takeWhile_cons]
    cases step.refusal? with
    | some error => rfl
    | none => exact ih (progress.step step)

end Following

section Programs

variable {α β : Type} {program : Lower α} {continuation : α → Lower β} {steps others : List Step}

theorem Performs.pure (value : α) : Performs (pure value) [] := fun _ => rfl

theorem Performs.bind (first : Performs program steps)
    (second : ∀ value, Performs (continuation value) others) :
    Performs (program >>= continuation) (steps ++ others) := by
  intro start
  have here := first start
  rw [Progress.follow_append, ← here, run_bind]
  rcases program.run.run start with ⟨value | error, middle⟩
  · rfl
  · exact second _ middle

theorem Performs.then_pure {value : α → β} (first : Performs program steps) :
    Performs (do return value (← program)) steps := by
  have whole := first.bind fun result => Performs.pure (value result)
  rwa [List.append_nil] at whole

theorem Performs.after (first : Performs program [])
    (second : ∀ value, Performs (continuation value) steps) :
    Performs (program >>= continuation) steps :=
  first.bind second

theorem mapM_performs {step : α → Lower β} {course : α → List Step} (items : List α)
    (each : ∀ item, Performs (step item) (course item)) :
    Performs (items.mapM step) (items.flatMap course) := by
  induction items with
  | nil => exact .pure []
  | cons item rest ih =>
    rw [List.mapM_cons, List.flatMap_cons]
    exact (each item).bind fun _ => ih.then_pure

theorem record_run (event : Event) (start : State) :
    (record event).run.run start =
      (.ok (), { start with journal := start.journal.push event }) := rfl

theorem log_performs (severity : Severity) (source : LogSource) (message : String) :
    Performs (log severity source message) [] := by
  intro start
  rw [log, record_run]
  simp [Progress.follow, failure?, State.progress]

end Programs

section Parts

variable (env : Environment) (scope : Scope)

theorem bind_performs (path : Path) :
    Performs (Lowering.bind env path scope) [.reads path scope] := by
  have bound : Performs (record (.bound path scope)) [.reads path scope] := by
    intro start
    rw [record_run]
    simp [Progress.follow, Progress.step, Step.refusal?, failure?, State.progress]
  exact bound.then_pure

theorem valueExpr_performs (value : Value) :
    Performs (valueExpr env scope value) (value.course scope) := by
  cases value with
  | text value => exact .pure _
  | number value => exact .pure _
  | bound path => exact bind_performs env scope path

theorem attributeExpr_performs (value : Value) :
    Performs (attributeExpr env scope value) (value.course scope) := by
  rw [attributeExpr_eq]
  split
  next empty =>
    rw [empty]
    exact .pure _
  next => exact valueExpr_performs env scope value

theorem memoize_performs (handler : Expr) (path : Path) :
    Performs (memoize env handler) [.handles path scope] := by
  intro start
  have journal := Journal.bindings_push_logged start.journal
    ⟨.trace, .handlers, "memoized handler in slot " ++ toString start.nextSlot⟩
  simp only [Progress.follow, Progress.step, Step.refusal?, State.progress]
  rw [← journal]
  rfl

theorem handlersExpr_performs (handlers : Entries Path) :
    Performs (handlersExpr env scope handlers) (handlersCourse scope handlers) := by
  refine (mapM_performs handlers fun handler => ?_).then_pure
  exact (bind_performs env scope handler.2).bind fun handler =>
    (memoize_performs env scope handler _).then_pure

theorem entries_performs {make : Value → Lower Expr}
    (each : ∀ value, Performs (make value) (value.course scope)) (entries : Entries Value) :
    Performs (do
        let properties ← entries.mapM fun (name, value) => do return (name, ← make value)
        return Expr.object properties)
      (entries.flatMap fun entry => entry.2.course scope) :=
  (mapM_performs entries fun entry => (each entry.2).then_pure).then_pure

theorem propertyOf_performs {α : Type} {lower : α → Lower Expr} {course : α → List Step}
    (name : String) (each : ∀ value, Performs (lower value) (course value)) (value : Option α) :
    Performs (propertyOf name lower value) (value.toList.flatMap course) := by
  cases value with
  | none => exact .pure _
  | some value =>
    rw [Option.toList_some, List.flatMap_singleton]
    exact (each value).then_pure

theorem propertyOf_silent {α : Type} (name : String) (expr : α → Expr) (value : Option α) :
    Performs (propertyOf name (fun value => pure (expr value)) value) [] := by
  cases value <;> exact .pure _

theorem valuesCourse_eq (entries : Option (Entries Value)) :
    valuesCourse scope entries =
      entries.toList.flatMap fun entries => entries.flatMap fun entry => entry.2.course scope := by
  cases entries <;> simp [valuesCourse]

theorem dataProperties_performs (el : Element) :
    Performs (dataProperties env scope el) (el.dataCourse scope) := by
  have handlers : handlersCourse scope (el.on.getD []) =
      el.on.toList.flatMap (handlersCourse scope) := by
    cases el.on <;> simp [handlersCourse]
  simp only [Element.dataCourse, valuesCourse_eq, handlers, List.append_assoc]
  refine (propertyOf_performs "className" (valueExpr_performs env scope) _).bind fun _ => ?_
  refine (propertyOf_silent "classMap" classMapExpr _).after fun _ => ?_
  refine (propertyOf_performs "style"
    (entries_performs scope (valueExpr_performs env scope)) _).bind fun _ => ?_
  refine (propertyOf_performs "attrs"
    (entries_performs scope (attributeExpr_performs env scope)) _).bind fun _ => ?_
  refine (propertyOf_performs "props"
    (entries_performs scope (attributeExpr_performs env scope)) _).bind fun _ => ?_
  refine (propertyOf_silent "key" id _).after fun _ => ?_
  exact (propertyOf_performs "on" (handlersExpr_performs env scope) _).then_pure

theorem dataBag_performs (el : Element) :
    Performs (dataBag env scope el) (el.dataCourse scope) :=
  (dataProperties_performs env scope el).then_pure

theorem localName_performs (component : String) :
    Performs (localName component) [.imports component] := by
  intro start
  simp only [Progress.follow, Progress.step, Step.refusal?, State.progress, localName, run_bind,
    run_get]
  cases start.imports.local? component with
  | some name => rfl
  | none =>
    have journal := Journal.bindings_push_logged start.journal ⟨.warn, .imports,
      "component '" ++ component ++ "' is not a declared dependency; importing it anyway"⟩
    rw [← journal]
    rfl

theorem testExpr_performs (condition : Condition) :
    Performs (testExpr env scope condition)
      [.reads condition.path scope, .tests condition.modifier] := by
  refine (bind_performs env scope condition.path).bind fun bound => ?_
  cases known : Test.ofModifier? condition.modifier with
  | some test =>
    intro start
    simp only [Progress.follow, Step.refusal?, known]
    rfl
  | none =>
    intro start
    simp only [Progress.follow, Step.refusal?, known]
    rfl

theorem gate_performs (condition : Option Condition) (expr : Expr) :
    Performs (gate env scope condition expr) (conditionCourse scope condition) := by
  cases condition with
  | none => exact .pure _
  | some condition => exact (testExpr_performs env scope condition).then_pure

theorem gateEach_performs (condition : Option Condition) (exprs : List Expr) :
    Performs (gateEach env scope condition exprs) (conditionCourse scope condition) := by
  cases condition with
  | none => exact .pure _
  | some condition => exact (testExpr_performs env scope condition).then_pure

theorem repeated_performs (loop : Option Loop) (expr : Expr) :
    Performs (repeated env scope loop expr) (loopCourse scope loop) := by
  cases loop with
  | none => exact .pure _
  | some loop => exact (bind_performs env scope loop.path).then_pure

theorem directed_performs (outer : Scope) (el : Element) (expr : Expr) :
    Performs (directed env ⟨scope, outer⟩ el expr)
      (conditionCourse scope el.condition ++ loopCourse outer el.loop) :=
  (gate_performs env scope el.condition expr).bind fun expr =>
    repeated_performs env outer el.loop expr

theorem templateContribution_performs (outer : Scope) (el : Element) (children : List Node)
    (lowered : List Expr) :
    Performs (templateContribution env ⟨scope, outer⟩ el children lowered)
      (conditionCourse scope el.condition ++ loopCourse outer el.loop) := by
  unfold templateContribution
  split
  · exact (directed_performs env scope outer el _).then_pure
  · refine (gateEach_performs env scope el.condition lowered).bind fun exprs => ?_
    split
    next loop loops =>
      rw [loops]
      exact (repeated_performs env outer (some loop) _).then_pure
    next loops _ =>
      rw [loops]
      exact .pure _
    next loops _ =>
      rw [loops]
      exact .pure _

theorem warnPassedOver_performs (el : Element) (children : List Node) :
    Performs (warnPassedOver el children) [] := by
  cases children with
  | nil => exact .pure _
  | cons child rest => exact log_performs _ _ _

theorem logExit_performs (depth : Nat) (tag : String) (lowered : List Expr) :
    Performs (logExit depth tag lowered) [] := log_performs _ _ _

theorem gathered_performs (exprs : List Expr) : Performs (gathered exprs) [] := by
  match exprs with
  | [] => exact (log_performs _ _ _).then_pure
  | [only] => exact .pure _
  | first :: second :: rest => exact (log_performs _ _ _).then_pure

end Parts

section Nodes

variable (env : Environment)

mutual

theorem contributions_perform (node : Node) (depth : Nat) (scope : Scope) :
    Performs (contributions env depth scope node) (node.course scope) := by
  cases node with
  | text value => exact ((valueExpr_performs env scope value).then_pure).then_pure
  | element el children =>
    rw [contributions, Node.course, List.append_assoc, List.append_assoc]
    refine (contributionsAll_perform children _ _).bind fun lowered => ?_
    refine (logExit_performs depth el.tag lowered).after fun _ => ?_
    refine (dataBag_performs env _ el).bind fun data => ?_
    exact (directed_performs env _ scope el _).then_pure
  | template el children =>
    rw [contributions, Node.course, List.append_assoc]
    refine (contributionsAll_perform children _ _).bind fun lowered => ?_
    refine (logExit_performs depth el.tag lowered).after fun _ => ?_
    exact templateContribution_performs env _ scope el children lowered
  | slot el children name =>
    rw [contributions, Node.course, ← List.append_nil (Node.courseAll _ _)]
    refine (contributionsAll_perform children _ _).bind fun lowered => ?_
    exact (logExit_performs depth el.tag lowered).then_pure
  | custom el children component content =>
    rw [contributions, Node.course, List.append_assoc, List.append_assoc, List.append_assoc]
    refine (warnPassedOver_performs el children).after fun _ => ?_
    refine (logExit_performs depth el.tag []).after fun _ => ?_
    refine (dataProperties_performs env _ el).bind fun data => ?_
    refine (contributionsContent_perform content _ el.tag).bind fun slots => ?_
    refine (localName_performs component).bind fun constructor => ?_
    exact (directed_performs env _ scope el _).then_pure

theorem contributionsAll_perform (nodes : List Node) (depth : Nat) (scope : Scope) :
    Performs (contributionsAll env depth scope nodes) (Node.courseAll scope nodes) := by
  cases nodes with
  | nil => exact .pure _
  | cons node rest =>
    rw [contributionsAll, Node.courseAll]
    exact (contributions_perform node depth scope).bind fun _ =>
      (contributionsAll_perform rest depth scope).then_pure

theorem contributionsContent_perform (content : List (String × List Node)) (scope : Scope)
    (tag : String) :
    Performs (contributionsContent env scope tag content) (Node.courseContent scope content) := by
  cases content with
  | nil => exact .pure _
  | cons slot rest =>
    obtain ⟨name, nodes⟩ := slot
    rw [contributionsContent, Node.courseContent]
    refine (log_performs _ _ _).after fun _ => ?_
    refine (contributionsAll_perform nodes 1 scope).bind fun lowered => ?_
    refine (logExit_performs 0 "template" lowered).after fun _ => ?_
    exact (contributionsContent_perform rest scope tag).then_pure

end

/-- Lowering takes the steps of the template's course, up to the first that is refused. -/
theorem lowerTree_performs (scope : Scope) (root : Node) :
    Performs (lowerTree env scope root) (root.course scope) := by
  rw [lowerTree_eq_gathered, ← List.append_nil (root.course scope)]
  exact (contributions_perform env root 0 scope).bind gathered_performs

end Nodes

end Lowering

end RenderCompiler
