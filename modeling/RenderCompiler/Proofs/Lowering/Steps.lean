import RenderCompiler.Proofs.Imports
import RenderCompiler.Proofs.Lowering.Sketch

set_option autoImplicit false

namespace RenderCompiler.Lowering

section Steps

variable {α β : Type}

-- The journal is written but never read, so it is left open at both ends.
def Runs (program : Lower α) (slots : Nat) (imports : ImportTable) (value : α) (slots' : Nat)
    (imports' : ImportTable) : Prop :=
  ∀ journal, ∃ journal',
    program.run.run ⟨slots, imports, journal⟩ = (.ok value, ⟨slots', imports', journal'⟩)

def Fails (program : Lower α) (slots : Nat) (imports : ImportTable) (error : CompileError) :
    Prop :=
  ∀ journal, ∃ finish, program.run.run ⟨slots, imports, journal⟩ = (.error error, finish)

variable {program : Lower α} {continuation : α → Lower β} {value : α} {result : β}
  {error : CompileError} {slots slots' slots'' : Nat} {imports imports' imports'' : ImportTable}

theorem run_bind (start : State) :
    (program >>= continuation).run.run start =
      match program.run.run start with
      | (.ok value, finish) => (continuation value).run.run finish
      | (.error error, finish) => (.error error, finish) := by
  simp only [ExceptT.run_bind, StateT.run_bind]
  rcases program.run.run start with ⟨value | error, finish⟩ <;> rfl

theorem run_get (start : State) : (get : Lower State).run.run start = (.ok start, start) := rfl

theorem Runs.pure (value : α) : Runs (pure value) slots imports value slots imports :=
  fun journal => ⟨journal, rfl⟩

theorem Runs.bind (first : Runs program slots imports value slots' imports')
    (second : Runs (continuation value) slots' imports' result slots'' imports'') :
    Runs (program >>= continuation) slots imports result slots'' imports'' := by
  intro journal
  obtain ⟨middle, ran⟩ := first journal
  obtain ⟨journal', ran'⟩ := second middle
  exact ⟨journal', by rw [run_bind, ran]; exact ran'⟩

theorem Fails.bind (failed : Fails program slots imports error) :
    Fails (program >>= continuation) slots imports error := by
  intro journal
  obtain ⟨finish, ran⟩ := failed journal
  exact ⟨finish, by rw [run_bind, ran]⟩

theorem Runs.bind_fails (first : Runs program slots imports value slots' imports')
    (second : Fails (continuation value) slots' imports' error) :
    Fails (program >>= continuation) slots imports error := by
  intro journal
  obtain ⟨middle, ran⟩ := first journal
  obtain ⟨finish, ran'⟩ := second middle
  exact ⟨finish, by rw [run_bind, ran]; exact ran'⟩

theorem get_runs {continuation : State → Lower β}
    (each : ∀ journal,
      Runs (continuation ⟨slots, imports, journal⟩) slots imports result slots' imports') :
    Runs (do continuation (← get)) slots imports result slots' imports' := by
  intro journal
  exact each journal journal

theorem get_fails {continuation : State → Lower β}
    (each : ∀ journal, Fails (continuation ⟨slots, imports, journal⟩) slots imports error) :
    Fails (do continuation (← get)) slots imports error := by
  intro journal
  exact each journal journal

theorem log_runs (severity : Severity) (source : LogSource) (message : String) :
    Runs (log severity source message) slots imports () slots imports :=
  fun _ => ⟨_, rfl⟩

theorem bind_runs (env : Environment) (path : Path) (scope : Scope) :
    Runs (Lowering.bind env path scope) slots imports (env.binder path scope) slots imports :=
  fun _ => ⟨_, rfl⟩

theorem memoize_runs (env : Environment) (handler : Expr) :
    Runs (memoize env handler) slots imports (env.api.bindCall handler (.ofNat slots)) (slots + 1)
      imports :=
  fun _ => ⟨_, rfl⟩

theorem localName_runs (component : String) :
    Runs (localName component) slots imports (imports.register component).1 slots
      (imports.register component).2 := by
  intro journal
  simp only [localName, run_bind, run_get]
  cases imports.local? component <;> exact ⟨_, rfl⟩

theorem mapM_runs {step : α → Lower β} {answer : α → β} (items : List α)
    (each : ∀ item, Runs (step item) slots imports (answer item) slots imports) :
    Runs (items.mapM step) slots imports (items.map answer) slots imports := by
  induction items with
  | nil => exact .pure []
  | cons item rest ih =>
    rw [List.mapM_cons]
    exact (each item).bind (ih.bind (.pure _))

end Steps

section Data

variable (env : Environment) (names : String → String) (scope : Scope) {slots : Nat}
  {imports : ImportTable}

theorem valueExpr_runs (value : Value) :
    Runs (valueExpr env scope value) slots imports ((Sketch.ofValue scope value).expr env names)
      slots imports := by
  cases value with
  | text value => exact .pure _
  | number value => exact .pure _
  | bound path => exact bind_runs env path scope

theorem attributeExpr_eq (value : Value) :
    attributeExpr env scope value =
      if value = .text "" then pure (.boolean true) else valueExpr env scope value := by
  unfold attributeExpr
  split
  next => rw [if_pos rfl]
  next apart => rw [if_neg apart]

theorem attributeExpr_runs (value : Value) :
    Runs (attributeExpr env scope value) slots imports
      ((Sketch.ofAttribute scope value).expr env names) slots imports := by
  rw [attributeExpr_eq, Sketch.ofAttribute_eq]
  by_cases empty : value = .text ""
  · rw [if_pos empty, if_pos empty]
    exact .pure _
  · rw [if_neg empty, if_neg empty]
    exact valueExpr_runs env names scope value

theorem entries_runs {make : Value → Lower Expr} {sketch : Value → Sketch}
    (each : ∀ value,
      Runs (make value) slots imports ((sketch value).expr env names) slots imports)
    (entries : Entries Value) :
    Runs (do
        let properties ← entries.mapM fun (name, value) => do return (name, ← make value)
        return Expr.object properties)
      slots imports ((Sketch.ofEntries sketch entries).expr env names) slots imports := by
  have named (entry : String × Value) :
      Runs (do return (entry.1, ← make entry.2)) slots imports
        (entry.1, (sketch entry.2).expr env names) slots imports :=
    (each entry.2).bind (.pure _)
  simp only [Sketch.ofEntries, Sketch.expr, Sketch.exprProperties_map]
  exact (mapM_runs entries named).bind (.pure _)

theorem memoized_runs (handlers : Entries Path) (given : Nat) :
    Runs (handlers.mapM fun (event, path) => do
        return (event, ← memoize env (← bind env path scope)))
      given imports
      ((handlers.zipIdx given).map fun ((event, path), index) =>
        (event, env.api.bindCall (env.binder path scope) (.ofNat index)))
      (given + handlers.length) imports := by
  induction handlers generalizing given with
  | nil => exact .pure []
  | cons handler rest ih =>
    have first :
        Runs (do return (handler.1, ← memoize env (← bind env handler.2 scope))) given imports
          (handler.1, env.api.bindCall (env.binder handler.2 scope) (.ofNat given)) (given + 1)
          imports :=
      (bind_runs env handler.2 scope).bind ((memoize_runs env _).bind (.pure _))
    have others := ih (given + 1)
    rw [Nat.add_right_comm, Nat.add_assoc] at others
    rw [List.mapM_cons]
    exact first.bind (others.bind (.pure _))

theorem handlersExpr_runs (handlers : Entries Path) :
    Runs (handlersExpr env scope handlers) slots imports
      ((Sketch.ofHandlers scope slots handlers).expr env names) (slots + handlers.length)
      imports := by
  unfold Sketch.ofHandlers
  simp only [Sketch.expr, Sketch.exprProperties_map]
  exact (memoized_runs env scope handlers slots).bind (.pure _)

theorem propertyOf_runs {α : Type} {lower : α → Lower Expr} {make : α → Sketch} (name : String)
    (each : ∀ value, Runs (lower value) slots imports ((make value).expr env names) slots imports)
    (value : Option α) :
    Runs (propertyOf name lower value) slots imports
      (Sketch.exprProperties env names (Sketch.field name make value)) slots imports := by
  cases value with
  | none => exact .pure _
  | some value => exact (each value).bind (.pure _)

theorem onProperty_runs (handlers : Option (Entries Path)) :
    Runs (propertyOf "on" (handlersExpr env scope) handlers) slots imports
      (Sketch.exprProperties env names
        (Sketch.field "on" (Sketch.ofHandlers scope slots) handlers))
      (slots + (handlers.getD []).length) imports := by
  cases handlers with
  | none => exact .pure _
  | some handlers => exact (handlersExpr_runs env names scope handlers).bind (.pure _)

theorem classMapExpr_runs (classes : Entries Value) :
    Runs (pure (classMapExpr classes)) slots imports
      ((Sketch.ofEntries (fun _ => .boolean true) classes).expr env names) slots imports := by
  simp only [Sketch.ofEntries, Sketch.expr, Sketch.exprProperties_map]
  exact .pure _

theorem dataProperties_runs (el : Element) :
    Runs (dataProperties env scope el) slots imports
      (Sketch.exprProperties env names (Sketch.dataFields scope slots el))
      (slots + el.handlerCount) imports := by
  have style (rules : Entries Value) :
      Runs (styleExpr env scope rules) slots imports
        ((Sketch.ofEntries (Sketch.ofValue scope) rules).expr env names) slots imports :=
    entries_runs env names (valueExpr_runs env names scope) rules
  have attributes (entries : Entries Value) :
      Runs (attributesExpr env scope entries) slots imports
        ((Sketch.ofEntries (Sketch.ofAttribute scope) entries).expr env names) slots imports :=
    entries_runs env names (attributeExpr_runs env names scope) entries
  have key (key : Expr) :
      Runs (pure key) slots imports ((Sketch.verbatim key).expr env names) slots imports := .pure _
  simp only [Sketch.dataFields, Sketch.exprProperties_append]
  refine (propertyOf_runs env names "className" (valueExpr_runs env names scope) _).bind ?_
  refine (propertyOf_runs env names "classMap" (classMapExpr_runs env names) _).bind ?_
  refine (propertyOf_runs env names "style" style _).bind ?_
  refine (propertyOf_runs env names "attrs" attributes _).bind ?_
  refine (propertyOf_runs env names "props" attributes _).bind ?_
  refine (propertyOf_runs env names "key" key _).bind ?_
  exact (onProperty_runs env names scope el.on).bind (.pure _)

end Data

section Lists

def NotList (expr : Expr) : Prop := ∀ elements, expr ≠ .array elements

variable {expr : Expr}

theorem gatedChildren_of_notList (notList : NotList expr) (test : Expr) :
    gatedChildren test expr = gated test expr := by
  unfold gatedChildren
  split
  next elements => exact absurd rfl (notList elements)
  next => rfl

theorem loopBody_of_notList (notList : NotList expr) : loopBody expr = expr := by
  unfold loopBody
  split
  next only => exact absurd rfl (notList [only])
  next => rfl

end Lists

section Directives

variable (env : Environment) (names : String → String) (scope : Scope) {slots : Nat}
  {imports : ImportTable}

def Known (condition : Option Condition) : Prop :=
  ∀ given ∈ condition, (Test.ofModifier? given.modifier).isSome

theorem testExpr_runs (condition : Condition) (known : Known (some condition)) :
    Runs (testExpr env scope condition) slots imports
      ((Sketch.ofTest scope condition).expr env names) slots imports := by
  obtain ⟨test, found⟩ := Option.isSome_iff_exists.mp (known condition rfl)
  refine (bind_runs env condition.path scope).bind ?_
  simp only [Sketch.ofTest, found]
  cases test <;> exact .pure _

theorem testExpr_fails (condition : Condition)
    (unknown : Test.ofModifier? condition.modifier = none) :
    Fails (testExpr env scope condition) slots imports (.unknownModifier condition.modifier) := by
  refine (bind_runs env condition.path scope).bind_fails ?_
  simp only [unknown]
  exact fun _ => ⟨_, rfl⟩

theorem gate_runs (condition : Option Condition) (known : Known condition) (sketch : Sketch) :
    Runs (gate env scope condition (sketch.expr env names)) slots imports
      ((Sketch.gatedOn scope condition sketch).expr env names) slots imports := by
  cases condition with
  | none => exact .pure _
  | some condition => exact (testExpr_runs env names scope condition known).bind (.pure _)

theorem repeated_runs (loop : Option Loop) (sketch : Sketch) :
    Runs (repeated env scope loop (sketch.expr env names)) slots imports
      ((Sketch.repeatedOver scope loop sketch).expr env names) slots imports := by
  cases loop with
  | none => exact .pure _
  | some loop => exact (bind_runs env loop.path scope).bind (.pure _)

theorem directed_runs (outer : Scope) (el : Element) (known : Known el.condition)
    (sketch : Sketch) :
    Runs (directed env ⟨scope, outer⟩ el (sketch.expr env names)) slots imports
      ((Sketch.repeatedOver outer el.loop
        (Sketch.gatedOn scope el.condition sketch)).expr env names)
      slots imports :=
  (gate_runs env names scope el.condition known sketch).bind
    (repeated_runs env names outer el.loop _)

theorem directed_fails (outer : Scope) (el : Element) (condition : Condition) (expr : Expr)
    (present : el.condition = some condition)
    (unknown : Test.ofModifier? condition.modifier = none) :
    Fails (directed env ⟨scope, outer⟩ el expr) slots imports
      (.unknownModifier condition.modifier) := by
  unfold directed
  rw [present]
  exact ((testExpr_fails env scope condition unknown).bind).bind

end Directives

end RenderCompiler.Lowering
