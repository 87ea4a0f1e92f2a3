import RenderCompiler.Proofs.Lowering.Steps
import RenderCompiler.Proofs.Template.Reach

set_option autoImplicit false

namespace RenderCompiler

-- The node hands on what its children contribute, gated one by one.
def Node.isSpliced : Node → Bool
  | .template el children => el.loop.isNone && el.condition.isSome && !anyYieldsList children
  | .text _ | .element _ _ | .slot _ _ _ | .custom _ _ _ _ => false

namespace Lowering

section Contributions

variable (env : Environment)

def logExit (depth : Nat) (tag : String) (lowered : List Expr) : Lower Unit :=
  log .trace .frames
    ("exit <" ++ tag ++ "> with " ++ toString lowered.length ++ " children at depth " ++
      toString depth)

def gateEach (scope : Scope) (condition : Option Condition) (exprs : List Expr) :
    Lower (List Expr) :=
  match condition with
  | none => return exprs
  | some condition => do
    let test ← testExpr env scope condition
    return exprs.map (gated test)

-- Only the verdict on its children says how a template puts them together.
def templateContribution (scopes : Scopes) (el : Element) (children : List Node)
    (lowered : List Expr) : Lower (List Expr) :=
  if Node.anyYieldsList children then
    return [← directed env scopes el (env.api.childrenExpr (.template el children) lowered)]
  else do
    let exprs ← gateEach env scopes.inner el.condition lowered
    match el.loop, el.condition with
    | some loop, _ => return [← repeated env scopes.outer (some loop) (loopBody (.array exprs))]
    | none, some _ => return exprs
    | none, none => return [.array exprs]

mutual

/-- What a node contributes to its parent, `depth` nodes below the root of its tree. -/
def contributions : Nat → Scope → Node → Lower (List Expr)
  | _, scope, .text value => return [← textNode env scope value]
  | depth, scope, .element el children => do
    let inner := innerScope scope el.loop
    let lowered ← contributionsAll (depth + 1) inner children
    logExit depth el.tag lowered
    let data ← dataBag env inner el
    let call := env.api.elementCall el.tag data
      (env.api.childrenExpr (.element el children) lowered)
    return [← directed env ⟨inner, scope⟩ el call]
  | depth, scope, .template el children => do
    let inner := innerScope scope el.loop
    let lowered ← contributionsAll (depth + 1) inner children
    logExit depth el.tag lowered
    templateContribution env ⟨inner, scope⟩ el children lowered
  | depth, scope, .slot el children name => do
    let lowered ← contributionsAll (depth + 1) (innerScope scope el.loop) children
    logExit depth el.tag lowered
    return [.or (env.api.slotContent name) (env.api.childrenExpr (.slot el children name) lowered)]
  | depth, scope, .custom el children component content => do
    let inner := innerScope scope el.loop
    warnPassedOver el children
    logExit depth el.tag []
    let data ← dataProperties env inner el
    let slots ← contributionsContent inner el.tag content
    let constructor ← localName component
    let slotSet := if content.isEmpty then [] else [("slotset", Expr.object slots)]
    let call :=
      env.api.customElementCall el.tag (.identifier constructor) (.object (data ++ slotSet))
    return [← directed env ⟨inner, scope⟩ el call]

def contributionsAll : Nat → Scope → List Node → Lower (List Expr)
  | _, _, [] => return []
  | depth, scope, node :: rest => do
    let first ← contributions depth scope node
    let others ← contributionsAll depth scope rest
    return first ++ others

-- The content of a slot stands below a template of its own.
def contributionsContent : Scope → String → List (String × List Node) → Lower Properties
  | _, _, [] => return []
  | scope, tag, (name, nodes) :: rest => do
    log .debug .slots
      ("projecting slot '" ++ name ++ "' of <" ++ tag ++ "> (" ++ toString nodes.length ++
        " nodes)")
    let lowered ← contributionsAll 1 scope nodes
    logExit 0 "template" lowered
    let others ← contributionsContent scope tag rest
    return (name, env.api.childrenExpr (.slotTemplate nodes) lowered) :: others

end

end Contributions

section Results

variable {α β : Type} {program : Lower α} {holds : α → Prop} {holds' : β → Prop}

theorem ran_bind {continuation : α → Lower β} {start finish : State} {result : β}
    (ran : (program >>= continuation).run.run start = (.ok result, finish)) :
    ∃ value middle, program.run.run start = (.ok value, middle) ∧
      (continuation value).run.run middle = (.ok result, finish) := by
  rw [run_bind] at ran
  split at ran
  next value middle here => exact ⟨value, middle, here, ran⟩
  next => cases ran

def Returns (program : Lower α) (holds : α → Prop) : Prop :=
  ∀ start value finish, program.run.run start = (.ok value, finish) → holds value

theorem Returns.pure {value : α} (here : holds value) : Returns (pure value) holds := by
  intro start other finish ran
  cases ran
  exact here

theorem Returns.bind {continuation : α → Lower β} (first : Returns program holds)
    (second : ∀ value, holds value → Returns (continuation value) holds') :
    Returns (program >>= continuation) holds' := by
  intro start result finish ran
  obtain ⟨value, middle, here, later⟩ := ran_bind ran
  exact second value (first start value middle here) middle result finish later

theorem Returns.of_any {continuation : α → Lower β}
    (second : ∀ value, Returns (continuation value) holds') :
    Returns (program >>= continuation) holds' := by
  have any : Returns program fun _ => True := fun _ _ _ _ => trivial
  exact any.bind fun value _ => second value

theorem Returns.bind_congr {first second : α → Lower β} (returns : Returns program holds)
    (same : ∀ value, holds value → first value = second value) :
    program >>= first = program >>= second := by
  funext start
  change (program >>= first).run.run start = (program >>= second).run.run start
  rw [run_bind, run_bind]
  split
  next value middle here => rw [same value (returns start value middle here)]
  next => rfl

end Results

section Verdict

variable (env : Environment)

theorem gate_notList (scope : Scope) (condition : Option Condition) {expr : Expr}
    (notList : NotList expr) : Returns (gate env scope condition expr) NotList := by
  cases condition with
  | none => exact .pure notList
  | some condition => exact .of_any fun _ => .pure fun _ => Expr.noConfusion

theorem loop_notList (outer : Scope) (loop : Loop) (expr : Expr) :
    Returns (repeated env outer (some loop) expr) NotList :=
  .of_any fun _ => .pure fun _ => Expr.noConfusion

theorem repeated_notList (outer : Scope) (loop : Option Loop) {expr : Expr}
    (notList : NotList expr) : Returns (repeated env outer loop expr) NotList := by
  cases loop with
  | none => exact .pure notList
  | some loop => exact loop_notList env outer loop expr

theorem directed_notList (scopes : Scopes) (el : Element) {expr : Expr} (notList : NotList expr) :
    Returns (directed env scopes el expr) NotList :=
  (gate_notList env scopes.inner el.condition notList).bind fun _ =>
    repeated_notList env scopes.outer el.loop

theorem directed_single (scopes : Scopes) (el : Element) {expr : Expr} (notList : NotList expr) :
    Returns (do return [← directed env scopes el expr])
      fun exprs => ∃ expr, exprs = [expr] ∧ NotList expr :=
  (directed_notList env scopes el notList).bind fun expr notList => .pure ⟨expr, rfl, notList⟩

theorem primitive_notList (name : String) (arguments : List Expr) :
    NotList (env.api.primitive name arguments) := fun _ => Expr.noConfusion

mutual

theorem contributions_of_yieldsList (node : Node) (depth : Nat) (scope : Scope)
    (yields : node.yieldsList = true) :
    Returns (contributions env depth scope node)
      fun exprs => ∃ expr, exprs = [expr] ∧ NotList expr := by
  cases node with
  | text value => simp [Node.yieldsList] at yields
  | element el children =>
    rw [contributions]
    refine .of_any fun _ => .of_any fun _ => .of_any fun _ => ?_
    exact directed_single env _ el (primitive_notList env _ _)
  | slot el children name =>
    rw [contributions]
    exact .of_any fun _ => .of_any fun _ => .pure ⟨_, rfl, fun _ => Expr.noConfusion⟩
  | custom el children component content =>
    rw [contributions]
    refine .of_any fun _ => .of_any fun _ => .of_any fun _ => .of_any fun _ => .of_any fun _ => ?_
    exact directed_single env _ el (primitive_notList env _ _)
  | template el children =>
    rw [contributions]
    cases flatten : Node.anyYieldsList children with
    | true =>
      refine (childrenExpr_notList children (.template el children) rfl (depth + 1)
        (innerScope scope el.loop) flatten).bind fun lowered notList => .of_any fun _ => ?_
      rw [templateContribution, if_pos flatten]
      exact directed_single env _ el notList
    | false =>
      simp only [Node.yieldsList, flatten, Bool.or_false] at yields
      obtain ⟨loop, looped⟩ := Option.isSome_iff_exists.mp yields
      refine .of_any fun _ => .of_any fun _ => ?_
      simp only [templateContribution, flatten, looped]
      refine .of_any fun _ => (loop_notList env scope loop _).bind fun expr notList => ?_
      exact .pure ⟨expr, rfl, notList⟩

theorem childrenExpr_notList (children : List Node) (node : Node) (own : node.children = children)
    (depth : Nat) (scope : Scope) (yields : Node.anyYieldsList children = true) :
    Returns (contributionsAll env depth scope children)
      fun lowered => NotList (env.api.childrenExpr node lowered) := by
  have flatten : node.needsFlattening = true := by rw [Node.needsFlattening, own, yields]
  match children with
  | [] => simp [Node.anyYieldsList] at yields
  | [child] =>
    have yieldsOnly : child.yieldsList = true := by simpa [Node.anyYieldsList] using yields
    simp only [contributionsAll]
    refine (contributions_of_yieldsList child depth scope yieldsOnly).bind fun exprs single => ?_
    obtain ⟨expr, rfl, notList⟩ := single
    rw [pure_bind]
    exact .pure (by simpa [RuntimeApi.childrenExpr, flatten, own] using notList)
  | first :: second :: rest =>
    refine fun _ lowered _ _ => ?_
    have call : env.api.childrenExpr node lowered = env.api.flattenCall (.array lowered) := by
      simp [RuntimeApi.childrenExpr, flatten, own]
    change NotList _
    rw [call]
    exact primitive_notList env _ _

end

theorem templateContribution_eq (scopes : Scopes) (el : Element) (children : List Node)
    (lowered : List Expr)
    (notList : Node.anyYieldsList children = true →
      NotList (env.api.childrenExpr (.template el children) lowered)) :
    template env scopes el (env.api.childrenExpr (.template el children) lowered) =
      templateContribution env scopes el children lowered := by
  unfold template templateContribution
  cases flatten : Node.anyYieldsList children with
  | true =>
    have single := notList flatten
    have whole := gatedChildren_of_notList single
    have bare := loopBody_of_notList single
    have body (test expr : Expr) : loopBody (.conditional test expr .null) = gated test expr := rfl
    cases condition : el.condition <;> cases loop : el.loop <;>
      simp [directed, gate, repeated, condition, loop, whole, bare, body, gated]
  | false =>
    have list : env.api.childrenExpr (.template el children) lowered = .array lowered := by
      simp [RuntimeApi.childrenExpr, Node.needsFlattening, Node.children, flatten]
    rw [list]
    cases el.condition <;> cases el.loop <;> simp [gateEach, gatedChildren]

theorem gathered_single (expr : Expr) : gathered [expr] = pure expr := rfl

mutual

theorem contributions_eq (node : Node) (depth : Nat) (scope : Scope) :
    contributions env depth scope node = contributed env (lowerTree env) depth scope node := by
  cases node with
  | text value => rfl
  | element el children =>
    rw [contributions, contributed, ← contributionsAll_eq children]
    refine congrArg _ (funext fun lowered => ?_)
    simp [exited, contribution, logExit, Node.tag, Node.element?, Node.loop?]
  | template el children =>
    rw [contributions, contributed, ← contributionsAll_eq children]
    have returns : Returns (contributionsAll env (depth + 1) (innerScope scope el.loop) children)
        fun lowered => Node.anyYieldsList children = true →
          NotList (env.api.childrenExpr (.template el children) lowered) := by
      intro start lowered finish ran flatten
      exact childrenExpr_notList env children (.template el children) rfl _ _ flatten _ _ _ ran
    refine returns.bind_congr fun lowered notList => ?_
    rw [← templateContribution_eq env ⟨innerScope scope el.loop, scope⟩ el children lowered notList]
    rfl
  | slot el children name =>
    rw [contributions, contributed, ← contributionsAll_eq children]
    refine congrArg _ (funext fun lowered => ?_)
    simp [exited, contribution, logExit, Node.tag, Node.element?]
  | custom el children component content =>
    rw [contributions, contributed, contributionsContent_eq content]
    cases content <;>
      simp [exited, contribution, customElement, slotSet_eq, logExit, Node.tag, Node.element?,
        Node.loop?]

theorem contributionsAll_eq (nodes : List Node) (depth : Nat) (scope : Scope) :
    contributionsAll env depth scope nodes =
      contributedAll env (lowerTree env) depth scope nodes := by
  cases nodes with
  | nil => rfl
  | cons node rest =>
    simp only [contributionsAll, contributedAll, contributions_eq node, contributionsAll_eq rest]

theorem contributionsContent_eq (content : List (String × List Node)) (scope : Scope)
    (tag : String) :
    contributionsContent env scope tag content =
      content.mapM (projectedSlot (lowerTree env) scope tag) := by
  cases content with
  | nil => rfl
  | cons slot rest =>
    obtain ⟨name, nodes⟩ := slot
    rw [contributionsContent, List.mapM_cons, ← contributionsContent_eq rest,
      contributionsAll_eq nodes]
    simp [projectedSlot, lowerTree_eq, Node.slotTemplate, contributed, exited, logExit,
      contribution, template, gathered_single, innerScope_none, Node.tag, Node.element?]

end

theorem lowerTree_eq_gathered (scope : Scope) (root : Node) :
    lowerTree env scope root = (do gathered (← contributions env 0 scope root)) := by
  rw [lowerTree_eq, contributions_eq]

theorem lowerTree_eq_walkTree (scope : Scope) (root : Node) :
    lowerTree env scope root = walkTree env (lowerTree env) scope root := by
  rw [lowerTree_eq, walkTree_eq]

end Verdict

section Shape

variable (env : Environment)

theorem templateContribution_spliced (scopes : Scopes) {el : Element} {children : List Node}
    {condition : Condition} (lowered : List Expr)
    (spliced : (Node.template el children).isSpliced = true)
    (given : el.condition = some condition) :
    templateContribution env scopes el children lowered = (do
      let test ← testExpr env scopes.inner condition
      return lowered.map (gated test)) := by
  simp only [Node.isSpliced, Bool.and_eq_true, Option.isNone_iff_eq_none, Bool.not_eq_true']
    at spliced
  obtain ⟨⟨loop, -⟩, flat⟩ := spliced
  simp [templateContribution, flat, loop, given, gateEach]

theorem contributions_spliced (depth : Nat) (scope : Scope) {el : Element} {children : List Node}
    {condition : Condition} (spliced : (Node.template el children).isSpliced = true)
    (given : el.condition = some condition) :
    contributions env depth scope (.template el children) = (do
      let lowered ← contributionsAll env (depth + 1) scope children
      logExit depth el.tag lowered
      let test ← testExpr env scope condition
      return lowered.map (gated test)) := by
  have unlooped : el.loop = none := by
    simp only [Node.isSpliced, Bool.and_eq_true, Option.isNone_iff_eq_none] at spliced
    exact spliced.1.1
  simp only [contributions, templateContribution_spliced env _ _ spliced given, unlooped,
    innerScope_none]

theorem returns_single {α : Type} {program : Lower α} (expr : α → Expr) :
    Returns (do return [expr (← program)]) fun exprs => ∃ expr, exprs = [expr] :=
  .of_any fun value => .pure ⟨expr value, rfl⟩

theorem templateContribution_single (scopes : Scopes) (el : Element) (children : List Node)
    (lowered : List Expr) (apart : (Node.template el children).isSpliced = false) :
    Returns (templateContribution env scopes el children lowered)
      fun exprs => ∃ expr, exprs = [expr] := by
  unfold templateContribution
  split
  · exact returns_single id
  next flat =>
    refine .of_any fun exprs => ?_
    split
    · exact returns_single id
    next loop condition => simp [Node.isSpliced, loop, condition, flat] at apart
    · exact .pure ⟨_, rfl⟩

theorem contributions_single (node : Node) (depth : Nat) (scope : Scope)
    (apart : node.isSpliced = false) :
    Returns (contributions env depth scope node) fun exprs => ∃ expr, exprs = [expr] := by
  cases node with
  | text value => exact returns_single id
  | element el children =>
    rw [contributions]
    exact .of_any fun _ => .of_any fun _ => .of_any fun _ => returns_single id
  | template el children =>
    rw [contributions]
    exact .of_any fun lowered => .of_any fun _ =>
      templateContribution_single env _ el children lowered apart
  | slot el children name =>
    rw [contributions]
    exact .of_any fun _ => .of_any fun _ => .pure ⟨_, rfl⟩
  | custom el children component content =>
    rw [contributions]
    exact .of_any fun _ => .of_any fun _ => .of_any fun _ => .of_any fun _ => .of_any fun _ =>
      returns_single id

end Shape

section Walk

variable (env : Environment)

def walkBelow (node : Node) : FrameLower Unit := do
  match ← enterNode node with
  | .children => (frameVisitor env (lowerTree env)).walkAll node.children
  | .skip => pure ()

def passOver : Node → Lower Unit
  | .custom el children _ _ => warnPassedOver el children
  | .text _ | .element _ _ | .template _ _ | .slot _ _ _ => pure ()

theorem walk_eq_walkBelow (node : Node) (apart : node.element?.isSome) :
    (frameVisitor env (lowerTree env)).walk node = (do
      walkBelow env node
      exitNode env (lowerTree env) node) := by
  cases node with
  | text value => cases apart
  | _ =>
    simp only [Visitor.walk, Visitor.around, walkBelow, frameVisitor, Node.children, bind_assoc]
    refine congrArg _ (funext fun descent => ?_)
    cases descent <;> simp

theorem walkBelow_run (node : Node) (frames : Frames) :
    (walkBelow env node).run frames = (do
      passOver node
      let lowered ← contributionsAll env (frames.depth + 1) (innerScope frames.scope node.loop?)
        node.walkedChildren
      return ((), (frames.enter node.loop?).add lowered)) := by
  cases node with
  | custom el children component content =>
    simp [walkBelow, passOver, enterNode_custom_run, contributionsAll, Node.walkedChildren,
      Node.loop?, Node.element?]
  | text value =>
    simp [walkBelow, passOver, enterNode, contributionsAll, Node.walkedChildren, Node.children]
  | element el children | template el children | slot el children name =>
    have walked := walkAll_run env (lowerTree env) children (frames.enter el.loop)
    simp only [← contributionsAll_eq] at walked
    simp [walkBelow, passOver, enterNode, walked, Node.walkedChildren, Node.children, Node.loop?,
      Node.element?]
    rfl

-- How the walk of a node goes, whatever frames are open where it starts.
structure WalkGoes (node : Node) (frames : Frames) : Prop where
  -- The frame that stands open at the exit holds what the walked children contribute.
  below : (walkBelow env node).run frames = (do
    passOver node
    let lowered ← contributionsAll env (frames.depth + 1) (innerScope frames.scope node.loop?)
      node.walkedChildren
    return ((), (frames.enter node.loop?).add lowered))
  popped : ∀ lowered, closeFrame.run ((frames.enter node.loop?).add lowered) =
    pure (lowered, { frames with scope := innerScope frames.scope node.loop? })
  split : node.element?.isSome → (frameVisitor env (lowerTree env)).walk node = (do
    walkBelow env node
    exitNode env (lowerTree env) node)
  whole : ((frameVisitor env (lowerTree env)).walk node).run frames = (do
    let exprs ← contributions env frames.depth frames.scope node
    return ((), frames.add exprs))
  scope : ∀ exprs, (frames.add exprs).scope = frames.scope
  depth : ∀ exprs, (frames.add exprs).depth = frames.depth

theorem walkGoes (node : Node) (frames : Frames) : WalkGoes env node frames where
  below := walkBelow_run env node frames
  popped lowered := by
    rw [Frames.enter_add]
    rfl
  split := walk_eq_walkBelow env node
  whole := by rw [walk_run, contributions_eq]
  scope := frames.add_scope
  depth := frames.add_depth

theorem walk_root {scope : Scope} {root : Node} {start finish : State} {frames : Frames}
    (ran : (((frameVisitor env (lowerTree env)).walk root).run { scope }).run.run start =
      (.ok ((), frames), finish)) :
    ∃ exprs, (contributions env 0 scope root).run.run start = (.ok exprs, finish) ∧
      frames = { scope, root := exprs } := by
  rw [(walkGoes env root { scope }).whole] at ran
  obtain ⟨exprs, middle, lowered, added⟩ := ran_bind ran
  cases added
  exact ⟨exprs, lowered, rfl⟩

theorem contributions_spliced_run {scope : Scope} {root : Node} {start finish : State}
    {exprs : List Expr} (spliced : root.isSpliced = true)
    (ran : (contributions env 0 scope root).run.run start = (.ok exprs, finish)) :
    ∃ lowered test middle,
      (contributionsAll env 1 scope root.children).run.run start = (.ok lowered, middle) ∧
        exprs = lowered.map (gated test) := by
  cases root with
  | template el children =>
    obtain ⟨condition, given⟩ : ∃ condition, el.condition = some condition := by
      simp only [Node.isSpliced, Bool.and_eq_true] at spliced
      exact Option.isSome_iff_exists.mp spliced.1.2
    rw [contributions_spliced env 0 scope spliced given] at ran
    obtain ⟨lowered, middle, here, ran⟩ := ran_bind ran
    obtain ⟨_, _, _, ran⟩ := ran_bind ran
    obtain ⟨test, _, _, mapped⟩ := ran_bind ran
    cases mapped
    exact ⟨lowered, test, middle, here, rfl⟩
  | _ => cases spliced

end Walk

/-- Lowering by a walk is lowering by recursion, with the same results and states. -/
theorem lowerTree_eq_recursion (env : Environment) (scope : Scope) (root : Node) :
    lowerTree env scope root = walkTree env (lowerTree env) scope root ∧
    lowerTree env scope root = (do gathered (← contributions env 0 scope root)) ∧
    (∀ depth scope node, node.isSpliced = false →
      Returns (contributions env depth scope node) fun exprs => ∃ expr, exprs = [expr]) ∧
    (∀ depth scope el children condition, (Node.template el children).isSpliced = true →
      el.condition = some condition →
      contributions env depth scope (.template el children) = (do
        let lowered ← contributionsAll env (depth + 1) scope children
        logExit depth el.tag lowered
        let test ← testExpr env scope condition
        return lowered.map fun expr => .conditional test expr .null)) ∧
    (∀ node frames, WalkGoes env node frames) ∧
    ∀ start frames finish,
      (((frameVisitor env (lowerTree env)).walk root).run { scope }).run.run start =
        (.ok ((), frames), finish) →
      frames.scope = scope ∧ frames.opened = [] ∧
        (contributions env 0 scope root).run.run start = (.ok frames.root, finish) ∧
        (root.isSpliced = false → ∃ expr, frames.root = [expr]) ∧
        (root.isSpliced = true → ∃ lowered test middle,
          (contributionsAll env 1 scope root.children).run.run start = (.ok lowered, middle) ∧
            frames.root = lowered.map fun expr => .conditional test expr .null) := by
  refine ⟨lowerTree_eq_walkTree env scope root, lowerTree_eq_gathered env scope root,
    fun depth scope node => contributions_single env node depth scope,
    fun depth scope el children condition => contributions_spliced env depth scope,
    walkGoes env, ?_⟩
  intro start frames finish ran
  obtain ⟨exprs, lowered, rfl⟩ := walk_root env ran
  exact ⟨rfl, rfl, lowered,
    fun apart => contributions_single env root 0 scope apart start exprs finish lowered,
    fun spliced => contributions_spliced_run env spliced lowered⟩

end Lowering

end RenderCompiler
