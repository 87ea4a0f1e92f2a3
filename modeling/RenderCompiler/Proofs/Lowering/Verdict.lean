import RenderCompiler.Proofs.Lowering.Direct

set_option autoImplicit false

namespace RenderCompiler

namespace Node

-- The other node stands in the first one below templates only, or is the first one.
inductive Nests : Node → Node → Prop
  | here (node : Node) : Nests node node
  | template {el : Element} {children : List Node} {child other : Node} (member : child ∈ children)
      (below : Nests child other) : Nests (.template el children) other

def isSlot : Node → Bool
  | .slot _ _ _ => true
  | .text _ | .element _ _ | .template _ _ | .custom _ _ _ _ => false

theorem yieldsList_of_nests {node other : Node} (nests : node.Nests other)
    (list : other.isSlot = true ∨ other.isLooped = true) : node.yieldsList = true := by
  induction nests with
  | here node =>
    cases node with
    | template el children =>
      have looped : el.loop.isSome = true := by simpa [isSlot, isLooped, loop?, element?] using list
      rw [yieldsList, looped, Bool.true_or]
    | text value => simp [isSlot, isLooped, loop?, element?] at list
    | slot el children name => rfl
    | element | custom => simpa [isSlot, isLooped, loop?, element?, yieldsList] using list
  | template member below ih =>
    rw [yieldsList, Bool.or_eq_true, anyYieldsList_iff]
    exact .inr ⟨_, member, ih list⟩

mutual

theorem nests_of_yieldsList (node : Node) (yields : node.yieldsList = true) :
    ∃ other, node.Nests other ∧ (other.isSlot = true ∨ other.isLooped = true) := by
  cases node with
  | text value => cases yields
  | element el children => exact ⟨_, .here _, .inr yields⟩
  | custom el children component content => exact ⟨_, .here _, .inr yields⟩
  | slot el children name => exact ⟨_, .here _, .inl rfl⟩
  | template el children =>
    rw [yieldsList, Bool.or_eq_true] at yields
    rcases yields with looped | below
    · exact ⟨_, .here _, .inr looped⟩
    · obtain ⟨child, member, other, nests, list⟩ := nests_of_anyYieldsList children below
      exact ⟨other, .template member nests, list⟩

theorem nests_of_anyYieldsList (nodes : List Node) (yields : anyYieldsList nodes = true) :
    ∃ node ∈ nodes, ∃ other,
      node.Nests other ∧ (other.isSlot = true ∨ other.isLooped = true) := by
  cases nodes with
  | nil => cases yields
  | cons node rest =>
    rw [anyYieldsList, Bool.or_eq_true] at yields
    rcases yields with here | later
    · exact ⟨node, List.mem_cons_self, nests_of_yieldsList node here⟩
    · obtain ⟨other, member, nests⟩ := nests_of_anyYieldsList rest later
      exact ⟨other, List.mem_cons_of_mem _ member, nests⟩

end

theorem needsFlattening_iff (node : Node) :
    node.needsFlattening = true ↔ ∃ child ∈ node.children, ∃ other,
      child.Nests other ∧ (other.isSlot = true ∨ other.isLooped = true) := by
  constructor
  · exact nests_of_anyYieldsList node.children
  · rintro ⟨child, member, other, nests, list⟩
    exact (anyYieldsList_iff _).mpr ⟨child, member, yieldsList_of_nests nests list⟩

def isGathered : Node → Bool
  | .element _ _ | .template _ _ | .slot _ _ _ => true
  | .text _ | .custom _ _ _ _ => false

end Node

namespace Lowering

structure ChildrenShape (api : RuntimeApi) (node : Node) (lowered : List Expr) : Prop where
  apart : node.needsFlattening = false → api.childrenExpr node lowered = .array lowered
  flattened : node.needsFlattening = true → 2 ≤ node.children.length →
    api.childrenExpr node lowered = api.flattenCall (.array lowered)
  alone : node.needsFlattening = true → node.children.length = 1 →
    lowered = [api.childrenExpr node lowered]
  joined : node.needsFlattening = true →
    ∀ elements, api.childrenExpr node lowered ≠ .array elements

def looped (env : Environment) (outer : Scope) (loop : Option Loop) (expr : Expr) : Expr :=
  match loop with
  | none => expr
  | some loop => env.api.iterateCall (env.binder loop.path outer) loop.item loop.index expr

-- What a template contributes under a test: its children as a whole if they are to be flattened,
-- and otherwise each of them, or one loop over them.
def gatedTemplate (env : Environment) (outer : Scope) (el : Element) (children : List Node)
    (test : Expr) (lowered : List Expr) : List Expr :=
  let node : Node := .template el children
  let each := lowered.map (gated test)
  if node.needsFlattening then
    [looped env outer el.loop (gated test (env.api.childrenExpr node lowered))]
  else match el.loop with
    | none => each
    | some loop => [looped env outer (some loop) (loopBody (.array each))]

section Shapes

variable (env : Environment)

theorem contributionsAll_alone {child : Node} (depth : Nat) (scope : Scope)
    (yields : child.yieldsList = true) :
    Returns (contributionsAll env depth scope [child]) fun lowered => ∃ only, lowered = [only] := by
  simp only [contributionsAll]
  refine (contributions_of_yieldsList env child depth scope yields).bind fun exprs single => ?_
  obtain ⟨only, rfl, -⟩ := single
  exact .pure ⟨only, rfl⟩

theorem contributionsAll_shape (node : Node) (depth : Nat) (scope : Scope) :
    Returns (contributionsAll env depth scope node.children) (ChildrenShape env.api node) := by
  intro start lowered finish ran
  refine ⟨fun apart => ?_, fun flatten several => ?_, fun flatten only => ?_, fun flatten => ?_⟩
  · simp [RuntimeApi.childrenExpr, apart]
  · rcases children : node.children with _ | ⟨first, _ | ⟨second, rest⟩⟩
    · simp [children] at several
    · simp [children] at several
    · simp [RuntimeApi.childrenExpr, flatten, children]
  · obtain ⟨child, children⟩ := List.length_eq_one_iff.mp only
    have yields : child.yieldsList = true := by
      simpa [Node.needsFlattening, children, Node.anyYieldsList] using flatten
    rw [children] at ran
    obtain ⟨expr, rfl⟩ := contributionsAll_alone env depth scope yields start lowered finish ran
    simp [RuntimeApi.childrenExpr, flatten, children]
  · have apart := childrenExpr_notList env node.children node rfl depth scope flatten
    exact apart start lowered finish ran

theorem testExpr_returns (scope : Scope) (condition : Condition) :
    Returns (testExpr env scope condition) fun test =>
      ∃ kind, Test.ofModifier? condition.modifier = some kind ∧
        test = kind.expr (env.binder condition.path scope) := by
  intro start test finish ran
  obtain ⟨bound, middle, here, ran⟩ := ran_bind ran
  cases here
  split at ran
  next kind known =>
    cases ran
    exact ⟨kind, known, rfl⟩
  next => cases ran

theorem repeated_returns (outer : Scope) (loop : Option Loop) (expr : Expr) :
    Returns (repeated env outer loop expr) (· = looped env outer loop expr) := by
  cases loop with
  | none => exact .pure rfl
  | some loop =>
    intro start result finish ran
    obtain ⟨iterable, middle, here, ran⟩ := ran_bind ran
    cases here
    cases ran
    rfl

theorem templateContribution_gated (scopes : Scopes) {el : Element} {condition : Condition}
    (given : el.condition = some condition) (children : List Node) (lowered : List Expr) :
    Returns (templateContribution env scopes el children lowered) fun exprs =>
      ∃ kind, Test.ofModifier? condition.modifier = some kind ∧
        exprs = gatedTemplate env scopes.outer el children
          (kind.expr (env.binder condition.path scopes.inner)) lowered := by
  have tested := testExpr_returns env scopes.inner condition
  unfold templateContribution
  split
  next flatten =>
    have verdict : (Node.template el children).needsFlattening = true := flatten
    simp only [directed, given, gate, bind_assoc, pure_bind]
    refine tested.bind fun test found => ?_
    obtain ⟨kind, known, same⟩ := found
    refine (repeated_returns env scopes.outer el.loop _).bind fun whole again => .pure ?_
    refine ⟨kind, known, ?_⟩
    simp [gatedTemplate, verdict, again, same]
  next apart =>
    have verdict : (Node.template el children).needsFlattening = false := by
      simpa [Node.needsFlattening, Node.children] using apart
    simp only [gateEach, given, bind_assoc, pure_bind]
    refine tested.bind fun test found => ?_
    obtain ⟨kind, known, same⟩ := found
    cases looped : el.loop with
    | none =>
      refine .pure ⟨kind, known, ?_⟩
      simp [gatedTemplate, verdict, looped, same]
    | some loop =>
      refine (repeated_returns env scopes.outer (some loop) _).bind fun whole again => .pure ?_
      refine ⟨kind, known, ?_⟩
      simp [gatedTemplate, verdict, looped, again, same]

theorem contributions_gathered {node : Node} (gathered : node.isGathered = true) (depth : Nat)
    (scope : Scope) :
    contributions env depth scope node = (do
      let lowered ← contributionsAll env (depth + 1) (innerScope scope node.loop?) node.children
      exited env (lowerTree env) depth scope node lowered) := by
  rw [contributions_eq]
  cases node with
  | text | custom => cases gathered
  | element | template | slot => simp [contributed, contributionsAll_eq, Node.loop?, Node.element?,
      Node.children]

theorem walkBelow_gathered {node : Node} (gathered : node.isGathered = true) (frames : Frames) :
    (walkBelow env node).run frames = (do
      let lowered ← contributionsAll env (frames.depth + 1) (innerScope frames.scope node.loop?)
        node.children
      return ((), (frames.enter node.loop?).add lowered)) := by
  rw [walkBelow_run]
  cases node with
  | text | custom => cases gathered
  | element | template | slot => simp [passOver, Node.walkedChildren]

theorem exited_gated {el : Element} {condition : Condition} (given : el.condition = some condition)
    (children : List Node) (depth : Nat) (scope : Scope) (lowered : List Expr)
    (shape : ChildrenShape env.api (.template el children) lowered) :
    Returns (exited env (lowerTree env) depth scope (.template el children) lowered) fun exprs =>
      ∃ kind, Test.ofModifier? condition.modifier = some kind ∧
        exprs = gatedTemplate env scope el children
          (kind.expr (env.binder condition.path (innerScope scope el.loop))) lowered := by
  refine .of_any fun _ => ?_
  simp only [contribution, Node.loop?, Node.element?, Option.bind_some]
  rw [templateContribution_eq env _ el children lowered shape.joined]
  exact templateContribution_gated env ⟨innerScope scope el.loop, scope⟩ given children lowered

end Shapes

/-- The verdict looks for a slot or a loop below templates. The children of a walked node have the
shape that it says, and a template with a condition gates them by it. -/
theorem walk_shapes (env : Environment) :
    (∀ node : Node, node.needsFlattening = true ↔ ∃ child ∈ node.children, ∃ other,
      child.Nests other ∧ (other.isSlot = true ∨ other.isLooped = true)) ∧
    ∀ (node : Node) (frames after : Frames) (start finish : State), node.isGathered = true →
      (((frameVisitor env (lowerTree env)).walk node).run frames).run.run start =
        (.ok ((), after), finish) →
      ∃ lowered exprs middle,
        ((walkBelow env node).run frames).run.run start =
          (.ok ((), (frames.enter node.loop?).add lowered), middle) ∧
        (exited env (lowerTree env) frames.depth frames.scope node lowered).run.run middle =
          (.ok exprs, finish) ∧
        after = frames.add exprs ∧ ChildrenShape env.api node lowered ∧
        ∀ el children condition, node = .template el children → el.condition = some condition →
          ∃ kind, Test.ofModifier? condition.modifier = some kind ∧
            exprs = gatedTemplate env frames.scope el children
              (kind.expr (env.binder condition.path (innerScope frames.scope el.loop))) lowered := by
  refine ⟨Node.needsFlattening_iff, fun node frames after start finish gathered ran => ?_⟩
  rw [(walkGoes env node frames).whole, contributions_gathered env gathered, bind_assoc] at ran
  obtain ⟨lowered, middle, below, ran⟩ := ran_bind ran
  obtain ⟨exprs, _, exit, added⟩ := ran_bind ran
  cases added
  have shape := contributionsAll_shape env node _ _ start lowered middle below
  refine ⟨lowered, exprs, middle, ?_, exit, rfl, shape, ?_⟩
  · rw [walkBelow_gathered env gathered, run_bind, below]
    rfl
  · rintro el children condition rfl given
    exact exited_gated env given children _ _ lowered shape middle exprs _ exit

def shownList : Node :=
  .template { condition := some { path := ⟨"on", []⟩ } }
    [.element { tag := "li", loop := some { path := ⟨"items", []⟩ } } []]

theorem shownList_shape :
    shownList.isGathered = true ∧ shownList.needsFlattening = true ∧
    ∃ after finish iterated middle,
      (((frameVisitor (.ofApi {}) (lowerTree (.ofApi {}))).walk shownList).run
        { scope := [] }).run.run {} = (.ok ((), after), finish) ∧
      ((walkBelow (.ofApi {}) shownList).run { scope := [] }).run.run {} =
        (.ok ((), { scope := [], opened := [[iterated]] }), middle) ∧
      (∀ elements, iterated ≠ .array elements) ∧
      after.root = [.conditional (.member (.identifier "$cmp") "on") iterated .null] := by
  have verdict : shownList.needsFlattening = true :=
    ((walk_shapes (.ofApi {})).1 shownList).mpr
      ⟨_, List.mem_cons_self, _, .here _, .inr rfl⟩
  have ran : (((frameVisitor (.ofApi {}) (lowerTree (.ofApi {}))).walk shownList).run
      { scope := [] }).run.run {} = (.ok ((), _), _) := rfl
  obtain ⟨lowered, exprs, middle, below, -, added, shape, gates⟩ :=
    (walk_shapes (.ofApi {})).2 shownList _ _ _ _ rfl ran
  obtain ⟨kind, known, rfl⟩ := gates _ _ _ rfl rfl
  cases known
  have alone := shape.alone verdict rfl
  refine ⟨rfl, verdict, _, _, RuntimeApi.childrenExpr {} shownList lowered, middle, ran, ?_,
    shape.joined verdict, congrArg Frames.root added⟩
  rw [below]
  exact congrArg (fun lowered => (Except.ok ((), Frames.mk [] [] [lowered]), middle)) alone

end Lowering

end RenderCompiler
