import RenderCompiler.Lowering.Frames
import RenderCompiler.Proofs.Template.Reach

set_option autoImplicit false

namespace RenderCompiler

theorem Node.childrenDepth_lt_of_mem {entry : String × List Node}
    {content : List (String × List Node)} (member : entry ∈ content) :
    Node.childrenDepth entry.2 < Node.contentDepth content := by
  induction content with
  | nil => cases member
  | cons first rest ih =>
    cases member with
    | head => simp only [Node.contentDepth]; omega
    | tail _ member => have := ih member; simp only [Node.contentDepth]; omega

namespace Lowering

variable (env : Environment) (lowerContent : TreeLowering)

def exited (depth : Nat) (scope : Scope) (node : Node) (lowered : List Expr) :
    Lower (List Expr) := do
  log .trace .frames
    ("exit <" ++ node.tag ++ "> with " ++ toString lowered.length ++ " children at depth " ++
      toString depth)
  contribution env lowerContent ⟨innerScope scope node.loop?, scope⟩ node lowered

def warnPassedOver (el : Element) (children : List Node) : Lower Unit := do
  if !children.isEmpty then
    log .warn .frames
      ("<" ++ el.tag ++ ">: direct children are not rendered; project them through a slot")

mutual

def contributed : Nat → Scope → Node → Lower (List Expr)
  | _, scope, .text value => return [← textNode env scope value]
  | depth, scope, .element el children => do
    let lowered ← contributedAll (depth + 1) (innerScope scope el.loop) children
    exited env lowerContent depth scope (.element el children) lowered
  | depth, scope, .template el children => do
    let lowered ← contributedAll (depth + 1) (innerScope scope el.loop) children
    exited env lowerContent depth scope (.template el children) lowered
  | depth, scope, .slot el children name => do
    let lowered ← contributedAll (depth + 1) (innerScope scope el.loop) children
    exited env lowerContent depth scope (.slot el children name) lowered
  | depth, scope, .custom el children component content => do
    warnPassedOver el children
    exited env lowerContent depth scope (.custom el children component content) []

def contributedAll : Nat → Scope → List Node → Lower (List Expr)
  | _, _, [] => return []
  | depth, scope, node :: rest => do
    let first ← contributed depth scope node
    let others ← contributedAll depth scope rest
    return first ++ others

end

namespace Frames

@[simp] theorem add_nil (frames : Frames) : frames.add [] = frames := by
  cases frames with
  | mk scope root opened => cases opened <;> simp [add]

theorem add_add (frames : Frames) (first others : List Expr) :
    (frames.add first).add others = frames.add (first ++ others) := by
  cases frames with
  | mk scope root opened => cases opened <;> simp [add]

@[simp] theorem add_scope (frames : Frames) (exprs : List Expr) :
    (frames.add exprs).scope = frames.scope := by
  unfold add
  split <;> rfl

@[simp] theorem add_depth (frames : Frames) (exprs : List Expr) :
    (frames.add exprs).depth = frames.depth := by
  unfold add depth
  split
  next empty => rw [empty]
  next top below opened => rw [opened]; rfl

theorem enter_add (loop : Option Loop) (frames : Frames) (exprs : List Expr) :
    (frames.enter loop).add exprs =
      ⟨innerScope frames.scope loop, frames.root, exprs :: frames.opened⟩ := by
  simp [enter, add, innerScope]

theorem outerScope_opened (loop : Option Loop) (scope : Scope) (root : List Expr)
    (opened : List (List Expr)) :
    outerScope loop ⟨innerScope scope loop, root, opened⟩ = scope := by
  simp [outerScope, innerScope]

end Frames

theorem exitNode_run (node : Node) (frames : Frames) (lowered : List Expr) :
    (exitNode env lowerContent node).run ((frames.enter node.loop?).add lowered) = (do
      let exprs ← exited env lowerContent frames.depth frames.scope node lowered
      return ((), frames.add exprs)) := by
  rw [Frames.enter_add]
  simp only [exitNode, closeFrame, exited, StateT.run_bind, StateT.run_get, StateT.run_set,
    StateT.run_pure, pure_bind, bind_assoc, StateT.run_modify, Frames.outerScope_opened]
  simp [Frames.depth]

theorem around_run (node : Node) (children : FrameLower Unit) (recursion : Lower (List Expr))
    (frames : Frames)
    (entered : (enterNode node).run frames = pure (.children, frames.enter node.loop?))
    (walked : children.run (frames.enter node.loop?) = (do
      let lowered ← recursion
      return ((), (frames.enter node.loop?).add lowered))) :
    ((frameVisitor env lowerContent).around node children).run frames = (do
      let lowered ← recursion
      let exprs ← exited env lowerContent frames.depth frames.scope node lowered
      return ((), frames.add exprs)) := by
  simp [Visitor.around, frameVisitor, entered, walked, exitNode_run]

theorem enterNode_custom_run (el : Element) (children : List Node) (component : String)
    (content : List (String × List Node)) (frames : Frames) :
    (enterNode (.custom el children component content)).run frames = (do
      warnPassedOver el children
      return (.skip, frames.enter el.loop)) := by
  cases children <;> simp [enterNode, warnPassedOver, Node.loop?, Node.element?]

mutual

theorem walk_run (node : Node) (frames : Frames) :
    ((frameVisitor env lowerContent).walk node).run frames = (do
      let exprs ← contributed env lowerContent frames.depth frames.scope node
      return ((), frames.add exprs)) := by
  cases node with
  | text value => simp [frameVisitor, addText, contributed]
  | element el children =>
    have walked := walkAll_run children (frames.enter el.loop)
    rw [Visitor.walk, around_run env lowerContent _ _ _ frames (by simp [enterNode]) walked]
    simp [contributed, Frames.enter, innerScope, Frames.depth]
  | template el children =>
    have walked := walkAll_run children (frames.enter el.loop)
    rw [Visitor.walk, around_run env lowerContent _ _ _ frames (by simp [enterNode]) walked]
    simp [contributed, Frames.enter, innerScope, Frames.depth]
  | slot el children name =>
    have walked := walkAll_run children (frames.enter el.loop)
    rw [Visitor.walk, around_run env lowerContent _ _ _ frames (by simp [enterNode]) walked]
    simp [contributed, Frames.enter, innerScope, Frames.depth]
  | custom el children component content =>
    -- The walk skips the children, so the frame it has opened is closed empty.
    have exited := exitNode_run env lowerContent (.custom el children component content) frames []
    rw [Frames.add_nil] at exited
    simp only [Visitor.walk, Visitor.around, frameVisitor, StateT.run_bind, enterNode_custom_run,
      bind_assoc, pure_bind, contributed]
    refine congrArg _ (funext fun _ => ?_)
    exact exited

theorem walkAll_run (nodes : List Node) (frames : Frames) :
    ((frameVisitor env lowerContent).walkAll nodes).run frames = (do
      let exprs ← contributedAll env lowerContent frames.depth frames.scope nodes
      return ((), frames.add exprs)) := by
  cases nodes with
  | nil => simp [contributedAll]
  | cons node rest =>
    simp [Visitor.walkAll_cons, walk_run node, walkAll_run rest, contributedAll, Frames.add_add]

end

def gathered (exprs : List Expr) : Lower Expr := finish { scope := [], root := exprs }

theorem walkTree_eq (scope : Scope) (root : Node) :
    walkTree env lowerContent scope root = (do
      gathered (← contributed env lowerContent 0 scope root)) := by
  simp only [walkTree, walk_run, bind_assoc, pure_bind, Frames.depth, List.length_nil]
  rfl

def projectedSlot (scope : Scope) (tag : String) (slot : String × List Node) :
    Lower (String × Expr) := do
  log .debug .slots
    ("projecting slot '" ++ slot.1 ++ "' of <" ++ tag ++ "> (" ++ toString slot.2.length ++
      " nodes)")
  return (slot.1, ← lowerContent scope (Node.slotTemplate slot.2))

theorem slotSet_eq (scope : Scope) (tag : String) (content : List (String × List Node)) :
    slotSet lowerContent scope tag content =
      if content.isEmpty then pure [] else do
        let slots ← content.mapM (projectedSlot lowerContent scope tag)
        return [("slotset", .object slots)] := rfl

theorem mapM_congr {α β : Type} {first second : α → Lower β} {items : List α}
    (same : ∀ item ∈ items, first item = second item) : items.mapM first = items.mapM second := by
  induction items with
  | nil => rfl
  | cons item rest ih =>
    have here := same item List.mem_cons_self
    have others := ih fun other member => same other (List.mem_cons_of_mem _ member)
    rw [List.mapM_cons, List.mapM_cons, here, others]

theorem slotSet_congr {first second : TreeLowering} (scope : Scope) (tag : String)
    (content : List (String × List Node))
    (same : ∀ slot ∈ content,
      first scope (Node.slotTemplate slot.2) = second scope (Node.slotTemplate slot.2)) :
    slotSet first scope tag content = slotSet second scope tag content := by
  have slots : content.mapM (projectedSlot first scope tag) =
      content.mapM (projectedSlot second scope tag) := by
    refine mapM_congr fun slot member => ?_
    simp only [projectedSlot, same slot member]
  rw [slotSet_eq, slotSet_eq, slots]

section Congruence

variable {env} {first second : TreeLowering}

mutual

theorem contributed_congr (node : Node) (depth : Nat) (scope : Scope)
    (same : ∀ scope nodes, Node.childrenDepth nodes < node.projectionDepth →
      first scope (Node.slotTemplate nodes) = second scope (Node.slotTemplate nodes)) :
    contributed env first depth scope node = contributed env second depth scope node := by
  cases node with
  | text value => rfl
  | element el children =>
    have lowered := contributedAll_congr children (depth + 1) (innerScope scope el.loop) same
    simp only [contributed, lowered]
    rfl
  | template el children =>
    have lowered := contributedAll_congr children (depth + 1) (innerScope scope el.loop) same
    simp only [contributed, lowered]
    rfl
  | slot el children name =>
    have lowered := contributedAll_congr children (depth + 1) (innerScope scope el.loop) same
    simp only [contributed, lowered]
    rfl
  | custom el children component content =>
    have slots := slotSet_congr (innerScope scope el.loop) el.tag content fun entry member =>
      same _ _ (Node.childrenDepth_lt_of_mem member)
    simp only [contributed, exited, contribution, customElement, Node.loop?, Node.element?,
      Option.bind_some, slots]

theorem contributedAll_congr (nodes : List Node) (depth : Nat) (scope : Scope)
    (same : ∀ scope content, Node.childrenDepth content < Node.childrenDepth nodes →
      first scope (Node.slotTemplate content) = second scope (Node.slotTemplate content)) :
    contributedAll env first depth scope nodes = contributedAll env second depth scope nodes := by
  cases nodes with
  | nil => rfl
  | cons node rest =>
    have here := contributed_congr node depth scope fun scope content less =>
      same scope content (by simp only [Node.childrenDepth]; omega)
    have others := contributedAll_congr rest depth scope fun scope content less =>
      same scope content (by simp only [Node.childrenDepth]; omega)
    simp only [contributedAll, here, others]

end

end Congruence

-- What a tree projects is a level less deep than the tree, so both bounds can go down together.
theorem lowerWithin_eq_of_le (env : Environment) (levels more : Nat) (scope : Scope) (root : Node)
    (enough : root.projectionDepth ≤ levels) (enoughMore : root.projectionDepth ≤ more) :
    lowerWithin env levels scope root = lowerWithin env more scope root := by
  induction levels generalizing more scope root with
  | zero =>
    cases more with
    | zero => rfl
    | succ more =>
      simp only [lowerWithin, walkTree_eq]
      rw [contributed_congr root 0 scope fun _ _ less => by omega]
  | succ levels ih =>
    cases more with
    | zero =>
      simp only [lowerWithin, walkTree_eq]
      rw [contributed_congr root 0 scope fun _ _ less => by omega]
    | succ more =>
      simp only [lowerWithin, walkTree_eq]
      rw [contributed_congr root 0 scope fun scope content less =>
        ih more scope (Node.slotTemplate content)
          (by simp only [Node.slotTemplate, Node.projectionDepth]; omega)
          (by simp only [Node.slotTemplate, Node.projectionDepth]; omega)]

/-- The bound on projected content is never met: content is lowered as any other tree. -/
theorem lowerTree_eq (env : Environment) (scope : Scope) (root : Node) :
    lowerTree env scope root = (do
      gathered (← contributed env (lowerTree env) 0 scope root)) := by
  have content (scope : Scope) (nodes : List Node)
      (less : Node.childrenDepth nodes < root.projectionDepth) :
      lowerWithin env (root.projectionDepth - 1) scope (Node.slotTemplate nodes) =
        lowerTree env scope (Node.slotTemplate nodes) :=
    lowerWithin_eq_of_le env _ _ scope (Node.slotTemplate nodes)
      (by simp only [Node.slotTemplate, Node.projectionDepth]; omega) (Nat.le_refl _)
  -- The content is lowered with one level less, and that is still enough for it.
  rw [← contributed_congr root 0 scope content, ← walkTree_eq]
  unfold lowerTree
  cases levels : root.projectionDepth with
  | zero =>
    simp only [lowerWithin, walkTree_eq]
    rw [contributed_congr root 0 scope fun _ _ less => by omega]
  | succ levels => rfl

end Lowering

end RenderCompiler
