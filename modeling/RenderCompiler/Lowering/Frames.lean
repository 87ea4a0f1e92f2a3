import RenderCompiler.Lowering.Contribution
import RenderCompiler.Template.Walk

set_option autoImplicit false

namespace RenderCompiler.Lowering

structure Frames where
  scope : Scope
  root : List Expr := []
  opened : List (List Expr) := []

namespace Frames

def depth (frames : Frames) : Nat := frames.opened.length

def enter (loop : Option Loop) (frames : Frames) : Frames :=
  { frames with
    scope := frames.scope ++ (loop.map Loop.names).getD []
    opened := [] :: frames.opened }

def add (exprs : List Expr) (frames : Frames) : Frames :=
  match frames.opened with
  | [] => { frames with root := frames.root ++ exprs }
  | top :: below => { frames with opened := (top ++ exprs) :: below }

def outerScope (loop : Option Loop) (frames : Frames) : Scope :=
  frames.scope.take (frames.scope.length - ((loop.map Loop.names).getD []).length)

end Frames

abbrev FrameLower := StateT Frames Lower

def closeFrame : FrameLower (List Expr) := do
  let frames ← get
  match frames.opened with
  | [] => throw (.internal "element exit without a matching frame")
  | top :: below =>
    set { frames with opened := below }
    return top

def enterNode (node : Node) : FrameLower Descent := do
  modify (Frames.enter node.loop?)
  match node with
  | .custom el children _ _ =>
    if !children.isEmpty then
      log .warn .frames
        ("<" ++ el.tag ++ ">: direct children are not rendered; project them through a slot")
    return .skip
  | _ => return .children

def exitNode (env : Environment) (lowerTree : TreeLowering) (node : Node) : FrameLower Unit := do
  let gathered ← closeFrame
  let frames ← get
  -- The scope still holds the names of the loop that the node opened.
  let scopes : Scopes := ⟨frames.scope, frames.outerScope node.loop?⟩
  log .trace .frames
    ("exit <" ++ node.tag ++ "> with " ++ toString gathered.length ++ " children at depth " ++
      toString frames.depth)
  let exprs ← contribution env lowerTree scopes node gathered
  -- Several expressions are spliced into the frame below.
  modify fun frames => { frames with scope := scopes.outer }.add exprs

def addText (env : Environment) (value : Value) : FrameLower Unit := do
  let expr ← textNode env (← get).scope value
  modify (Frames.add [expr])

def frameVisitor (env : Environment) (lowerTree : TreeLowering) : Visitor FrameLower where
  enter := enterNode
  exit := exitNode env lowerTree
  text := addText env

-- What the root frame holds at the end: one expression, or a list of several.
def finish (frames : Frames) : Lower Expr :=
  if frames.depth ≠ 0 then
    throw (.internal (toString frames.depth ++ " frames still open after traversal"))
  else match frames.root with
    | [only] => return only
    | exprs => do
      log .debug .frames
        ("template root produced " ++ toString exprs.length ++
          " expressions; returning them as a list")
      return .array exprs

def walkTree (env : Environment) (lowerTree : TreeLowering) : TreeLowering := fun scope root => do
  let (_, frames) ← ((frameVisitor env lowerTree).walk root).run { scope }
  finish frames

/-- Lowers a tree with content projected within content at most `levels` deep. -/
def lowerWithin (env : Environment) : Nat → TreeLowering
  | 0 => walkTree env fun _ _ => throw (.internal "content projected too deep")
  | levels + 1 => walkTree env (lowerWithin env levels)

def lowerTree (env : Environment) : TreeLowering := fun scope root =>
  lowerWithin env root.projectionDepth scope root

def lowerRoot (env : Environment) (root : Node) : Lower Expr := lowerTree env [] root

end RenderCompiler.Lowering
