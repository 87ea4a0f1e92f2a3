import RenderCompiler.Template.Basic

set_option autoImplicit false

namespace RenderCompiler

inductive Descent where
  | children
  | skip
deriving DecidableEq, Repr

structure Visitor (m : Type → Type) where
  enter : Node → m Descent
  exit : Node → m Unit
  text : Value → m Unit

namespace Visitor

variable {m : Type → Type} [Monad m]

def silent : Visitor m where
  enter := fun _ => pure .children
  exit := fun _ => pure ()
  text := fun _ => pure ()

def around (visitor : Visitor m) (node : Node) (children : m Unit) : m Unit := do
  match ← visitor.enter node with
  | .children => children
  | .skip => pure ()
  visitor.exit node

mutual

def walk (visitor : Visitor m) : Node → m Unit
  | .text value => visitor.text value
  | .element el children => visitor.around (.element el children) (walkAll visitor children)
  | .template el children => visitor.around (.template el children) (walkAll visitor children)
  | .slot el children name => visitor.around (.slot el children name) (walkAll visitor children)
  | .custom el children component content =>
    visitor.around (.custom el children component content) (walkAll visitor children)

def walkAll (visitor : Visitor m) : List Node → m Unit
  | [] => pure ()
  | node :: rest => do
    walk visitor node
    walkAll visitor rest

end

@[simp] theorem walk_text (visitor : Visitor m) (value : Value) :
    visitor.walk (.text value) = visitor.text value := by
  simp [walk]

@[simp] theorem walkAll_nil (visitor : Visitor m) : visitor.walkAll [] = pure () := by
  simp [walkAll]

theorem walkAll_cons (visitor : Visitor m) (node : Node) (rest : List Node) :
    visitor.walkAll (node :: rest) = (do visitor.walk node; visitor.walkAll rest) := by
  simp [walkAll]

end Visitor

end RenderCompiler
