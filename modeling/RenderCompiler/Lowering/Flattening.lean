import RenderCompiler.Runtime.Calls
import RenderCompiler.Template.Basic

set_option autoImplicit false

namespace RenderCompiler

namespace Node

mutual

def yieldsList : Node → Bool
  | .text _ => false
  | .element el _ => el.loop.isSome
  | .template el children => el.loop.isSome || anyYieldsList children
  | .slot _ _ _ => true
  | .custom el _ _ _ => el.loop.isSome

def anyYieldsList : List Node → Bool
  | [] => false
  | node :: rest => yieldsList node || anyYieldsList rest

end

def needsFlattening (node : Node) : Bool := anyYieldsList node.children

theorem anyYieldsList_iff (nodes : List Node) :
    anyYieldsList nodes = true ↔ ∃ node ∈ nodes, node.yieldsList = true := by
  induction nodes with
  | nil => simp [anyYieldsList]
  | cons node rest ih => simp [anyYieldsList, ih]

end Node

-- An only child that stands for a list is used as it is.
def RuntimeApi.childrenExpr (api : RuntimeApi) (node : Node) (lowered : List Expr) : Expr :=
  if !node.needsFlattening then .array lowered
  else match node.children, lowered with
    | [_], [only] => only
    | _, _ => api.flattenCall (.array lowered)

end RenderCompiler
