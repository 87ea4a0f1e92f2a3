import RenderCompiler.Lowering.DataBag
import RenderCompiler.Lowering.Directive
import RenderCompiler.Lowering.Flattening

set_option autoImplicit false

namespace RenderCompiler.Lowering

abbrev TreeLowering := Scope → Node → Lower Expr

structure Scopes where
  inner : Scope
  outer : Scope
deriving DecidableEq, Repr

def directed (env : Environment) (scopes : Scopes) (el : Element) (expr : Expr) : Lower Expr := do
  repeated env scopes.outer el.loop (← gate env scopes.inner el.condition expr)

def slotSet (lowerTree : TreeLowering) (scope : Scope) (tag : String)
    (content : List (String × List Node)) : Lower Properties := do
  if content.isEmpty then return []
  let slots ← content.mapM fun (name, nodes) => do
    log .debug .slots
      ("projecting slot '" ++ name ++ "' of <" ++ tag ++ "> (" ++ toString nodes.length ++
        " nodes)")
    return (name, ← lowerTree scope (Node.slotTemplate nodes))
  return [("slotset", .object slots)]

def customElement (env : Environment) (lowerTree : TreeLowering) (scope : Scope) (el : Element)
    (component : String) (content : List (String × List Node)) : Lower Expr := do
  -- Handlers of the element take their slots before those of its content, and the component is
  -- imported last.
  let data ← dataProperties env scope el
  let slots ← slotSet lowerTree scope el.tag content
  let constructor ← localName component
  return env.api.customElementCall el.tag (.identifier constructor) (.object (data ++ slots))

def gatedChildren (test : Expr) : Expr → Expr
  | .array elements => .array (elements.map (gated test))
  | expr => gated test expr

-- The body of a loop over children: a list of one is used without the list.
def loopBody : Expr → Expr
  | .array [only] => only
  | expr => expr

def template (env : Environment) (scopes : Scopes) (el : Element) (children : Expr) :
    Lower (List Expr) := do
  let body ← match el.condition with
    | none => pure children
    | some condition => do
      let test ← testExpr env scopes.inner condition
      pure (gatedChildren test children)
  -- Only a list that was gated joins the children of the parent; any other list stays one.
  match el.loop, el.condition, body with
  | some loop, _, body => return [← repeated env scopes.outer (some loop) (loopBody body)]
  | none, some _, .array elements => return elements
  | none, _, body => return [body]

def textNode (env : Environment) (scope : Scope) (value : Value) : Lower Expr :=
  return env.api.textCall (← valueExpr env scope value)

/-- The contribution of a node, given its lowered children. -/
def contribution (env : Environment) (lowerTree : TreeLowering) (scopes : Scopes) (node : Node)
    (lowered : List Expr) : Lower (List Expr) := do
  let children := env.api.childrenExpr node lowered
  match node with
  | .text value => return [← textNode env scopes.inner value]
  | .element el _ =>
    let data ← dataBag env scopes.inner el
    return [← directed env scopes el (env.api.elementCall el.tag data children)]
  | .template el _ => template env scopes el children
  | .slot _ _ name => return [.or (env.api.slotContent name) children]
  | .custom el _ component content =>
    let expr ← customElement env lowerTree scopes.inner el component content
    return [← directed env scopes el expr]

end RenderCompiler.Lowering
