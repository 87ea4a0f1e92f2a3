import RenderCompiler.Lowering.Basic

set_option autoImplicit false

namespace RenderCompiler.Lowering

abbrev Properties := List (String × Expr)

-- Every listed class is on, whatever its value.
def classMapExpr (classes : Entries Value) : Expr :=
  .object (classes.map fun (name, _) => (name, .boolean true))

def styleExpr (env : Environment) (scope : Scope) (rules : Entries Value) : Lower Expr := do
  let properties ← rules.mapM fun (name, value) => do
    return (name, ← valueExpr env scope value)
  return .object properties

-- The empty text stands for mere presence.
def attributeExpr (env : Environment) (scope : Scope) : Value → Lower Expr
  | .text "" => return .boolean true
  | value => valueExpr env scope value

def attributesExpr (env : Environment) (scope : Scope) (attributes : Entries Value) :
    Lower Expr := do
  let properties ← attributes.mapM fun (name, value) => do
    return (name, ← attributeExpr env scope value)
  return .object properties

def handlersExpr (env : Environment) (scope : Scope) (handlers : Entries Path) : Lower Expr := do
  let properties ← handlers.mapM fun (event, path) => do
    return (event, ← memoize env (← bind env path scope))
  return .object properties

def propertyOf {α : Type} (name : String) (lower : α → Lower Expr) : Option α → Lower Properties
  | none => return []
  | some value => return [(name, ← lower value)]

def dataProperties (env : Environment) (scope : Scope) (el : Element) : Lower Properties := do
  let className ← propertyOf "className" (valueExpr env scope) el.className
  let classMap ← propertyOf "classMap" (fun classes => return classMapExpr classes) el.classMap
  let style ← propertyOf "style" (styleExpr env scope) el.style
  let attrs ← propertyOf "attrs" (attributesExpr env scope) el.attrs
  let props ← propertyOf "props" (attributesExpr env scope) el.props
  -- The key stands before the handlers and is copied as it is.
  let key ← propertyOf "key" (fun key => return key) (el.loop.bind Loop.key)
  let on ← propertyOf "on" (handlersExpr env scope) el.on
  return className ++ classMap ++ style ++ attrs ++ props ++ key ++ on

def dataBag (env : Environment) (scope : Scope) (el : Element) : Lower Expr :=
  return .object (← dataProperties env scope el)

end RenderCompiler.Lowering
