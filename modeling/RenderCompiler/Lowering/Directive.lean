import RenderCompiler.Lowering.Basic

set_option autoImplicit false

namespace RenderCompiler.Lowering

inductive Test where
  | truthy
  | falsy
  | exactlyTrue
deriving DecidableEq, Repr

namespace Test

def ofModifier? : String → Option Test
  | "true" => some .truthy
  | "false" => some .falsy
  | "strict-true" => some .exactlyTrue
  | _ => none

def expr (bound : Expr) : Test → Expr
  | .truthy => bound
  | .falsy => .not bound
  | .exactlyTrue => .strictEqual bound (.boolean true)

end Test

-- The test of a condition. The path is bound before its modifier is looked at.
def testExpr (env : Environment) (scope : Scope) (condition : Condition) : Lower Expr := do
  let bound ← bind env condition.path scope
  match Test.ofModifier? condition.modifier with
  | some test => return test.expr bound
  | none => throw (.unknownModifier condition.modifier)

def gated (test expr : Expr) : Expr := .conditional test expr .null

def gate (env : Environment) (scope : Scope) (condition : Option Condition) (expr : Expr) :
    Lower Expr :=
  match condition with
  | none => return expr
  | some condition => return gated (← testExpr env scope condition) expr

def repeated (env : Environment) (outer : Scope) (loop : Option Loop) (expr : Expr) :
    Lower Expr :=
  match loop with
  | none => return expr
  | some loop => do
    -- The list is read outside the loop, where its own names are not known.
    let iterable ← bind env loop.path outer
    return env.api.iterateCall iterable loop.item loop.index expr

end RenderCompiler.Lowering
