import RenderCompiler.Binary64.Basic

set_option autoImplicit false

namespace RenderCompiler

mutual

inductive Expr where
  | identifier (name : String)
  | string (value : String)
  | number (value : Binary64)
  | boolean (value : Bool)
  | null
  | member (object : Expr) (property : String)
  | call (callee : Expr) (arguments : List Expr)
  | array (elements : List Expr)
  | object (properties : List (String × Expr))
  | conditional (test consequent alternate : Expr)
  | not (argument : Expr)
  | strictEqual (left right : Expr)
  | or (left right : Expr)
  | function (params : List String) (body : List Stmt)

inductive Stmt where
  | returns (argument : Expr)
  | importDefault (binding source : String)
  | exportDefaultFunction (name : String) (params : List String) (body : List Stmt)

end

instance : Inhabited Expr := ⟨.null⟩

instance : Inhabited Stmt := ⟨.returns .null⟩

structure Script where
  body : List Stmt

namespace Expr

def members (start : Expr) (properties : List String) : Expr := properties.foldl .member start

@[simp] theorem members_nil (start : Expr) : start.members [] = start := rfl

@[simp] theorem members_cons (start : Expr) (property : String) (rest : List String) :
    start.members (property :: rest) = (start.member property).members rest := rfl

end Expr

end RenderCompiler
