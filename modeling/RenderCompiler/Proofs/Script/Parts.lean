import RenderCompiler.Script.Basic

set_option autoImplicit false

namespace RenderCompiler

structure Parts where
  name : String → Prop
  number : Binary64 → Prop
  object : Expr → Prop

section MadeOf

variable (parts : Parts)

mutual

def Expr.MadeOf : Expr → Prop
  | .identifier name => parts.name name
  | .number value => parts.number value
  | .string _ | .boolean _ | .null => True
  | .member object _ => parts.object object ∧ object.MadeOf
  | .call callee arguments => callee.MadeOf ∧ Expr.AllMadeOf arguments
  | .array elements => Expr.AllMadeOf elements
  | .object properties => Expr.PropertiesMadeOf properties
  | .conditional test consequent alternate =>
    test.MadeOf ∧ consequent.MadeOf ∧ alternate.MadeOf
  | .not argument => argument.MadeOf
  | .strictEqual left right => left.MadeOf ∧ right.MadeOf
  | .or left right => left.MadeOf ∧ right.MadeOf
  | .function params body => (∀ param ∈ params, parts.name param) ∧ Stmt.AllMadeOf body

def Expr.AllMadeOf : List Expr → Prop
  | [] => True
  | e :: rest => e.MadeOf ∧ Expr.AllMadeOf rest

def Expr.PropertiesMadeOf : List (String × Expr) → Prop
  | [] => True
  | (_, e) :: rest => e.MadeOf ∧ Expr.PropertiesMadeOf rest

def Stmt.MadeOf : Stmt → Prop
  | .returns argument => argument.MadeOf
  | .importDefault binding _ => parts.name binding
  | .exportDefaultFunction name params body =>
    parts.name name ∧ (∀ param ∈ params, parts.name param) ∧ Stmt.AllMadeOf body

def Stmt.AllMadeOf : List Stmt → Prop
  | [] => True
  | s :: rest => s.MadeOf ∧ Stmt.AllMadeOf rest

end

theorem Expr.allMadeOf_iff (es : List Expr) :
    Expr.AllMadeOf parts es ↔ ∀ e ∈ es, e.MadeOf parts := by
  induction es with
  | nil => simp [Expr.AllMadeOf]
  | cons e rest ih => simp [Expr.AllMadeOf, ih]

theorem Expr.propertiesMadeOf_iff (properties : List (String × Expr)) :
    Expr.PropertiesMadeOf parts properties ↔ ∀ property ∈ properties, property.2.MadeOf parts := by
  induction properties with
  | nil => simp [Expr.PropertiesMadeOf]
  | cons property rest ih => simp only [Expr.PropertiesMadeOf, ih, List.forall_mem_cons]

theorem Stmt.allMadeOf_iff (body : List Stmt) :
    Stmt.AllMadeOf parts body ↔ ∀ s ∈ body, s.MadeOf parts := by
  induction body with
  | nil => simp [Stmt.AllMadeOf]
  | cons s rest ih => simp [Stmt.AllMadeOf, ih]

end MadeOf

def Expr.IsNumber : Expr → Prop
  | .number _ => True
  | _ => False

end RenderCompiler
