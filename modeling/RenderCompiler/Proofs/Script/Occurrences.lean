import RenderCompiler.Script.Basic

set_option autoImplicit false

namespace RenderCompiler

-- An identifier, with the parameters of the functions around it, innermost first.
structure Occurrence where
  name : String
  around : List (List String)
deriving DecidableEq, Repr

def Occurrence.IsCaptured (occurrence : Occurrence) : Prop :=
  ∃ params ∈ occurrence.around, occurrence.name ∈ params

instance (occurrence : Occurrence) : Decidable occurrence.IsCaptured :=
  inferInstanceAs (Decidable (∃ params ∈ occurrence.around, occurrence.name ∈ params))

mutual

def Expr.occurrences (around : List (List String)) : Expr → List Occurrence
  | .identifier name => [⟨name, around⟩]
  | .string _ | .number _ | .boolean _ | .null => []
  | .member object _ => object.occurrences around
  | .call callee arguments => callee.occurrences around ++ Expr.listOccurrences around arguments
  | .array elements => Expr.listOccurrences around elements
  | .object properties => Expr.propertyOccurrences around properties
  | .conditional test consequent alternate =>
    test.occurrences around ++ consequent.occurrences around ++ alternate.occurrences around
  | .not argument => argument.occurrences around
  | .strictEqual left right => left.occurrences around ++ right.occurrences around
  | .or left right => left.occurrences around ++ right.occurrences around
  | .function params body => Stmt.listOccurrences (params :: around) body

def Expr.listOccurrences (around : List (List String)) : List Expr → List Occurrence
  | [] => []
  | expr :: rest => expr.occurrences around ++ Expr.listOccurrences around rest

def Expr.propertyOccurrences (around : List (List String)) :
    List (String × Expr) → List Occurrence
  | [] => []
  | (_, expr) :: rest => expr.occurrences around ++ Expr.propertyOccurrences around rest

def Stmt.occurrences (around : List (List String)) : Stmt → List Occurrence
  | .returns argument => argument.occurrences around
  | .importDefault _ _ => []
  | .exportDefaultFunction _ params body => Stmt.listOccurrences (params :: around) body

def Stmt.listOccurrences (around : List (List String)) : List Stmt → List Occurrence
  | [] => []
  | stmt :: rest => stmt.occurrences around ++ Stmt.listOccurrences around rest

end

theorem Expr.occurrences_members (around : List (List String)) (start : Expr)
    (properties : List String) :
    (start.members properties).occurrences around = start.occurrences around := by
  induction properties generalizing start with
  | nil => rfl
  | cons property rest ih =>
    rw [members_cons, ih, occurrences]

end RenderCompiler
