import RenderCompiler.Proofs.Binary64.Exact
import RenderCompiler.Runtime.Calls

set_option autoImplicit false

namespace RenderCompiler

section Calls

variable (api : RuntimeApi)

def Expr.isBind : Expr → Bool
  | .member (.identifier param) name => param == api.apiParam && name == api.bind
  | _ => false

mutual

def Expr.bindCalls : Expr → List (List Expr)
  | .identifier _ | .string _ | .number _ | .boolean _ | .null => []
  | .member object _ => object.bindCalls
  | .call callee arguments =>
    (if callee.isBind api then [arguments] else []) ++ callee.bindCalls ++
      Expr.listBindCalls arguments
  | .array elements => Expr.listBindCalls elements
  | .object properties => Expr.propertyBindCalls properties
  | .conditional test consequent alternate =>
    test.bindCalls ++ consequent.bindCalls ++ alternate.bindCalls
  | .not argument => argument.bindCalls
  | .strictEqual left right => left.bindCalls ++ right.bindCalls
  | .or left right => left.bindCalls ++ right.bindCalls
  | .function _ body => Stmt.listBindCalls body

def Expr.listBindCalls : List Expr → List (List Expr)
  | [] => []
  | expr :: rest => expr.bindCalls ++ Expr.listBindCalls rest

def Expr.propertyBindCalls : List (String × Expr) → List (List Expr)
  | [] => []
  | (_, expr) :: rest => expr.bindCalls ++ Expr.propertyBindCalls rest

def Stmt.bindCalls : Stmt → List (List Expr)
  | .returns argument => argument.bindCalls
  | .importDefault _ _ => []
  | .exportDefaultFunction _ _ body => Stmt.listBindCalls body

def Stmt.listBindCalls : List Stmt → List (List Expr)
  | [] => []
  | stmt :: rest => stmt.bindCalls ++ Stmt.listBindCalls rest

end

def slotOf? : List Expr → Option Nat
  | [_, .number slot] => slot.integral?
  | _ => none

def raiseSlot (offset : Nat) : List Expr → List Expr
  | [handler, .number slot] =>
    [handler, .number (.ofUInt32 (.ofNat (slot.integral?.getD 0 + offset)))]
  | arguments => arguments

variable (offset : Nat)

mutual

def Expr.raised : Expr → Expr
  | .member object property => .member object.raised property
  | .call callee arguments =>
    .call callee.raised (if callee.isBind api then raiseSlot offset (Expr.listRaised arguments)
      else Expr.listRaised arguments)
  | .array elements => .array (Expr.listRaised elements)
  | .object properties => .object (Expr.propertiesRaised properties)
  | .conditional test consequent alternate =>
    .conditional test.raised consequent.raised alternate.raised
  | .not argument => .not argument.raised
  | .strictEqual left right => .strictEqual left.raised right.raised
  | .or left right => .or left.raised right.raised
  | .function params body => .function params (Stmt.listRaised body)
  | .identifier name => .identifier name
  | .string value => .string value
  | .number value => .number value
  | .boolean value => .boolean value
  | .null => .null

def Expr.listRaised : List Expr → List Expr
  | [] => []
  | expr :: rest => expr.raised :: Expr.listRaised rest

def Expr.propertiesRaised : List (String × Expr) → List (String × Expr)
  | [] => []
  | (name, expr) :: rest => (name, expr.raised) :: Expr.propertiesRaised rest

def Stmt.raised : Stmt → Stmt
  | .returns argument => .returns argument.raised
  | .importDefault binding source => .importDefault binding source
  | .exportDefaultFunction name params body =>
    .exportDefaultFunction name params (Stmt.listRaised body)

def Stmt.listRaised : List Stmt → List Stmt
  | [] => []
  | stmt :: rest => stmt.raised :: Stmt.listRaised rest

end

end Calls

section Lists

variable (api : RuntimeApi) (offset : Nat)

@[simp] theorem listBindCalls_eq_flatMap (exprs : List Expr) :
    Expr.listBindCalls api exprs = exprs.flatMap (Expr.bindCalls api) := by
  induction exprs with
  | nil => rfl
  | cons expr rest ih => simp [Expr.listBindCalls, ih]

@[simp] theorem listRaised_eq_map (exprs : List Expr) :
    Expr.listRaised api offset exprs = exprs.map (Expr.raised api offset) := by
  induction exprs with
  | nil => rfl
  | cons expr rest ih => simp [Expr.listRaised, ih]

@[simp] theorem propertiesRaised_eq_map (properties : List (String × Expr)) :
    Expr.propertiesRaised api offset properties =
      properties.map fun property => (property.1, property.2.raised api offset) := by
  induction properties with
  | nil => rfl
  | cons property rest ih => simp [Expr.propertiesRaised, ih]

@[simp] theorem raiseSlot_given (given : Nat) (handler : Expr) :
    raiseSlot offset [handler, .number (.ofUInt32 (.ofNat given))] =
      [handler, .number (.ofUInt32 (.ofNat (given + offset)))] := by
  simp only [raiseSlot, Binary64.integral?_ofUInt32, Option.getD_some, UInt32.ofNat_add,
    UInt32.ofNat_toNat]

theorem bindCalls_members (start : Expr) (properties : List String) :
    (start.members properties).bindCalls api = start.bindCalls api := by
  induction properties generalizing start with
  | nil => rfl
  | cons property rest ih => rw [Expr.members_cons, ih, Expr.bindCalls]

end Lists

section Plain

variable (api : RuntimeApi) (offset : Nat)

mutual

theorem Expr.raised_of_plain (expr : Expr) (plain : expr.bindCalls api = []) :
    expr.raised api offset = expr := by
  cases expr with
  | identifier | string | number | boolean | null => rfl
  | member object property => rw [Expr.raised, Expr.raised_of_plain object plain]
  | call callee arguments =>
    simp only [Expr.bindCalls, List.append_eq_nil_iff] at plain
    obtain ⟨⟨own, callees⟩, others⟩ := plain
    have apart : callee.isBind api = false := by
      cases bind : callee.isBind api with
      | true => simp [bind] at own
      | false => rfl
    rw [Expr.raised, apart, Expr.raised_of_plain callee callees,
      Expr.listRaised_of_plain arguments others]
    rfl
  | array elements => rw [Expr.raised, Expr.listRaised_of_plain elements plain]
  | object properties => rw [Expr.raised, Expr.propertiesRaised_of_plain properties plain]
  | conditional test consequent alternate =>
    simp only [Expr.bindCalls, List.append_eq_nil_iff] at plain
    rw [Expr.raised, Expr.raised_of_plain test plain.1.1, Expr.raised_of_plain consequent plain.1.2,
      Expr.raised_of_plain alternate plain.2]
  | not argument => rw [Expr.raised, Expr.raised_of_plain argument plain]
  | strictEqual left right =>
    simp only [Expr.bindCalls, List.append_eq_nil_iff] at plain
    rw [Expr.raised, Expr.raised_of_plain left plain.1, Expr.raised_of_plain right plain.2]
  | or left right =>
    simp only [Expr.bindCalls, List.append_eq_nil_iff] at plain
    rw [Expr.raised, Expr.raised_of_plain left plain.1, Expr.raised_of_plain right plain.2]
  | function params body => rw [Expr.raised, Stmt.listRaised_of_plain body plain]

theorem Expr.listRaised_of_plain (exprs : List Expr) (plain : Expr.listBindCalls api exprs = []) :
    Expr.listRaised api offset exprs = exprs := by
  cases exprs with
  | nil => rfl
  | cons expr rest =>
    rw [Expr.listBindCalls, List.append_eq_nil_iff] at plain
    rw [Expr.listRaised, Expr.raised_of_plain expr plain.1, Expr.listRaised_of_plain rest plain.2]

theorem Expr.propertiesRaised_of_plain (properties : List (String × Expr))
    (plain : Expr.propertyBindCalls api properties = []) :
    Expr.propertiesRaised api offset properties = properties := by
  cases properties with
  | nil => rfl
  | cons property rest =>
    obtain ⟨name, expr⟩ := property
    rw [Expr.propertyBindCalls, List.append_eq_nil_iff] at plain
    rw [Expr.propertiesRaised, Expr.raised_of_plain expr plain.1,
      Expr.propertiesRaised_of_plain rest plain.2]

theorem Stmt.raised_of_plain (stmt : Stmt) (plain : stmt.bindCalls api = []) :
    stmt.raised api offset = stmt := by
  cases stmt with
  | returns argument => rw [Stmt.raised, Expr.raised_of_plain argument plain]
  | importDefault binding source => rfl
  | exportDefaultFunction name params body => rw [Stmt.raised, Stmt.listRaised_of_plain body plain]

theorem Stmt.listRaised_of_plain (stmts : List Stmt) (plain : Stmt.listBindCalls api stmts = []) :
    Stmt.listRaised api offset stmts = stmts := by
  cases stmts with
  | nil => rfl
  | cons stmt rest =>
    rw [Stmt.listBindCalls, List.append_eq_nil_iff] at plain
    rw [Stmt.listRaised, Stmt.raised_of_plain stmt plain.1, Stmt.listRaised_of_plain rest plain.2]

end

end Plain

end RenderCompiler
