import RenderCompiler.Proofs.Script.Handlers

set_option autoImplicit false

namespace RenderCompiler

def Stmt.result? : Stmt → Option Expr
  | .returns argument => some argument
  | .importDefault _ _ | .exportDefaultFunction _ _ _ => none

def Expr.children : Expr → List Expr
  | .identifier _ | .string _ | .number _ | .boolean _ | .null => []
  | .member start _ => [start]
  | .call callee arguments => callee :: arguments
  | .array elements => elements
  | .object properties => properties.map (·.2)
  | .conditional test consequent alternate => [test, consequent, alternate]
  | .not argument => [argument]
  | .strictEqual left right | .or left right => [left, right]
  | .function _ body => body.filterMap Stmt.result?

inductive Expr.Within (inner : Expr) : Expr → Prop
  | here : Within inner inner
  | part {child outer : Expr} (own : child ∈ outer.children) (inside : Within inner child) :
      Within inner outer

namespace Expr

variable (api : RuntimeApi)

theorem propertyBindCalls_eq_flatMap (properties : List (String × Expr)) :
    propertyBindCalls api properties = properties.flatMap fun property =>
      property.2.bindCalls api := by
  induction properties with
  | nil => rfl
  | cons property rest ih => simp [propertyBindCalls, ih]

theorem bindCalls_result {body : List Stmt} {result : Expr}
    (part : result ∈ body.filterMap Stmt.result?) {call : List Expr}
    (own : call ∈ result.bindCalls api) : call ∈ Stmt.listBindCalls api body := by
  induction body with
  | nil => cases part
  | cons stmt rest ih =>
    rw [Stmt.listBindCalls, List.mem_append]
    cases stmt with
    | returns argument =>
      rcases List.mem_cons.mp part with rfl | later
      · exact .inl own
      · exact .inr (ih later)
    | importDefault binding source => exact .inr (ih part)
    | exportDefaultFunction name params body => exact .inr (ih part)

theorem bindCalls_child {child outer : Expr} (part : child ∈ outer.children) {call : List Expr}
    (own : call ∈ child.bindCalls api) : call ∈ outer.bindCalls api := by
  cases outer with
  | identifier | string | number | boolean | null => cases part
  | member object property =>
    obtain rfl := List.mem_singleton.mp part
    exact own
  | call callee arguments =>
    simp only [bindCalls, listBindCalls_eq_flatMap, List.mem_append, List.mem_flatMap]
    rcases List.mem_cons.mp part with rfl | among
    · exact .inl (.inr own)
    · exact .inr ⟨child, among, own⟩
  | array elements =>
    simp only [bindCalls, listBindCalls_eq_flatMap, List.mem_flatMap]
    exact ⟨child, part, own⟩
  | object properties =>
    obtain ⟨property, among, rfl⟩ := List.mem_map.mp part
    simp only [bindCalls, propertyBindCalls_eq_flatMap, List.mem_flatMap]
    exact ⟨property, among, own⟩
  | conditional test consequent alternate =>
    simp only [children, List.mem_cons, List.not_mem_nil, or_false] at part
    rcases part with rfl | rfl | rfl <;> simp [bindCalls, own]
  | not argument =>
    obtain rfl := List.mem_singleton.mp part
    exact own
  | strictEqual left right | or left right =>
    simp only [children, List.mem_cons, List.not_mem_nil, or_false] at part
    rcases part with rfl | rfl <;> simp [bindCalls, own]
  | function params body => exact bindCalls_result api part own

theorem bindCalls_within {inner outer : Expr} (inside : inner.Within outer) {call : List Expr}
    (own : call ∈ inner.bindCalls api) : call ∈ outer.bindCalls api := by
  induction inside with
  | here => exact own
  | part child inside ih => exact bindCalls_child api child ih

end Expr

end RenderCompiler
