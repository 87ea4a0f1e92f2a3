import RenderCompiler.Proofs.Script.Evaluation
import RenderCompiler.Proofs.Script.Occurrences
import RenderCompiler.Proofs.Script.Within

set_option autoImplicit false

namespace RenderCompiler

-- The runtime repeats a function over a list, and its other primitives call none; what else there
-- is to call can pass anything.
def Datum.MayPass (called : Datum) (arguments passed : List Datum) : Prop :=
  match called with
  | .primitive .iterate => ∃ items item position,
    arguments.head?.bind Datum.items? = some items ∧ items[position]? = some item ∧
      passed = [item, .number (.ofNat position)]
  | .primitive _ => False
  | _ => True

theorem mem_params_of_mem_callFrame {params : List String} {passed : List Datum}
    {binding : String × Datum} (member : binding ∈ callFrame params passed) :
    binding.1 ∈ params :=
  (List.of_mem_zip (List.mem_reverse.mp member)).1

-- An expression with the bindings it is evaluated under, and with the parameters of the functions
-- around it, innermost first.
structure Visit where
  bindings : Bindings
  around : List (List String)
  expr : Expr

section Visits

variable (host : String → List Datum → Option Datum)

noncomputable def Expr.evaluated (bindings : Bindings) : Expr → List Expr
  | .conditional test consequent alternate =>
    test :: ((test.eval host bindings).map fun value =>
      if value.truthy then consequent else alternate).toList
  | .or left right =>
    left :: ((left.eval host bindings).bind fun value =>
      if value.truthy then none else some right).toList
  | .function _ _ => []
  | outer => outer.children

theorem Expr.evaluated_subset (bindings : Bindings) (outer : Expr) :
    outer.evaluated host bindings ⊆ outer.children := by
  intro child member
  cases outer with
  | conditional test consequent alternate =>
    rcases List.mem_cons.mp member with rfl | chosen
    · exact List.mem_cons_self
    · obtain ⟨value, -, rfl⟩ := Option.map_eq_some_iff.mp (Option.mem_toList.mp chosen)
      split <;> simp [children]
  | or left right =>
    rcases List.mem_cons.mp member with rfl | chosen
    · exact List.mem_cons_self
    · obtain ⟨value, -, other⟩ := Option.bind_eq_some_iff.mp (Option.mem_toList.mp chosen)
      split at other
      · cases other
      · cases other
        simp [children]
  | function params body => cases member
  | _ => exact member

inductive Expr.Visits (visit : Visit) : Bindings → List (List String) → Expr → Prop
  | here : Visits visit visit.bindings visit.around visit.expr
  | part {bindings : Bindings} {around : List (List String)} {child outer : Expr}
      (own : child ∈ outer.evaluated host bindings) (inside : Visits visit bindings around child) :
      Visits visit bindings around outer
  | body {bindings : Bindings} {around : List (List String)} {callee result : Expr}
      {arguments : List Expr} {params : List String} {rest : List Stmt} {called : Datum}
      {values passed : List Datum} (own : .function params (.returns result :: rest) ∈ arguments)
      (calls : callee.eval host bindings = some called)
      (given : arguments.mapM (Expr.eval host bindings) = some values)
      (passes : called.MayPass values passed)
      (inside : Visits visit (callFrame params passed ++ bindings) (params :: around) result) :
      Visits visit bindings around (.call callee arguments)

namespace Expr.Visits

variable {host} {visit : Visit} {bindings : Bindings} {around : List (List String)} {expr : Expr}

theorem within (visits : expr.Visits host visit bindings around) : visit.expr.Within expr := by
  induction visits with
  | here => exact .here
  | part own inside ih => exact .part (evaluated_subset host _ _ own) ih
  | body own calls given passes inside ih =>
    exact .part (List.mem_cons_of_mem _ own) (.part List.mem_cons_self ih)

theorem bindings_eq (visits : expr.Visits host visit bindings around) :
    ∃ locals entered, visit.bindings = locals ++ bindings ∧ visit.around = entered ++ around ∧
      ∀ binding ∈ locals, ∃ params ∈ entered, binding.1 ∈ params := by
  induction visits with
  | here => exact ⟨[], [], rfl, rfl, nofun⟩
  | part own inside ih => exact ih
  | @body bindings around callee result arguments params rest called values passed own calls given
      passes inside ih =>
    obtain ⟨locals, entered, bound, same, named⟩ := ih
    refine ⟨locals ++ callFrame params passed, entered ++ [params], by simp [bound],
      by simp [same], ?_⟩
    intro binding member
    rcases List.mem_append.mp member with inner | outer
    · obtain ⟨params, among, own⟩ := named binding inner
      exact ⟨params, List.mem_append_left _ among, own⟩
    · exact ⟨params, List.mem_append_right _ List.mem_cons_self, mem_params_of_mem_callFrame outer⟩

theorem lookup_eq (visits : expr.Visits host visit bindings []) {name : String}
    (free : ∀ params ∈ visit.around, name ∉ params) :
    visit.bindings.lookup name = bindings.lookup name := by
  obtain ⟨locals, entered, bound, same, named⟩ := visits.bindings_eq
  rw [bound, List.lookup_append, List.lookup_eq_none_iff.mpr, Option.none_or]
  intro binding member
  obtain ⟨params, among, own⟩ := named binding member
  rw [bne_iff_ne]
  rintro rfl
  exact free params (by rw [same, List.append_nil]; exact among) own

end Expr.Visits

/-- One evaluation of a call that hands over a handler: the arguments it is written with, the
parameters of the functions around it, and what the arguments come to. -/
structure HandOver where
  arguments : List Expr
  around : List (List String)
  handler : Datum
  slot : Datum

def HandOver.ReadsLocal (handOver : HandOver) : Prop :=
  ∃ occurrence ∈ Expr.listOccurrences handOver.around handOver.arguments, occurrence.IsCaptured

variable (api : RuntimeApi) (bindings : Bindings) (expr : Expr)

def Expr.HandsOver (handOver : HandOver) : Prop :=
  ∃ callee locals,
    expr.Visits host ⟨locals, handOver.around, .call callee handOver.arguments⟩ bindings [] ∧
    callee.isBind api = true ∧
    handOver.arguments.mapM (Expr.eval host locals) = some [handOver.handler, handOver.slot]

def Expr.SlotsIdentify : Prop :=
  ∀ first second, expr.HandsOver host api bindings first → expr.HandsOver host api bindings second →
    first.slot = second.slot → first.handler = second.handler

theorem Expr.HandsOver.mem_bindCalls {host : String → List Datum → Option Datum} {api : RuntimeApi}
    {bindings : Bindings} {expr : Expr} {handOver : HandOver}
    (hands : expr.HandsOver host api bindings handOver) :
    handOver.arguments ∈ expr.bindCalls api := by
  obtain ⟨callee, locals, visits, bind, -⟩ := hands
  refine Expr.bindCalls_within api visits.within ?_
  simp [Expr.bindCalls, bind]

end Visits

end RenderCompiler
