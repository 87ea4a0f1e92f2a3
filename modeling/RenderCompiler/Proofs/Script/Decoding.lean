import RenderCompiler.Proofs.Json.Gives
import RenderCompiler.Proofs.Script.Parts
import RenderCompiler.Script.Json

set_option autoImplicit false

namespace RenderCompiler

def finiteParts : Parts where
  name := fun _ => True
  number := fun x => x.isFinite = true
  object := fun _ => True

abbrev Expr.IsFinite (e : Expr) : Prop := e.MadeOf finiteParts

abbrev Stmt.IsFinite (s : Stmt) : Prop := s.MadeOf finiteParts

namespace Decoder

open RenderCompiler.Field

theorem gives_binary64 : Gives binary64 fun x => x.isFinite = true := by
  intro origin j x finite ran
  unfold binary64 at ran
  split at ran
  · cases ran
    exact finite
  · exact absurd ran mismatch_ne_ok

section Scripts

variable {expr : Decoder Expr} {stmt : Decoder Stmt} (exprs : Gives expr Expr.IsFinite)
  (stmts : Gives stmt Stmt.IsFinite)

def BothFinite (pair : Expr × Expr) : Prop := pair.1.IsFinite ∧ pair.2.IsFinite

include exprs

theorem gives_property : Gives (property expr) fun p => p.2.IsFinite := by
  refine gives_record (List.forall_mem_cons.mpr ⟨?_, List.forall_mem_singleton.mpr ?_⟩) trivial
  · exact keeps_of_gives (gives_trivial _) fun _ _ _ here => here
  · exact keeps_of_gives exprs fun _ _ given _ => given

theorem operands_gives {body : Json} {name operator : String} {pair : Expr × Expr}
    (finite : body.IsFinite) (ran : exprBody.operands expr body name operator = .ok pair) :
    BothFinite pair := by
  have keeps : ∀ field ∈ [
      mandatory "operator" (Decoder.operator operator) fun _ p => p,
      mandatory "left" expr fun e p => (e, p.2),
      mandatory "right" expr fun e p => (p.1, e)], field.Keeps BothFinite := by
    simp only [List.forall_mem_cons, List.not_mem_nil, false_imp_iff, implies_true, and_true]
    refine ⟨?_, ?_, ?_⟩
    · exact keeps_of_gives (gives_trivial _) fun _ _ _ here => here
    · exact keeps_of_gives exprs fun _ _ given here => ⟨given, here.2⟩
    · exact keeps_of_gives exprs fun _ _ given here => ⟨here.1, given⟩
  refine gives_record keeps ?_ .kept body pair finite ran
  exact ⟨trivial, trivial⟩

include stmts

theorem exprBody_gives {kind : Nat} {body : Json} {e : Expr} (finite : body.IsFinite)
    (ran : exprBody expr stmt kind body = .ok e) : e.IsFinite := by
  unfold exprBody at ran
  dsimp only at ran
  split at ran
  · refine gives_single (gives_trivial _) trivial ?_ .kept body e finite ran
    exact fun _ _ _ => trivial
  · refine gives_single (gives_trivial _) trivial ?_ .kept body e finite ran
    exact fun _ _ _ => trivial
  · refine gives_single gives_binary64 trivial ?_ .kept body e finite ran
    exact fun _ _ given => given
  · refine gives_single (gives_trivial _) trivial ?_ .kept body e finite ran
    exact fun _ _ _ => trivial
  · exact gives_record (fun _ none => by cases none) trivial .kept body e finite ran
  · obtain ⟨⟨object, property⟩, decoded, ran⟩ := bind_ok ran
    cases ran
    refine ⟨trivial, ?_⟩
    have member : ∀ field ∈ [
        mandatory "object" expr fun e (p : Expr × String) => (e, p.2),
        mandatory "property" string fun s p => (p.1, s)], field.Keeps fun p => p.1.IsFinite := by
      simp only [List.forall_mem_cons, List.not_mem_nil, false_imp_iff, implies_true, and_true]
      exact ⟨keeps_of_gives exprs fun _ _ given _ => given,
        keeps_of_gives (gives_trivial _) fun _ _ _ here => here⟩
    refine gives_record member ?_ .kept body (object, property) finite decoded
    trivial
  · obtain ⟨⟨callee, arguments⟩, decoded, ran⟩ := bind_ok ran
    cases ran
    have call : ∀ field ∈ [
        mandatory "callee" expr fun e (p : Expr × List Expr) => (e, p.2),
        mandatory "arguments" (list expr) fun es p => (p.1, es)],
        field.Keeps fun p => p.1.IsFinite ∧ ∀ e ∈ p.2, e.IsFinite := by
      simp only [List.forall_mem_cons, List.not_mem_nil, false_imp_iff, implies_true, and_true]
      exact ⟨keeps_of_gives exprs fun _ _ given here => ⟨given, here.2⟩,
        keeps_of_gives (gives_list exprs) fun _ _ given here => ⟨here.1, given⟩⟩
    have blank : Expr.null.IsFinite ∧ ∀ e ∈ [], Expr.IsFinite e :=
      ⟨trivial, fun _ none => by cases none⟩
    obtain ⟨first, others⟩ :=
      gives_record call blank .kept body (callee, arguments) finite decoded
    exact ⟨first, (Expr.allMadeOf_iff _ _).mpr others⟩
  · refine gives_single (gives_list exprs) trivial ?_ .kept body e finite ran
    exact fun _ _ given => (Expr.allMadeOf_iff _ _).mpr given
  · refine gives_single (gives_list (gives_property exprs)) trivial ?_ .kept body e finite ran
    exact fun _ _ given => (Expr.propertiesMadeOf_iff _ _).mpr given
  · obtain ⟨⟨test, consequent, alternate⟩, decoded, ran⟩ := bind_ok ran
    cases ran
    have three : ∀ field ∈ [
        mandatory "test" expr fun e (p : Expr × Expr × Expr) => (e, p.2),
        mandatory "consequent" expr fun e p => (p.1, e, p.2.2),
        mandatory "alternate" expr fun e p => (p.1, p.2.1, e)],
        field.Keeps fun p => p.1.IsFinite ∧ BothFinite p.2 := by
      simp only [List.forall_mem_cons, List.not_mem_nil, false_imp_iff, implies_true, and_true]
      exact ⟨keeps_of_gives exprs fun _ _ given here => ⟨given, here.2⟩,
        keeps_of_gives exprs fun _ _ given here => ⟨here.1, given, here.2.2⟩,
        keeps_of_gives exprs fun _ _ given here => ⟨here.1, here.2.1, given⟩⟩
    refine gives_record three ?_ .kept body (test, consequent, alternate) finite decoded
    exact ⟨trivial, trivial, trivial⟩
  · refine gives_record ?_ trivial .kept body e finite ran
    simp only [List.forall_mem_cons, List.not_mem_nil, false_imp_iff, implies_true, and_true]
    exact ⟨keeps_of_gives (gives_trivial _) fun _ _ _ here => here,
      keeps_of_gives exprs fun _ _ given _ => given⟩
  · obtain ⟨pair, decoded, ran⟩ := bind_ok ran
    cases ran
    exact operands_gives exprs finite decoded
  · obtain ⟨pair, decoded, ran⟩ := bind_ok ran
    cases ran
    exact operands_gives exprs finite decoded
  · obtain ⟨⟨params, statements⟩, decoded, ran⟩ := bind_ok ran
    cases ran
    refine ⟨fun _ _ => trivial, (Stmt.allMadeOf_iff _ _).mpr ?_⟩
    have function : ∀ field ∈ [
        mandatory "params" (list string) fun ps (p : List String × List Stmt) => (ps, p.2),
        mandatory "body" (list stmt) fun ss p => (p.1, ss)],
        field.Keeps fun p => ∀ s ∈ p.2, s.IsFinite := by
      simp only [List.forall_mem_cons, List.not_mem_nil, false_imp_iff, implies_true, and_true]
      exact ⟨keeps_of_gives (gives_trivial _) fun _ _ _ here => here,
        keeps_of_gives (gives_list stmts) fun _ _ given _ => given⟩
    exact gives_record function (fun _ none => by cases none) .kept body (params, statements)
      finite decoded

theorem stmtBody_gives {kind : Nat} {body : Json} {s : Stmt} (finite : body.IsFinite)
    (ran : stmtBody expr stmt kind body = .ok s) : s.IsFinite := by
  unfold stmtBody at ran
  dsimp only at ran
  split at ran
  · refine gives_single exprs trivial ?_ .kept body s finite ran
    exact fun _ _ given => given
  · obtain ⟨pair, -, ran⟩ := bind_ok ran
    cases ran
    trivial
  · obtain ⟨⟨name, params, statements⟩, decoded, ran⟩ := bind_ok ran
    cases ran
    refine ⟨trivial, fun _ _ => trivial, (Stmt.allMadeOf_iff _ _).mpr ?_⟩
    have function : ∀ field ∈ [
        mandatory "name" string fun s (p : String × List String × List Stmt) => (s, p.2),
        mandatory "params" (list string) fun ps p => (p.1, ps, p.2.2),
        mandatory "body" (list stmt) fun ss p => (p.1, p.2.1, ss)],
        field.Keeps fun p => ∀ s ∈ p.2.2, s.IsFinite := by
      simp only [List.forall_mem_cons, List.not_mem_nil, false_imp_iff, implies_true, and_true]
      exact ⟨keeps_of_gives (gives_trivial _) fun _ _ _ here => here,
        keeps_of_gives (gives_trivial _) fun _ _ _ here => here,
        keeps_of_gives (gives_list stmts) fun _ _ given _ => given⟩
    exact gives_record function (fun _ none => by cases none) .kept body
      (name, params, statements) finite decoded

end Scripts

theorem gives_scripts (levels : Nat) :
    Gives (exprWithin levels) Expr.IsFinite ∧ Gives (stmtWithin levels) Stmt.IsFinite := by
  induction levels with
  | zero =>
    constructor
    · intro origin j found finite ran
      cases ran
    · intro origin j found finite ran
      cases ran
  | succ levels ih =>
    exact ⟨gives_tagged fun _ _ _ => exprBody_gives ih.1 ih.2,
      gives_tagged fun _ _ _ => stmtBody_gives ih.1 ih.2⟩

theorem gives_expr : Gives expr Expr.IsFinite :=
  fun origin j => (gives_scripts (j.height + 1)).1 origin j

end Decoder

end RenderCompiler
