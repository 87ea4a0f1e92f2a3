import RenderCompiler.Proofs.Json.Takes
import RenderCompiler.Proofs.Script.Decoding

set_option autoImplicit false

namespace RenderCompiler

theorem Json.each_ofKind {p : JsonNumber → Prop} {kind : String} {members : List (String × Json)}
    (each : Json.EachEntry p members) : (Json.ofKind kind members).Each p :=
  ⟨trivial, each⟩

mutual

theorem Expr.each_toJson (e : Expr) (finite : e.IsFinite) :
    e.toJson.Each JsonNumber.IsFiniteReal := by
  cases e with
  | identifier | string | boolean => exact Json.each_ofKind ⟨trivial, trivial⟩
  | null => exact Json.each_ofKind trivial
  | number x => exact Json.each_ofKind ⟨⟨x, rfl, finite⟩, trivial⟩
  | member object property => exact Json.each_ofKind ⟨object.each_toJson finite.2, trivial, trivial⟩
  | call callee arguments =>
    exact Json.each_ofKind
      ⟨callee.each_toJson finite.1, each_exprsToJson arguments finite.2, trivial⟩
  | array elements => exact Json.each_ofKind ⟨each_exprsToJson elements finite, trivial⟩
  | object properties => exact Json.each_ofKind ⟨each_propertiesToJson properties finite, trivial⟩
  | conditional test consequent alternate =>
    exact Json.each_ofKind ⟨test.each_toJson finite.1, consequent.each_toJson finite.2.1,
      alternate.each_toJson finite.2.2, trivial⟩
  | not argument => exact Json.each_ofKind ⟨trivial, argument.each_toJson finite, trivial⟩
  | strictEqual left right | or left right =>
    exact Json.each_ofKind
      ⟨trivial, left.each_toJson finite.1, right.each_toJson finite.2, trivial⟩
  | function params body =>
    exact Json.each_ofKind ⟨Json.each_ofStrings params, each_stmtsToJson body finite.2, trivial⟩

theorem each_exprsToJson (es : List Expr) (finite : Expr.AllMadeOf finiteParts es) :
    Json.EachItem JsonNumber.IsFiniteReal (exprsToJson es) := by
  cases es with
  | nil => trivial
  | cons e rest => exact ⟨e.each_toJson finite.1, each_exprsToJson rest finite.2⟩

theorem each_propertiesToJson (properties : List (String × Expr))
    (finite : Expr.PropertiesMadeOf finiteParts properties) :
    Json.EachItem JsonNumber.IsFiniteReal (propertiesToJson properties) := by
  cases properties with
  | nil => trivial
  | cons property rest =>
    obtain ⟨key, value⟩ := property
    exact ⟨⟨trivial, value.each_toJson finite.1, trivial⟩, each_propertiesToJson rest finite.2⟩

theorem Stmt.each_toJson (s : Stmt) (finite : s.IsFinite) :
    s.toJson.Each JsonNumber.IsFiniteReal := by
  cases s with
  | returns argument => exact Json.each_ofKind ⟨argument.each_toJson finite, trivial⟩
  | importDefault => exact Json.each_ofKind ⟨trivial, trivial, trivial⟩
  | exportDefaultFunction name params body =>
    exact Json.each_ofKind
      ⟨trivial, Json.each_ofStrings params, each_stmtsToJson body finite.2.2, trivial⟩

theorem each_stmtsToJson (body : List Stmt) (finite : Stmt.AllMadeOf finiteParts body) :
    Json.EachItem JsonNumber.IsFiniteReal (stmtsToJson body) := by
  cases body with
  | nil => trivial
  | cons s rest => exact ⟨s.each_toJson finite.1, each_stmtsToJson rest finite.2⟩

end

namespace Decoder

open RenderCompiler.Field

section Kinds

variable {levels : Nat} {origin : Origin} {kind : String} {members : List (String × Json)}

theorem exprWithin_ofKind (index : Nat) (found : Expr.kinds.findIdx? (· == kind) = some index)
    (apart : tagName ∉ members.map Prod.fst) (fits : (Json.ofKind kind members).Fits (levels + 1)) :
    exprWithin (levels + 1) origin (.ofKind kind members) =
      exprBody (exprWithin levels) (stmtWithin levels) index (.object members) := by
  rw [exprWithin]
  exact tagged_takes index found apart fits.1

theorem stmtWithin_ofKind (index : Nat) (found : Stmt.kinds.findIdx? (· == kind) = some index)
    (apart : tagName ∉ members.map Prod.fst) (fits : (Json.ofKind kind members).Fits (levels + 1)) :
    stmtWithin (levels + 1) origin (.ofKind kind members) =
      stmtBody (exprWithin levels) (stmtWithin levels) index (.object members) := by
  rw [stmtWithin]
  exact tagged_takes index found apart fits.1

theorem fits_members (fits : (Json.ofKind kind members).Fits (levels + 1)) :
    ∀ member ∈ members, member.2.Fits levels :=
  fun member among => fits.entries member (List.mem_cons_of_mem _ among)

end Kinds

mutual

theorem exprWithin_takes (levels : Nat) (origin : Origin) (e : Expr)
    (fits : e.toJson.Fits levels) : exprWithin levels origin e.toJson = .ok e := by
  obtain ⟨levels, rfl⟩ := Nat.exists_eq_add_one_of_ne_zero (Nat.ne_zero_of_lt fits.2)
  cases e with
  | identifier name =>
    refine (exprWithin_ofKind 0 rfl (by simp [tagName]) fits).trans ?_
    rw [exprBody, record_takes (by simp) (.mandatory rfl (.nil _))]
  | string value =>
    refine (exprWithin_ofKind 1 rfl (by simp [tagName]) fits).trans ?_
    rw [exprBody, record_takes (by simp) (.mandatory rfl (.nil _))]
  | number value =>
    refine (exprWithin_ofKind 2 rfl (by simp [tagName]) fits).trans ?_
    rw [exprBody, record_takes (by simp) (.mandatory rfl (.nil _))]
    rfl
  | boolean value =>
    refine (exprWithin_ofKind 3 rfl (by simp [tagName]) fits).trans ?_
    rw [exprBody, record_takes (by simp) (.mandatory rfl (.nil _))]
  | null =>
    refine (exprWithin_ofKind 4 rfl (by simp) fits).trans ?_
    rw [exprBody, record_takes (by simp) (.nil _)]
  | member object property =>
    refine (exprWithin_ofKind 5 rfl (by simp [tagName]) fits).trans ?_
    have parts := fits_members fits
    simp only [List.forall_mem_cons] at parts
    have first := exprWithin_takes levels .kept object parts.1
    rw [exprBody, record_takes (by simp) (.mandatory first (.mandatory rfl (.nil _)))]
    rfl
  | call callee arguments =>
    refine (exprWithin_ofKind 6 rfl (by simp [tagName]) fits).trans ?_
    have parts := fits_members fits
    simp only [List.forall_mem_cons] at parts
    have first := exprWithin_takes levels .kept callee parts.1
    have second := exprs_take levels .kept arguments parts.2.1.items
    rw [exprBody, record_takes (by simp) (.mandatory first (.mandatory second (.nil _)))]
    rfl
  | array elements =>
    refine (exprWithin_ofKind 7 rfl (by simp [tagName]) fits).trans ?_
    have parts := fits_members fits
    simp only [List.forall_mem_cons] at parts
    have first := exprs_take levels .kept elements parts.1.items
    rw [exprBody, record_takes (by simp) (.mandatory first (.nil _))]
  | object properties =>
    refine (exprWithin_ofKind 8 rfl (by simp [tagName]) fits).trans ?_
    have parts := fits_members fits
    simp only [List.forall_mem_cons] at parts
    have first := properties_take levels .kept properties parts.1.items
    rw [exprBody, record_takes (by simp) (.mandatory first (.nil _))]
  | conditional test consequent alternate =>
    refine (exprWithin_ofKind 9 rfl (by simp [tagName]) fits).trans ?_
    have parts := fits_members fits
    simp only [List.forall_mem_cons] at parts
    have first := exprWithin_takes levels .kept test parts.1
    have second := exprWithin_takes levels .kept consequent parts.2.1
    have third := exprWithin_takes levels .kept alternate parts.2.2.1
    rw [exprBody, record_takes (by simp)
      (.mandatory first (.mandatory second (.mandatory third (.nil _))))]
    rfl
  | not argument =>
    refine (exprWithin_ofKind 10 rfl (by simp [tagName]) fits).trans ?_
    have parts := fits_members fits
    simp only [List.forall_mem_cons] at parts
    have first := exprWithin_takes levels .kept argument parts.2.1
    rw [exprBody, record_takes (by simp) (.mandatory rfl (.mandatory first (.nil _)))]
  | strictEqual left right =>
    refine (exprWithin_ofKind 11 rfl (by simp [tagName]) fits).trans ?_
    have parts := fits_members fits
    simp only [List.forall_mem_cons] at parts
    have first := exprWithin_takes levels .kept left parts.2.1
    have second := exprWithin_takes levels .kept right parts.2.2.1
    rw [exprBody, exprBody.operands,
      record_takes (by simp) (.mandatory rfl (.mandatory first (.mandatory second (.nil _))))]
    rfl
  | or left right =>
    refine (exprWithin_ofKind 12 rfl (by simp [tagName]) fits).trans ?_
    have parts := fits_members fits
    simp only [List.forall_mem_cons] at parts
    have first := exprWithin_takes levels .kept left parts.2.1
    have second := exprWithin_takes levels .kept right parts.2.2.1
    rw [exprBody, exprBody.operands,
      record_takes (by simp) (.mandatory rfl (.mandatory first (.mandatory second (.nil _))))]
    rfl
  | function params body =>
    refine (exprWithin_ofKind 13 rfl (by simp [tagName]) fits).trans ?_
    have parts := fits_members fits
    simp only [List.forall_mem_cons] at parts
    have second := stmts_take levels .kept body parts.2.1.items
    simp only [exprBody]
    rw [record_takes (by simp) (.mandatory (strings_take params) (.mandatory second (.nil _)))]
    rfl

theorem exprs_take (levels : Nat) (origin : Origin) (es : List Expr)
    (fits : ∀ j ∈ exprsToJson es, j.Fits levels) :
    (exprsToJson es).mapM (exprWithin levels origin) = .ok es := by
  cases es with
  | nil => rfl
  | cons e rest =>
    obtain ⟨first, others⟩ := List.forall_mem_cons.mp fits
    rw [exprsToJson, List.mapM_cons, exprWithin_takes levels origin e first,
      exprs_take levels origin rest others]
    rfl

theorem properties_take (levels : Nat) (origin : Origin) (properties : List (String × Expr))
    (fits : ∀ j ∈ propertiesToJson properties, j.Fits levels) :
    (propertiesToJson properties).mapM (property (exprWithin levels) origin) = .ok properties := by
  cases properties with
  | nil => rfl
  | cons entry rest =>
    obtain ⟨key, value⟩ := entry
    obtain ⟨first, others⟩ := List.forall_mem_cons.mp fits
    have inside := (first.mono (Nat.le_succ levels)).entries
    simp only [List.forall_mem_cons] at inside
    have second := exprWithin_takes levels origin value inside.2.1
    rw [propertiesToJson, List.mapM_cons, property,
      record_takes (by simp) (.mandatory rfl (.mandatory second (.nil _))), ← property,
      properties_take levels origin rest others]
    rfl

theorem stmtWithin_takes (levels : Nat) (origin : Origin) (s : Stmt)
    (fits : s.toJson.Fits levels) : stmtWithin levels origin s.toJson = .ok s := by
  obtain ⟨levels, rfl⟩ := Nat.exists_eq_add_one_of_ne_zero (Nat.ne_zero_of_lt fits.2)
  cases s with
  | returns argument =>
    refine (stmtWithin_ofKind 0 rfl (by simp [tagName]) fits).trans ?_
    have parts := fits_members fits
    simp only [List.forall_mem_cons] at parts
    have first := exprWithin_takes levels .kept argument parts.1
    rw [stmtBody, record_takes (by simp) (.mandatory first (.nil _))]
  | importDefault binding source =>
    refine (stmtWithin_ofKind 1 rfl (by simp [tagName]) fits).trans ?_
    rw [stmtBody, record_takes (by simp) (.mandatory rfl (.mandatory rfl (.nil _)))]
    rfl
  | exportDefaultFunction name params body =>
    refine (stmtWithin_ofKind 2 rfl (by simp [tagName]) fits).trans ?_
    have parts := fits_members fits
    simp only [List.forall_mem_cons] at parts
    have third := stmts_take levels .kept body parts.2.2.1.items
    simp only [stmtBody]
    rw [record_takes (by simp)
      (.mandatory rfl (.mandatory (strings_take params) (.mandatory third (.nil _))))]
    rfl

theorem stmts_take (levels : Nat) (origin : Origin) (body : List Stmt)
    (fits : ∀ j ∈ stmtsToJson body, j.Fits levels) :
    (stmtsToJson body).mapM (stmtWithin levels origin) = .ok body := by
  cases body with
  | nil => rfl
  | cons s rest =>
    obtain ⟨first, others⟩ := List.forall_mem_cons.mp fits
    rw [stmtsToJson, List.mapM_cons, stmtWithin_takes levels origin s first,
      stmts_take levels origin rest others]
    rfl

end

section Whole

variable {origin : Origin}

theorem expr_takes (e : Expr) (whole : e.toJson.intact = true) : expr origin e.toJson = .ok e :=
  exprWithin_takes (e.toJson.height + 1) origin e ⟨whole, Nat.lt_succ_self _⟩

theorem stmt_takes (s : Stmt) (whole : s.toJson.intact = true) : stmt origin s.toJson = .ok s :=
  stmtWithin_takes (s.toJson.height + 1) origin s ⟨whole, Nat.lt_succ_self _⟩

theorem stmtsToJson_eq_map (body : List Stmt) : stmtsToJson body = body.map Stmt.toJson := by
  induction body with
  | nil => rfl
  | cons s rest ih => rw [stmtsToJson, ih, List.map_cons]

theorem script_takes (script : Script) (finite : Stmt.AllMadeOf finiteParts script.body) :
    Decoder.script origin script.toJson = .ok script := by
  have each (s : Stmt) (member : s ∈ script.body) : stmt origin s.toJson = .ok s := by
    have own := s.each_toJson ((Stmt.allMadeOf_iff _ _).mp finite s member)
    exact stmt_takes s ((Json.each_iff _ _).mp own).1
  have body := list_takes each
  rw [← stmtsToJson_eq_map] at body
  exact record_takes (by simp) (.mandatory body (.nil _))

end Whole

/-- A script whose numbers are finite is read back from its text, on one line or on many, however
deep it is nested. -/
theorem script_runWithin (script : Script) (finite : Stmt.AllMadeOf finiteParts script.body)
    (back : ∀ n ∈ script.toJson.numbers, n.IsFinite → n.ReadsBack) :
    Decoder.script.runWithin none script.toJson.text = .ok script ∧
      Decoder.script.runWithin none script.toJson.prettyText = .ok script ∧
      Decoder.script.runWithin none (script.toJson.prettyText ++ "\n") = .ok script := by
  have each : script.toJson.Each JsonNumber.IsFiniteReal :=
    ⟨each_stmtsToJson script.body finite, trivial⟩
  exact run_written (script_takes script finite) (Json.readable_of_each each back)
    fun n none => by cases none

end Decoder

end RenderCompiler
