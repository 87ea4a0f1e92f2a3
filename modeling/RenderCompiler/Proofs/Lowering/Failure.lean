import RenderCompiler.Proofs.Lowering.Outcome

set_option autoImplicit false

namespace RenderCompiler

section Refusal

variable (env : Lowering.Environment) (document : Document)

theorem compileWith_eq_error_iff (error : CompileError) :
    (compileWith env document).1 = .error error ↔
      ∃ modifier, document.root.reached.findSome? Node.unknownModifier? = some modifier ∧
        error = .unknownModifier modifier := by
  rw [← List.head?_filterMap]
  constructor
  · intro failed
    cases unknown : unknownModifiers document.root.reached with
    | nil =>
      rw [compileWith_eq_ok env document unknown] at failed
      cases failed
    | cons modifier rest =>
      have first : (unknownModifiers document.root.reached).head? = some modifier := by
        rw [unknown, List.head?_cons]
      rw [compileWith_eq_error env document first] at failed
      exact ⟨modifier, first, (Except.error.inj failed).symm⟩
  · rintro ⟨modifier, unknown, rfl⟩
    exact compileWith_eq_error env document unknown

theorem findSome?_unknownModifier_isSome_iff (root : Node) :
    (∃ modifier, root.reached.findSome? Node.unknownModifier? = some modifier) ↔
      ∃ node, root.Reaches node ∧ node.unknownModifier?.isSome := by
  rw [← Option.isSome_iff_exists, List.findSome?_isSome_iff]
  simp only [Node.mem_reached_iff]

end Refusal

/-- Compilation fails just when a node that is lowered with the root has a condition with an unknown
modifier that gates it, and then for the first of these. -/
theorem compileWith_fails_iff (env : Lowering.Environment) (document : Document) :
    ((∃ error, (compileWith env document).1 = .error error) ↔
      ∃ node, document.root.Reaches node ∧ node.unknownModifier?.isSome) ∧
    (∀ error, (compileWith env document).1 = .error error ↔
      ∃ modifier, document.root.reached.findSome? Node.unknownModifier? = some modifier ∧
        error = .unknownModifier modifier) ∧
    ∀ cause, (compileWith env document).1 ≠ .error (.internal cause) := by
  have refused := compileWith_eq_error_iff env document
  refine ⟨?_, refused, ?_⟩
  · rw [← findSome?_unknownModifier_isSome_iff]
    constructor
    · rintro ⟨error, failed⟩
      obtain ⟨modifier, found, -⟩ := (refused error).mp failed
      exact ⟨modifier, found⟩
    · rintro ⟨modifier, found⟩
      exact ⟨_, (refused _).mpr ⟨modifier, found, rfl⟩⟩
  · intro cause failed
    obtain ⟨modifier, -, same⟩ := (refused _).mp failed
    cases same

end RenderCompiler
