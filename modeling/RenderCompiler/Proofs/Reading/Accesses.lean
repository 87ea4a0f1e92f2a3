import RenderCompiler.Proofs.Reading.Layout
import RenderCompiler.Proofs.Script.Parts

set_option autoImplicit false

namespace RenderCompiler

namespace Reading

def accessMarks : List String := [".", "[", "("]

structure Access where
  value : Binary64
  mark : String

def Accessed (after : List Piece) : Prop :=
  ∃ mark ∈ accessMarks, (Piece.tokens after).head? = some (.mark mark)

section Accounts

variable (alphabet : Alphabet) (after : List Piece)

/-- No token of the pieces runs into the next one or into the pieces after them, except that
something may be accessed on a number. These accesses are listed. -/
inductive Accounts : List Piece → List Access → Prop
  | nil : Accounts [] []
  | blank {text : String} {pieces : List Piece} {accesses : List Access}
      (blank : ∀ c ∈ text.toList, isBlank c = true) (later : Accounts pieces accesses) :
      Accounts (.blank text :: pieces) accesses
  | token {token : Token} {pieces : List Piece} {accesses : List Access}
      (fits : Fits alphabet (written (pieces ++ after)) token)
      (alone : ∀ value, token = .number value → ¬ Accessed (pieces ++ after))
      (later : Accounts pieces accesses) : Accounts (.token token :: pieces) accesses
  | number {value : Binary64} {mark : String} {pieces more : List Piece} {accesses : List Access}
      (finite : value.isFinite = true) (access : mark ∈ accessMarks)
      (next : pieces ++ after = .mark mark :: more) (later : Accounts pieces accesses) :
      Accounts (.token (.number value) :: pieces) (⟨value, mark⟩ :: accesses)

end Accounts

section Accounts

variable {alphabet : Alphabet} {after pieces : List Piece} {accesses : List Access}

theorem Accounts.append {first others : List Piece} {own more : List Access}
    (here : Accounts alphabet (others ++ after) first own)
    (later : Accounts alphabet after others more) :
    Accounts alphabet after (first ++ others) (own ++ more) := by
  induction here with
  | nil => exact later
  | blank blank _ ih => exact .blank blank ih
  | token fits alone _ ih =>
    rw [← List.append_assoc] at fits alone
    exact .token fits alone ih
  | number finite access next _ ih =>
    rw [← List.append_assoc] at next
    exact .number finite access next ih

theorem Accounts.close {first others : List Piece} {own : List Access}
    (here : Accounts alphabet (others ++ after) first own)
    (later : Accounts alphabet after others []) :
    Accounts alphabet after (first ++ others) own := by
  have both := here.append later
  rw [List.append_nil] at both
  exact both

theorem Accounts.mark {mark : String}
    (fits : Fits alphabet (written (pieces ++ after)) (.mark mark))
    (later : Accounts alphabet after pieces accesses) :
    Accounts alphabet after (.mark mark :: pieces) accesses :=
  .token fits nofun later

theorem Accounts.plain {mark : String} (plain : mark ∈ plainMarks)
    (later : Accounts alphabet after pieces accesses) :
    Accounts alphabet after (.mark mark :: pieces) accesses :=
  .mark (fits_plain plain) later

theorem Accounts.word {text : String} (name : alphabet.IsName text)
    (ends : Ends alphabet (written (pieces ++ after)))
    (later : Accounts alphabet after pieces accesses) :
    Accounts alphabet after (.word text :: pieces) accesses :=
  .token ⟨name, ends⟩ nofun later

theorem Accounts.string (value : String) (later : Accounts alphabet after pieces accesses) :
    Accounts alphabet after (.string value :: pieces) accesses :=
  .token trivial nofun later

theorem Accounts.space (later : Accounts alphabet after pieces accesses) :
    Accounts alphabet after (.space :: pieces) accesses :=
  .blank (List.forall_mem_singleton.mpr rfl) later

theorem Accounts.newline (later : Accounts alphabet after pieces accesses) :
    Accounts alphabet after (.newline :: pieces) accesses :=
  .blank (List.forall_mem_singleton.mpr rfl) later

theorem not_accessed {mark : String} (apart : mark ∉ accessMarks) :
    ¬ Accessed (.mark mark :: after) := by
  rintro ⟨other, access, same⟩
  cases same
  exact apart access

variable (alphabet after) in
structure Settles : Prop extends Ends alphabet (written after) where
  point : (written after).head? ≠ some '.'
  alone : ¬ Accessed after

theorem settles_end : Settles alphabet [] where
  part := nofun
  line := rfl
  point := nofun
  alone := by
    rintro ⟨mark, -, none⟩
    cases none

theorem settles_mark {mark : String} (closing : mark ∈ [")", "]", ",", ";"]) :
    Settles alphabet (.mark mark :: after) := by
  simp only [List.mem_cons, List.not_mem_nil, or_false] at closing
  rcases closing with rfl | rfl | rfl | rfl <;>
    exact ⟨ends_of_ascii (by decide) rfl rfl, (by rintro ⟨⟩), not_accessed (by decide)⟩

theorem settles_space {mark : String} (between : mark ∈ ["?", ":", "===", "||", "\x7d"]) :
    Settles alphabet (.space :: .mark mark :: after) := by
  simp only [List.mem_cons, List.not_mem_nil, or_false] at between
  rcases between with rfl | rfl | rfl | rfl | rfl <;>
    exact ⟨ends_of_space rfl, (by rintro ⟨⟩), not_accessed (by decide)⟩

theorem ends_access {mark : String} (access : mark ∈ accessMarks) :
    Ends alphabet (written (.mark mark :: after)) := by
  simp only [accessMarks, List.mem_cons, List.not_mem_nil, or_false] at access
  rcases access with rfl | rfl | rfl <;> exact ends_of_ascii (by decide) rfl rfl

theorem Accounts.settled {value : Binary64} (finite : value.isFinite = true)
    (settles : Settles alphabet after) :
    Accounts alphabet after [.token (.number value)] [] :=
  .token ⟨finite, settles.toEnds, settles.point⟩ (fun _ _ => settles.alone) .nil

theorem Accounts.legible (accounts : Accounts alphabet after pieces accesses)
    (pointless : ∀ access ∈ accesses, access.mark ≠ ".") :
    Legible alphabet pieces (written after) := by
  induction accounts with
  | nil => trivial
  | blank blank _ ih => exact ⟨blank, ih pointless⟩
  | token fits _ _ ih =>
    rw [written_append] at fits
    exact ⟨fits, ih pointless⟩
  | @number value mark pieces more accesses finite access next _ ih =>
    have point : mark ≠ "." := pointless _ List.mem_cons_self
    have fits : Fits alphabet (written (.mark mark :: more)) (.number value) := by
      refine ⟨finite, ends_access access, ?_⟩
      simp only [accessMarks, List.mem_cons, List.not_mem_nil, or_false] at access
      rcases access with rfl | rfl | rfl
      · exact absurd rfl point
      · rintro ⟨⟩
      · rintro ⟨⟩
    rw [← next, written_append] at fits
    exact ⟨fits, ih fun later member => pointless later (List.mem_cons_of_mem _ member)⟩

end Accounts

end Reading

def Expr.accessedBy (mark : String) : Expr → List Reading.Access
  | .number value => [⟨value, mark⟩]
  | _ => []

def memberMark (property : String) : String := if isBareName property then "." else "["

mutual

-- The numbers that are objects or callees, in the order they are printed in.
def Expr.numberAccesses : Expr → List Reading.Access
  | .identifier _ | .string _ | .number _ | .boolean _ | .null => []
  | .member object property => object.numberAccesses ++ object.accessedBy (memberMark property)
  | .call callee arguments =>
    callee.numberAccesses ++ callee.accessedBy "(" ++ Expr.listNumberAccesses arguments
  | .array elements => Expr.listNumberAccesses elements
  | .object properties => Expr.fieldNumberAccesses properties
  | .conditional test consequent alternate =>
    test.numberAccesses ++ (consequent.numberAccesses ++ alternate.numberAccesses)
  | .not argument => argument.numberAccesses
  | .strictEqual left right | .or left right => left.numberAccesses ++ right.numberAccesses
  | .function _ body => Stmt.listNumberAccesses body

def Expr.listNumberAccesses : List Expr → List Reading.Access
  | [] => []
  | e :: rest => e.numberAccesses ++ Expr.listNumberAccesses rest

def Expr.fieldNumberAccesses : List (String × Expr) → List Reading.Access
  | [] => []
  | (_, e) :: rest => e.numberAccesses ++ Expr.fieldNumberAccesses rest

def Stmt.numberAccesses : Stmt → List Reading.Access
  | .returns argument => argument.numberAccesses
  | .importDefault _ _ => []
  | .exportDefaultFunction _ _ body => Stmt.listNumberAccesses body

def Stmt.listNumberAccesses : List Stmt → List Reading.Access
  | [] => []
  | s :: rest => s.numberAccesses ++ Stmt.listNumberAccesses rest

end

end RenderCompiler
