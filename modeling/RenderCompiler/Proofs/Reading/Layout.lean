import RenderCompiler.Proofs.Reading.Tokens

set_option autoImplicit false

namespace RenderCompiler

namespace Reading

def written (pieces : List Piece) : List Char := pieces.flatMap Piece.text

@[simp] theorem written_append (first others : List Piece) :
    written (first ++ others) = written first ++ written others :=
  List.flatMap_append

@[simp] theorem written_cons (piece : Piece) (pieces : List Piece) :
    written (piece :: pieces) = piece.text ++ written pieces :=
  List.flatMap_cons

def lexemes (pieces : List Piece) : List Lexeme := (Piece.tokens pieces).map Token.lexeme

@[simp] theorem lexemes_append (first others : List Piece) :
    lexemes (first ++ others) = lexemes first ++ lexemes others := by
  simp [lexemes, Piece.tokens_append]

section Legibility

variable (alphabet : Alphabet)

def Legible : List Piece → List Char → Prop
  | [], _ => True
  | .blank text :: pieces, rest =>
    (∀ c ∈ text.toList, isBlank c = true) ∧ Legible pieces rest
  | .token token :: pieces, rest =>
    Fits alphabet (written pieces ++ rest) token ∧ Legible pieces rest

variable {alphabet} {rest : List Char}

theorem lexWithin_blanks {out : List Lexeme} {blanks : List Char}
    (all : ∀ c ∈ blanks, isBlank c = true)
    (after : ∀ steps, rest.length < steps → lexWithin alphabet steps rest = some out) :
    ∀ steps, (blanks ++ rest).length < steps →
      lexWithin alphabet steps (blanks ++ rest) = some out := by
  induction blanks with
  | nil => exact after
  | cons c blanks ih =>
    intro steps enough
    rw [List.cons_append, List.length_cons] at enough
    obtain ⟨left, rfl⟩ : ∃ left, steps = left + 1 := ⟨steps - 1, by omega⟩
    rw [List.cons_append, lexWithin, if_pos (all c List.mem_cons_self)]
    exact ih (fun d member => all d (List.mem_cons_of_mem _ member)) left (by omega)

theorem lexWithin_token {token : Token} {out : List Lexeme} (fits : Fits alphabet rest token)
    (after : ∀ steps, rest.length < steps → lexWithin alphabet steps rest = some out) :
    ∀ steps, (token.text ++ rest).length < steps →
      lexWithin alphabet steps (token.text ++ rest) = some (token.lexeme :: out) := by
  intro steps enough
  have read := lexeme?_token fits
  obtain ⟨c, more, chars, blank⟩ := head_of_fits fits
  rw [chars] at enough read ⊢
  simp only [List.cons_append, List.length_cons, List.length_append] at enough
  obtain ⟨left, rfl⟩ : ∃ left, steps = left + 1 := ⟨steps - 1, by omega⟩
  rw [List.cons_append] at read ⊢
  simp [lexWithin, blank, read, after left (by omega)]

theorem lexWithin_legible {pieces : List Piece} {out : List Lexeme}
    (legible : Legible alphabet pieces rest)
    (after : ∀ steps, rest.length < steps → lexWithin alphabet steps rest = some out) :
    ∀ steps, (written pieces ++ rest).length < steps →
      lexWithin alphabet steps (written pieces ++ rest) = some (lexemes pieces ++ out) := by
  induction pieces with
  | nil => exact after
  | cons piece pieces ih =>
    rw [written_cons, List.append_assoc]
    cases piece with
    | blank text => exact lexWithin_blanks legible.1 (ih legible.2)
    | token token => exact lexWithin_token legible.1 (ih legible.2)

theorem lex_legible {pieces : List Piece} (legible : Legible alphabet pieces []) :
    lex alphabet (written pieces) = some (lexemes pieces) := by
  have atEnd : ∀ steps, ([] : List Char).length < steps →
      lexWithin alphabet steps [] = some [] := by
    intro steps enough
    cases steps with
    | zero => cases enough
    | succ left => rfl
  have read := lexWithin_legible legible atEnd
  rw [List.append_nil, List.append_nil] at read
  exact read _ (Nat.lt_succ_self _)

theorem ends_of_ascii {c : Char} (ascii : c.toNat < 0x80) (apart : isNamePart c = false)
    (blank : isBlank c = false) : Ends alphabet (c :: rest) where
  part := by
    intro first same
    cases same
    rw [alphabet.part_ascii c ascii, apart]
  line := by simp [breaksLine, blank]

theorem ends_of_space {c : Char} (blank : isBlank c = false) :
    Ends alphabet (' ' :: c :: rest) where
  part := by
    intro first same
    cases same
    exact alphabet.part_of_blank ' ' (by decide)
  line := by
    have space : isBlank ' ' = true := by decide
    have inside : isLineEnd ' ' = false := by decide
    simp [breaksLine, blank, space, inside]

def plainMarks : List String :=
  ["(", ")", "[", "]", "\x7b", "\x7d", ",", ";", ":", "==="]

theorem fits_plain {mark : String} (plain : mark ∈ plainMarks) :
    Fits alphabet rest (.mark mark) := by
  simp only [plainMarks, List.mem_cons, List.not_mem_nil, or_false] at plain
  rcases plain with rfl | rfl | rfl | rfl | rfl | rfl | rfl | rfl | rfl | rfl <;>
    exact ⟨by decide, fun _ _ => rfl⟩

theorem isName_of_isBareName {text : String} (bare : isBareName text = true) :
    alphabet.IsName text := by
  unfold isBareName at bare
  split at bare
  next => cases bare
  next c more chars =>
    rw [Bool.and_eq_true, List.all_eq_true] at bare
    refine ⟨c, more, chars, ?_, fun d member => ?_⟩
    · have part : isNamePart c = true := by rw [isNamePart, bare.1, Bool.true_or]
      rw [alphabet.start_ascii c (ascii_of_isNamePart part), bare.1]
    · rw [alphabet.part_ascii d (ascii_of_isNamePart (bare.2 d member)), bare.2 d member]

end Legibility

end Reading

end RenderCompiler
