import RenderCompiler.Proofs.Reading.Printed

set_option autoImplicit false

namespace RenderCompiler

namespace Reading

def exponentSign : List Char → List Char × List Char
  | '+' :: rest => (['+'], rest)
  | '-' :: rest => (['-'], rest)
  | rest => ([], rest)

-- Without digits after it, the letter of an exponent is no part of the number.
def exponent? : List Char → Option (List Char × List Char)
  | [] => none
  | letter :: rest =>
    let (sign, digits) := exponentSign rest
    let power := digits.takeWhile isDigit
    if (letter == 'e' || letter == 'E') && !power.isEmpty then
      some (letter :: sign ++ power, digits.dropWhile isDigit)
    else none

def withExponent (spelled text : List Char) : List Char × List Char :=
  match exponent? text with
  | some (exponent, rest) => (spelled ++ exponent, rest)
  | none => (spelled, text)

section Lexemes

variable (alphabet : Alphabet)

def numeral? (text : List Char) : Option (Lexeme × List Char) :=
  let whole := text.takeWhile isDigit
  let (spelled, rest) := withFraction whole (text.dropWhile isDigit)
  let (spelled, rest) := withExponent spelled rest
  if whole.isEmpty || (whole.head? == some '0' && whole != ['0']) ||
      rest.head?.any alphabet.start then none
  else some (.number (String.ofList spelled), rest)

def sourceLexeme? : List Char → Option (Lexeme × List Char)
  | [] => none
  | c :: rest =>
    if c == '\'' then do
      let (chars, rest) ← string? rest
      return (.string (String.ofList chars), rest)
    else if alphabet.start c then word? alphabet (c :: rest)
    else if isDigit c then numeral? alphabet (c :: rest)
    else mark? (c :: rest)

/-- The text consists of these lexemes, each as long as can be, with blanks around them. -/
inductive Lexes : List Char → List Lexeme → Prop
  | nil : Lexes [] []
  | blank {c : Char} {rest : List Char} {lexemes : List Lexeme} (blank : isBlank c = true)
      (later : Lexes rest lexemes) : Lexes (c :: rest) lexemes
  | lexeme {c : Char} {text rest : List Char} {lexeme : Lexeme} {lexemes : List Lexeme}
      (apart : isBlank c = false) (read : sourceLexeme? alphabet (c :: text) = some (lexeme, rest))
      (later : Lexes rest lexemes) : Lexes (c :: text) (lexeme :: lexemes)

end Lexemes

def numeralLexemes : List Char → List Lexeme
  | '-' :: digits => [.mark "-", .number (String.ofList digits)]
  | digits => [.number (String.ofList digits)]

end Reading

def Token.sourceLexemes : Token → List Reading.Lexeme
  | .number value => Reading.numeralLexemes (numberText value)
  | token => [token.lexeme]

namespace Reading

def sourceLexemes (pieces : List Piece) : List Lexeme :=
  (Piece.tokens pieces).flatMap Token.sourceLexemes

theorem sourceLexemes_token (token : Token) (pieces : List Piece) :
    sourceLexemes (.token token :: pieces) = token.sourceLexemes ++ sourceLexemes pieces :=
  rfl

section Lexing

variable {alphabet : Alphabet} {c : Char} {text rest : List Char} {lexeme : Lexeme}
  {out : List Lexeme}

theorem Lexes.unique {found : List Lexeme} (lexes : Lexes alphabet text out)
    (other : Lexes alphabet text found) : found = out := by
  induction lexes generalizing found with
  | nil =>
    cases other
    rfl
  | blank blank _ ih =>
    cases other with
    | blank _ later => exact ih later
    | lexeme apart => exact absurd (apart.symm.trans blank) (by decide)
  | lexeme apart read _ ih =>
    cases other with
    | blank blank => exact absurd (apart.symm.trans blank) (by decide)
    | lexeme _ again later =>
      rw [read] at again
      cases again
      rw [ih later]

theorem lexes_iff_of_lexes (lexes : Lexes alphabet text out) (found : List Lexeme) :
    Lexes alphabet text found ↔ found = out :=
  ⟨lexes.unique, fun same => same ▸ lexes⟩

theorem lexes_blanks {blanks : List Char} (all : ∀ c ∈ blanks, isBlank c = true) :
    Lexes alphabet (blanks ++ rest) out ↔ Lexes alphabet rest out := by
  induction blanks with
  | nil => rfl
  | cons c blanks ih =>
    have blank := all c List.mem_cons_self
    rw [← ih fun d member => all d (List.mem_cons_of_mem c member), List.cons_append]
    constructor
    · intro lexes
      cases lexes with
      | blank _ later => exact later
      | lexeme apart => exact absurd (apart.symm.trans blank) (by decide)
    · exact .blank blank

theorem lexes_step (apart : isBlank c = false)
    (read : sourceLexeme? alphabet (c :: text) = some (lexeme, rest)) :
    Lexes alphabet (c :: text) (lexeme :: out) ↔ Lexes alphabet rest out := by
  constructor
  · intro lexes
    cases lexes with
    | blank blank => exact absurd (apart.symm.trans blank) (by decide)
    | lexeme _ again later =>
      rw [read] at again
      cases again
      exact later
  · exact .lexeme apart read

theorem exponent?_of_ends (ends : Ends alphabet rest) : exponent? rest = none := by
  cases rest with
  | nil => rfl
  | cons c rest =>
    have part := ends.part c rfl
    have letter : (c == 'e' || c == 'E') = false := by
      rw [Bool.or_eq_false_iff, beq_eq_false_iff_ne, beq_eq_false_iff_ne]
      constructor
      · rintro rfl
        rw [alphabet.part_ascii 'e' (by decide)] at part
        cases part
      · rintro rfl
        rw [alphabet.part_ascii 'E' (by decide)] at part
        cases part
    simp [exponent?, letter]

theorem numeral?_magnitude {magnitude : List Char} (isMagnitude : IsMagnitude magnitude)
    (ends : Ends alphabet rest) (point : rest.head? = some '.' → '.' ∈ magnitude) :
    numeral? alphabet (magnitude ++ rest) = some (.number (String.ofList magnitude), rest) := by
  obtain ⟨isWhole, whole⟩ := withFraction_magnitude isMagnitude ends.notDigit point
  simp only [numeral?, whole, withExponent, exponent?_of_ends ends, whole_wellFormed isWhole,
    ends.notStart]
  rfl

theorem mem_withExponent {spelled : List Char} (member : c ∈ spelled) (text : List Char) :
    c ∈ (withExponent spelled text).1 := by
  unfold withExponent
  split
  · exact List.mem_append_left _ member
  · exact member

theorem numeral?_point {whole : List Char} (isWhole : IsWhole whole)
    (read : numeral? alphabet (whole ++ '.' :: text) = some (lexeme, rest)) :
    lexeme ≠ .number (String.ofList whole) := by
  have stop : ∀ c ∈ ('.' :: text).head?, isDigit c = false := by
    rintro c ⟨⟩
    rfl
  have point : '.' ∈ (withExponent (whole ++ '.' :: text.takeWhile isDigit)
      (text.dropWhile isDigit)).1 :=
    mem_withExponent (List.mem_append_right _ List.mem_cons_self) _
  simp only [numeral?, takeWhile_span isWhole.digits stop, dropWhile_span isWhole.digits stop,
    withFraction] at read
  split at read
  next => cases read
  next =>
    cases read
    intro same
    injection same with same
    rw [String.ofList_inj.mp same] at point
    exact point_not_digit isWhole.digits point

theorem sourceLexeme?_magnitude {magnitude : List Char} (isMagnitude : IsMagnitude magnitude) :
    sourceLexeme? alphabet (magnitude ++ rest) = numeral? alphabet (magnitude ++ rest) := by
  obtain ⟨c, more, digit, chars⟩ := isMagnitude.head
  have quote : c ≠ '\'' := by
    rintro rfl
    cases digit
  rw [chars, List.cons_append]
  simp [sourceLexeme?, quote, start_of_digit digit, digit]

theorem not_lexes_point {whole : List Char} (isWhole : IsWhole whole) :
    ¬ Lexes alphabet (whole ++ '.' :: text) (.number (String.ofList whole) :: out) := by
  intro lexes
  have first : sourceLexeme? alphabet (whole ++ '.' :: text) =
      numeral? alphabet (whole ++ '.' :: text) := sourceLexeme?_magnitude (.whole isWhole)
  obtain ⟨c, more, digit, chars⟩ := isWhole.head
  generalize taken : Lexeme.number (String.ofList whole) = lexeme at lexes
  generalize same : whole ++ '.' :: text = source at lexes first
  cases lexes with
  | blank blank =>
    rw [chars] at same
    cases same
    exact absurd ((not_blank_of_digit digit).symm.trans blank) (by decide)
  | lexeme _ read =>
    rw [first, ← same] at read
    exact numeral?_point isWhole read taken.symm

theorem lexes_magnitude {magnitude : List Char} (isMagnitude : IsMagnitude magnitude)
    (ends : Ends alphabet rest) :
    Lexes alphabet (magnitude ++ rest) (.number (String.ofList magnitude) :: out) ↔
      (rest.head? = some '.' → '.' ∈ magnitude) ∧ Lexes alphabet rest out := by
  by_cases point : rest.head? = some '.' → '.' ∈ magnitude
  · have read := numeral?_magnitude isMagnitude ends point
    rw [← sourceLexeme?_magnitude isMagnitude] at read
    rw [and_iff_right point]
    obtain ⟨c, more, digit, chars⟩ := isMagnitude.head
    generalize String.ofList magnitude = spelling at read ⊢
    rw [chars, List.cons_append] at read ⊢
    exact lexes_step (not_blank_of_digit digit) read
  · apply iff_of_false _ fun both => point both.1
    obtain ⟨follows, without⟩ := Classical.not_imp.mp point
    obtain ⟨text, rfl⟩ := List.head?_eq_some_iff.mp follows
    cases isMagnitude with
    | fraction => exact absurd (List.mem_append_right _ List.mem_cons_self) without
    | whole isWhole => exact not_lexes_point isWhole

theorem numeralLexemes_plain {magnitude : List Char} (isMagnitude : IsMagnitude magnitude) :
    numeralLexemes magnitude = [.number (String.ofList magnitude)] := by
  obtain ⟨c, more, digit, chars⟩ := isMagnitude.head
  unfold numeralLexemes
  split
  next =>
    cases chars
    cases digit
  next => rfl

theorem sourceLexeme?_minus {magnitude : List Char} (isMagnitude : IsMagnitude magnitude) :
    sourceLexeme? alphabet ('-' :: magnitude ++ rest) =
      some (.mark "-", magnitude ++ rest) := by
  have start : alphabet.start '-' = false := start_ascii_of (by decide) (by decide)
  obtain ⟨c, more, digit, rfl⟩ := isMagnitude.head
  have minus : ('-' == c) = false := by
    rw [beq_eq_false_iff_ne]
    rintro rfl
    cases digit
  have equality : ('=' == c) = false := by
    rw [beq_eq_false_iff_ne]
    rintro rfl
    cases digit
  simp [sourceLexeme?, start, isDigit, mark?, punctuators, List.find?, List.isPrefixOf, minus,
    equality]

theorem lexes_spelling {spelling : List Char} (isSpelling : IsSpelling spelling)
    (ends : Ends alphabet rest) :
    Lexes alphabet (spelling ++ rest) (numeralLexemes spelling ++ out) ↔
      (rest.head? = some '.' → '.' ∈ spelling) ∧ Lexes alphabet rest out := by
  cases isSpelling with
  | plain isMagnitude =>
    rw [numeralLexemes_plain isMagnitude]
    exact lexes_magnitude isMagnitude ends
  | @negative magnitude isMagnitude =>
    have sign : ('.' ∈ '-' :: magnitude) ↔ '.' ∈ magnitude := by simp
    rw [sign, ← lexes_magnitude isMagnitude ends]
    exact lexes_step rfl (sourceLexeme?_minus isMagnitude)

theorem head_of_unsigned {token : Token} (fits : Fits alphabet rest token)
    (apart : ∀ value, token ≠ .number value) :
    ∃ c more, token.text = c :: more ∧ isBlank c = false ∧ isDigit c = false ∧ c ≠ '-' := by
  cases token with
  | word text =>
    obtain ⟨c, more, chars, start, -⟩ := fits.1
    have blank := alphabet.not_blank (alphabet.part_of_start c start)
    have sign : c ≠ '-' := ne_of_start start (by decide) rfl
    exact ⟨c, more, chars, blank, not_digit_of_start start, sign⟩
  | mark text =>
    obtain ⟨c, more, chars, -, -, digit, -, sign, blank⟩ := head_of_printed fits.1
    exact ⟨c, more, chars, blank, digit, ne_of_beq_false sign⟩
  | string value => exact ⟨_, _, rfl, rfl, rfl, by decide⟩
  | number value => exact absurd rfl (apart value)

theorem lexes_token {token : Token} (fits : Fits alphabet rest token) :
    Lexes alphabet (token.text ++ rest) (token.sourceLexemes ++ out) ↔
      Lexes alphabet rest out := by
  by_cases number : ∃ value, token = .number value
  · obtain ⟨value, rfl⟩ := number
    have isSpelling := isSpelling_numberText fits.1
    exact (lexes_spelling isSpelling fits.2.1).trans
      (and_iff_right fun follows => absurd follows fits.2.2)
  · have apart : ∀ value, token ≠ .number value := fun value same => number ⟨value, same⟩
    obtain ⟨c, more, chars, blank, digit, sign⟩ := head_of_unsigned fits apart
    have read := lexeme?_token fits
    have lexemes : token.sourceLexemes = [token.lexeme] := by
      cases token with
      | number value => exact absurd rfl (apart value)
      | _ => rfl
    have same : sourceLexeme? alphabet (c :: (more ++ rest)) =
        lexeme? alphabet (c :: (more ++ rest)) := by
      simp [sourceLexeme?, lexeme?, digit, sign]
    rw [lexemes]
    rw [chars, List.cons_append] at read ⊢
    exact lexes_step blank (same.trans read)

theorem Accounts.lexes_iff {pieces after : List Piece} {accesses : List Access}
    (accounts : Accounts alphabet after pieces accesses) :
    Lexes alphabet (written (pieces ++ after)) (sourceLexemes pieces ++ out) ↔
      (∀ access ∈ accesses, access.mark = "." → '.' ∈ numberText access.value) ∧
        Lexes alphabet (written after) out := by
  induction accounts with
  | nil => simp [sourceLexemes, Piece.tokens]
  | blank blank _ ih =>
    rw [← ih, List.cons_append, written_cons]
    exact lexes_blanks blank
  | @token token pieces accesses fits alone _ ih =>
    rw [← ih, List.cons_append, written_cons, sourceLexemes_token, List.append_assoc]
    exact lexes_token fits
  | @number value mark pieces more accesses finite access next _ ih =>
    have ends : Ends alphabet (written (pieces ++ after)) := by
      rw [next]
      exact ends_access access
    have point : (written (pieces ++ after)).head? = some '.' ↔ mark = "." := by
      rw [next]
      simp only [accessMarks, List.mem_cons, List.not_mem_nil, or_false] at access
      rcases access with rfl | rfl | rfl
      · exact iff_of_true rfl rfl
      · exact iff_of_false (by rintro ⟨⟩) (by decide)
      · exact iff_of_false (by rintro ⟨⟩) (by decide)
    rw [List.forall_mem_cons, and_assoc, ← ih, ← point, List.cons_append, written_cons,
      sourceLexemes_token, List.append_assoc]
    exact lexes_spelling (isSpelling_numberText finite) ends

end Lexing

end Reading

end RenderCompiler
