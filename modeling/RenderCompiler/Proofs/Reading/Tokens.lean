import RenderCompiler.Proofs.Binary64.Spelling
import RenderCompiler.Proofs.Reading.Literals

set_option autoImplicit false

namespace RenderCompiler

def Token.lexeme : Token → Reading.Lexeme
  | .word text => .word text
  | .mark text => .mark text
  | .string value => .string value
  | .number value => .number (String.ofList (numberText value))

namespace Reading

def printedMarks : List String :=
  ["(", ")", "[", "]", "\x7b", "\x7d", ",", ";", ":", ".", "?", "!", "===", "||"]

def extendsMark (mark : String) (c : Char) : Bool :=
  match mark with
  | "." => c == '.' || isDigit c
  | "?" => c == '?' || c == '.'
  | "!" | "||" => c == '='
  | _ => false

theorem not_begins {c d : Char} (apart : c ≠ d) (more rest : List Char) :
    (d :: more).isPrefixOf (c :: rest) = false := by
  simp [List.isPrefixOf, Ne.symm apart]

theorem mark?_printed {mark : String} (printed : mark ∈ printedMarks) {rest : List Char}
    (apart : ∀ c ∈ rest.head?, extendsMark mark c = false) :
    mark? (mark.toList ++ rest) = some (.mark mark, rest) := by
  simp only [printedMarks, List.mem_cons, List.not_mem_nil, or_false] at printed
  cases rest with
  | nil => rcases printed with rfl | rfl | rfl | rfl | rfl | rfl | rfl | rfl | rfl | rfl | rfl |
      rfl | rfl | rfl <;> rfl
  | cons c rest =>
    have apart := apart c rfl
    -- Most marks begin no longer one. The others are told apart by the character after them.
    rcases printed with rfl | rfl | rfl | rfl | rfl | rfl | rfl | rfl | rfl | rfl | rfl | rfl |
      rfl | rfl
    any_goals rfl
    · simp only [extendsMark, Bool.or_eq_false_iff, beq_eq_false_iff_ne] at apart
      simp [mark?, punctuators, List.find?, not_begins apart.1, apart.2]
    · simp only [extendsMark, Bool.or_eq_false_iff, beq_eq_false_iff_ne] at apart
      simp [mark?, punctuators, List.find?, not_begins apart.1, not_begins apart.2]
    · simp only [extendsMark, beq_eq_false_iff_ne] at apart
      simp [mark?, punctuators, List.find?, not_begins apart]
    · simp only [extendsMark, beq_eq_false_iff_ne] at apart
      simp [mark?, punctuators, List.find?, not_begins apart]

section Spans

variable {p : Char → Bool} {front rest : List Char}

theorem takeWhile_span (all : ∀ c ∈ front, p c = true) (stop : ∀ c ∈ rest.head?, p c = false) :
    (front ++ rest).takeWhile p = front := by
  rw [List.takeWhile_append_of_pos all]
  cases rest with
  | nil => simp
  | cons c rest => simp [stop c rfl]

theorem dropWhile_span (all : ∀ c ∈ front, p c = true) (stop : ∀ c ∈ rest.head?, p c = false) :
    (front ++ rest).dropWhile p = rest := by
  rw [List.dropWhile_append_of_pos all]
  cases rest with
  | nil => rfl
  | cons c rest => simp [stop c rfl]

end Spans

section Names

variable (alphabet : Alphabet)

def Alphabet.IsName (text : String) : Prop :=
  ∃ c rest, text.toList = c :: rest ∧ alphabet.start c = true ∧ ∀ d ∈ rest, alphabet.part d = true

structure Ends (rest : List Char) : Prop where
  part : ∀ c ∈ rest.head?, alphabet.part c = false
  line : breaksLine rest = false

variable {alphabet} {rest : List Char}

theorem digit_bounds {c : Char} (digit : isDigit c = true) : 48 ≤ c.toNat ∧ c.toNat ≤ 57 := by
  simp only [isDigit, Bool.and_eq_true, decide_eq_true_eq] at digit
  exact digit

theorem part_of_digit {c : Char} (digit : isDigit c = true) : alphabet.part c = true := by
  have bounds := digit_bounds digit
  rw [alphabet.part_ascii c (by omega), isNamePart, digit, Bool.or_true]

theorem start_of_digit {c : Char} (digit : isDigit c = true) : alphabet.start c = false := by
  have bounds := digit_bounds digit
  have each : ∀ code : Fin 58, 48 ≤ code.val → isNameStart (Char.ofNat code) = false := by decide
  have here := each ⟨c.toNat, by omega⟩ bounds.1
  rw [Char.ofNat_toNat] at here
  rw [alphabet.start_ascii c (by omega), here]

theorem Ends.notStart (ends : Ends alphabet rest) : rest.head?.any alphabet.start = false := by
  cases rest with
  | nil => rfl
  | cons c rest =>
    cases start : alphabet.start c with
    | false => exact start
    | true =>
      have part := ends.part c rfl
      rw [alphabet.part_of_start c start] at part
      cases part

theorem Ends.notDigit (ends : Ends alphabet rest) : ∀ c ∈ rest.head?, isDigit c = false := by
  intro c first
  cases digit : isDigit c with
  | false => rfl
  | true => rw [← ends.part c first, part_of_digit digit]

theorem word?_name {text : String} (name : alphabet.IsName text) (ends : Ends alphabet rest) :
    word? alphabet (text.toList ++ rest) = some (.word text, rest) := by
  obtain ⟨c, more, chars, start, parts⟩ := name
  have all : ∀ d ∈ text.toList, alphabet.part d = true := by
    rw [chars]
    intro d member
    rcases List.mem_cons.mp member with rfl | later
    · exact alphabet.part_of_start d start
    · exact parts d later
  simp [word?, takeWhile_span all ends.part, dropWhile_span all ends.part, ends.line]

theorem point_not_digit {text : List Char} (digits : ∀ c ∈ text, isDigit c = true) :
    '.' ∉ text :=
  fun member => absurd (digits '.' member) (by decide)

theorem getLast?_ne_point {magnitude : List Char} (isMagnitude : IsMagnitude magnitude) :
    magnitude.getLast? ≠ some '.' := by
  cases isMagnitude with
  | whole isWhole => exact fun last => point_not_digit isWhole.digits (List.mem_of_getLast? last)
  | @fraction whole fraction isWhole digits notNil =>
    have tail : fraction.getLast? ≠ some '.' :=
      fun last => point_not_digit digits (List.mem_of_getLast? last)
    cases fraction with
    | nil => exact absurd rfl notNil
    | cons c more => simpa using tail

theorem whole_wellFormed {whole : List Char} (isWhole : IsWhole whole) :
    (whole.isEmpty || (whole.head? == some '0' && whole != ['0'])) = false := by
  have notNil := isWhole.notNil
  by_cases zero : whole.head? = some '0'
  · simp [isWhole.leading zero]
  · simp [zero, notNil]

theorem withFraction_magnitude {magnitude : List Char} (isMagnitude : IsMagnitude magnitude)
    (digit : ∀ c ∈ rest.head?, isDigit c = false)
    (point : rest.head? = some '.' → '.' ∈ magnitude) :
    IsWhole ((magnitude ++ rest).takeWhile isDigit) ∧
      withFraction ((magnitude ++ rest).takeWhile isDigit) ((magnitude ++ rest).dropWhile isDigit) =
        (magnitude, rest) := by
  cases isMagnitude with
  | whole isWhole =>
    rw [takeWhile_span isWhole.digits digit, dropWhile_span isWhole.digits digit]
    refine ⟨isWhole, ?_⟩
    unfold withFraction
    split
    next => exact absurd (point rfl) (point_not_digit isWhole.digits)
    next => rfl
  | @fraction whole fraction isWhole digits notNil =>
    have stop : ∀ c ∈ ('.' :: (fraction ++ rest)).head?, isDigit c = false := by
      intro c first
      cases first
      rfl
    rw [List.append_assoc, List.cons_append, takeWhile_span isWhole.digits stop,
      dropWhile_span isWhole.digits stop]
    refine ⟨isWhole, ?_⟩
    rw [withFraction, takeWhile_span digits digit, dropWhile_span digits digit]

theorem digits?_magnitude {magnitude : List Char} (isMagnitude : IsMagnitude magnitude)
    (ends : Ends alphabet rest) (point : rest.head? ≠ some '.') :
    digits? alphabet (magnitude ++ rest) = some (magnitude, rest) := by
  obtain ⟨isWhole, whole⟩ :=
    withFraction_magnitude isMagnitude ends.notDigit fun follows => absurd follows point
  have last := getLast?_ne_point isMagnitude
  simp only [digits?, whole, whole_wellFormed isWhole, ends.notStart]
  simp only [Bool.false_or, Bool.or_false, beq_iff_eq, last, if_false]

theorem signed_of_digit {c : Char} (digit : isDigit c = true) (more : List Char) :
    signed (c :: more) = ([], c :: more) := by
  unfold signed
  split
  next sign =>
    cases sign
    cases digit
  next => rfl

theorem number?_spelling {spelling : List Char} (isSpelling : IsSpelling spelling)
    (ends : Ends alphabet rest) (point : rest.head? ≠ some '.') :
    number? alphabet (spelling ++ rest) = some (.number (String.ofList spelling), rest) := by
  cases isSpelling with
  | plain isMagnitude =>
    obtain ⟨c, more, digit, chars⟩ := isMagnitude.head
    have unsigned : signed (spelling ++ rest) = ([], spelling ++ rest) := by
      rw [chars]
      exact signed_of_digit digit _
    simp [number?, unsigned, digits?_magnitude isMagnitude ends point]
  | negative isMagnitude =>
    simp [number?, signed, digits?_magnitude isMagnitude ends point]

theorem start_ascii_of {c : Char} (ascii : c.toNat < 0x80) (apart : isNameStart c = false) :
    alphabet.start c = false := by
  rw [alphabet.start_ascii c ascii, apart]

theorem ne_of_start {c d : Char} (start : alphabet.start c = true) (ascii : d.toNat < 0x80)
    (apart : isNameStart d = false) : c ≠ d := by
  rintro rfl
  rw [start_ascii_of ascii apart] at start
  cases start

theorem not_digit_of_start {c : Char} (start : alphabet.start c = true) : isDigit c = false := by
  cases digit : isDigit c with
  | false => rfl
  | true =>
    rw [start_of_digit digit] at start
    cases start

theorem Alphabet.not_blank (alphabet : Alphabet) {c : Char} (part : alphabet.part c = true) :
    isBlank c = false := by
  cases blank : isBlank c with
  | false => rfl
  | true => rw [← part, alphabet.part_of_blank c blank]

theorem not_blank_of_digit {c : Char} (digit : isDigit c = true) : isBlank c = false :=
  Alphabet.ascii.not_blank (part_of_digit digit)

theorem head_of_printed {mark : String} (printed : mark ∈ printedMarks) :
    ∃ c more, mark.toList = c :: more ∧ c.toNat < 0x80 ∧ isNameStart c = false ∧
      isDigit c = false ∧ (c == '\'') = false ∧ (c == '-') = false ∧ isBlank c = false := by
  simp only [printedMarks, List.mem_cons, List.not_mem_nil, or_false] at printed
  rcases printed with rfl | rfl | rfl | rfl | rfl | rfl | rfl | rfl | rfl | rfl | rfl | rfl | rfl |
    rfl <;> exact ⟨_, _, rfl, by decide⟩

theorem begins_equality {mark : String} (printed : mark ∈ printedMarks) {more : List Char}
    (chars : mark.toList = '=' :: more) : mark = "===" := by
  simp only [printedMarks, List.mem_cons, List.not_mem_nil, or_false] at printed
  rcases printed with rfl | rfl | rfl | rfl | rfl | rfl | rfl | rfl | rfl | rfl | rfl | rfl | rfl |
    rfl <;> first | rfl | cases chars

theorem lexeme?_mark {mark : String} (printed : mark ∈ printedMarks)
    (apart : ∀ c ∈ rest.head?, extendsMark mark c = false) :
    lexeme? alphabet (mark.toList ++ rest) = some (.mark mark, rest) := by
  have read := mark?_printed printed apart
  obtain ⟨c, more, chars, ascii, start, digit, quote, sign, -⟩ := head_of_printed printed
  rw [chars, List.cons_append] at read ⊢
  simp only [lexeme?, quote, start_ascii_of ascii start, digit, sign, read]
  rfl

theorem lexeme?_name {text : String} (name : alphabet.IsName text) (ends : Ends alphabet rest) :
    lexeme? alphabet (text.toList ++ rest) = some (.word text, rest) := by
  have read := word?_name name ends
  obtain ⟨c, more, chars, start, -⟩ := name
  have quote : c ≠ '\'' := ne_of_start start (by decide) rfl
  rw [chars, List.cons_append] at read ⊢
  simp [lexeme?, quote, start, read]

theorem lexeme?_string (value : String) :
    lexeme? alphabet (quoted value ++ rest) = some (.string value, rest) := by
  simp [quoted, lexeme?, string?_literal rest value.toList]

theorem lexeme?_spelling {spelling : List Char} (isSpelling : IsSpelling spelling)
    (ends : Ends alphabet rest) (point : rest.head? ≠ some '.') :
    lexeme? alphabet (spelling ++ rest) = some (.number (String.ofList spelling), rest) := by
  have read := number?_spelling isSpelling ends point
  cases isSpelling with
  | plain isMagnitude =>
    obtain ⟨c, more, digit, chars⟩ := isMagnitude.head
    have quote : c ≠ '\'' := by
      rintro rfl
      cases digit
    rw [chars, List.cons_append] at read ⊢
    simp [lexeme?, quote, start_of_digit digit, digit, read]
  | negative isMagnitude =>
    obtain ⟨c, more, digit, chars⟩ := isMagnitude.head
    have start : alphabet.start '-' = false := start_ascii_of (by decide) (by decide)
    rw [chars, List.cons_append, List.cons_append] at read ⊢
    simp [lexeme?, start, digit, read]

variable (alphabet rest) in
def Fits : Token → Prop
  | .word text => alphabet.IsName text ∧ Ends alphabet rest
  | .mark text => text ∈ printedMarks ∧ ∀ c ∈ rest.head?, extendsMark text c = false
  | .string _ => True
  | .number value => value.isFinite = true ∧ Ends alphabet rest ∧ rest.head? ≠ some '.'

theorem lexeme?_token {token : Token} (fits : Fits alphabet rest token) :
    lexeme? alphabet (token.text ++ rest) = some (token.lexeme, rest) := by
  cases token with
  | word text => exact lexeme?_name fits.1 fits.2
  | mark text => exact lexeme?_mark fits.1 fits.2
  | string value => exact lexeme?_string value
  | number value => exact lexeme?_spelling (isSpelling_numberText fits.1) fits.2.1 fits.2.2

theorem head_of_numberText {value : Binary64} (finite : value.isFinite = true) :
    ∃ c more, numberText value = c :: more ∧ isBlank c = false ∧ c ≠ '=' := by
  have isSpelling := isSpelling_numberText finite
  generalize numberText value = spelling at isSpelling
  cases isSpelling with
  | plain isMagnitude =>
    obtain ⟨c, more, digit, chars⟩ := isMagnitude.head
    refine ⟨c, more, chars, not_blank_of_digit digit, ?_⟩
    rintro rfl
    cases digit
  | negative isMagnitude => exact ⟨_, _, rfl, rfl, by decide⟩

-- No token begins with a blank, and one alone begins like an equality.
theorem head_of_fits {token : Token} (fits : Fits alphabet rest token) :
    ∃ c more, token.text = c :: more ∧ isBlank c = false ∧ (c = '=' → token = .mark "===") := by
  cases token with
  | word text =>
    obtain ⟨c, more, chars, start, -⟩ := fits.1
    have apart : c ≠ '=' := ne_of_start start (by decide) rfl
    exact ⟨c, more, chars, alphabet.not_blank (alphabet.part_of_start c start),
      fun same => absurd same apart⟩
  | mark text =>
    obtain ⟨c, more, chars, -, -, -, -, -, blank⟩ := head_of_printed fits.1
    refine ⟨c, more, chars, blank, ?_⟩
    rintro rfl
    rw [begins_equality fits.1 chars]
  | string value => exact ⟨_, _, rfl, rfl, fun same => absurd same (by decide)⟩
  | number value =>
    obtain ⟨c, more, chars, blank, apart⟩ := head_of_numberText fits.1
    exact ⟨c, more, chars, blank, fun same => absurd same apart⟩

end Names

end Reading

end RenderCompiler
