import RenderCompiler.Json.Writer
import RenderCompiler.Json.Reader
import RenderCompiler.Proofs.Reading.Literals

set_option autoImplicit false

namespace RenderCompiler

namespace Json

section Strings

variable {rest after : List Char} {units : List Nat} (later : scanString rest = some (units, after))

include later

theorem scanString_unit {digits : List Char} {code : Nat}
    (unit : Reading.unitOf? digits = some code) :
    scanString ('\\' :: 'u' :: digits ++ rest) = some (code :: units, after) := by
  unfold Reading.unitOf? at unit
  split at unit
  next a b c d =>
    refine Option.bind_eq_some_iff.mpr ⟨_, unit, ?_⟩
    exact Option.bind_eq_some_iff.mpr ⟨_, later, rfl⟩
  next => cases unit

theorem scanString_short {letter char : Char} (apart : letter ≠ 'u')
    (escaped : shortEscape? letter = some char) :
    scanString ('\\' :: letter :: rest) = some (char.toNat :: units, after) := by
  simp [scanString, apart, escaped, later]

theorem scanString_plain {c : Char} (quote : c ≠ '"') (slash : c ≠ '\\')
    (printable : ¬ c.toNat < 0x20) :
    scanString (c :: rest) = some (c.toNat :: units, after) := by
  simp [scanString, slash, printable, later]

theorem scanString_escapeChar (c : Char) :
    scanString (escapeChar c ++ rest) = some (c.toNat :: units, after) := by
  unfold escapeChar
  split
  iterate 7
    next => exact scanString_short later (by decide) rfl
  next quote slash _ _ _ _ _ =>
    split
    next control => exact scanString_unit later (Reading.unitOf?_hexFour (by omega))
    next printable => exact scanString_plain later quote slash printable

end Strings

theorem scanString_escaped (rest chars : List Char) :
    scanString (chars.flatMap escapeChar ++ '"' :: rest) = some (chars.map Char.toNat, rest) := by
  induction chars with
  | nil => rfl
  | cons c chars ih =>
    rw [List.flatMap_cons, List.append_assoc]
    exact scanString_escapeChar ih c

theorem notSurrogate (c : Char) :
    isHighSurrogate c.toNat = false ∧ isLowSurrogate c.toNat = false := by
  have valid : c.toNat.isValidChar := c.valid
  simp only [Nat.isValidChar] at valid
  simp only [isHighSurrogate, isLowSurrogate, Bool.and_eq_false_iff, decide_eq_false_iff_not]
  omega

theorem joinUnits_chars (chars : List Char) : joinUnits (chars.map Char.toNat) = some chars := by
  match chars with
  | [] => rfl
  | [c] =>
    have apart := notSurrogate c
    simp [joinUnits, apart]
  | c :: d :: rest =>
    have apart := notSurrogate c
    have later := joinUnits_chars (d :: rest)
    rw [List.map_cons] at later
    simp [joinUnits, apart, later]

end Json

namespace NumberSpelling

def extendsNumber (c : Char) : Bool := isDigit c || c == '.' || c == 'e' || c == 'E'

def Ended (rest : List Char) : Prop := ∀ c ∈ rest.head?, extendsNumber c = false

def read? (text : List Char) : Option JsonNumber :=
  match scan? text with
  | some (spelling, []) => spelling.value?
  | _ => none

theorem splitMinus_append {text : List Char} (some : text ≠ []) (rest : List Char) :
    splitMinus (text ++ rest) = ((splitMinus text).1, (splitMinus text).2 ++ rest) := by
  cases text with
  | nil => exact absurd rfl some
  | cons c text =>
    by_cases minus : c = '-'
    · rw [minus]
      rfl
    · simp [splitMinus, minus]

theorem takeSign_append {text : List Char} (some : text ≠ []) (rest : List Char) :
    takeSign (text ++ rest) = ((takeSign text).1, (takeSign text).2 ++ rest) := by
  cases text with
  | nil => exact absurd rfl some
  | cons c text =>
    by_cases minus : c = '-'
    · rw [minus]
      rfl
    · by_cases plus : c = '+'
      · rw [plus]
        rfl
      · simp [takeSign, minus, plus]

section Following

variable {rest : List Char} (ended : Ended rest)

include ended

theorem Ended.dropWhile : rest.dropWhile isDigit = rest := by
  cases rest with
  | nil => rfl
  | cons c rest =>
    have apart := ended c rfl
    simp only [extendsNumber, Bool.or_eq_false_iff] at apart
    simp [apart]

theorem Ended.takeWhile : rest.takeWhile isDigit = [] := by
  have whole := List.takeWhile_append_dropWhile (p := isDigit) (l := rest)
  rw [ended.dropWhile] at whole
  exact List.append_left_eq_self.mp whole

theorem takeWhile_ended (text : List Char) :
    (text ++ rest).takeWhile isDigit = text.takeWhile isDigit := by
  rw [List.takeWhile_append, ended.takeWhile, List.append_nil]
  split
  next whole => exact ((List.takeWhile_prefix isDigit).eq_of_length whole).symm
  next => rfl

theorem dropWhile_ended (text : List Char) :
    (text ++ rest).dropWhile isDigit = text.dropWhile isDigit ++ rest := by
  rw [List.dropWhile_append, ended.dropWhile]
  split
  next empty => rw [List.isEmpty_iff.mp empty, List.nil_append]
  next => rfl

theorem splitFraction_append (text : List Char) :
    splitFraction (text ++ rest) = ((splitFraction text).1, (splitFraction text).2 ++ rest) := by
  cases text with
  | nil =>
    cases rest with
    | nil => rfl
    | cons c rest =>
      have apart : c ≠ '.' := by
        rintro rfl
        cases ended '.' rfl
      simp [splitFraction, apart]
  | cons c text =>
    by_cases point : c = '.'
    · simp [splitFraction, point, takeWhile_ended ended, dropWhile_ended ended]
    · simp [splitFraction, point]

theorem splitPower?_append {text : List Char} {power : Option (Bool × List Char)}
    (whole : splitPower? text = some (power, [])) :
    splitPower? (text ++ rest) = some (power, rest) := by
  cases text with
  | nil =>
    cases whole
    cases rest with
    | nil => rfl
    | cons c rest =>
      have apart := ended c rfl
      simp only [extendsNumber, Bool.or_eq_false_iff] at apart
      simp [splitPower?, apart]
  | cons c text =>
    simp only [splitPower?, List.cons_append] at whole ⊢
    split at whole
    next letter =>
      split at whole
      next => cases whole
      next digits =>
        have nonempty : text ≠ [] := by
          rintro rfl
          exact digits rfl
        simp only [Option.some.injEq, Prod.mk.injEq] at whole
        simp [letter, takeSign_append nonempty, takeWhile_ended ended, digits,
          dropWhile_ended ended, whole]
    next => cases whole

theorem scan?_append {text : List Char} {spelling : NumberSpelling}
    (whole : scan? text = some (spelling, [])) : scan? (text ++ rest) = some (spelling, rest) := by
  have nonempty : text ≠ [] := by
    rintro rfl
    cases whole
  simp only [scan?, splitMinus_append nonempty, takeWhile_ended ended, dropWhile_ended ended,
    splitFraction_append ended] at whole ⊢
  split at whole
  next => cases whole
  next digits =>
    split at whole
    next => cases whole
    next fraction =>
      obtain ⟨⟨power, left⟩, scanned, same⟩ := Option.map_eq_some_iff.mp whole
      cases same
      simp [digits, fraction, splitPower?_append ended scanned]

end Following

end NumberSpelling

end RenderCompiler
