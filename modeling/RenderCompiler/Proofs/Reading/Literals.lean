import RenderCompiler.Proofs.Reading.Lexer

set_option autoImplicit false

namespace RenderCompiler.Reading

def unitOf? : List Char → Option Nat
  | [a, b, c, d] => Json.hexUnit? a b c d
  | _ => none

theorem unitOf?_hexFour {code : Nat} (control : code < 0xA0) :
    unitOf? (hexFour code) = some code := by
  have all : ∀ code : Fin 0xA0, unitOf? (hexFour code) = some code.val := by decide +kernel
  exact all ⟨code, control⟩

variable (rest : List Char)

theorem string?_unit {digits : List Char} {code : Nat} {char : Char}
    (unit : unitOf? digits = some code) (valid : char? code = some char) :
    string? ('\\' :: 'u' :: digits ++ rest) =
      (string? rest).map fun (chars, rest) => (char :: chars, rest) := by
  unfold unitOf? at unit
  split at unit
  next a b c d =>
    cases read : string? rest <;> simp [string?, unit, valid, read]
  next => cases unit

theorem string?_escaped {letter char : Char} (apart : letter ≠ 'u' ∧ letter ≠ 'x')
    (escaped : escaped? letter = some char) :
    string? ('\\' :: letter :: rest) =
      (string? rest).map fun (chars, rest) => (char :: chars, rest) := by
  cases read : string? rest <;> simp [string?, apart, escaped, read]

theorem string?_plain {c : Char} (quote : c ≠ '\'') (slash : c ≠ '\\') (feed : c ≠ '\n')
    (back : c ≠ '\r') :
    string? (c :: rest) = (string? rest).map fun (chars, rest) => (c :: chars, rest) := by
  cases read : string? rest <;> simp [string?, slash, feed, back, read]

theorem char?_control {c : Char} : char? c.toNat = some c := by
  have valid : c.toNat.isValidChar := c.valid
  simp [char?, valid]

theorem string?_literalChar (c : Char) :
    string? (literalChar c ++ rest) =
      (string? rest).map fun (chars, rest) => (c :: chars, rest) := by
  unfold literalChar
  split
  next => exact string?_escaped rest (by decide) (by decide)
  next => exact string?_escaped rest (by decide) (by decide)
  next => exact string?_escaped rest (by decide) (by decide)
  next => exact string?_escaped rest (by decide) (by decide)
  next => exact string?_escaped rest (by decide) (by decide)
  next =>
    have unit : unitOf? ['2', '0', '2', '8'] = some 0x2028 := by decide
    exact string?_unit rest unit (by decide)
  next =>
    have unit : unitOf? ['2', '0', '2', '9'] = some 0x2029 := by decide
    exact string?_unit rest unit (by decide)
  next quote slash feed back _ _ _ =>
    split
    next control =>
      have small : c.toNat < 0xA0 := by
        simp only [isControl, Bool.or_eq_true, Bool.and_eq_true, decide_eq_true_eq] at control
        omega
      exact string?_unit rest (unitOf?_hexFour small) char?_control
    next => exact string?_plain rest quote slash feed back

theorem string?_literal (chars : List Char) :
    string? (chars.flatMap literalChar ++ '\'' :: rest) = some (chars, rest) := by
  induction chars with
  | nil => rfl
  | cons c chars ih =>
    rw [List.flatMap_cons, List.append_assoc, string?_literalChar, ih]
    rfl

end RenderCompiler.Reading
