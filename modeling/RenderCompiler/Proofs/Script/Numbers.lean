import Mathlib.Data.List.TakeWhile
import RenderCompiler.Proofs.Binary64.Exact
import RenderCompiler.Proofs.Binary64.Range
import RenderCompiler.Proofs.Binary64.Shortest
import RenderCompiler.Runtime.Calls
import RenderCompiler.Script.Printer

set_option autoImplicit false

namespace RenderCompiler

def magnitudeValue (text : List Char) : ℚ :=
  let fraction := (text.dropWhile isDigit).drop 1
  naturalOf (text.takeWhile isDigit ++ fraction) / 10 ^ fraction.length

def spelledValue : List Char → ℚ
  | '-' :: magnitude => -magnitudeValue magnitude
  | magnitude => magnitudeValue magnitude

section Spelled

theorem naturalOf_toDigits (n : Nat) : naturalOf (Nat.toDigits 10 n) = n :=
  Nat.ofDigitChars_ten_toDigits

theorem naturalOf_append_zeros (digits : List Char) (n : Nat) :
    naturalOf (digits ++ List.replicate n '0') = naturalOf digits * 10 ^ n := by
  have same (text : List Char) : naturalOf text = Nat.ofDigitChars 10 text 0 := rfl
  rw [same, same, Nat.ofDigitChars_append, Nat.ofDigitChars_replicate_zero, mul_comm]

theorem naturalOf_zeros_append (n : Nat) (digits : List Char) :
    naturalOf (List.replicate n '0' ++ digits) = naturalOf digits := by
  have same (text : List Char) : naturalOf text = Nat.ofDigitChars 10 text 0 := rfl
  rw [same, same, Nat.ofDigitChars_append, Nat.ofDigitChars_replicate_zero, mul_zero]

theorem magnitudeValue_whole {whole : List Char} (digits : ∀ c ∈ whole, isDigit c = true) :
    magnitudeValue whole = naturalOf whole := by
  have all : whole.takeWhile isDigit = whole := List.takeWhile_eq_self_iff.mpr digits
  have rest : whole.dropWhile isDigit = [] := List.dropWhile_eq_nil_iff.mpr digits
  simp [magnitudeValue, all, rest]

theorem magnitudeValue_fraction {whole : List Char} (digits : ∀ c ∈ whole, isDigit c = true)
    (fraction : List Char) :
    magnitudeValue (whole ++ '.' :: fraction) =
      naturalOf (whole ++ fraction) / 10 ^ fraction.length := by
  have point : isDigit '.' = false := rfl
  have before : (whole ++ '.' :: fraction).takeWhile isDigit = whole := by
    rw [List.takeWhile_append_of_pos digits, List.takeWhile_cons_of_neg (by simp [point]),
      List.append_nil]
  have after : (whole ++ '.' :: fraction).dropWhile isDigit = '.' :: fraction := by
    rw [List.dropWhile_append_of_pos digits, List.dropWhile_cons_of_neg (by simp [point])]
  rw [magnitudeValue, before, after]
  rfl

theorem spelledValue_signed (negative : Bool) {magnitude : List Char}
    (isMagnitude : IsMagnitude magnitude) :
    spelledValue (if negative then '-' :: magnitude else magnitude) =
      if negative then -magnitudeValue magnitude else magnitudeValue magnitude := by
  obtain ⟨c, rest, digit, rfl⟩ := isMagnitude.head
  cases negative with
  | true => rfl
  | false =>
    have unsigned : c ≠ '-' := by
      rintro rfl
      cases digit
    unfold spelledValue
    split
    next same =>
      cases same
      exact absurd rfl unsigned
    next => rfl

end Spelled

theorem isDigit_of_mem_zeros {n : Nat} : ∀ c ∈ List.replicate n '0', isDigit c = true := by
  intro c member
  rw [List.eq_of_mem_replicate member]
  rfl

theorem Decimal.value_of_places {d : Decimal} {places : Nat}
    (count : d.exponent = -(places : Int)) : (d.coefficient : ℚ) / 10 ^ places = d.value := by
  rw [value, count, zpow_neg, zpow_natCast, div_eq_mul_inv]

theorem Decimal.magnitudeValue_positional (d : Decimal) :
    magnitudeValue d.positional = d.value := by
  have digits : ∀ c ∈ d.digits, isDigit c = true := fun _ => isDigit_of_mem_toDigits
  have own : naturalOf d.digits = d.coefficient := naturalOf_toDigits d.coefficient
  unfold positional
  split
  next whole =>
    have all : ∀ c ∈ d.digits ++ List.replicate d.exponent.toNat '0', isDigit c = true :=
      List.forall_mem_append.mpr ⟨digits, isDigit_of_mem_zeros⟩
    rw [magnitudeValue_whole all, naturalOf_append_zeros, own, value,
      ← Int.toNat_of_nonneg whole, zpow_natCast]
    push_cast
    rfl
  next broken =>
    split
    next within =>
      rw [magnitudeValue_fraction fun c member => digits c (List.mem_of_mem_take member),
        List.take_append_drop, own]
      refine value_of_places ?_
      rw [List.length_drop]
      unfold pointAt at within ⊢
      omega
    next outside =>
      have start : '0' :: '.' :: List.replicate (-d.pointAt).toNat '0' ++ d.digits =
          List.replicate 1 '0' ++ '.' :: (List.replicate (-d.pointAt).toNat '0' ++ d.digits) := rfl
      rw [start, magnitudeValue_fraction isDigit_of_mem_zeros, naturalOf_zeros_append,
        naturalOf_zeros_append, own]
      refine value_of_places ?_
      rw [List.length_append, List.length_replicate]
      unfold pointAt at outside ⊢
      omega

def displayMagnitude (x : Binary64) : List Char :=
  if x.isZero then ['0'] else (x.shortest .away).positional

def displayText (x : Binary64) : List Char :=
  if x.negative then '-' :: displayMagnitude x else displayMagnitude x

namespace Binary64

section Whole

variable {x : Binary64}

theorem ratio_value (x : Binary64) : (x.ratio.1 : ℚ) = x.magnitude * x.ratio.2 := by
  unfold ratio
  split
  next whole =>
    have place : (2 : ℚ) ^ x.exponent.toNat = x.spacing := by
      rw [spacing, ← zpow_natCast, Int.toNat_of_nonneg whole]
    simp only [magnitude, Nat.pow_eq]
    push_cast
    rw [place, mul_one]
  next broken =>
    have place : x.spacing * 2 ^ (-x.exponent).toNat = 1 := by
      rw [spacing, ← zpow_natCast, Int.toNat_of_nonneg (by omega), ← zpow_add₀ two_ne_zero,
        add_neg_cancel, zpow_zero]
    simp only [magnitude, Nat.pow_eq]
    push_cast
    rw [mul_assoc, place, mul_one]

theorem integral?_eq_some_iff {n : Nat} : x.integral? = some n ↔ x.magnitude = n := by
  have proper := ratio_proper x
  have cast : (x.ratio.2 : ℚ) ≠ 0 := Nat.cast_ne_zero.mpr proper
  have whole : x.ratio.1 = n * x.ratio.2 ↔ x.magnitude = n := by
    rw [← mul_left_inj' cast, ← ratio_value]
    exact_mod_cast Iff.rfl
  rw [← whole]
  unfold integral?
  simp only
  constructor
  · intro found
    split at found
    next exact =>
      cases found
      exact (Nat.div_mul_cancel (Nat.dvd_of_mod_eq_zero exact)).symm
    next => cases found
  · intro same
    rw [same, Nat.mul_mod_left, if_pos rfl, Nat.mul_div_cancel _ (Nat.pos_of_ne_zero proper)]

theorem isZero_iff : x.isZero = true ↔ x.significand = 0 := by
  rw [isZero, Bool.and_eq_true, beq_iff_eq, beq_iff_eq, significand]
  unfold fractions
  split <;> omega

theorem magnitude_of_isZero (zero : x.isZero = true) : x.magnitude = 0 := by
  rw [magnitude, isZero_iff.mp zero, Nat.cast_zero, zero_mul]

theorem ordinary (finite : x.isFinite = true) : x.isNaN = false ∧ x.isInfinite = false := by
  simp only [isFinite, bne_iff_ne] at finite
  simp [isNaN, isInfinite, finite]

theorem numberText_of_whole (finite : x.isFinite = true) {n : Nat} (whole : x.magnitude = n)
    (small : n < 10 ^ 15) :
    numberText x =
      if x.negative && n != 0 then '-' :: Nat.toDigits 10 n else Nat.toDigits 10 n := by
  have fits : n < integralLimit := small
  unfold numberText
  rw [(ordinary finite).1, (ordinary finite).2, integral?_eq_some_iff.mpr whole]
  simp only [Bool.false_eq_true, if_false, if_pos fits]
  rfl

theorem numberText_of_other (finite : x.isFinite = true)
    (other : ∀ n : Nat, x.magnitude = n → 10 ^ 15 ≤ n) : numberText x = displayText x := by
  have positive : x.isZero = false := by
    rw [← Bool.not_eq_true]
    intro zero
    have small := other 0 (magnitude_of_isZero zero)
    omega
  unfold numberText displayText displayMagnitude
  rw [(ordinary finite).1, (ordinary finite).2, positive]
  simp only [Bool.false_eq_true, if_false]
  split
  next n integral =>
    have large := other n (integral?_eq_some_iff.mp integral)
    have above : ¬ n < integralLimit := not_lt.mpr large
    rw [if_neg above]
    rfl
  next => rfl

theorem toDigits_append_zeros {c : Nat} (positive : c ≠ 0) (zeros : Nat) :
    Nat.toDigits 10 c ++ List.replicate zeros '0' = Nat.toDigits 10 (c * 10 ^ zeros) := by
  induction zeros with
  | zero => simp
  | succ zeros ih =>
    rw [List.replicate_succ', ← List.append_assoc, ih]
    have some : 0 < c * 10 ^ zeros := Nat.mul_pos (Nat.pos_of_ne_zero positive) (by positivity)
    have next := Nat.toDigits_append_toDigits (b := 10) (d := 0) (by decide) some (by decide)
    rw [Nat.add_zero] at next
    rw [pow_succ', Nat.mul_left_comm, ← next]
    rfl

theorem positional_of_whole (positive : x.significand ≠ 0) (tie : Tie) {n : Nat}
    (whole : x.magnitude = n) (small : n < 10 ^ 15) :
    (x.shortest tie).positional = Nat.toDigits 10 n := by
  obtain ⟨zeros, exponent, same⟩ := shortest_of_whole positive tie whole small
  unfold Decimal.positional
  rw [exponent, if_pos (Int.natCast_nonneg _), Int.toNat_natCast, Decimal.digits,
    toDigits_append_zeros (shortest_positive positive), same]

theorem negative_of_isZero (nought : x.isZero = true) (signed : x ≠ zero.negate) :
    x.negative = false := by
  obtain ⟨negative, biased, fraction⟩ := x
  rw [isZero, Bool.and_eq_true, beq_iff_eq, beq_iff_eq] at nought
  obtain ⟨rfl, rfl⟩ : biased = 0 ∧ fraction = 0 := ⟨Fin.ext nought.1, Fin.ext nought.2⟩
  cases negative with
  | false => rfl
  | true => exact absurd rfl signed

-- Whole numbers are written as they would be without the limit, but for a zero with a sign.
theorem numberText_eq_displayText (finite : x.isFinite = true) (signed : x ≠ zero.negate) :
    numberText x = displayText x := by
  by_cases whole : ∃ n : Nat, x.magnitude = n ∧ n < 10 ^ 15
  · obtain ⟨n, whole, small⟩ := whole
    rw [numberText_of_whole finite whole small, displayText, displayMagnitude]
    by_cases nought : x.isZero = true
    · have none : n = 0 := by
        rw [magnitude_of_isZero nought] at whole
        exact_mod_cast whole.symm
      rw [nought, none, negative_of_isZero nought signed]
      rfl
    · have positive : x.significand ≠ 0 := mt isZero_iff.mpr nought
      have some : n ≠ 0 := by
        rintro rfl
        have magnitude := magnitude_pos positive
        rw [whole, Nat.cast_zero] at magnitude
        exact lt_irrefl _ magnitude
      rw [if_neg nought, positional_of_whole positive .away whole small, bne_iff_ne.mpr some,
        Bool.and_true]
  · refine numberText_of_other finite fun n same => ?_
    by_contra small
    exact whole ⟨n, same, not_le.mp small⟩

theorem isMagnitude_displayMagnitude (x : Binary64) : IsMagnitude (displayMagnitude x) := by
  unfold displayMagnitude
  split
  next => exact .whole (isWhole_toDigits 0)
  next nonzero =>
    exact Decimal.isMagnitude_positional (shortest_positive (mt isZero_iff.mpr nonzero))

theorem magnitudeValue_zero : magnitudeValue ['0'] = 0 := by
  have digits := magnitudeValue_whole (isWhole_toDigits 0).digits
  rwa [naturalOf_toDigits, Nat.cast_zero] at digits

theorem roundsTo_displayMagnitude (finite : x.isFinite = true) :
    RoundsTo (magnitudeValue (displayMagnitude x)) (x.withSign false) := by
  unfold displayMagnitude
  split
  next nought =>
    have value : (x.withSign false).value = 0 :=
      (value_of_plain rfl).trans (magnitude_of_isZero nought)
    rw [magnitudeValue_zero, ← value]
    exact .exact finite
  next nonzero =>
    have own : (x.withSign false).significand ≠ 0 := mt isZero_iff.mpr nonzero
    rw [Decimal.magnitudeValue_positional]
    exact .of_admits rfl own finite (admits_shortest own .away)

theorem roundsTo_displayText (finite : x.isFinite = true) :
    RoundsTo (spelledValue (displayText x)) x := by
  rw [displayText, spelledValue_signed _ (isMagnitude_displayMagnitude x)]
  exact RoundsTo.signed (roundsTo_displayMagnitude finite)

theorem numberText_of_isZero (nought : x.isZero = true) : numberText x = ['0'] := by
  have finite : x.isFinite = true := by
    rw [isZero, Bool.and_eq_true, beq_iff_eq] at nought
    exact finite_iff.mpr (by omega)
  have whole : x.magnitude = (0 : Nat) := by
    rw [magnitude_of_isZero nought, Nat.cast_zero]
  rw [numberText_of_whole finite whole (by decide)]
  exact if_neg (by simp)

theorem roundsTo_numberText (finite : x.isFinite = true) :
    RoundsTo (spelledValue (numberText x)) x := by
  by_cases signed : x = zero.negate
  · have value : spelledValue ['0'] = zero.negate.value := by
      rw [value_negate, value_zero, neg_zero]
      exact magnitudeValue_zero
    rw [signed, numberText_of_isZero rfl, value]
    exact .exact rfl
  · rw [numberText_eq_displayText finite signed]
    exact roundsTo_displayText finite

end Whole

section Natural

theorem negative_ofNat (n : Nat) : (ofNat n).negative = false := by
  unfold ofNat ofRatio ofOrdinal
  simp only
  split
  · rfl
  · split <;> rfl

theorem value_ofNat {n : Nat} (small : n < exactLimit) : (ofNat n).value = n := by
  rw [value_of_plain (negative_ofNat n), integral?_eq_some_iff.mp (integral?_ofNat small)]

end Natural

end Binary64

-- The quotient towards zero, held within the range of the signed integers of 64 bits.
def toInt64 (q : ℚ) : Int := max (-2 ^ 63) (min (2 ^ 63 - 1) (q.num.tdiv q.den))

theorem toInt64_of_small {n : Int} (small : |n| < 10 ^ 15) : toInt64 n = n := by
  have bounds := abs_lt.mp small
  rw [toInt64, Rat.num_intCast, Rat.den_intCast, Nat.cast_one, Int.tdiv_one]
  omega

theorem numberText_of_int {x : Binary64} (finite : x.isFinite = true) {n : Int}
    (whole : x.value = n) (small : |n| < 10 ^ 15) : numberText x = (toString n).toList := by
  have absolute : |n| = n.natAbs := Int.abs_eq_natAbs n
  have magnitude : x.magnitude = n.natAbs := by
    rw [← Binary64.abs_value, whole, ← Int.cast_abs, absolute, Int.cast_natCast]
  rw [Binary64.numberText_of_whole finite magnitude (by omega), Int.toString_eq_repr,
    Int.repr_eq_if]
  rw [Binary64.value, magnitude, Nat.cast_natAbs] at whole
  cases sign : x.negative with
  | false =>
    rw [sign, if_neg (by decide)] at whole
    have up : |n| = n := Int.cast_inj.mp whole
    have digits : n.natAbs = n.toNat := by omega
    rw [if_neg (by simp), if_pos (by omega), Nat.repr_eq_ofList_toDigits, String.toList_ofList,
      digits]
  | true =>
    rw [sign, if_pos rfl] at whole
    have down : -|n| = n := by exact_mod_cast whole
    have digits : n.natAbs = (-n).toNat := by omega
    by_cases none : n = 0
    · subst none
      rfl
    · rw [if_pos (by simp [none]), if_neg (by omega), Nat.repr_eq_ofList_toDigits,
        String.toList_append, digits]
      exact congrArg (List.cons '-') String.toList_ofList.symm

theorem numberText_ofNat {n : Nat} (small : n < integralLimit) :
    numberText (.ofNat n) = (toString n).toList := by
  have held : n < Binary64.exactLimit := small.trans (by decide)
  have absolute : |(n : Int)| = n := abs_of_nonneg (Int.natCast_nonneg n)
  rw [numberText_of_int (Binary64.isFinite_ofNat held) (n := n) (by
    rw [Binary64.value_ofNat held, Int.cast_natCast]) (by
    rw [absolute]
    exact_mod_cast small)]
  rfl

theorem numberText_ofUInt32 (n : UInt32) :
    numberText (.ofUInt32 n) = (toString n.toNat).toList :=
  numberText_ofNat (Nat.lt_trans n.toNat_lt (by decide))

theorem print_bindCall (api : RuntimeApi) (handler : Expr) (slot : UInt32) :
    (api.bindCall handler slot).print =
      (Expr.member (.identifier api.apiParam) api.bind).print ++ "(" ++ handler.print ++ ", " ++
        toString slot.toNat ++ ")" := by
  have pieces : (api.bindCall handler slot).placed Level.assignment
      (api.bindCall handler slot).pieces =
        (Expr.member (.identifier api.apiParam) api.bind).placed Level.assignment
          (Expr.member (.identifier api.apiParam) api.bind).pieces ++
        (.mark "(" :: handler.placed Level.assignment handler.pieces ++
          [.mark ",", .space, .token (.number (.ofUInt32 slot)), .mark ")"]) := by
    simp only [RuntimeApi.bindCall, RuntimeApi.primitive, Expr.pieces, exprsPieces, separated,
      List.append_assoc, List.cons_append]
    rfl
  apply String.toList_injective
  simp only [Expr.print, Piece.render, pieces, String.toList_append, String.toList_ofList,
    List.flatMap_append, List.flatMap_cons, List.flatMap_nil, Piece.text, Piece.mark, Piece.space,
    Token.text, numberText_ofUInt32, List.append_assoc, List.append_nil]
  rfl

/-- The text of a finite number is spelled without an exponent and denotes the number: as an exact
decimal it is rounded to the number, and so no other number has the same text. Zero has one text.
Whole numbers below the limit pass through integers of 64 bits, which leaves the text as it would be
otherwise, but for a zero with a sign. Slots of handlers are written as their decimals. -/
theorem numberText_denotes {x : Binary64} (finite : x.isFinite = true) :
    IsSpelling (numberText x) ∧
      RoundsTo (spelledValue (numberText x)) x ∧
      (x.isZero = true → numberText x = ['0']) ∧
      (∀ y : Binary64, y.isFinite = true → numberText y = numberText x → y.value = x.value) ∧
      (∀ n : Int, x.value = n → |n| < 10 ^ 15 →
        toInt64 x.value = n ∧ numberText x = (toString (toInt64 x.value)).toList) ∧
      (x ≠ Binary64.zero.negate → numberText x = displayText x) ∧
      ∀ (api : RuntimeApi) (handler : Expr) (slot : UInt32),
        numberText (.ofUInt32 slot) = (toString slot.toNat).toList ∧
          (api.bindCall handler slot).print =
            (Expr.member (.identifier api.apiParam) api.bind).print ++ "(" ++ handler.print ++
              ", " ++ toString slot.toNat ++ ")" := by
  refine ⟨isSpelling_numberText finite, Binary64.roundsTo_numberText finite,
    Binary64.numberText_of_isZero, ?apart, ?whole, Binary64.numberText_eq_displayText finite,
    fun api handler slot => ⟨numberText_ofUInt32 slot, print_bindCall api handler slot⟩⟩
  case apart =>
    intro y other same
    have rounds := Binary64.roundsTo_numberText other
    rw [same] at rounds
    exact rounds.value_unique (Binary64.roundsTo_numberText finite)
  case whole =>
    intro n whole small
    have held : toInt64 x.value = n := by rw [whole, toInt64_of_small small]
    rw [held]
    exact ⟨rfl, numberText_of_int finite whole small⟩

-- The nearest number to the power is below it, and is still written as the power.
theorem numberText_denotes_power :
    Binary64.isFinite ⟨false, 1099, 0x52D02C7E14AF6⟩ = true ∧
      numberText ⟨false, 1099, 0x52D02C7E14AF6⟩ = "100000000000000000000000".toList ∧
      RoundsTo (10 ^ 23) ⟨false, 1099, 0x52D02C7E14AF6⟩ := by
  have text : numberText ⟨false, 1099, 0x52D02C7E14AF6⟩ = "100000000000000000000000".toList := by
    decide +kernel
  have value : spelledValue "100000000000000000000000".toList = 10 ^ 23 := by
    decide +kernel
  have denotes := (numberText_denotes (rfl :
    Binary64.isFinite ⟨false, 1099, 0x52D02C7E14AF6⟩ = true)).2.1
  rw [text, value] at denotes
  exact ⟨rfl, text, denotes⟩

end RenderCompiler
