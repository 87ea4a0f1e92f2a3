import Mathlib.Algebra.Order.Field.Power
import Mathlib.Tactic.Linarith
import Mathlib.Tactic.LinearCombination
import Mathlib.Tactic.NormNum
import Mathlib.Tactic.Ring
import RenderCompiler.Binary64.Shortest

set_option autoImplicit false

namespace RenderCompiler

namespace Binary64

def spacing (x : Binary64) : ℚ := 2 ^ x.exponent

def magnitude (x : Binary64) : ℚ := x.significand * x.spacing

def value (x : Binary64) : ℚ := if x.negative then -x.magnitude else x.magnitude

def stepBelow (x : Binary64) : ℚ := x.lowerGap * x.spacing / 2

end Binary64

/-- The rational is rounded to the number: no finite number is nearer to it, and if another one is
as near, the number has an even significand. From half a unit past the largest number on, rationals
are rounded to infinity. -/
structure RoundsTo (q : ℚ) (x : Binary64) : Prop where
  finite : x.isFinite = true
  nearest : ∀ y : Binary64, y.isFinite = true → |q - x.value| ≤ |q - y.value|
  even : ∀ y : Binary64, y.isFinite = true → y.value ≠ x.value →
    |q - y.value| = |q - x.value| → x.significand % 2 = 0
  within : |q| < 2 ^ 1024 - 2 ^ 970

namespace Binary64

section Fields

variable {x : Binary64}

theorem finite_iff : x.isFinite = true ↔ x.biased.val < 2047 := by
  have bound := x.biased.isLt
  rw [isFinite, bne_iff_ne]
  omega

theorem exponent_le (finite : x.isFinite = true) : x.exponent ≤ 971 := by
  have field := finite_iff.mp finite
  unfold exponent
  omega

theorem spacing_pos (x : Binary64) : 0 < x.spacing := zpow_pos two_pos _

theorem magnitude_nonneg (x : Binary64) : 0 ≤ x.magnitude :=
  mul_nonneg (Nat.cast_nonneg _) x.spacing_pos.le

theorem spacing_le (positive : x.significand ≠ 0) : x.spacing ≤ x.magnitude := by
  have one : (1 : ℚ) ≤ x.significand := by exact_mod_cast Nat.pos_of_ne_zero positive
  exact le_mul_of_one_le_left x.spacing_pos.le one

theorem magnitude_pos (positive : x.significand ≠ 0) : 0 < x.magnitude :=
  x.spacing_pos.trans_le (spacing_le positive)

theorem significand_le (x : Binary64) : (x.significand : ℚ) ≤ 2 * fractions - 1 := by
  have natural : x.significand + 1 ≤ 2 * fractions := x.significand_lt
  have rational : (x.significand : ℚ) + 1 ≤ 2 * fractions := by exact_mod_cast natural
  linarith

theorem stepBelow_pos (x : Binary64) : 0 < x.stepBelow := by
  have space := x.spacing_pos
  unfold stepBelow lowerGap
  split <;> push_cast <;> linarith

theorem stepBelow_le (x : Binary64) : x.stepBelow ≤ x.spacing := by
  have space := x.spacing_pos
  unfold stepBelow lowerGap
  split <;> push_cast <;> linarith

theorem limit_eq : (2 : ℚ) ^ 1024 - 2 ^ 970 = (4 * fractions - 1) * 2 ^ 970 := by
  have split : (2 : ℚ) ^ 1024 = 2 ^ 54 * 2 ^ 970 := pow_add 2 54 970
  rw [split]
  generalize (2 : ℚ) ^ 970 = block
  norm_num [fractions]
  ring

theorem magnitude_lt (finite : x.isFinite = true) : x.magnitude < 2 ^ 1024 - 2 ^ 970 := by
  have space : x.spacing ≤ 2 * 2 ^ 970 := by
    have bound : (2 : ℚ) ^ x.exponent ≤ 2 ^ ((970 + 1 : Nat) : Int) :=
      zpow_le_zpow_right₀ one_le_two (exponent_le finite)
    rwa [zpow_natCast, pow_succ'] at bound
  have whole : (x.significand : ℚ) ≤ 2 * fractions - 1 := significand_le x
  have block : (0 : ℚ) < 2 ^ 970 := pow_pos two_pos _
  rw [magnitude, limit_eq]
  calc (x.significand : ℚ) * x.spacing ≤ (2 * fractions - 1) * x.spacing :=
        mul_le_mul_of_nonneg_right whole x.spacing_pos.le
    _ ≤ (2 * fractions - 1) * (2 * 2 ^ 970) :=
        mul_le_mul_of_nonneg_left space (by norm_num [fractions])
    _ < (4 * fractions - 1) * 2 ^ 970 := by
        generalize (2 : ℚ) ^ 970 = unit at block ⊢
        norm_num [fractions]
        linarith

theorem spacing_of_natural (n : Nat) (place : x.exponent = (n + 1 : Nat)) :
    x.spacing = 2 * 2 ^ n := by
  rw [spacing, place, zpow_natCast, pow_succ']

theorem normal_of_exponent (above : -1074 < x.exponent) :
    1 < x.biased.val ∧ fractions ≤ x.significand := by
  have field : 1 < x.biased.val := by
    unfold exponent at above
    omega
  refine ⟨field, ?_⟩
  rw [significand, if_neg (by omega)]
  exact Nat.le_add_right _ _

@[simp] theorem value_negate (x : Binary64) : x.negate.value = -x.value := by
  unfold value negate
  cases x.negative
  · rfl
  · exact (neg_neg _).symm

@[simp] theorem negate_negate (x : Binary64) : x.negate.negate = x := by
  simp [negate]

theorem value_of_plain (plain : x.negative = false) : x.value = x.magnitude := by
  rw [value, plain]
  rfl

theorem abs_value (x : Binary64) : |x.value| = x.magnitude := by
  unfold value
  split
  · rw [abs_neg, abs_of_nonneg x.magnitude_nonneg]
  · exact abs_of_nonneg x.magnitude_nonneg

theorem value_of_nonneg (nonneg : 0 ≤ x.value) : x.value = x.magnitude := by
  rw [← abs_value, abs_of_nonneg nonneg]

theorem value_zero : zero.value = 0 := by
  simp [value, magnitude, significand, zero]

end Fields

section Apart

variable {x y : Binary64}

theorem magnitude_of_le (le : x.exponent ≤ y.exponent) :
    y.magnitude = (y.significand * 2 ^ (y.exponent - x.exponent).toNat : Nat) * x.spacing := by
  have scale : y.spacing = 2 ^ (y.exponent - x.exponent).toNat * x.spacing := by
    unfold spacing
    rw [← zpow_natCast, ← zpow_add₀ two_ne_zero]
    exact congrArg _ (by omega)
  rw [magnitude, scale]
  push_cast
  ring

theorem magnitude_le_of_lt (lt : y.exponent < x.exponent) :
    y.magnitude ≤ (fractions - 1 / 2) * x.spacing := by
  have half : y.spacing ≤ x.spacing / 2 := by
    have below : (2 : ℚ) ^ y.exponent ≤ 2 ^ (x.exponent - 1) :=
      zpow_le_zpow_right₀ one_le_two (by omega)
    rwa [zpow_sub_one₀ two_ne_zero] at below
  have space := y.spacing_pos
  calc y.magnitude ≤ (2 * fractions - 1) * y.spacing :=
        mul_le_mul_of_nonneg_right y.significand_le space.le
    _ ≤ (2 * fractions - 1) * (x.spacing / 2) :=
        mul_le_mul_of_nonneg_left half (by norm_num [fractions])
    _ = (fractions - 1 / 2) * x.spacing := by ring

theorem magnitude_le_stepBelow (lt : y.exponent < x.exponent) :
    y.magnitude ≤ x.magnitude - x.stepBelow := by
  have space := x.spacing_pos
  have step := x.stepBelow_le
  refine (magnitude_le_of_lt lt).trans ?_
  rw [sub_mul]
  obtain ⟨field, normal⟩ := normal_of_exponent (lt_of_le_of_lt y.exponent_ge lt)
  by_cases least : x.significand = fractions
  · rw [magnitude, stepBelow, lowerGap, if_pos ⟨least, field⟩, least]
    push_cast
    linarith
  · have units : (fractions : ℚ) + 1 ≤ x.significand := by
      exact_mod_cast lt_of_le_of_ne normal (Ne.symm least)
    have more : fractions * x.spacing + x.spacing ≤ x.magnitude := by
      rw [magnitude, ← add_one_mul]
      exact mul_le_mul_of_nonneg_right units space.le
    generalize (fractions : ℚ) * x.spacing = whole at more ⊢
    linarith

-- A magnitude is another one, or a unit above it, or a step below it, or farther away.
theorem magnitude_apart (x y : Binary64) :
    y.magnitude = x.magnitude ∨ x.magnitude + x.spacing ≤ y.magnitude ∨
      y.magnitude ≤ x.magnitude - x.stepBelow := by
  have space := x.spacing_pos
  rcases le_or_gt x.exponent y.exponent with le | lt
  · rw [magnitude_of_le le]
    generalize y.significand * 2 ^ (y.exponent - x.exponent).toNat = n
    rcases lt_trichotomy n x.significand with less | same | more
    · right
      right
      have units : (n : ℚ) + 1 ≤ x.significand := by exact_mod_cast less
      have below := mul_le_mul_of_nonneg_right units space.le
      have step := x.stepBelow_le
      rw [add_one_mul, ← magnitude] at below
      linarith
    · left
      rw [same, magnitude]
    · right
      left
      have units : (x.significand : ℚ) + 1 ≤ n := by exact_mod_cast more
      have above := mul_le_mul_of_nonneg_right units space.le
      rwa [add_one_mul, ← magnitude] at above
  · exact .inr (.inr (magnitude_le_stepBelow lt))

end Apart

section Neighbours

variable {x z : Binary64}

theorem finite_iff_ordinal : x.isFinite = true ↔ x.ordinal < 2047 * fractions := by
  have small := x.fraction.isLt
  rw [finite_iff, ordinal]
  unfold fractions at *
  omega

theorem exists_at {n : Nat} (within : n < 2047 * fractions) :
    ∃ z : Binary64, z.isFinite = true ∧ z.negative = false ∧ z.ordinal = n := by
  have place := ordinal_ofOrdinal false within
  refine ⟨ofOrdinal false n, ?_, ?_, place⟩
  · rwa [finite_iff_ordinal, place]
  · rw [ofOrdinal, if_pos within]

section Next

variable (next : z.ordinal = x.ordinal + 1)

include next

theorem next_cases :
    z.biased.val = x.biased.val ∧ z.fraction.val = x.fraction.val + 1 ∨
      z.biased.val = x.biased.val + 1 ∧ x.fraction.val + 1 = fractions ∧ z.fraction.val = 0 := by
  have small := x.fraction.isLt
  have smallNext := z.fraction.isLt
  unfold ordinal at next
  unfold fractions at *
  omega

theorem odd_of_next (even : x.significand % 2 = 0) : z.significand % 2 = 1 := by
  unfold significand at *
  unfold ordinal at next
  unfold fractions at *
  split <;> split at even <;> omega

omit next in
theorem spacing_of_sameField (field : z.biased.val = x.biased.val) : z.spacing = x.spacing := by
  rw [spacing, spacing, exponent, exponent, field]

-- Subnormal numbers and the smallest normal ones have one spacing, which doubles from then on.
omit next in
theorem spacing_of_nextField (field : z.biased.val = x.biased.val + 1) :
    z.spacing = (if x.biased.val = 0 then 1 else 2) * x.spacing := by
  split
  next low =>
    have same : z.exponent = x.exponent := by
      unfold exponent
      omega
    rw [spacing, same, one_mul, spacing]
  next normal =>
    have above : z.exponent = x.exponent + 1 := by
      unfold exponent
      omega
    rw [spacing, spacing, above, zpow_add_one₀ two_ne_zero, mul_comm]

theorem magnitude_of_next : z.magnitude = x.magnitude + x.spacing := by
  rcases next_cases next with ⟨field, more⟩ | ⟨field, last, first⟩
  · have significand : z.significand = x.significand + 1 := by
      unfold Binary64.significand
      rw [field, more]
      split <;> rfl
    rw [magnitude, magnitude, spacing_of_sameField field, significand]
    push_cast
    ring
  · have carried : (x.fraction.val : ℚ) + 1 = fractions := by exact_mod_cast last
    have high : z.biased.val ≠ 0 := by omega
    rw [magnitude, magnitude, spacing_of_nextField field, significand, significand, if_neg high,
      first]
    split <;> push_cast <;> linear_combination -x.spacing * carried

theorem stepBelow_of_next : z.stepBelow = x.spacing := by
  rcases next_cases next with ⟨field, more⟩ | ⟨field, last, first⟩
  · have regular : z.lowerGap = 2 := by
      refine if_neg fun least => ?_
      have whole := least.1
      rw [significand, if_neg (by omega)] at whole
      omega
    rw [stepBelow, regular, spacing_of_sameField field]
    exact mul_div_cancel_left₀ _ two_ne_zero
  · have whole : z.significand = fractions := by
      rw [significand, if_neg (by omega), first, Nat.add_zero]
    have gap : z.lowerGap = if x.biased.val = 0 then 2 else 1 := by
      split
      next low => exact if_neg (by omega)
      next normal => exact if_pos ⟨whole, by omega⟩
    rw [stepBelow, spacing_of_nextField field, gap]
    split <;> push_cast <;> ring

end Next

-- Above a number stands another one, a unit away; the largest one ends half a unit below the limit
-- of the format. Even and odd significands take turns.
theorem exists_above (finite : x.isFinite = true) :
    (∃ z : Binary64, z.isFinite = true ∧ z.negative = false ∧
      z.magnitude = x.magnitude + x.spacing ∧
      (x.significand % 2 = 0 → z.significand % 2 = 1)) ∨
    (x.magnitude + x.spacing / 2 = 2 ^ 1024 - 2 ^ 970 ∧ x.significand % 2 = 1) := by
  have within := finite_iff_ordinal.mp finite
  by_cases room : x.ordinal + 1 < 2047 * fractions
  · left
    obtain ⟨z, finite, plain, next⟩ := exists_at room
    exact ⟨z, finite, plain, magnitude_of_next next, odd_of_next next⟩
  · right
    have small := x.fraction.isLt
    unfold ordinal at within room
    have top : x.biased.val = 2046 := by
      unfold fractions at *
      omega
    have full : x.significand = 2 * fractions - 1 := by
      rw [significand, if_neg (by omega)]
      unfold fractions at *
      omega
    have unit : x.spacing = 2 * 2 ^ 970 := spacing_of_natural 970 (by rw [exponent, top]; rfl)
    refine ⟨?_, by rw [full]; rfl⟩
    rw [magnitude, unit, full, limit_eq]
    generalize (2 : ℚ) ^ 970 = block
    norm_num [fractions]
    ring

theorem exists_below (positive : x.significand ≠ 0) (finite : x.isFinite = true) :
    ∃ z : Binary64, z.isFinite = true ∧ z.negative = false ∧
      z.magnitude = x.magnitude - x.stepBelow := by
  have within := finite_iff_ordinal.mp finite
  obtain ⟨n, place⟩ : ∃ n, x.ordinal = n + 1 := by
    refine Nat.exists_eq_add_one_of_ne_zero fun none => positive ?_
    unfold ordinal at none
    unfold significand fractions at *
    split <;> omega
  obtain ⟨z, finite, plain, below⟩ := exists_at (n := n) (by omega)
  have next : x.ordinal = z.ordinal + 1 := by rw [place, below]
  refine ⟨z, finite, plain, ?_⟩
  rw [magnitude_of_next next, stepBelow_of_next next, add_sub_cancel_right]

end Neighbours

section Same

variable {x y : Binary64}

theorem exponent_of_magnitude (same : y.magnitude = x.magnitude) : x.exponent ≤ y.exponent := by
  by_contra below
  have less := magnitude_le_stepBelow (not_le.mp below)
  have step := x.stepBelow_pos
  linarith

theorem significand_of_magnitude (same : y.magnitude = x.magnitude) :
    y.significand = x.significand := by
  have exponents : y.exponent = x.exponent :=
    le_antisymm (exponent_of_magnitude same.symm) (exponent_of_magnitude same)
  rw [magnitude, magnitude, spacing, spacing, exponents] at same
  exact_mod_cast mul_right_cancel₀ x.spacing_pos.ne' same

end Same

-- The rational lies within half the distance to each neighbour; the ends belong to the number when
-- its significand is even.
structure Admits (x : Binary64) (m : ℚ) : Prop where
  lower : x.magnitude - x.stepBelow / 2 ≤ m
  upper : m ≤ x.magnitude + x.spacing / 2
  inner : x.significand % 2 = 1 →
    x.magnitude - x.stepBelow / 2 < m ∧ m < x.magnitude + x.spacing / 2

theorem value_apart {x y : Binary64} (positive : x.significand ≠ 0) (finite : x.isFinite = true) :
    y.value = x.magnitude ∨ x.magnitude + x.spacing ≤ y.value ∨
      y.value ≤ x.magnitude - x.stepBelow := by
  unfold value
  split
  · right
    right
    obtain ⟨z, -, -, below⟩ := exists_below positive finite
    rw [← below]
    have nonneg := z.magnitude_nonneg
    have other := y.magnitude_nonneg
    linarith
  · exact magnitude_apart x y

namespace Admits

variable {x : Binary64} {m : ℚ} (admits : x.Admits m)

include admits

theorem lt_limit (finite : x.isFinite = true) : m < 2 ^ 1024 - 2 ^ 970 := by
  rcases exists_above finite with ⟨z, bounded, -, next, -⟩ | ⟨top, odd⟩
  · have most := magnitude_lt bounded
    have upper := admits.upper
    have space := x.spacing_pos
    generalize (2 : ℚ) ^ 1024 - 2 ^ 970 = limit at most ⊢
    linarith
  · rw [← top]
    exact (admits.inner odd).2

theorem nonneg (positive : x.significand ≠ 0) (finite : x.isFinite = true) : 0 ≤ m := by
  obtain ⟨z, -, -, below⟩ := exists_below positive finite
  have least := z.magnitude_nonneg
  have lower := admits.lower
  have step := x.stepBelow_pos
  linarith

theorem nearest {v : ℚ}
    (apart : x.magnitude + x.spacing ≤ v ∨ v ≤ x.magnitude - x.stepBelow) :
    |m - x.magnitude| ≤ |m - v| ∧
      (|m - v| = |m - x.magnitude| → x.significand % 2 = 0) := by
  have space := x.spacing_pos
  have step := x.stepBelow_pos
  have less := x.stepBelow_le
  have lower := admits.lower
  have upper := admits.upper
  rcases apart with above | below
  · have far : |m - v| = v - m := by
      rw [abs_sub_comm, abs_of_nonneg (by linarith)]
    rw [far]
    refine ⟨abs_le.mpr ⟨by linarith, by linarith⟩, fun tie => ?_⟩
    by_contra odd
    have inner := admits.inner (by omega)
    rcases abs_cases (m - x.magnitude) with ⟨near, -⟩ | ⟨near, -⟩ <;> linarith
  · have far : |m - v| = m - v := abs_of_nonneg (by linarith)
    rw [far]
    refine ⟨abs_le.mpr ⟨by linarith, by linarith⟩, fun tie => ?_⟩
    by_contra odd
    have inner := admits.inner (by omega)
    rcases abs_cases (m - x.magnitude) with ⟨near, -⟩ | ⟨near, -⟩ <;> linarith

end Admits

end Binary64

namespace RoundsTo

open Binary64

variable {x y : Binary64} {q : ℚ}

theorem of_admits (plain : x.negative = false) (positive : x.significand ≠ 0)
    (finite : x.isFinite = true) (admits : x.Admits q) : RoundsTo q x where
  finite := finite
  nearest y _ := by
    rw [value_of_plain plain]
    rcases value_apart positive finite with same | apart
    · rw [same]
    · exact (admits.nearest apart).1
  even y _ other tie := by
    rw [value_of_plain plain] at other tie
    rcases value_apart positive finite with same | apart
    · exact absurd same other
    · exact (admits.nearest apart).2 tie
  within := by
    rw [abs_of_nonneg (admits.nonneg positive finite)]
    exact admits.lt_limit finite

-- No farther from one rational than from a greater one: at most half way between them.
theorem le_middle {a d : ℚ} (distance : 0 < d) (near : |q - a| ≤ |q - (a + d)|) :
    q ≤ a + d / 2 ∧ (|q - (a + d)| ≠ |q - a| → q < a + d / 2) := by
  have upper : q ≤ a + d / 2 := by
    by_contra far
    rw [abs_of_pos (by linarith : 0 < q - a), le_abs] at near
    rcases near with near | near <;> linarith
  refine ⟨upper, fun apart => lt_of_le_of_ne upper ?_⟩
  rintro rfl
  refine apart ?_
  rw [← abs_neg]
  exact congrArg _ (by ring)

variable (rounds : RoundsTo q x)

include rounds

theorem upper (plain : x.negative = false) : q ≤ x.magnitude + x.spacing / 2 ∧
    (x.significand % 2 = 1 → q < x.magnitude + x.spacing / 2) := by
  have space := x.spacing_pos
  have value := value_of_plain plain
  rcases exists_above rounds.finite with ⟨z, finite, up, next, -⟩ | ⟨top, -⟩
  · have other : z.value = x.magnitude + x.spacing := (value_of_plain up).trans next
    have near := rounds.nearest z finite
    have even := rounds.even z finite
    rw [value, other] at near even
    have ⟨least, strict⟩ := le_middle space near
    exact ⟨least, fun odd => strict fun tie => by
      have := even (by linarith) tie
      omega⟩
  · have within := (le_abs_self q).trans_lt rounds.within
    rw [top]
    exact ⟨within.le, fun _ => within⟩

theorem lower (plain : x.negative = false) (positive : x.significand ≠ 0) :
    x.magnitude - x.stepBelow / 2 ≤ q ∧
      (x.significand % 2 = 1 → x.magnitude - x.stepBelow / 2 < q) := by
  have step := x.stepBelow_pos
  have value := value_of_plain plain
  obtain ⟨z, finite, up, next⟩ := exists_below positive rounds.finite
  have other : z.value = x.magnitude - x.stepBelow := (value_of_plain up).trans next
  -- The mirror image of the step above.
  have mirrored (a : ℚ) : |q - a| = |-q - -a| := by rw [neg_sub_neg, abs_sub_comm]
  have below : -(x.magnitude - x.stepBelow) = -x.magnitude + x.stepBelow := by ring
  have near := rounds.nearest z finite
  have even := rounds.even z finite
  rw [value, other, mirrored x.magnitude, mirrored (_ - _), below] at near even
  have ⟨least, strict⟩ := le_middle step near
  refine ⟨by linarith, fun odd => ?_⟩
  have inner := strict fun tie => by
    have := even (by linarith) tie
    omega
  linarith

theorem admits (plain : x.negative = false) (positive : x.significand ≠ 0) : x.Admits q where
  lower := (rounds.lower plain positive).1
  upper := (rounds.upper plain).1
  inner odd := ⟨(rounds.lower plain positive).2 odd, (rounds.upper plain).2 odd⟩

omit rounds in
theorem distance_negate (q : ℚ) (y : Binary64) : |-q - y.value| = |q - y.negate.value| := by
  rw [value_negate, sub_neg_eq_add, ← neg_add', abs_neg]

protected theorem negate : RoundsTo (-q) x.negate where
  finite := rounds.finite
  nearest y finite := by
    rw [distance_negate, distance_negate, negate_negate]
    exact rounds.nearest y.negate finite
  even y finite other tie := by
    rw [distance_negate, distance_negate, negate_negate] at tie
    refine rounds.even y.negate finite (fun same => other ?_) tie
    rw [value_negate] at same ⊢
    rw [← same, neg_neg]
  within := by
    rw [abs_neg]
    exact rounds.within

omit rounds in
theorem exact (finite : x.isFinite = true) : RoundsTo x.value x where
  finite := finite
  nearest y _ := by
    rw [sub_self, abs_zero]
    exact abs_nonneg _
  even y _ other tie := by
    rw [sub_self, abs_zero, abs_eq_zero] at tie
    exact absurd (sub_eq_zero.mp tie).symm other
  within := by
    rw [abs_value]
    exact magnitude_lt finite

omit rounds in
theorem signed (rounds : RoundsTo q (x.withSign false)) :
    RoundsTo (if x.negative then -q else q) x := by
  obtain ⟨negative, biased, fraction⟩ := x
  cases negative with
  | false => exact rounds
  | true => exact rounds.negate

section Unique

variable (other : RoundsTo q y)

include other

theorem tie : |q - x.value| = |q - y.value| :=
  le_antisymm (rounds.nearest y other.finite) (other.nearest x rounds.finite)

theorem not_between {z : Binary64} (finite : z.isFinite = true) :
    ¬ (x.value < z.value ∧ z.value < y.value) := by
  rintro ⟨above, below⟩
  have middle : q - x.value = -(q - y.value) := by
    rcases abs_eq_abs.mp (rounds.tie other) with same | opposite
    · linarith
    · exact opposite
  have near := rounds.nearest z finite
  rw [abs_of_pos (by linarith : 0 < q - x.value), le_abs] at near
  rcases near with near | near <;> linarith

theorem not_lt_of_nonneg (nonneg : 0 ≤ x.value) : ¬ x.value < y.value := by
  intro less
  have low := value_of_nonneg nonneg
  have high := value_of_nonneg (nonneg.trans less.le)
  have tie := rounds.tie other
  have even := rounds.even y other.finite less.ne' tie.symm
  have evenOther := other.even x rounds.finite less.ne tie
  rcases exists_above rounds.finite with ⟨z, finite, up, next, turn⟩ | ⟨-, odd⟩
  · have between := rounds.not_between other finite
    have space := x.spacing_pos
    rw [low, high, value_of_plain up, next] at between
    rw [low, high] at less
    have reached : y.magnitude ≤ x.magnitude + x.spacing := by
      by_contra beyond
      exact between ⟨by linarith, by linarith⟩
    have same : y.magnitude = z.magnitude := by
      have step := x.stepBelow_pos
      rcases magnitude_apart x y with same | above | below <;> linarith
    have odd := turn even
    rw [significand_of_magnitude same] at evenOther
    omega
  · omega

theorem not_lt : ¬ x.value < y.value := by
  intro less
  rcases le_or_gt 0 x.value with nonneg | negative
  · exact rounds.not_lt_of_nonneg other nonneg less
  rcases le_or_gt y.value 0 with nonpos | positive
  · refine other.negate.not_lt_of_nonneg rounds.negate ?_ ?_
    · rw [value_negate]
      linarith
    · rw [value_negate, value_negate]
      linarith
  · refine rounds.not_between other (rfl : zero.isFinite = true) ?_
    rw [value_zero]
    exact ⟨negative, positive⟩

theorem value_unique : x.value = y.value :=
  le_antisymm (le_of_not_gt (other.not_lt rounds)) (le_of_not_gt (rounds.not_lt other))

end Unique

end RoundsTo

end RenderCompiler
