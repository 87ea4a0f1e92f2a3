import Mathlib.Tactic.FieldSimp
import RenderCompiler.Proofs.Binary64.Spelling
import RenderCompiler.Proofs.Binary64.Value

set_option autoImplicit false

namespace RenderCompiler

namespace Decimal

def value (d : Decimal) : ℚ := d.coefficient * 10 ^ d.exponent

theorem length_digits_le_iff {n count : Nat} (positive : 0 < count) :
    (Nat.toDigits 10 n).length ≤ count ↔ n < 10 ^ count :=
  Nat.length_toDigits_le_iff (by decide) positive

theorem coefficient_bounds {d : Decimal} (positive : d.coefficient ≠ 0) :
    10 ^ (d.digits.length - 1) ≤ d.coefficient ∧ d.coefficient < 10 ^ d.digits.length := by
  have some : 0 < d.digits.length := Nat.length_toDigits_pos
  refine ⟨?_, (length_digits_le_iff some).mp le_rfl⟩
  by_contra less
  by_cases one : d.digits.length = 1
  · rw [one] at less
    omega
  · have fewer := (length_digits_le_iff (by omega)).mpr (not_le.mp less)
    change d.digits.length ≤ _ at fewer
    omega

theorem value_bounds {d : Decimal} (positive : d.coefficient ≠ 0) :
    (10 : ℚ) ^ (d.pointAt - 1) ≤ d.value ∧ d.value < 10 ^ d.pointAt := by
  have grid : (0 : ℚ) < 10 ^ d.exponent := zpow_pos (by norm_num) _
  have some : 0 < d.digits.length := Nat.length_toDigits_pos
  have ⟨more, less⟩ := coefficient_bounds positive
  have low : (10 : ℚ) ^ (d.digits.length - 1) ≤ d.coefficient := by exact_mod_cast more
  have high : (d.coefficient : ℚ) < 10 ^ d.digits.length := by exact_mod_cast less
  have before : d.pointAt - 1 = (d.digits.length - 1 : Nat) + d.exponent := by
    unfold pointAt
    omega
  rw [before, pointAt, zpow_add₀ (by norm_num), zpow_add₀ (by norm_num), zpow_natCast,
    zpow_natCast]
  exact ⟨mul_le_mul_of_nonneg_right low grid.le, mul_lt_mul_of_pos_right high grid⟩

end Decimal

namespace Binary64

section Grid

variable {x : Binary64}

theorem exists_scale (x : Binary64) (k : Int) :
    ∃ scale : ℚ, 0 < scale ∧ ((x.gridScale k).1 : ℚ) = 10 ^ k * scale ∧
      ((x.gridScale k).2 : ℚ) = x.spacing / 4 * scale := by
  have ten : (10 : ℚ) ^ k * 10 ^ (-k).toNat = 10 ^ k.toNat := by
    rw [← zpow_natCast, ← zpow_natCast, ← zpow_add₀ (by norm_num)]
    exact congrArg _ (by omega)
  have two : (2 : ℚ) ^ (x.exponent - 2) * 2 ^ (-(x.exponent - 2)).toNat =
      2 ^ (x.exponent - 2).toNat := by
    rw [← zpow_natCast, ← zpow_natCast, ← zpow_add₀ (by norm_num)]
    exact congrArg _ (by omega)
  have quarter : x.spacing / 4 = 2 ^ (x.exponent - 2) := by
    rw [zpow_sub₀ two_ne_zero, spacing]
    norm_num
  refine ⟨10 ^ (-k).toNat * 2 ^ (-(x.exponent - 2)).toNat, by positivity, ?_, ?_⟩
  · simp only [gridScale, Nat.pow_eq]
    push_cast
    rw [← mul_assoc, ten]
  · simp only [gridScale, Nat.pow_eq]
    push_cast
    rw [quarter, mul_left_comm, two]

theorem lowerGap_le (x : Binary64) : x.lowerGap ≤ 2 := by
  unfold lowerGap
  split <;> decide

theorem admits_iff (positive : x.significand ≠ 0) {k : Int} {c : Nat} :
    x.admits k c = true ↔ x.Admits (c * 10 ^ k) := by
  obtain ⟨scale, some, grid, unit⟩ := exists_scale x k
  have gap := x.lowerGap_le
  have point : ((c * (x.gridScale k).1 : Nat) : ℚ) = c * 10 ^ k * scale := by
    push_cast
    rw [grid, mul_assoc]
  have low : (((4 * x.significand - x.lowerGap) * (x.gridScale k).2 : Nat) : ℚ) =
      (x.magnitude - x.stepBelow / 2) * scale := by
    rw [Nat.cast_mul, Nat.cast_sub (by omega), unit, magnitude, stepBelow]
    push_cast
    ring
  have high : (((4 * x.significand + 2) * (x.gridScale k).2 : Nat) : ℚ) =
      (x.magnitude + x.spacing / 2) * scale := by
    rw [Nat.cast_mul, unit, magnitude]
    push_cast
    ring
  have le (a b : Nat) : a ≤ b ↔ (a : ℚ) ≤ b := Nat.cast_le.symm
  have lt (a b : Nat) : a < b ↔ (a : ℚ) < b := Nat.cast_lt.symm
  unfold admits
  simp only
  split
  next even =>
    rw [Bool.and_eq_true, decide_eq_true_iff, decide_eq_true_iff, le, le, low, high, point,
      mul_le_mul_iff_left₀ some, mul_le_mul_iff_left₀ some]
    exact ⟨fun bounds => ⟨bounds.1, bounds.2, fun odd => by omega⟩,
      fun admits => ⟨admits.lower, admits.upper⟩⟩
  next odd =>
    rw [Bool.and_eq_true, decide_eq_true_iff, decide_eq_true_iff, lt, lt, low, high, point,
      mul_lt_mul_iff_left₀ some, mul_lt_mul_iff_left₀ some]
    exact ⟨fun inner => ⟨inner.1.le, inner.2.le, fun _ => inner⟩,
      fun admits => admits.inner (by omega)⟩

theorem Admits.between {m m' : ℚ} (admits : x.Admits m)
    (between : m ≤ m' ∧ m' ≤ x.magnitude ∨ x.magnitude ≤ m' ∧ m' ≤ m) : x.Admits m' := by
  have space := x.spacing_pos
  have step := x.stepBelow_pos
  obtain ⟨lower, upper, inner⟩ := admits
  rcases between with ⟨above, below⟩ | ⟨above, below⟩
  · exact ⟨by linarith, by linarith, fun odd => ⟨by linarith [inner odd], by linarith⟩⟩
  · exact ⟨by linarith, by linarith, fun odd => ⟨by linarith, by linarith [inner odd]⟩⟩

theorem admits_magnitude (x : Binary64) : x.Admits x.magnitude := by
  have space := x.spacing_pos
  have step := x.stepBelow_pos
  exact ⟨by linarith, by linarith, fun _ => ⟨by linarith, by linarith⟩⟩

variable {k : Int}

theorem nearestOnGrid?_admits {tie : Tie} {d : Decimal} (near : x.nearestOnGrid? tie k = some d) :
    d.exponent = k ∧ x.admits k d.coefficient = true := by
  unfold nearestOnGrid? at near
  simp only at near
  split at near
  next lower upper =>
    cases near
    refine ⟨rfl, ?_⟩
    split
    · exact upper
    · exact lower
  next lower upper =>
    cases near
    exact ⟨rfl, lower⟩
  next lower upper =>
    cases near
    exact ⟨rfl, upper⟩
  next => cases near

theorem exists_neighbours (tie : Tie) (x : Binary64) (k : Int) :
    ∃ lower : Nat, (lower : ℚ) * 10 ^ k ≤ x.magnitude ∧ x.magnitude < (lower + 1 : Nat) * 10 ^ k ∧
      (x.admits k lower = true ∨ x.admits k (lower + 1) = true →
        (x.nearestOnGrid? tie k).isSome = true) := by
  obtain ⟨scale, some, grid, unit⟩ := exists_scale x k
  have whole : ((4 * x.significand * (x.gridScale k).2 : Nat) : ℚ) = x.magnitude * scale := by
    push_cast
    rw [unit, magnitude]
    ring
  have proper : 0 < (x.gridScale k).1 :=
    Nat.mul_pos (Nat.pow_pos (by decide)) (Nat.pow_pos (by decide))
  refine ⟨4 * x.significand * (x.gridScale k).2 / (x.gridScale k).1, ?_, ?_, ?_⟩
  · have below := Nat.div_mul_le_self (4 * x.significand * (x.gridScale k).2) (x.gridScale k).1
    rw [← @Nat.cast_le ℚ, whole, Nat.cast_mul, grid, ← mul_assoc] at below
    exact le_of_mul_le_mul_right below some
  · have above := (Nat.div_lt_iff_lt_mul proper).mp
      (Nat.lt_add_one (4 * x.significand * (x.gridScale k).2 / (x.gridScale k).1))
    rw [← @Nat.cast_lt ℚ, whole, Nat.cast_mul, grid, ← mul_assoc] at above
    exact lt_of_mul_lt_mul_right above some.le
  · intro either
    unfold nearestOnGrid?
    simp only
    split
    · rfl
    · rfl
    · rfl
    next lower upper =>
      rw [lower, upper] at either
      rcases either with never | never <;> cases never

theorem nearestOnGrid?_isSome (positive : x.significand ≠ 0) (tie : Tie) {c : Nat}
    (admits : x.Admits (c * 10 ^ k)) : (x.nearestOnGrid? tie k).isSome = true := by
  obtain ⟨lower, below, above, found⟩ := exists_neighbours tie x k
  have grid : (0 : ℚ) < 10 ^ k := zpow_pos (by norm_num) _
  apply found
  rw [admits_iff positive, admits_iff positive]
  rcases Nat.lt_or_ge lower c with more | less
  · right
    have reached : ((lower + 1 : Nat) : ℚ) ≤ c := Nat.cast_le.mpr more
    exact admits.between (.inr ⟨above.le, mul_le_mul_of_nonneg_right reached grid.le⟩)
  · left
    have reached : (c : ℚ) ≤ lower := Nat.cast_le.mpr less
    exact admits.between (.inl ⟨mul_le_mul_of_nonneg_right reached grid.le, below⟩)

end Grid

theorem findSome?_range_first {α : Type} (f : Nat → Option α) {n j : Nat} (within : j < n)
    (success : (f j).isSome = true) :
    ∃ i ≤ j, (List.range n).findSome? f = f i ∧ (f i).isSome = true ∧ ∀ i' < i, f i' = none := by
  induction n generalizing j with
  | zero => cases within
  | succ n ih =>
    rw [List.range_succ, List.findSome?_append]
    by_cases earlier : ∃ i < n, (f i).isSome = true
    · obtain ⟨i, less, found⟩ := earlier
      obtain ⟨first, le, same, some, before⟩ := ih less found
      rw [same, Option.or_of_isSome some]
      refine ⟨first, ?_, rfl, some, before⟩
      by_contra later
      rw [before j (not_le.mp later)] at success
      cases success
    · have nothing : ∀ i < n, f i = none := by
        intro i less
        rw [← Option.not_isSome_iff_eq_none]
        exact fun found => earlier ⟨i, less, found⟩
      have last : j = n := by
        by_contra apart
        exact earlier ⟨j, by omega, success⟩
      subst last
      have before : (List.range j).findSome? f = none :=
        List.findSome?_eq_none_iff.mpr fun i member => nothing i (List.mem_range.mp member)
      rw [before]
      exact ⟨j, le_rfl, by simp, success, nothing⟩

section Exact

variable {x : Binary64}

theorem value_exactDecimal (x : Binary64) : x.exactDecimal.value = x.magnitude := by
  unfold exactDecimal
  split
  next whole =>
    have place : (2 : ℚ) ^ x.exponent.toNat = x.spacing := by
      rw [spacing, ← zpow_natCast, Int.toNat_of_nonneg whole]
    simp only [Decimal.value, magnitude, Nat.pow_eq]
    push_cast
    rw [place, mul_one]
  next broken =>
    obtain ⟨places, same⟩ : ∃ n : Nat, x.exponent = -(n : Int) :=
      ⟨(-x.exponent).toNat, by omega⟩
    have ten : (10 : ℚ) ^ places = 2 ^ places * 5 ^ places := by
      rw [← mul_pow]
      norm_num
    simp only [Decimal.value, magnitude, spacing, Nat.pow_eq, same, neg_neg, Int.toNat_natCast,
      zpow_neg, zpow_natCast, ten]
    push_cast
    field_simp

theorem exactDecimal_bounds (positive : x.significand ≠ 0) :
    (10 : ℚ) ^ (x.exactDecimal.pointAt - 1) ≤ x.magnitude ∧
      x.magnitude < 10 ^ x.exactDecimal.pointAt := by
  rw [← value_exactDecimal]
  exact Decimal.value_bounds (exactDecimal_positive positive)

end Exact

section Search

variable {x : Binary64} (positive : x.significand ≠ 0) (tie : Tie)

include positive

theorem nearestOnGrid?_of_fine {k : Int} (fine : (10 : ℚ) ^ k < x.spacing / 2) :
    (x.nearestOnGrid? tie k).isSome = true := by
  obtain ⟨lower, below, above, found⟩ := exists_neighbours tie x k
  refine found (.inr ((admits_iff positive).mpr ?_))
  have step := x.stepBelow_pos
  rw [Nat.cast_succ, add_one_mul] at above ⊢
  generalize (lower : ℚ) * 10 ^ k = point at below above ⊢
  generalize (10 : ℚ) ^ k = grid at fine above ⊢
  exact ⟨by linarith, by linarith, fun _ => ⟨by linarith, by linarith⟩⟩

-- Eighteen digits are finer than the interval, so the search ends there at the latest.
theorem eighteen_fine :
    (10 : ℚ) ^ (x.exactDecimal.pointAt - (18 : Nat)) < x.spacing / 2 := by
  have shift : x.exactDecimal.pointAt - 1 =
      (17 : Nat) + (x.exactDecimal.pointAt - (18 : Nat)) := by omega
  have least := (exactDecimal_bounds positive).1
  have most : x.magnitude ≤ (2 * fractions - 1) * x.spacing :=
    mul_le_mul_of_nonneg_right x.significand_le x.spacing_pos.le
  have space := x.spacing_pos
  rw [shift, zpow_add₀ (by norm_num), zpow_natCast] at least
  generalize (10 : ℚ) ^ (x.exactDecimal.pointAt - (18 : Nat)) = grid at least ⊢
  norm_num [fractions] at most
  linarith

theorem shortest_first {j : Nat} (within : j < 20)
    (success : (x.nearestOnGrid? tie (x.exactDecimal.pointAt - (j : Nat))).isSome = true) :
    ∃ i ≤ j, (x.shortest tie).exponent = x.exactDecimal.pointAt - (i : Nat) ∧
      x.Admits (x.shortest tie).value ∧
      ∀ i' < i, x.nearestOnGrid? tie (x.exactDecimal.pointAt - (i' : Nat)) = none := by
  obtain ⟨i, le, first, some, before⟩ := findSome?_range_first
    (fun i => x.nearestOnGrid? tie (x.exactDecimal.pointAt - (i : Nat))) within success
  obtain ⟨d, near⟩ := Option.isSome_iff_exists.mp some
  have same : x.shortest tie = d := by
    unfold shortest
    simp only
    rw [first, near]
    rfl
  obtain ⟨exponent, admits⟩ := nearestOnGrid?_admits near
  refine ⟨i, le, by rw [same, exponent], ?_, before⟩
  rw [same, Decimal.value, exponent]
  exact (admits_iff positive).mp admits

theorem admits_shortest : x.Admits (x.shortest tie).value := by
  obtain ⟨-, -, -, admits, -⟩ := shortest_first positive tie (by decide)
    (nearestOnGrid?_of_fine positive tie (eighteen_fine positive))
  exact admits

theorem nearestOnGrid?_of_power {m : ℚ} {k : Int} (admits : x.Admits m)
    (between : m ≤ 10 ^ k ∧ 10 ^ k ≤ x.magnitude ∨ x.magnitude ≤ 10 ^ k ∧ 10 ^ k ≤ m) :
    (x.nearestOnGrid? tie k).isSome = true := by
  have power : ((1 : Nat) : ℚ) * 10 ^ k = 10 ^ k := by rw [Nat.cast_one, one_mul]
  refine nearestOnGrid?_isSome positive tie (c := 1) ?_
  rw [power]
  exact admits.between between

theorem lt_of_missed {m : ℚ} (admits : x.Admits m)
    (missed : x.nearestOnGrid? tie x.exactDecimal.pointAt = none) :
    m < 10 ^ x.exactDecimal.pointAt := by
  by_contra above
  have below := (exactDecimal_bounds positive).2
  have found := nearestOnGrid?_of_power positive tie admits (.inr ⟨below.le, not_lt.mp above⟩)
  rw [missed] at found
  cases found

omit tie in
theorem lt_two_of_admits {c : Nat} (admits : x.Admits (c * 10 ^ x.exactDecimal.pointAt)) :
    c < 2 := by
  have wide : (c : ℚ) * 10 ^ x.exactDecimal.pointAt < 2 * 10 ^ x.exactDecimal.pointAt := by
    have upper := admits.upper
    have below := (exactDecimal_bounds positive).2
    have space := spacing_le positive
    have nonneg := x.magnitude_nonneg
    linarith
  exact_mod_cast lt_of_mul_lt_mul_right wide (zpow_pos (by norm_num) _).le

-- The shortest decimal is below the power of ten that the coarsest grid leaves out.
theorem length_of_first {i : Nat}
    (exponent : (x.shortest tie).exponent = x.exactDecimal.pointAt - (i : Nat))
    (before : ∀ i' < i, x.nearestOnGrid? tie (x.exactDecimal.pointAt - (i' : Nat)) = none) :
    (x.shortest tie).digits.length ≤ max i 1 := by
  refine (Decimal.length_digits_le_iff (by omega)).mpr ?_
  have admits := admits_shortest positive tie
  rw [Decimal.value, exponent] at admits
  generalize (x.shortest tie).coefficient = c at admits ⊢
  cases i with
  | zero =>
    rw [Nat.cast_zero, sub_zero] at admits
    exact (lt_two_of_admits positive admits).trans_le (by decide)
  | succ i =>
    have missed := before 0 (Nat.zero_lt_succ i)
    rw [Nat.cast_zero, sub_zero] at missed
    have power : x.exactDecimal.pointAt =
        (i + 1 : Nat) + (x.exactDecimal.pointAt - (i + 1 : Nat)) := by omega
    have below := lt_of_missed positive tie admits missed
    nth_rewrite 2 [power] at below
    rw [zpow_add₀ (by norm_num), zpow_natCast] at below
    have few := lt_of_mul_lt_mul_right below (zpow_pos (by norm_num) _).le
    rw [max_eq_left (by omega)]
    exact_mod_cast few

theorem nearestOnGrid?_of_admits {d : Decimal} (admits : x.Admits d.value) :
    ∃ j ≤ d.digits.length, j < 20 ∧
      (x.nearestOnGrid? tie (x.exactDecimal.pointAt - (j : Nat))).isSome = true := by
  have some : 0 < d.digits.length := Nat.length_toDigits_pos
  have own : d.coefficient ≠ 0 := by
    intro none
    have never := (admits_iff positive).mpr admits
    rw [none, not_admits_zero positive] at never
    cases never
  have ⟨least, most⟩ := exactDecimal_bounds positive
  have ⟨low, high⟩ := Decimal.value_bounds own
  have power {a b : Int} (le : a ≤ b) : (10 : ℚ) ^ a ≤ 10 ^ b :=
    zpow_le_zpow_right₀ (by norm_num) le
  rcases lt_trichotomy d.pointAt x.exactDecimal.pointAt with before | same | after
  · refine ⟨1, some, by decide, ?_⟩
    exact nearestOnGrid?_of_power positive tie admits
      (.inl ⟨high.le.trans (power (by omega)), least⟩)
  · by_cases fits : d.digits.length < 20
    · refine ⟨d.digits.length, le_rfl, fits, ?_⟩
      have grid : x.exactDecimal.pointAt - (d.digits.length : Nat) = d.exponent := by
        rw [← same, Decimal.pointAt]
        omega
      rw [grid]
      exact nearestOnGrid?_isSome positive tie admits
    · exact ⟨18, by omega, by decide, nearestOnGrid?_of_fine positive tie (eighteen_fine positive)⟩
  · refine ⟨0, Nat.zero_le _, by decide, ?_⟩
    rw [Nat.cast_zero, sub_zero]
    exact nearestOnGrid?_of_power positive tie admits
      (.inr ⟨most.le, (power (by omega)).trans low⟩)

/-- No decimal with fewer digits is rounded to the number. -/
theorem length_shortest_le (plain : x.negative = false) {d : Decimal}
    (rounds : RoundsTo d.value x) : (x.shortest tie).digits.length ≤ d.digits.length := by
  have admits := rounds.admits plain positive
  obtain ⟨j, within, small, success⟩ := nearestOnGrid?_of_admits positive tie admits
  obtain ⟨i, le, exponent, -, before⟩ := shortest_first positive tie small success
  have some : 0 < d.digits.length := Nat.length_toDigits_pos
  have few := length_of_first positive tie exponent before
  omega

section Whole

variable {n : Nat} (whole : x.magnitude = n) (small : n < 10 ^ 15)

include whole small

-- Such a number is held with room to spare behind the point.
omit positive in
theorem spacing_lt_one : x.spacing < 1 := by
  by_contra large
  have exponent : -1 < x.exponent := by
    by_contra broken
    have half : (2 : ℚ) ^ x.exponent ≤ 2 ^ (-1 : Int) :=
      zpow_le_zpow_right₀ one_le_two (not_lt.mp broken)
    rw [← spacing, zpow_neg_one] at half
    norm_num at half
    linarith
  have normal := (normal_of_exponent (x := x) (by omega)).2
  have least : (fractions : ℚ) ≤ x.significand := by exact_mod_cast normal
  have most : (n : ℚ) < 10 ^ 15 := by exact_mod_cast small
  have product : x.magnitude ≥ fractions * 1 :=
    mul_le_mul least (not_lt.mp large) zero_le_one (Nat.cast_nonneg _)
  rw [whole] at product
  norm_num [fractions] at product most
  linarith

omit positive in
theorem eq_of_admits {m : Nat} (admits : x.Admits m) : m = n := by
  have space := spacing_lt_one whole small
  have step := x.stepBelow_le
  have lower := admits.lower
  have upper := admits.upper
  rw [whole] at lower upper
  have above : (m : ℚ) < (n + 1 : Nat) := by
    push_cast
    linarith
  have below : (n : ℚ) < (m + 1 : Nat) := by
    push_cast
    linarith
  have first : m < n + 1 := by exact_mod_cast above
  have second : n < m + 1 := by exact_mod_cast below
  omega

-- The point of the exact decimal stands behind the digits of the whole number.
omit small in
theorem pointAt_of_whole : x.exactDecimal.pointAt = (Nat.toDigits 10 n).length := by
  have some : n ≠ 0 := by
    rintro rfl
    have magnitude := magnitude_pos positive
    rw [whole, Nat.cast_zero] at magnitude
    exact lt_irrefl _ magnitude
  have own : (⟨n, 0⟩ : Decimal).value = x.magnitude := by
    rw [Decimal.value, zpow_zero, mul_one, whole]
  have ⟨low, high⟩ := exactDecimal_bounds positive
  have ⟨lowOwn, highOwn⟩ := Decimal.value_bounds (d := ⟨n, 0⟩) some
  rw [own] at lowOwn highOwn
  have ordered {a b : Int} (less : (10 : ℚ) ^ a < 10 ^ b) : a < b :=
    (zpow_lt_zpow_iff_right₀ (by norm_num)).mp less
  have before := ordered (low.trans_lt highOwn)
  have after := ordered (lowOwn.trans_lt high)
  have point : (⟨n, 0⟩ : Decimal).pointAt = (Nat.toDigits 10 n).length := add_zero _
  omega

-- A whole number of at most fifteen digits is its own shortest decimal, but for zeros at the end.
theorem shortest_of_whole :
    ∃ zeros : Nat, (x.shortest tie).exponent = zeros ∧
      (x.shortest tie).coefficient * 10 ^ zeros = n := by
  have point := pointAt_of_whole positive whole
  have few : (Nat.toDigits 10 n).length ≤ 15 :=
    (Decimal.length_digits_le_iff (by decide)).mpr small
  have own : x.Admits (n * 10 ^ (0 : Int)) := by
    rw [zpow_zero, mul_one, ← whole]
    exact x.admits_magnitude
  have units := nearestOnGrid?_isSome positive tie own
  rw [← sub_self x.exactDecimal.pointAt] at units
  nth_rewrite 2 [point] at units
  obtain ⟨i, le, exponent, admits, -⟩ := shortest_first positive tie (by omega) units
  have zeros : (x.shortest tie).exponent = ((Nat.toDigits 10 n).length - i : Nat) := by omega
  refine ⟨_, zeros, eq_of_admits whole small ?_⟩
  rw [Decimal.value, zeros, zpow_natCast] at admits
  exact_mod_cast admits

end Whole

end Search

end Binary64

end RenderCompiler
