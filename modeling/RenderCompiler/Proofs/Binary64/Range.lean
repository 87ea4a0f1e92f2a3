import RenderCompiler.Proofs.Binary64.Exact

set_option autoImplicit false

namespace RenderCompiler.Binary64

theorem places_zero : Nat.pow 2 0 = 1 := rfl

def Below (num den : Nat) (e : Int) : Prop :=
  num * Nat.pow 2 (-e).toNat < den * Nat.pow 2 e.toNat

section Ratios

variable {num den : Nat}

theorem below_iff {e : Int} {up down : Nat} (same : e = (up : Int) - down) :
    Below num den e ↔ num * Nat.pow 2 down < den * Nat.pow 2 up := by
  obtain ⟨more, rfl, rfl⟩ : ∃ more, up = e.toNat + more ∧ down = (-e).toNat + more :=
    ⟨up - e.toNat, by omega, by omega⟩
  simp only [Below, Nat.pow_eq, Nat.pow_add, ← Nat.mul_assoc]
  exact (Nat.mul_lt_mul_right (Nat.two_pow_pos more)).symm

theorem Below.mono {e e' : Int} (below : Below num den e) (le : e ≤ e') : Below num den e' := by
  have same : e' = ((e.toNat + (e' - e).toNat : Nat) : Int) - (-e).toNat := by omega
  rw [below_iff same]
  refine Nat.lt_of_lt_of_le below (Nat.mul_le_mul_left den ?_)
  exact Nat.pow_le_pow_right (by decide) (Nat.le_add_right _ _)

variable (num den) in
theorem floorLog2_cases :
    (¬ Below num den ((num.log2 : Int) - den.log2) ∧
      floorLog2 num den = (num.log2 : Int) - den.log2) ∨
    (Below num den ((num.log2 : Int) - den.log2) ∧
      floorLog2 num den = (num.log2 : Int) - den.log2 - 1) := by
  have reached : (if 0 ≤ (num.log2 : Int) - den.log2
        then den * Nat.pow 2 ((num.log2 : Int) - den.log2).toNat ≤ num
        else den ≤ num * Nat.pow 2 (-((num.log2 : Int) - den.log2)).toNat) ↔
      ¬ Below num den ((num.log2 : Int) - den.log2) := by
    rw [Below, Nat.not_lt]
    split
    next up =>
      rw [show (-((num.log2 : Int) - den.log2)).toNat = 0 by omega, places_zero, Nat.mul_one]
    next down =>
      rw [show ((num.log2 : Int) - den.log2).toNat = 0 by omega, places_zero, Nat.mul_one]
  by_cases below : Below num den ((num.log2 : Int) - den.log2)
  · exact .inr ⟨below, if_neg fun above => reached.mp above below⟩
  · exact .inl ⟨below, if_pos (reached.mpr below)⟩

theorem below_floorLog2 (proper : den ≠ 0) : Below num den (floorLog2 num den + 1) := by
  rcases floorLog2_cases num den with ⟨-, same⟩ | ⟨below, same⟩
  · have above : num < Nat.pow 2 (num.log2 + 1) := Nat.lt_log2_self
    have reached : Nat.pow 2 den.log2 ≤ den := Nat.log2_self_le proper
    rw [below_iff (show floorLog2 num den + 1 = ((num.log2 + 1 : Nat) : Int) - den.log2 by omega),
      Nat.mul_comm den]
    exact Nat.lt_of_lt_of_le (Nat.mul_lt_mul_of_pos_right above (Nat.two_pow_pos _))
      (Nat.mul_le_mul_left _ reached)
  · rw [same, Int.sub_add_cancel]
    exact below

theorem not_below_floorLog2 (positive : num ≠ 0) : ¬ Below num den (floorLog2 num den) := by
  rcases floorLog2_cases num den with ⟨above, same⟩ | ⟨-, same⟩
  · rw [same]
    exact above
  · have above : den < Nat.pow 2 (den.log2 + 1) := Nat.lt_log2_self
    have reached : Nat.pow 2 num.log2 ≤ num := Nat.log2_self_le positive
    rw [below_iff (show floorLog2 num den = (num.log2 : Int) - (den.log2 + 1 : Nat) by omega),
      Nat.not_lt, Nat.mul_comm num]
    exact Nat.mul_le_mul (Nat.le_of_lt above) reached

theorem floorLog2_lt (positive : num ≠ 0) {e : Int} (below : Below num den e) :
    floorLog2 num den < e := by
  refine Int.not_le.mp fun le => ?_
  exact not_below_floorLog2 positive (below.mono le)

end Ratios

theorem roundQuotient_le {num den limit : Nat} (below : num < den * limit) :
    roundQuotient num den ≤ limit := by
  have floor : num / den < limit := Nat.div_lt_of_lt_mul below
  unfold roundQuotient
  dsimp only
  split
  · omega
  · split
    · omega
    · have := Nat.mod_lt (num / den) (show 0 < 2 by decide)
      omega

theorem floor_le_roundQuotient (num den : Nat) : num / den ≤ roundQuotient num den := by
  unfold roundQuotient
  dsimp only
  split
  · omega
  · split
    · omega
    · exact Nat.le_add_right _ _

theorem roundScaled_eq (num den : Nat) (q : Int) :
    roundScaled num den q =
      roundQuotient (num * Nat.pow 2 (-q).toNat) (den * Nat.pow 2 q.toNat) := by
  unfold roundScaled
  split
  next up => rw [show (-q).toNat = 0 by omega, places_zero, Nat.mul_one]
  next down => rw [show q.toNat = 0 by omega, places_zero, Nat.mul_one]

theorem roundScaled_le {num den : Nat} {q : Int} (below : Below num den (q + 53)) :
    roundScaled num den q ≤ 2 * fractions := by
  rw [below_iff (show q + 53 = ((q.toNat + 53 : Nat) : Int) - (-q).toNat by omega)] at below
  have split : Nat.pow 2 (q.toNat + 53) = Nat.pow 2 q.toNat * (2 * fractions) :=
    Nat.pow_add 2 q.toNat 53
  rw [split, ← Nat.mul_assoc] at below
  rw [roundScaled_eq]
  exact roundQuotient_le below

theorem biased_ofOrdinal (negative : Bool) {n limit : Nat} (within : n ≤ limit * fractions)
    (finite : limit < 2047) : (ofOrdinal negative n).biased.val ≤ limit := by
  have small : n < 2047 * fractions := by
    unfold fractions at *
    omega
  have field : n / fractions ≤ limit := by
    unfold fractions at *
    omega
  rw [ofOrdinal, if_pos small]
  exact Nat.le_trans (Nat.mod_le _ _) field

section Unit

variable {num den : Nat}

def unit (num den : Nat) : Int := max (floorLog2 num den - 52) (-1074)

theorem ofRatio_eq (negative : Bool) (positive : num ≠ 0) :
    ofRatio negative num den = ofOrdinal negative
      ((unit num den + 1074).toNat * fractions + roundScaled num den (unit num den)) :=
  if_neg positive

theorem roundScaled_unit_le (proper : den ≠ 0) :
    roundScaled num den (unit num den) ≤ 2 * fractions := by
  refine roundScaled_le ((below_floorLog2 proper).mono ?_)
  unfold unit
  omega

theorem unit_le (positive : num ≠ 0) {limit : Nat} (below : num < den * Nat.pow 2 (limit + 1)) :
    (unit num den + 1074).toNat ≤ limit + 1022 := by
  have ratio : Below num den ((limit : Int) + 1) := by
    rw [below_iff (show (limit : Int) + 1 = ((limit + 1 : Nat) : Int) - (0 : Nat) by omega),
      places_zero, Nat.mul_one]
    exact below
  have floor := floorLog2_lt positive ratio
  unfold unit
  omega

end Unit

theorem biased_ofRatio (negative : Bool) {num den limit : Nat} (proper : den ≠ 0)
    (below : num < den * Nat.pow 2 (limit + 1)) (finite : limit < 1023) :
    (ofRatio negative num den).biased.val ≤ limit + 1024 := by
  by_cases positive : num = 0
  · rw [ofRatio, if_pos positive]
    exact Nat.zero_le _
  · rw [ofRatio_eq negative positive]
    refine biased_ofOrdinal negative ?_ (by omega)
    rw [show limit + 1024 = limit + 1022 + 2 by omega, Nat.add_mul]
    exact Nat.add_le_add (Nat.mul_le_mul_right fractions (unit_le positive below))
      (roundScaled_unit_le proper)

theorem isFinite_of_biased {x : Binary64} {limit : Nat} (within : x.biased.val ≤ limit)
    (finite : limit < 2047) : x.isFinite = true := by
  rw [isFinite, bne_iff_ne]
  omega

theorem isFinite_ofNat {n : Nat} (small : n < exactLimit) : (ofNat n).isFinite = true := by
  have below : n < 1 * Nat.pow 2 (52 + 1) := by
    rw [Nat.one_mul]
    exact small
  exact isFinite_of_biased (biased_ofRatio false (by decide) below (by decide)) (by decide)

theorem isFinite_ofUInt32 (n : UInt32) : (ofUInt32 n).isFinite = true :=
  isFinite_ofNat (Nat.lt_trans n.toNat_lt (by decide))

theorem ratio_lt {x : Binary64} {limit : Nat} (within : x.biased.val ≤ limit + 1023) :
    x.ratio.1 < x.ratio.2 * Nat.pow 2 (limit + 1) := by
  have small : x.significand < Nat.pow 2 53 := significand_lt x
  unfold ratio
  split
  next up =>
    have places : 53 + x.exponent.toNat ≤ limit + 1 := by
      unfold exponent at *
      omega
    have scaled := Nat.mul_lt_mul_of_pos_right small (Nat.two_pow_pos x.exponent.toNat)
    rw [Nat.one_mul]
    refine Nat.lt_of_lt_of_le scaled ?_
    rw [Nat.pow_eq, ← Nat.pow_add]
    exact Nat.pow_le_pow_right (by decide) places
  next down =>
    have places : 53 ≤ (-x.exponent).toNat + (limit + 1) := by
      unfold exponent at *
      omega
    refine Nat.lt_of_lt_of_le small ?_
    rw [Nat.pow_eq, Nat.pow_eq, Nat.pow_eq, ← Nat.pow_add]
    exact Nat.pow_le_pow_right (by decide) places

def AtLeastOne (x : Binary64) : Prop := x.ratio.2 ≤ x.ratio.1

theorem ratio_proper (x : Binary64) : x.ratio.2 ≠ 0 := by
  unfold ratio
  split
  · exact Nat.one_ne_zero
  · exact Nat.ne_of_gt (Nat.two_pow_pos _)

theorem atLeastOne_of_biased {x : Binary64} (high : 1023 ≤ x.biased.val) : AtLeastOne x := by
  have full : Nat.pow 2 52 ≤ x.significand := by
    unfold significand
    rw [if_neg (by omega)]
    exact Nat.le_add_right _ _
  unfold AtLeastOne ratio
  split
  next up =>
    exact Nat.mul_pos (Nat.lt_of_lt_of_le (Nat.two_pow_pos 52) full) (Nat.two_pow_pos _)
  next down =>
    have places : (-x.exponent).toNat ≤ 52 := by
      unfold exponent at *
      omega
    exact Nat.le_trans (Nat.pow_le_pow_right (by decide) places) full

theorem biased_ge_ofOrdinal (negative : Bool) {n limit : Nat} (above : limit * fractions ≤ n)
    (finite : limit ≤ 2047) : limit ≤ (ofOrdinal negative n).biased.val := by
  unfold ofOrdinal
  split
  next small =>
    have field : limit ≤ n / fractions := (Nat.le_div_iff_mul_le (by decide)).mpr above
    have within : n / fractions < 2048 := by
      unfold fractions at *
      omega
    change limit ≤ n / fractions % 2048
    rwa [Nat.mod_eq_of_lt within]
  next => exact finite

theorem atLeastOne_ofNat {n : Nat} (positive : n ≠ 0) : AtLeastOne (ofNat n) := by
  refine atLeastOne_of_biased ?_
  have place : unit n 1 = (n.log2 : Int) - 52 := by
    rw [unit, floorLog2_one positive]
    omega
  have leading : fractions ≤ roundScaled n 1 (unit n 1) := by
    have reached : Nat.pow 2 n.log2 ≤ n := Nat.log2_self_le positive
    rw [place, roundScaled_eq, Nat.one_mul]
    refine Nat.le_trans ?_ (floor_le_roundQuotient _ _)
    refine (Nat.le_div_iff_mul_le (Nat.two_pow_pos _)).mpr ?_
    refine Nat.le_trans (Nat.le_of_eq ?_) (Nat.mul_le_mul_right _ reached)
    change Nat.pow 2 52 * _ = _
    rw [Nat.pow_eq, Nat.pow_eq, Nat.pow_eq, ← Nat.pow_add, ← Nat.pow_add]
    exact congrArg _ (by omega)
  rw [ofNat, ofRatio_eq false positive]
  refine biased_ge_ofOrdinal false ?_ (by decide)
  have above : 1022 ≤ (unit n 1 + 1074).toNat := by omega
  rw [show 1023 = 1022 + 1 from rfl, Nat.add_mul, Nat.one_mul]
  exact Nat.add_le_add (Nat.mul_le_mul_right fractions above) leading

theorem biased_dividedBy {x y : Binary64} {limit : Nat} (within : x.biased.val ≤ limit + 1023)
    (divisor : AtLeastOne y) (finite : limit < 1023) :
    (x.dividedBy y).biased.val ≤ limit + 1024 := by
  have proper := ratio_proper y
  have positive : y.ratio.1 ≠ 0 := fun none => proper (Nat.le_zero.mp (none ▸ divisor))
  refine biased_ofRatio _ (Nat.mul_ne_zero (ratio_proper x) positive) ?_ finite
  calc x.ratio.1 * y.ratio.2 < x.ratio.2 * Nat.pow 2 (limit + 1) * y.ratio.2 :=
        Nat.mul_lt_mul_of_pos_right (ratio_lt within) (Nat.pos_of_ne_zero proper)
    _ ≤ x.ratio.2 * Nat.pow 2 (limit + 1) * y.ratio.1 := Nat.mul_le_mul_left _ divisor
    _ = x.ratio.2 * y.ratio.1 * Nat.pow 2 (limit + 1) := Nat.mul_right_comm _ _ _

end RenderCompiler.Binary64
