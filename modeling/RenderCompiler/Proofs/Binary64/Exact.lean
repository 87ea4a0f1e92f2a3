import RenderCompiler.Script.Number

set_option autoImplicit false

namespace RenderCompiler.Binary64

def exactLimit : Nat := 0x20000000000000

theorem roundQuotient_one (n : Nat) : roundQuotient n 1 = n := by
  simp [roundQuotient, Nat.mod_one]

theorem floorLog2_one {n : Nat} (positive : n ≠ 0) : floorLog2 n 1 = n.log2 := by
  have reached := Nat.log2_self_le positive
  have one : Nat.log2 1 = 0 := rfl
  simp [floorLog2, one, reached]

-- The significand that puts the leading digit of the number on the leading place.
def shifted (n : Nat) : Nat := n * Nat.pow 2 (52 - n.log2)

section Natural

variable {n : Nat} (positive : n ≠ 0) (small : n < exactLimit)

include positive small

theorem log2_le : n.log2 ≤ 52 := by
  have below : n.log2 < 53 := (Nat.log2_lt positive).mpr small
  omega

theorem shifted_bounds : fractions ≤ shifted n ∧ shifted n < 2 * fractions := by
  have log := log2_le positive small
  have above := Nat.log2_self_le positive
  have below : n < Nat.pow 2 (n.log2 + 1) := Nat.lt_log2_self
  have low : Nat.pow 2 n.log2 * Nat.pow 2 (52 - n.log2) = fractions := by
    rw [Nat.pow_eq, Nat.pow_eq, ← Nat.pow_add, Nat.add_sub_cancel' log]
  have high : Nat.pow 2 (n.log2 + 1) * Nat.pow 2 (52 - n.log2) = 2 * fractions := by
    rw [← low, Nat.pow_eq, Nat.pow_succ, Nat.mul_right_comm, Nat.mul_comm]
    rfl
  constructor
  · rw [← low]
    exact Nat.mul_le_mul_right _ above
  · rw [← high]
    exact Nat.mul_lt_mul_of_pos_right below (Nat.two_pow_pos _)

theorem roundScaled_one : roundScaled n 1 ((n.log2 : Int) - 52) = shifted n := by
  have log := log2_le positive small
  unfold roundScaled shifted
  split
  next leading =>
    have top : n.log2 = 52 := by omega
    simp [top, roundQuotient_one]
  next =>
    have places : (-((n.log2 : Int) - 52)).toNat = 52 - n.log2 := by omega
    simp only [places, Nat.pow_eq, roundQuotient_one]

theorem ofNat_eq : ofNat n =
    ⟨false, Fin.ofNat 2048 (n.log2 + 1023), Fin.ofNat fractions (shifted n - fractions)⟩ := by
  have log := log2_le positive small
  have ⟨above, below⟩ := shifted_bounds positive small
  have unit : max (floorLog2 n 1 - 52) (-1074) = (n.log2 : Int) - 52 := by
    rw [floorLog2_one positive]
    omega
  have place : ((n.log2 : Int) - 52 + 1074).toNat = n.log2 + 1022 := by omega
  simp only [ofNat, ofRatio, positive, if_false, unit, roundScaled_one positive small, place]
  have within : (n.log2 + 1022) * fractions + shifted n < 2047 * fractions := by
    unfold fractions at *
    omega
  have field : ((n.log2 + 1022) * fractions + shifted n) / fractions = n.log2 + 1023 := by
    unfold fractions at *
    omega
  have rest : ((n.log2 + 1022) * fractions + shifted n) % fractions = shifted n - fractions := by
    unfold fractions at *
    omega
  simp only [ofOrdinal, within, if_true, field, rest]

theorem integral?_ofNat_of_pos : (ofNat n).integral? = some n := by
  have log := log2_le positive small
  have ⟨above, below⟩ := shifted_bounds positive small
  have biased : (Fin.ofNat 2048 (n.log2 + 1023)).val = n.log2 + 1023 :=
    Nat.mod_eq_of_lt (by omega)
  have fraction : (Fin.ofNat fractions (shifted n - fractions)).val = shifted n - fractions :=
    Nat.mod_eq_of_lt (by omega)
  have significand : (ofNat n).significand = shifted n := by
    rw [ofNat_eq positive small, significand, if_neg (by rw [biased]; omega), fraction]
    omega
  have exponent : (ofNat n).exponent = (n.log2 : Int) - 52 := by
    rw [ofNat_eq positive small, exponent, biased]
    omega
  simp only [integral?, ratio, significand, exponent, Nat.pow_eq]
  split
  next whole =>
    have top : n.log2 = 52 := by omega
    simp [shifted, top, Nat.mod_one]
  next =>
    have places : (-((n.log2 : Int) - 52)).toNat = 52 - n.log2 := by omega
    rw [places]
    simp [shifted, Nat.mul_div_cancel _ (Nat.two_pow_pos _)]

omit positive in
theorem integral?_ofNat : (ofNat n).integral? = some n := by
  by_cases none : n = 0
  · have empty : (ofNat 0).significand = 0 := rfl
    simp only [none, integral?, ratio, empty]
    split <;> simp
  · exact integral?_ofNat_of_pos none small

end Natural

theorem integral?_ofUInt32 (n : UInt32) : (ofUInt32 n).integral? = some n.toNat :=
  integral?_ofNat (Nat.lt_trans n.toNat_lt (by decide))

theorem ofUInt32_inj {m n : UInt32} (same : ofUInt32 m = ofUInt32 n) : m = n := by
  have held := integral?_ofUInt32 m
  rw [same, integral?_ofUInt32] at held
  exact UInt32.toNat_inj.mp (Option.some.inj held).symm

end RenderCompiler.Binary64
