set_option autoImplicit false

namespace RenderCompiler

-- How many fractions there are, and so the least significand of a normal number: `2 ^ 52`.
abbrev Binary64.fractions : Nat := 0x10000000000000

structure Binary64 where
  negative : Bool
  biased : Fin 2048
  fraction : Fin Binary64.fractions
deriving DecidableEq, Repr

namespace Binary64

def zero : Binary64 := ⟨false, 0, 0⟩

def infinity : Binary64 := ⟨false, 2047, 0⟩

def nan : Binary64 := ⟨false, 2047, 0x8000000000000⟩

instance : Inhabited Binary64 := ⟨zero⟩

def isFinite (x : Binary64) : Bool := x.biased.val != 2047

def isNaN (x : Binary64) : Bool := x.biased.val == 2047 && x.fraction.val != 0

def isInfinite (x : Binary64) : Bool := x.biased.val == 2047 && x.fraction.val == 0

def isZero (x : Binary64) : Bool := x.biased.val == 0 && x.fraction.val == 0

def negate (x : Binary64) : Binary64 := { x with negative := !x.negative }

def withSign (negative : Bool) (x : Binary64) : Binary64 := { x with negative }

def significand (x : Binary64) : Nat :=
  if x.biased.val = 0 then x.fraction.val else fractions + x.fraction.val

def exponent (x : Binary64) : Int := (max x.biased.val 1 : Nat) - 1075

def ordinal (x : Binary64) : Nat := x.biased.val * fractions + x.fraction.val

-- The magnitude at a position; positions past infinity stay at infinity.
def ofOrdinal (negative : Bool) (n : Nat) : Binary64 :=
  if n < 2047 * fractions then
    ⟨negative, Fin.ofNat 2048 (n / fractions), Fin.ofNat fractions (n % fractions)⟩
  else
    infinity.withSign negative

theorem significand_lt (x : Binary64) : x.significand < 2 * fractions := by
  have := x.fraction.isLt
  unfold significand
  split <;> omega

theorem exponent_ge (x : Binary64) : -1074 ≤ x.exponent := by
  unfold exponent
  omega

theorem ordinal_ofOrdinal {n : Nat} (negative : Bool) (h : n < 2047 * fractions) :
    (ofOrdinal negative n).ordinal = n := by
  simp only [ofOrdinal, h, if_true, ordinal, Fin.ofNat]
  unfold fractions at h ⊢
  omega

end Binary64

end RenderCompiler
