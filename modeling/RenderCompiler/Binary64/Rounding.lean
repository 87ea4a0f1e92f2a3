import RenderCompiler.Binary64.Basic

set_option autoImplicit false

namespace RenderCompiler.Binary64

def roundQuotient (num den : Nat) : Nat :=
  let floor := num / den
  let twice := 2 * (num % den)
  if twice < den then floor
  else if den < twice then floor + 1
  else floor + floor % 2

-- Largest `e` with `2 ^ e ≤ num / den`, for positive `num` and `den`.
def floorLog2 (num den : Nat) : Int :=
  let e : Int := (Nat.log2 num : Int) - (Nat.log2 den : Int)
  let reached :=
    if 0 ≤ e then den * Nat.pow 2 e.toNat ≤ num else den ≤ num * Nat.pow 2 (-e).toNat
  if reached then e else e - 1

def roundScaled (num den : Nat) (q : Int) : Nat :=
  if 0 ≤ q then roundQuotient num (den * Nat.pow 2 q.toNat)
  else roundQuotient (num * Nat.pow 2 (-q).toNat) den

def ofRatio (negative : Bool) (num den : Nat) : Binary64 :=
  if num = 0 then zero.withSign negative
  else
    -- Subnormal numbers share the unit of the smallest normal ones.
    let q := max (floorLog2 num den - 52) (-1074)
    -- A significand that rounds up to the next power of two carries into the exponent field.
    ofOrdinal negative ((q + 1074).toNat * fractions + roundScaled num den q)

def ofNat (n : Nat) : Binary64 := ofRatio false n 1

def ofUInt32 (n : UInt32) : Binary64 := ofNat n.toNat

def ofInt (i : Int) : Binary64 := ofRatio (i < 0) i.natAbs 1

def ratio (x : Binary64) : Nat × Nat :=
  if 0 ≤ x.exponent then (x.significand * Nat.pow 2 x.exponent.toNat, 1)
  else (x.significand, Nat.pow 2 (-x.exponent).toNat)

def times (x y : Binary64) : Binary64 :=
  ofRatio (x.negative != y.negative) (x.ratio.1 * y.ratio.1) (x.ratio.2 * y.ratio.2)

def dividedBy (x y : Binary64) : Binary64 :=
  ofRatio (x.negative != y.negative) (x.ratio.1 * y.ratio.2) (x.ratio.2 * y.ratio.1)

def tenPow (n : Nat) : Binary64 := ofNat (Nat.pow 10 n)

-- Exponents far outside the range of the format are answered without computing the power.
def ofDecimal (negative : Bool) (n : Nat) (e : Int) : Binary64 :=
  let size : Int := Nat.log2 n
  if n = 0 then zero.withSign negative
  else if 0 ≤ e then
    if 1100 < e then infinity.withSign negative else ofRatio negative (n * Nat.pow 10 e.toNat) 1
  else if size + 3 * e < -1200 then zero.withSign negative
  else ofRatio negative n (Nat.pow 10 (-e).toNat)

end RenderCompiler.Binary64
