import RenderCompiler.Binary64.Rounding

set_option autoImplicit false

namespace RenderCompiler

structure Decimal where
  coefficient : Nat
  exponent : Int
deriving DecidableEq, Repr

inductive Tie where
  | away
  | even
deriving DecidableEq, Repr

def Tie.takesUpper : Tie → Nat → Bool
  | .away, _ => true
  | .even, lower => lower % 2 == 1

namespace Decimal

def digits (d : Decimal) : List Char := Nat.toDigits 10 d.coefficient

def pointAt (d : Decimal) : Int := d.digits.length + d.exponent

def ratio (d : Decimal) : Nat × Nat :=
  if 0 ≤ d.exponent then (d.coefficient * Nat.pow 10 d.exponent.toNat, 1)
  else (d.coefficient, Nat.pow 10 (-d.exponent).toNat)

-- All digits, with a point where one is needed and never an exponent.
def positional (d : Decimal) : List Char :=
  if 0 ≤ d.exponent then d.digits ++ List.replicate d.exponent.toNat '0'
  else if 0 < d.pointAt then
    d.digits.take d.pointAt.toNat ++ '.' :: d.digits.drop d.pointAt.toNat
  else '0' :: '.' :: List.replicate (-d.pointAt).toNat '0' ++ d.digits

end Decimal

namespace Binary64

-- Quarter-units `2 ^ (exponent - 2)` between the number and the lower end of its interval.
def lowerGap (x : Binary64) : Nat :=
  -- Below a power of two the neighbour is half as far away.
  if x.significand = fractions ∧ 1 < x.biased.val then 1 else 2

def exactDecimal (x : Binary64) : Decimal :=
  if 0 ≤ x.exponent then ⟨x.significand * Nat.pow 2 x.exponent.toNat, 0⟩
  else ⟨x.significand * Nat.pow 5 (-x.exponent).toNat, x.exponent⟩

-- Factors that bring the grid `10 ^ k` and the quarter-units of `x` to one scale: `d * 10 ^ k`
-- compares with `u * 2 ^ (x.exponent - 2)` as `d * fst` compares with `u * snd`.
def gridScale (x : Binary64) (k : Int) : Nat × Nat :=
  let q := x.exponent - 2
  (Nat.pow 10 k.toNat * Nat.pow 2 (-q).toNat, Nat.pow 10 (-k).toNat * Nat.pow 2 q.toNat)

-- Whether `coefficient * 10 ^ k` lies in the interval of reals that round to `x`.
def admits (x : Binary64) (k : Int) (coefficient : Nat) : Bool :=
  let (grid, unit) := x.gridScale k
  let point := coefficient * grid
  let low := (4 * x.significand - x.lowerGap) * unit
  let high := (4 * x.significand + 2) * unit
  if x.significand % 2 = 0 then low ≤ point && point ≤ high else low < point && point < high

def nearestOnGrid? (tie : Tie) (x : Binary64) (k : Int) : Option Decimal :=
  let (grid, unit) := x.gridScale k
  let value := 4 * x.significand * unit
  let lower := value / grid
  let below := value - lower * grid
  let above := (lower + 1) * grid - value
  match x.admits k lower, x.admits k (lower + 1) with
  | true, true =>
    let upper := above < below || (above == below && tie.takesUpper lower)
    some ⟨if upper then lower + 1 else lower, k⟩
  | true, false => some ⟨lower, k⟩
  | false, true => some ⟨lower + 1, k⟩
  | false, false => none

/-- The shortest decimal that reads back as the magnitude of a finite number other than zero. -/
def shortest (tie : Tie) (x : Binary64) : Decimal :=
  let exact := x.exactDecimal
  -- The coarsest grid with a point in the interval gives the fewest digits, and seventeen always
  -- suffice.
  ((List.range 20).findSome? fun i => x.nearestOnGrid? tie (exact.pointAt - (i : Nat))).getD exact

end Binary64

end RenderCompiler
