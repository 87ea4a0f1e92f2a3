import RenderCompiler.Binary64.Reading
import RenderCompiler.Binary64.Shortest
import RenderCompiler.Json.Basic

set_option autoImplicit false

namespace RenderCompiler

structure NumberSpelling where
  negative : Bool
  whole : List Char
  fraction : Option (List Char)
  power : Option (Bool × List Char)

namespace NumberSpelling

def significandLimit : Nat := Nat.pow 2 64

-- Whole digits that no longer fit the significand raise the exponent instead, and fraction digits
-- that no longer fit are dropped.
def gatherWhole : Nat → List Char → Nat × Nat
  | n, [] => (n, 0)
  | n, c :: rest =>
    let next := 10 * n + digitValue c
    if next < significandLimit then gatherWhole next rest else (n, rest.length + 1)

def gatherFraction : Nat → List Char → Nat × Nat
  | n, [] => (n, 0)
  | n, c :: rest =>
    let next := 10 * n + digitValue c
    if next < significandLimit then
      let (m, taken) := gatherFraction next rest
      (m, taken + 1)
    else (n, 0)

def finite? (x : Binary64) : Option Binary64 := if x.isFinite then some x else none

-- `n * 10 ^ e` by rounded steps; none beyond the range.
def scale? (n : Nat) (e : Int) : Option Binary64 :=
  let x := Binary64.ofNat n
  if n = 0 ∨ e < -616 then some Binary64.zero
  else if 308 < e then none
  else if 0 ≤ e then finite? (x.times (Binary64.tenPow e.toNat))
  else if -308 ≤ e then some (x.dividedBy (Binary64.tenPow (-e).toNat))
  else some ((x.dividedBy (Binary64.tenPow 308)).dividedBy (Binary64.tenPow (-308 - e).toNat))

def value? (s : NumberSpelling) : Option JsonNumber :=
  let (whole, dropped) := gatherWhole 0 s.whole
  let real (n : Nat) (e : Int) : Option JsonNumber :=
    (scale? n e).map fun x => .real (if s.negative then x.negate else x)
  match s.fraction, s.power with
  | none, none =>
    if dropped ≠ 0 then real whole dropped
    -- Minus zero is no integer, and neither is what lies below the signed range.
    else if !s.negative then some (.integer whole)
    else if whole = 0 ∨ Nat.pow 2 63 < whole then real whole 0
    else some (.integer (-(whole : Int)))
  | fraction, power =>
    -- Every digit taken from the fraction lowers the exponent by one.
    let (n, taken) := gatherFraction whole (fraction.getD [])
    let start : Int := (dropped : Int) - taken
    match power with
    | none => real n start
    | some (down, digits) =>
      let e : Int := naturalOf digits
      real n (if down then start - e else start + e)

end NumberSpelling

namespace NumberSpelling

def splitMinus : List Char → Bool × List Char
  | '-' :: rest => (true, rest)
  | rest => (false, rest)

def splitFraction : List Char → Option (List Char) × List Char
  | '.' :: rest => (some (rest.takeWhile isDigit), rest.dropWhile isDigit)
  | rest => (none, rest)

def splitPower? : List Char → Option (Option (Bool × List Char) × List Char)
  | [] => some (none, [])
  | c :: rest =>
    if c == 'e' || c == 'E' then
      let (down, digits) := takeSign rest
      let power := digits.takeWhile isDigit
      if power.isEmpty then none else some (some (down, power), digits.dropWhile isDigit)
    else some (none, c :: rest)

def scan? (text : List Char) : Option (NumberSpelling × List Char) :=
  let (negative, text) := splitMinus text
  let whole := text.takeWhile isDigit
  if whole.isEmpty || (whole.length != 1 && whole.head? == some '0') then none
  else
    let (fraction, rest) := splitFraction (text.dropWhile isDigit)
    if fraction == some [] then none
    else (splitPower? rest).map fun (power, rest) => (⟨negative, whole, fraction, power⟩, rest)

end NumberSpelling

namespace JsonNumber

def decimalText (d : Decimal) : List Char :=
  if 0 ≤ d.exponent ∧ d.pointAt ≤ 16 then d.positional ++ ['.', '0']
  else if -5 < d.pointAt ∧ d.pointAt ≤ 16 then d.positional
  else
    let power := d.pointAt - 1
    let mantissa := match d.digits with
      | first :: second :: rest => first :: '.' :: second :: rest
      | digits => digits
    let sign := if power < 0 then '-' else '+'
    mantissa ++ 'e' :: sign :: Nat.toDigits 10 power.natAbs

-- Numbers that are not finite have no spelling and are written as null.
def realText (x : Binary64) : List Char :=
  if !x.isFinite then "null".toList
  else
    let magnitude := if x.isZero then "0.0".toList else decimalText (x.shortest .even)
    if x.negative then '-' :: magnitude else magnitude

def text : JsonNumber → List Char
  | .integer i => if i < 0 then '-' :: Nat.toDigits 10 i.natAbs else Nat.toDigits 10 i.natAbs
  | .real x => realText x

end JsonNumber

end RenderCompiler
