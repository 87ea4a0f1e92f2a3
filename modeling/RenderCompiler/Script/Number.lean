import RenderCompiler.Binary64.Shortest

set_option autoImplicit false

namespace RenderCompiler

def Binary64.integral? (x : Binary64) : Option Nat :=
  let (num, den) := x.ratio
  if num % den = 0 then some (num / den) else none

def integralLimit : Nat := Nat.pow 10 15

private def signedText (negative : Bool) (magnitude : List Char) : List Char :=
  if negative then '-' :: magnitude else magnitude

def numberText (x : Binary64) : List Char :=
  if x.isNaN then "NaN".toList
  else if x.isInfinite then signedText x.negative "Infinity".toList
  else
    match x.integral? with
    | some n =>
      -- A zero loses its sign here.
      if n < integralLimit then signedText (x.negative && n != 0) (Nat.toDigits 10 n)
      else signedText x.negative (x.shortest .away).positional
    | none => signedText x.negative (x.shortest .away).positional

end RenderCompiler
