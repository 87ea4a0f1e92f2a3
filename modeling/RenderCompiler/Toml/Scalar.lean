import RenderCompiler.Toml.Basic
import RenderCompiler.Toml.Text

set_option autoImplicit false

namespace RenderCompiler.Toml

-- Digits after the first; an underscore may stand between two.
def moreDigits (isDigit : Char → Bool) : Scan (List Char)
  | [] => some ([], [])
  | '_' :: c :: rest =>
    if isDigit c then (moreDigits isDigit rest).map fun (digits, rest) => (c :: digits, rest)
    else none
  | c :: rest =>
    if c == '_' then none
    else if isDigit c then
      (moreDigits isDigit rest).map fun (digits, rest) => (c :: digits, rest)
    else some ([], c :: rest)

def scanDigits (isDigit : Char → Bool) : Scan (List Char)
  | [] => none
  | c :: rest =>
    if isDigit c then (moreDigits isDigit rest).map fun (digits, rest) => (c :: digits, rest)
    else none

-- Sign and digits of a decimal integer, which has no leading zero.
def scanDecimal : Scan (Bool × List Char) := fun text => do
  let (negative, rest) := takeSign text
  match rest with
  | '0' :: rest => return ((negative, ['0']), rest)
  | rest =>
    let (digits, rest) ← scanDigits isDigit rest
    return ((negative, digits), rest)

def isHexDigit (c : Char) : Bool := (Json.hexDigit? c).isSome

def isOctalDigit (c : Char) : Bool := '0' ≤ c && c ≤ '7'

def isBinaryDigit (c : Char) : Bool := c == '0' || c == '1'

private def fits (negative : Bool) (n : Nat) : Bool :=
  n < Nat.pow 2 63 || (negative && n == Nat.pow 2 63)

private def scanBased (base : Nat) (isDigit : Char → Bool) (text : List Char) :
    Option (List Char) := do
  let (digits, rest) ← scanDigits isDigit text
  let n := digits.foldl (fun n c => base * n + (Json.hexDigit? c).getD 0) 0
  if fits false n then some rest else none

def scanInteger : List Char → Option (List Char)
  | '0' :: 'x' :: rest => scanBased 16 isHexDigit rest
  | '0' :: 'o' :: rest => scanBased 8 isOctalDigit rest
  | '0' :: 'b' :: rest => scanBased 2 isBinaryDigit rest
  | text => do
    let ((negative, digits), rest) ← scanDecimal text
    if fits negative (naturalOf digits) then some rest else none

private def scanPower : Scan (Option Int)
  | [] => some (none, [])
  | c :: rest =>
    if c == 'e' || c == 'E' then do
      let (negative, digits) := takeSign rest
      let (digits, rest) ← scanDigits isDigit digits
      let e : Int := naturalOf digits
      return (some (if negative then -e else e), rest)
    else some (none, c :: rest)

-- A number with a point or an exponent. One too large to be finite is refused, unless it is
-- negative.
def scanFraction (text : List Char) : Option (List Char) := do
  let ((negative, whole), rest) ← scanDecimal text
  let (fraction, rest) ← match rest with
    | '.' :: rest => scanDigits isDigit rest
    | rest => some ([], rest)
  let (power, rest) ← scanPower rest
  if fraction.isEmpty && power.isNone then none
  else
    let e := power.getD 0 - fraction.length
    let x := Binary64.ofDecimal negative (naturalOf (whole ++ fraction)) e
    if x.isFinite || negative then some rest else none

def scanSpecialFloat (text : List Char) : Option (List Char) :=
  match (takeSign text).2 with
  | 'i' :: 'n' :: 'f' :: rest => some rest
  | 'n' :: 'a' :: 'n' :: rest => some rest
  | _ => none

def scanFloat (text : List Char) : Option (List Char) :=
  (scanFraction text).or (scanSpecialFloat text)

def scanField (count low high : Nat) : Scan Nat := fun text =>
  let digits := text.take count
  let n := naturalOf digits
  if digits.length = count ∧ digits.all isDigit ∧ low ≤ n ∧ n ≤ high then some (n, text.drop count)
  else none

def scanChar (char : Char) : List Char → Option (List Char)
  | [] => none
  | c :: rest => if c == char then some rest else none

def isLeapYear (year : Nat) : Bool := year % 4 == 0 && (year % 100 != 0 || year % 400 == 0)

def daysIn (year month : Nat) : Nat :=
  match month with
  | 2 => if isLeapYear year then 29 else 28
  | 4 | 6 | 9 | 11 => 30
  | _ => 31

def scanDate (text : List Char) : Option (List Char) := do
  let (year, rest) ← scanField 4 0 9999 text
  let (month, rest) ← scanField 2 1 12 (← scanChar '-' rest)
  let (_, rest) ← scanField 2 1 (daysIn year month) (← scanChar '-' rest)
  return rest

private def scanSecondFraction (text : List Char) : Option (List Char) :=
  match text with
  | '.' :: rest =>
    if (rest.takeWhile isDigit).isEmpty then none else some (rest.dropWhile isDigit)
  | _ => some text

def scanTime (text : List Char) : Option (List Char) := do
  let (_, rest) ← scanField 2 0 23 text
  let (_, rest) ← scanField 2 0 59 (← scanChar ':' rest)
  let (_, rest) ← scanField 2 0 60 (← scanChar ':' rest)
  scanSecondFraction rest

private def scanOffset (text : List Char) : Option (List Char) :=
  match text with
  | c :: rest =>
    if c == 'Z' || c == 'z' then some rest
    else if c == '+' || c == '-' then do
      let (_, rest) ← scanField 2 0 23 rest
      let (_, rest) ← scanField 2 0 59 (← scanChar ':' rest)
      return rest
    else some text
  | [] => some []

private def isTimeMark (c : Char) : Bool := c == 'T' || c == 't' || c == ' '

def scanDateTime (text : List Char) : Option (List Char) :=
  match scanDate text with
  | none => scanTime text
  | some rest =>
    match rest with
    | c :: tail =>
      if isTimeMark c then
        match scanTime tail with
        | some after => scanOffset after
        | none => some rest
      else some rest
    | [] => some []

def scanScalar : Scan Toml
  | 't' :: 'r' :: 'u' :: 'e' :: rest => some (.scalar, rest)
  | 'f' :: 'a' :: 'l' :: 's' :: 'e' :: rest => some (.scalar, rest)
  | text =>
    match scanDateTime text with
    | some rest => some (.dateTime, rest)
    | none => ((scanFloat text).or (scanInteger text)).map fun rest => (.scalar, rest)

end RenderCompiler.Toml
