import RenderCompiler.Binary64.Rounding

set_option autoImplicit false

namespace RenderCompiler

def isDigit (c : Char) : Bool := '0' ≤ c && c ≤ '9'

def digitValue (c : Char) : Nat := c.toNat - '0'.toNat

def isAsciiLetter (c : Char) : Bool := ('a' ≤ c && c ≤ 'z') || ('A' ≤ c && c ≤ 'Z')

def naturalOf (digits : List Char) : Nat := digits.foldl (fun n c => 10 * n + digitValue c) 0

def takeSign : List Char → Bool × List Char
  | '-' :: rest => (true, rest)
  | '+' :: rest => (false, rest)
  | rest => (false, rest)

namespace Binary64

private def exponentOf? : List Char → Option Int
  | [] => some 0
  | c :: rest =>
    if c == 'e' || c == 'E' then
      let (negative, digits) := takeSign rest
      if digits.isEmpty || !digits.all isDigit then none
      else some (if negative then -(naturalOf digits : Int) else naturalOf digits)
    else none

private def magnitudeOf? (negative : Bool) (text : List Char) : Option Binary64 :=
  let whole := text.takeWhile isDigit
  let rest := text.dropWhile isDigit
  let (fraction, rest) := match rest with
    | '.' :: tail => (tail.takeWhile isDigit, tail.dropWhile isDigit)
    | _ => ([], rest)
  if whole.isEmpty && fraction.isEmpty then none
  else
    (exponentOf? rest).map fun e =>
      ofDecimal negative (naturalOf (whole ++ fraction)) (e - fraction.length)

def ofText? (text : List Char) : Option Binary64 :=
  let (negative, magnitude) := takeSign text
  match String.ofList (magnitude.map Char.toLower) with
  | "nan" => some (nan.withSign negative)
  | "inf" => some (infinity.withSign negative)
  | "infinity" => some (infinity.withSign negative)
  | _ => magnitudeOf? negative magnitude

end Binary64

end RenderCompiler
