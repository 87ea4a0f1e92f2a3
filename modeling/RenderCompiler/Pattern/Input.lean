import RenderCompiler.Binary64.Reading
import RenderCompiler.Pattern.Tree
import RenderCompiler.Text.Blank

set_option autoImplicit false

namespace RenderCompiler

structure PatternInput where
  size : Nat
  rest : List Char
  spaced : Bool := false
  names : List (List Char × Span) := []
deriving DecidableEq, Repr

abbrev ReadPattern := StateT PatternInput (Except LocatedFault)

def skipSpacing (inComment : Bool) : List Char → List Char
  | [] => []
  | c :: rest =>
    if inComment then skipSpacing (c != '\n') rest
    else if isBlank c then skipSpacing false rest
    else if c == '#' then skipSpacing true rest
    else c :: rest

namespace PatternInput

def position (input : PatternInput) : Nat := input.size - input.rest.length

def skip (input : PatternInput) : PatternInput :=
  if input.spaced then { input with rest := skipSpacing false input.rest } else input

-- The character after the next one, as far as that matters for what stands between brackets.
def second? (input : PatternInput) : Option Char :=
  let tail := input.rest.drop 1
  if input.spaced then
    let beyond (text : List Char) : Option Char := ((text.dropWhile isBlank).head?).or tail.head?
    match tail.dropWhile isBlank with
    | '#' :: rest => beyond rest
    | rest => beyond rest
  else tail.head?

def run (test : Char → Bool) : Nat → PatternInput → List Char × PatternInput
  | 0, input => ([], input)
  | fuel + 1, input =>
    match input.rest with
    | [] => ([], input)
    | c :: rest =>
      if test c then
        let (chars, input) := run test fuel { input with rest }.skip
        (c :: chars, input)
      else ([], input)

end PatternInput

namespace ReadPattern

def position : ReadPattern Nat := return (← get).position

def next? : ReadPattern (Option Char) := return (← get).rest.head?

def startsWith (chars : List Char) : ReadPattern Bool :=
  return chars.isPrefixOf (← get).rest

def drop (count : Nat) : ReadPattern Unit :=
  modify fun input => { input with rest := input.rest.drop count }

def skip : ReadPattern Unit := modify (·.skip)

def step : ReadPattern Unit := do
  drop 1
  skip

def accept (chars : List Char) : ReadPattern Bool := do
  let present ← startsWith chars
  if present then drop chars.length
  return present

def takeRun (test : Char → Bool) : ReadPattern (List Char) := do
  let input ← get
  let (chars, input) := input.run test input.rest.length
  set input
  return chars

def fail {α : Type} (fault : PatternFault) (span : Span) : ReadPattern α :=
  throw { fault, span }

def failFrom {α : Type} (start : Nat) (fault : PatternFault) : ReadPattern α := do
  fail fault ⟨start, ← position⟩

def failHere {α : Type} (fault : PatternFault) : ReadPattern α := do
  failFrom (← position) fault

def failNext {α : Type} (fault : PatternFault) : ReadPattern α := do
  let place ← position
  fail fault ⟨place, place + 1⟩

def number : ReadPattern (Except LocatedFault Nat) := do
  modify fun input => { input with rest := input.rest.dropWhile isBlank }
  let start ← position
  let digits ← takeRun isDigit
  let span : Span := ⟨start, ← position⟩
  let _ ← takeRun isBlank
  return if digits.isEmpty then .error { fault := .countMissing, span }
    else if Nat.pow 2 32 ≤ naturalOf digits then .error { fault := .numberTooLarge, span }
    else .ok (naturalOf digits)

end ReadPattern

end RenderCompiler
