import RenderCompiler.Text.Parts

set_option autoImplicit false

namespace RenderCompiler

inductive PatternFault where
  | setEscape
  | rangeOrder
  | rangeBound
  | setUnclosed
  | numberTooLarge
  | hexEmpty
  | hexNoCharacter
  | hexDigit
  | escapeUnfinished
  | escapeUnknown
  | flagDangling
  | flagTwice
  | negationTwice
  | flagUnfinished
  | flagUnknown
  | nameTwice
  | nameEmpty
  | nameCharacter
  | nameUnfinished
  | groupUnclosed
  | groupUnopened
  | nested (limit : Nat)
  | countOrder
  | countMissing
  | countUnclosed
  | nothingRepeated
  | wordEdgeUnclosed
  | wordEdgeUnknown
  | wordEdgeUnfinished
  | propertyLetter
  | backreference
  | lookAround
  | invalidBytes
  | wideNotAllowed
  | propertyUnknown
  | propertyValueUnknown
  | wideShorthand
  | wideCase
deriving DecidableEq, Repr

def PatternFault.message : PatternFault → String
  | .setEscape => "invalid escape sequence found in character class"
  | .rangeOrder => "invalid character class range, the start must be <= the end"
  | .rangeBound => "invalid range boundary, must be a literal"
  | .setUnclosed => "unclosed character class"
  | .numberTooLarge => "decimal literal invalid"
  | .hexEmpty => "hexadecimal literal empty"
  | .hexNoCharacter => "hexadecimal literal is not a Unicode scalar value"
  | .hexDigit => "invalid hexadecimal digit"
  | .escapeUnfinished => "incomplete escape sequence, reached end of pattern prematurely"
  | .escapeUnknown => "unrecognized escape sequence"
  | .flagDangling => "dangling flag negation operator"
  | .flagTwice => "duplicate flag"
  | .negationTwice => "flag negation operator repeated"
  | .flagUnfinished => "expected flag but got end of regex"
  | .flagUnknown => "unrecognized flag"
  | .nameTwice => "duplicate capture group name"
  | .nameEmpty => "empty capture group name"
  | .nameCharacter => "invalid capture group character"
  | .nameUnfinished => "unclosed capture group name"
  | .groupUnclosed => "unclosed group"
  | .groupUnopened => "unopened group"
  | .nested limit =>
    "exceed the maximum number of nested parentheses/brackets (" ++ toString limit ++ ")"
  | .countOrder => "invalid repetition count range, the start must be <= the end"
  | .countMissing => "repetition quantifier expects a valid decimal"
  | .countUnclosed => "unclosed counted repetition"
  | .nothingRepeated => "repetition operator missing expression"
  | .wordEdgeUnclosed =>
    "special word boundary assertion is either unclosed or contains an invalid character"
  | .wordEdgeUnknown =>
    "unrecognized special word boundary assertion, valid choices are: " ++
      "start, end, start-half or end-half"
  | .wordEdgeUnfinished =>
    "found either the beginning of a special word boundary or a bounded repetition " ++
      "on a \\b with an opening brace, but no closing brace"
  | .propertyLetter => "invalid Unicode character class"
  | .backreference => "backreferences are not supported"
  | .lookAround => "look-around, including look-ahead and look-behind, is not supported"
  | .invalidBytes => "pattern can match invalid UTF-8"
  | .wideNotAllowed => "Unicode not allowed here"
  | .propertyUnknown => "Unicode property not found"
  | .propertyValueUnknown => "Unicode property value not found"
  | .wideShorthand =>
    "Unicode-aware Perl class not found (make sure the unicode-perl feature is enabled)"
  | .wideCase =>
    "Unicode-aware case insensitivity matching is not available " ++
      "(make sure the unicode-case feature is enabled)"

structure Span where
  start : Nat
  stop : Nat
deriving DecidableEq, Repr

def Span.precedes (a b : Span) : Bool :=
  a.start < b.start || (a.start == b.start && a.stop ≤ b.stop)

structure LocatedFault where
  fault : PatternFault
  span : Span
  earlier : Option Span := none
deriving DecidableEq, Repr

structure TextPlace where
  line : Nat
  column : Nat
deriving DecidableEq, Repr

def TextPlace.ofPosition (text : List Char) (position : Nat) : TextPlace :=
  let lines := partsOf '\n' (text.take position)
  ⟨lines.length, (lines.getLastD []).length + 1⟩

private def dropReturn (line : List Char) : List Char :=
  if line.getLast? == some '\r' then line.dropLast else line

-- Lines without their ends; nothing after the last line end is no line.
def linesOfText (text : List Char) : List (List Char) :=
  let parts := partsOf '\n' text
  let last := parts.getLastD []
  parts.dropLast.map dropReturn ++ if last.isEmpty then [] else [last]

namespace LocatedFault

private def blanks (count : Nat) : List Char := List.replicate count ' '

def marks : Nat → List (Nat × Nat) → List Char
  | _, [] => []
  | column, (start, stop) :: rest =>
    let width := max 1 (stop - start)
    blanks (start - column) ++ List.replicate width '^' ++
      marks (max column start + width) rest

private def spans (fault : LocatedFault) : List Span :=
  match fault.earlier with
  | none => [fault.span]
  | some span => if span.precedes fault.span then [span, fault.span] else [fault.span, span]

def notated (text : List Char) (fault : LocatedFault) : List Char :=
  let lines := linesOfText text
  let count := lines.length + if text.getLast? == some '\n' then 1 else 0
  let width := if count ≤ 1 then 0 else (Nat.toDigits 10 count).length
  let places := fault.spans.map fun span =>
    (TextPlace.ofPosition text span.start, TextPlace.ofPosition text span.stop)
  let lineText (line : List Char × Nat) : List Char :=
    let number := line.2 + 1
    let digits := Nat.toDigits 10 number
    let margin :=
      if width = 0 then blanks 4 else blanks (width - digits.length) ++ digits ++ [':', ' ']
    let columns := places.filterMap fun (start, stop) =>
      if start.line = number ∧ stop.line = number then some (start.column, stop.column) else none
    let below :=
      if columns.isEmpty then []
      else blanks margin.length ++ marks 1 columns ++ ['\n']
    margin ++ line.1 ++ '\n' :: below
  lines.zipIdx.flatMap lineText

def remarks (text : List Char) (fault : LocatedFault) : List String :=
  fault.spans.filterMap fun span =>
    let start := TextPlace.ofPosition text span.start
    let stop := TextPlace.ofPosition text span.stop
    if start.line = stop.line then none
    else some ("on line " ++ toString start.line ++ " (column " ++ toString start.column ++
      ") through line " ++ toString stop.line ++ " (column " ++ toString (stop.column - 1) ++ ")")

def report (text : List Char) (fault : LocatedFault) : String :=
  let ruler := String.ofList (List.replicate 79 '~') ++ "\n"
  let shown := String.ofList (fault.notated text)
  let shown :=
    if text.contains '\n' then
      ruler ++ shown ++ ruler ++ String.join ((fault.remarks text).map (· ++ "\n"))
    else shown
  "regex parse error:\n" ++ shown ++ "error: " ++ fault.fault.message

end LocatedFault

end RenderCompiler
