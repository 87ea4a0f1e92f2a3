import RenderCompiler.Json.Reader
import RenderCompiler.Pattern.Input

set_option autoImplicit false

namespace RenderCompiler

def isPatternMark (c : Char) : Bool := "\\.+*?()|[]\x7b\x7d^$#&-~".toList.contains c

def isEscapable (c : Char) : Bool :=
  isPatternMark c ||
    (c.toNat < 0x80 && !isDigit c && !isAsciiLetter c && c != '<' && c != '>')

def controlOf? : Char → Option Char
  | 'a' => some '\x07'
  | 'f' => some '\x0c'
  | 't' => some '\t'
  | 'n' => some '\n'
  | 'r' => some '\r'
  | 'v' => some '\x0b'
  | _ => none

def AnchorMark.ofChar? : Char → Option AnchorMark
  | 'A' => some .textStart
  | 'z' => some .textEnd
  | 'B' => some (.word .interior)
  | '<' => some (.word .first)
  | '>' => some (.word .last)
  | _ => none

def Shorthand.ofChar? : Char → Option (Shorthand × Bool)
  | 'd' => some (.digit, false)
  | 'D' => some (.digit, true)
  | 's' => some (.space, false)
  | 'S' => some (.space, true)
  | 'w' => some (.word, false)
  | 'W' => some (.word, true)
  | _ => none

def hexDigits? : Char → Option Nat
  | 'x' => some 2
  | 'u' => some 4
  | 'U' => some 8
  | _ => none

def WordEdge.ofName? : String → Option WordEdge
  | "start" => some .first
  | "end" => some .last
  | "start-half" => some .notAfterWord
  | "end-half" => some .notBeforeWord
  | _ => none

def charOfHex? (digits : List Char) : Option Char :=
  let code := digits.foldl (fun n c => 16 * n + (Json.hexDigit? c).getD 0) 0
  if code.isValidChar then some (Char.ofNat code) else none

namespace ReadPattern

private def isHex (c : Char) : Bool := (Json.hexDigit? c).isSome

def fixedHex : Nat → ReadPattern (List Char)
  | 0 => return []
  | count + 1 => do
    match ← next? with
    | none => failHere .escapeUnfinished
    | some c =>
      if isHex c then
        step
        return c :: (← fixedHex count)
      else failNext .hexDigit

private def bracedHex (start : Nat) : ReadPattern PatternTree := do
  let brace ← position
  step
  let digits ← takeRun isHex
  let stop ← position
  match ← next? with
  | none => failFrom brace .escapeUnfinished
  | some '\x7d' =>
    step
    if digits.isEmpty then failFrom brace .hexEmpty
    else match charOfHex? digits with
      | none => fail .hexNoCharacter ⟨brace + 1, stop⟩
      | some char => return .char ⟨start, ← position⟩ { char }
  | some _ => failNext .hexDigit

private def hexChar (start count : Nat) : ReadPattern PatternTree := do
  step
  match ← next? with
  | none => failHere .escapeUnfinished
  | some '\x7b' => bracedHex start
  | some _ =>
    let first ← position
    let digits ← fixedHex count
    match charOfHex? digits with
    | none => failFrom first .hexNoCharacter
    | some char => return .char ⟨start, ← position⟩ { char, isByte := count == 2 }

private def property (start : Nat) : ReadPattern PatternTree := do
  step
  match ← next? with
  | none => failHere .escapeUnfinished
  | some '\x7b' =>
    step
    let name ← takeRun (· != '\x7d')
    if (← next?).isNone then failHere .escapeUnfinished
    drop 1
    return .property ⟨start, ← position⟩ name
  | some '\\' => failNext .propertyLetter
  | some c =>
    step
    return .property ⟨start, ← position⟩ [c]

private def isEdgeNameChar (c : Char) : Bool := isAsciiLetter c || c == '-'

-- The edge of a word that may be named between braces. Braces with anything but a name belong to
-- what follows.
private def wordEdge (start : Nat) : ReadPattern WordEdge := do
  if (← next?) != some '\x7b' then return .boundary
  let input ← get
  step
  match ← next? with
  | none => failFrom start .wordEdgeUnfinished
  | some c =>
    if isEdgeNameChar c then
      let first ← position
      let name ← takeRun isEdgeNameChar
      if (← next?) != some '\x7d' then failFrom input.position .wordEdgeUnclosed
      else
        match WordEdge.ofName? (String.ofList name) with
        | none => failFrom first .wordEdgeUnknown
        | some edge =>
          drop 1
          return edge
    else
      set input
      return .boundary

def escape : ReadPattern PatternTree := do
  let start ← position
  drop 1
  match ← next? with
  | none => failFrom start .escapeUnfinished
  | some c =>
    if isDigit c then fail .backreference ⟨start, (← position) + 1⟩
    else if let some count := hexDigits? c then hexChar start count
    else if c == 'p' || c == 'P' then property start
    else
      drop 1
      let span : Span := ⟨start, ← position⟩
      if let some (kind, negated) := Shorthand.ofChar? c then return .shorthand span kind negated
      else if isEscapable c then return .char span { char := c }
      else if let some char := controlOf? c then return .char span { char }
      else if let some mark := AnchorMark.ofChar? c then return .anchor span mark
      else if c == 'b' then
        let edge ← wordEdge start
        return .anchor ⟨start, ← position⟩ (.word edge)
      else fail .escapeUnknown span

end ReadPattern

end RenderCompiler
