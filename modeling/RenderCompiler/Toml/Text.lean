import RenderCompiler.Json.Reader

set_option autoImplicit false

namespace RenderCompiler.Toml

-- What a scanner takes from the front of a text, and the rest of the text.
abbrev Scan (α : Type) := List Char → Option (α × List Char)

def isTomlBlank (c : Char) : Bool := c == ' ' || c == '\t'

def isPlain (c : Char) : Bool := c == '\t' || (0x20 ≤ c.toNat && c.toNat != 0x7F)

def charOf? (code : Nat) : Option Char := if code.isValidChar then some (Char.ofNat code) else none

def escapeOf? : Char → Option Char
  | '"' => some '"'
  | '\\' => some '\\'
  | 'b' => some '\x08'
  | 'f' => some '\x0c'
  | 'n' => some '\n'
  | 'r' => some '\r'
  | 't' => some '\t'
  | _ => none

def scanEscape : Scan Char
  | 'u' :: a :: b :: c :: d :: rest => do
    return (← charOf? (← Json.hexUnit? a b c d), rest)
  | 'U' :: a :: b :: c :: d :: e :: f :: g :: h :: rest => do
    let high ← Json.hexUnit? a b c d
    let low ← Json.hexUnit? e f g h
    return (← charOf? (high * 0x10000 + low), rest)
  | c :: rest => (escapeOf? c).map (·, rest)
  | [] => none

def skipLines : List Char → List Char
  | ' ' :: rest => skipLines rest
  | '\t' :: rest => skipLines rest
  | '\n' :: rest => skipLines rest
  | '\r' :: '\n' :: rest => skipLines rest
  | rest => rest

def lineEnd? : List Char → Option (List Char)
  | '\n' :: rest => some rest
  | '\r' :: '\n' :: rest => some rest
  | _ => none

private def prepend (c : Char) (scanned : Option (List Char × List Char)) :
    Option (List Char × List Char) :=
  scanned.map fun (chars, rest) => (c :: chars, rest)

-- Quotation marks that stand right before the three closing ones.
def closing (mark : Char) : List Char → List Char × List Char
  | a :: b :: rest =>
    if a == mark && b == mark then ([mark, mark], rest)
    else if a == mark then ([mark], b :: rest)
    else ([], a :: b :: rest)
  | [a] => if a == mark then ([mark], []) else ([], [a])
  | [] => ([], [])

def scanBasic : Nat → Scan (List Char)
  | 0, _ => none
  | fuel + 1, text =>
    match text with
    | [] => none
    | '"' :: rest => some ([], rest)
    | '\\' :: rest => do
      let (c, rest) ← scanEscape rest
      prepend c (scanBasic fuel rest)
    | c :: rest => if isPlain c then prepend c (scanBasic fuel rest) else none

-- The rest of a text between three double quotes. A backslash at the end of a line joins it to
-- the next character that is not blank.
def scanBasicLines : Nat → Scan (List Char)
  | 0, _ => none
  | fuel + 1, text =>
    match text with
    | [] => none
    | '"' :: '"' :: '"' :: rest => some (closing '"' rest)
    | '\\' :: rest =>
      match lineEnd? (rest.dropWhile isTomlBlank) with
      | some rest => scanBasicLines fuel (skipLines rest)
      | none => do
        let (c, rest) ← scanEscape rest
        prepend c (scanBasicLines fuel rest)
    | c :: rest =>
      match lineEnd? (c :: rest) with
      | some rest => prepend '\n' (scanBasicLines fuel rest)
      | none => if isPlain c then prepend c (scanBasicLines fuel rest) else none

def scanLiteral : Scan (List Char)
  | [] => none
  | '\'' :: rest => some ([], rest)
  | c :: rest => if isPlain c then prepend c (scanLiteral rest) else none

def scanLiteralLines : Scan (List Char)
  | [] => none
  | '\'' :: '\'' :: '\'' :: rest => some (closing '\'' rest)
  | '\n' :: rest => prepend '\n' (scanLiteralLines rest)
  | '\r' :: '\n' :: rest => prepend '\n' (scanLiteralLines rest)
  | c :: rest => if isPlain c then prepend c (scanLiteralLines rest) else none

private def asString (scanned : Option (List Char × List Char)) : Option (String × List Char) :=
  scanned.map fun (chars, rest) => (String.ofList chars, rest)

private def dropLineEnd (text : List Char) : List Char := (lineEnd? text).getD text

def scanText : Scan String
  | '"' :: '"' :: '"' :: rest =>
    let rest := dropLineEnd rest
    asString (scanBasicLines (rest.length + 1) rest)
  | '\'' :: '\'' :: '\'' :: rest => asString (scanLiteralLines (dropLineEnd rest))
  | '"' :: rest => asString (scanBasic (rest.length + 1) rest)
  | '\'' :: rest => asString (scanLiteral rest)
  | _ => none

def isBareKeyChar (c : Char) : Bool := isAsciiLetter c || isDigit c || c == '-' || c == '_'

def scanSimpleKey : Scan String
  | '"' :: rest => asString (scanBasic (rest.length + 1) rest)
  | '\'' :: rest => asString (scanLiteral rest)
  | text =>
    let bare := text.takeWhile isBareKeyChar
    if bare.isEmpty then none else some (String.ofList bare, text.dropWhile isBareKeyChar)

def depthLimit : Nat := 80

def scanSegments : Nat → Scan (List String)
  | 0, _ => none
  | fuel + 1, text => do
    let (segment, rest) ← scanSimpleKey (text.dropWhile isTomlBlank)
    match rest.dropWhile isTomlBlank with
    | '.' :: rest =>
      let (segments, rest) ← scanSegments fuel rest
      return (segment :: segments, rest)
    | rest => return ([segment], rest)

-- A dotted key, its segments in order, with fewer segments than the limit.
def scanKey : Scan (List String) := scanSegments (depthLimit - 1)

end RenderCompiler.Toml
