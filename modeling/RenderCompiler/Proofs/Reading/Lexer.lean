import RenderCompiler.Json.Reader
import RenderCompiler.Script.Token

set_option autoImplicit false

namespace RenderCompiler

namespace Reading

def isLineEnd (c : Char) : Bool := c == '\n' || c == '\r' || c == '\u2028' || c == '\u2029'

def isBlank (c : Char) : Bool :=
  isLineEnd c || c == ' ' || c == '\t' || c == '\x0b' || c == '\x0c' || c == '\u00a0' ||
    c == '\u1680' || ('\u2000' ≤ c && c ≤ '\u200a') || c == '\u202f' || c == '\u205f' ||
    c == '\u3000' || c == '\ufeff'

-- Characters beyond ASCII are a matter of Unicode, and left open here.
structure Alphabet where
  start : Char → Bool
  part : Char → Bool
  start_ascii : ∀ c, c.toNat < 0x80 → start c = isNameStart c
  part_ascii : ∀ c, c.toNat < 0x80 → part c = isNamePart c
  part_of_start : ∀ c, start c = true → part c = true
  part_of_blank : ∀ c, isBlank c = true → part c = false

theorem ascii_of_isNamePart {c : Char} (part : isNamePart c = true) : c.toNat < 0x80 := by
  simp only [isNamePart, isNameStart, isAsciiLetter, isDigit, Bool.or_eq_true, Bool.and_eq_true,
    decide_eq_true_eq, beq_iff_eq] at part
  rcases part with (((⟨-, below⟩ | ⟨-, below⟩) | rfl) | rfl) | ⟨-, below⟩
  · exact Nat.lt_of_le_of_lt below (by decide)
  · exact Nat.lt_of_le_of_lt below (by decide)
  · decide
  · decide
  · exact Nat.lt_of_le_of_lt below (by decide)

theorem isNamePart_of_isBlank {c : Char} (blank : isBlank c = true) : isNamePart c = false := by
  cases part : isNamePart c with
  | false => rfl
  | true =>
    have ascii := ascii_of_isNamePart part
    have each : ∀ code : Fin 0x80, isBlank (Char.ofNat code) = true →
        isNamePart (Char.ofNat code) = false := by decide
    have here := each ⟨c.toNat, ascii⟩
    rw [Char.ofNat_toNat, part] at here
    cases here blank

def Alphabet.ascii : Alphabet where
  start := isNameStart
  part := isNamePart
  start_ascii := fun _ _ => rfl
  part_ascii := fun _ _ => rfl
  part_of_start := fun c start => by rw [isNamePart, start, Bool.true_or]
  part_of_blank := fun _ blank => isNamePart_of_isBlank blank

inductive Lexeme where
  | word (text : String)
  | mark (text : String)
  | string (value : String)
  | number (spelling : String)
deriving DecidableEq, Repr

def escaped? : Char → Option Char
  | 'n' => some '\n'
  | 'r' => some '\r'
  | 't' => some '\t'
  | 'b' => some '\x08'
  | 'f' => some '\x0c'
  | 'v' => some '\x0b'
  -- Digits, and the letters of longer escapes, do not stand for themselves.
  | c => if isDigit c || c == 'u' || c == 'x' || isLineEnd c then none else some c

-- Half a surrogate pair is no character.
def char? (code : Nat) : Option Char := if code.isValidChar then some (Char.ofNat code) else none

def string? : List Char → Option (List Char × List Char)
  | [] => none
  | '\'' :: rest => some ([], rest)
  | '\\' :: 'u' :: a :: b :: c :: d :: rest => do
    let char ← char? (← Json.hexUnit? a b c d)
    let (chars, rest) ← string? rest
    return (char :: chars, rest)
  | '\\' :: 'x' :: a :: b :: rest => do
    let char ← char? (← Json.hexUnit? '0' '0' a b)
    let (chars, rest) ← string? rest
    return (char :: chars, rest)
  | '\\' :: c :: rest => do
    let char ← escaped? c
    let (chars, rest) ← string? rest
    return (char :: chars, rest)
  | c :: rest =>
    if c == '\\' || c == '\n' || c == '\r' then none
    else do
      let (chars, rest) ← string? rest
      return (c :: chars, rest)

def punctuators : Char → List String
  | '.' => ["...", "."]
  | '=' => ["===", "==", "=>", "="]
  | '!' => ["!==", "!=", "!"]
  | '?' => ["??=", "??", "?.", "?"]
  | '|' => ["||=", "||", "|=", "|"]
  | '&' => ["&&=", "&&", "&=", "&"]
  | '<' => ["<<=", "<<", "<=", "<"]
  | '>' => [">>>=", ">>>", ">>=", ">>", ">=", ">"]
  | '*' => ["**=", "**", "*=", "*"]
  | '+' => ["++", "+=", "+"]
  | '-' => ["--", "-=", "-"]
  | '%' => ["%=", "%"]
  | '^' => ["^=", "^"]
  | c => if "()[]\x7b\x7d;,:~".toList.contains c then [String.singleton c] else []

def mark? (text : List Char) : Option (Lexeme × List Char) := do
  let marks := text.head?.elim [] punctuators
  let mark ← marks.find? fun mark => mark.toList.isPrefixOf text
  let rest := text.drop mark.toList.length
  -- A digit after a point belongs to the number that the point begins.
  if mark.toList.getLast? == some '.' && rest.head?.any isDigit then none
  else some (.mark mark, rest)

section Lexemes

variable (alphabet : Alphabet)

def breaksLine (text : List Char) : Bool := (text.takeWhile isBlank).any isLineEnd

-- A line end after `return` would end the statement there.
def word? (text : List Char) : Option (Lexeme × List Char) :=
  let name := text.takeWhile alphabet.part
  let rest := text.dropWhile alphabet.part
  if name == "return".toList && breaksLine rest then none
  else some (.word (String.ofList name), rest)

def withFraction (whole : List Char) : List Char → List Char × List Char
  | '.' :: rest => (whole ++ '.' :: rest.takeWhile isDigit, rest.dropWhile isDigit)
  | rest => (whole, rest)

-- Digits, with a point among them or not. A leading zero stands alone, and a name cannot follow.
def digits? (text : List Char) : Option (List Char × List Char) :=
  let whole := text.takeWhile isDigit
  let (spelling, rest) := withFraction whole (text.dropWhile isDigit)
  if whole.isEmpty || (whole.head? == some '0' && whole != ['0']) ||
      spelling.getLast? == some '.' || rest.head?.any alphabet.start then none
  else some (spelling, rest)

def signed : List Char → List Char × List Char
  | '-' :: rest => (['-'], rest)
  | rest => ([], rest)

def number? (text : List Char) : Option (Lexeme × List Char) := do
  let (sign, text) := signed text
  let (digits, rest) ← digits? alphabet text
  return (.number (String.ofList (sign ++ digits)), rest)

def lexeme? : List Char → Option (Lexeme × List Char)
  | [] => none
  | c :: rest =>
    if c == '\'' then do
      let (chars, rest) ← string? rest
      return (.string (String.ofList chars), rest)
    else if alphabet.start c then word? alphabet (c :: rest)
    else if isDigit c || (c == '-' && rest.head?.any isDigit) then number? alphabet (c :: rest)
    else mark? (c :: rest)

-- The lexemes of a text, with more steps to go than it has characters.
def lexWithin : Nat → List Char → Option (List Lexeme)
  | 0, _ => none
  | _ + 1, [] => some []
  | steps + 1, c :: rest =>
    if isBlank c then lexWithin steps rest
    else do
      let (lexeme, rest) ← lexeme? alphabet (c :: rest)
      return lexeme :: (← lexWithin steps rest)

def lex (text : List Char) : Option (List Lexeme) := lexWithin alphabet (text.length + 1) text

end Lexemes

end Reading

end RenderCompiler
