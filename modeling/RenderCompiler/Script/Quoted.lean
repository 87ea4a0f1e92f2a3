import RenderCompiler.Json.Writer

set_option autoImplicit false

namespace RenderCompiler

def isControl (c : Char) : Bool := c.toNat < 0x20 || (0x7F ≤ c.toNat && c.toNat < 0xA0)

def literalChar (c : Char) : List Char :=
  match c with
  | '\'' => ['\\', '\'']
  | '\\' => ['\\', '\\']
  | '\n' => ['\\', 'n']
  | '\r' => ['\\', 'r']
  | '\t' => ['\\', 't']
  | '\u2028' => "\\u2028".toList
  | '\u2029' => "\\u2029".toList
  | c => if isControl c then '\\' :: 'u' :: hexFour c.toNat else [c]

def quoted (s : String) : List Char := '\'' :: s.toList.flatMap literalChar ++ ['\'']

def isNameStart (c : Char) : Bool := isAsciiLetter c || c == '_' || c == '$'

def isNamePart (c : Char) : Bool := isNameStart c || isDigit c

def isBareName (s : String) : Bool :=
  match s.toList with
  | [] => false
  | first :: rest => isNameStart first && rest.all isNamePart

end RenderCompiler
