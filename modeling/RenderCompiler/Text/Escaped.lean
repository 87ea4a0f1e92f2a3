import RenderCompiler.Text.Hidden

set_option autoImplicit false

namespace RenderCompiler

def codePointEscape (c : Char) : List Char :=
  '\\' :: 'u' :: '\x7b' :: Nat.toDigits 16 c.toNat ++ ['\x7d']

def escapedChar (c : Char) : List Char :=
  match c with
  | '"' => ['\\', '"']
  | '\\' => ['\\', '\\']
  | '\n' => ['\\', 'n']
  | '\r' => ['\\', 'r']
  | '\t' => ['\\', 't']
  | '\x00' => ['\\', '0']
  | c => if isHidden c then codePointEscape c else [c]

def escapedText (s : List Char) : List Char := '"' :: s.flatMap escapedChar ++ ['"']

end RenderCompiler
