import RenderCompiler.Json.Number

set_option autoImplicit false

namespace RenderCompiler

def hexFour (n : Nat) : List Char :=
  let digits := Nat.toDigits 16 n
  List.replicate (4 - digits.length) '0' ++ digits

namespace Json

def escapeChar (c : Char) : List Char :=
  match c with
  | '"' => ['\\', '"']
  | '\\' => ['\\', '\\']
  | '\x08' => ['\\', 'b']
  | '\x0c' => ['\\', 'f']
  | '\n' => ['\\', 'n']
  | '\r' => ['\\', 'r']
  | '\t' => ['\\', 't']
  | c => if c.toNat < 0x20 then '\\' :: 'u' :: hexFour c.toNat else [c]

def stringText (s : String) : List Char := '"' :: s.toList.flatMap escapeChar ++ ['"']

mutual

def compact : Json → List Char
  | .null => "null".toList
  | .boolean true => "true".toList
  | .boolean false => "false".toList
  | .number n => n.text
  | .string s => stringText s
  | .array items => '[' :: compactItems items ++ [']']
  | .object entries => '\x7b' :: compactEntries entries ++ ['\x7d']
  | .unfit | .unfitKey | .broken => []

def compactItems : List Json → List Char
  | [] => []
  | [item] => compact item
  | item :: rest => compact item ++ ',' :: compactItems rest

def compactEntries : List (String × Json) → List Char
  | [] => []
  | [(key, value)] => stringText key ++ ':' :: compact value
  | (key, value) :: rest => stringText key ++ ':' :: compact value ++ ',' :: compactEntries rest

end

def newline (level : Nat) : List Char := '\n' :: List.replicate (2 * level) ' '

mutual

def indented (level : Nat) : Json → List Char
  | .array [] => ['[', ']']
  | .array items => '[' :: indentedItems (level + 1) items ++ newline level ++ [']']
  | .object [] => ['\x7b', '\x7d']
  | .object entries =>
    '\x7b' :: indentedEntries (level + 1) entries ++ newline level ++ ['\x7d']
  | .null => "null".toList
  | .boolean true => "true".toList
  | .boolean false => "false".toList
  | .number n => n.text
  | .string s => stringText s
  | .unfit | .unfitKey | .broken => []

def indentedItems (level : Nat) : List Json → List Char
  | [] => []
  | [item] => newline level ++ indented level item
  | item :: rest => newline level ++ indented level item ++ ',' :: indentedItems level rest

def indentedEntries (level : Nat) : List (String × Json) → List Char
  | [] => []
  | [(key, value)] => newline level ++ stringText key ++ ':' :: ' ' :: indented level value
  | (key, value) :: rest =>
    newline level ++ stringText key ++ ':' :: ' ' :: indented level value ++
      ',' :: indentedEntries level rest

end

def text (value : Json) : String := String.ofList value.compact

def prettyText (value : Json) : String := String.ofList (value.indented 0)

end Json

end RenderCompiler
