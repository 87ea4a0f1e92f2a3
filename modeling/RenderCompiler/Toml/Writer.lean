import RenderCompiler.Toml.Text

set_option autoImplicit false

namespace RenderCompiler.Toml

def longestRun (char : Char) : Nat → List Char → Nat
  | current, [] => current
  | current, c :: rest =>
    if c == char then longestRun char (current + 1) rest
    else max current (longestRun char 0 rest)

def needsCode (c : Char) : Bool := c != '\t' && c != '\n' && !isPlain c

def upperHexFour (n : Nat) : List Char :=
  let digits := (Nat.toDigits 16 n).map Char.toUpper
  List.replicate (4 - digits.length) '0' ++ digits

-- Characters of a text between double quotes. Between three quotes line ends stand bare, and so
-- do quotes except the third in a row.
def escapedChars (lines : Bool) : Nat → List Char → List Char
  | _, [] => []
  | quotes, c :: rest =>
    match c with
    | '"' =>
      if lines && quotes < 2 then '"' :: escapedChars lines (quotes + 1) rest
      else '\\' :: '"' :: escapedChars lines 0 rest
    | '\n' => (if lines then ['\n'] else ['\\', 'n']) ++ escapedChars lines 0 rest
    | '\x08' => '\\' :: 'b' :: escapedChars lines 0 rest
    | '\t' => '\\' :: 't' :: escapedChars lines 0 rest
    | '\x0c' => '\\' :: 'f' :: escapedChars lines 0 rest
    | '\r' => '\\' :: 'r' :: escapedChars lines 0 rest
    | '\\' => '\\' :: '\\' :: escapedChars lines 0 rest
    | c =>
      (if isPlain c then [c] else '\\' :: 'u' :: upperHexFour c.toNat) ++
        escapedChars lines 0 rest

-- A text that runs over lines starts on the line after its opening marks.
private def opening (marks : List Char) (text : List Char) : List Char :=
  if text.contains '\n' then marks ++ ['\n'] else marks

private def threeOf (mark : Char) : List Char := [mark, mark, mark]

def textForm (text : List Char) : List Char :=
  let lines := text.contains '\n'
  let backslash := text.contains '\\'
  let code := text.any needsCode
  let doubles := longestRun '"' 0 text
  let singles := longestRun '\'' 0 text
  -- The first form that holds the text is taken.
  if !code && !backslash && doubles == 0 && !lines then '"' :: escapedChars false 0 text ++ ['"']
  else if !code && singles == 0 && !lines then '\'' :: text ++ ['\'']
  else if !code && !backslash && doubles < 3 then
    opening (threeOf '"') text ++ escapedChars true 0 text ++ threeOf '"'
  else if !code && singles < 3 then opening (threeOf '\'') text ++ text ++ threeOf '\''
  else if lines then opening (threeOf '"') text ++ escapedChars true 0 text ++ threeOf '"'
  else '"' :: escapedChars false 0 text ++ ['"']

end RenderCompiler.Toml
