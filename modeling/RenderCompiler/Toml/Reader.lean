import RenderCompiler.Toml.Scalar

set_option autoImplicit false

namespace RenderCompiler.Toml

def skipComment : List Char → List Char
  | '#' :: rest => rest.dropWhile isPlain
  | text => text

def skipFiller : Nat → List Char → Option (List Char)
  | 0, _ => none
  | fuel + 1, text =>
    match text.dropWhile isTomlBlank with
    | '#' :: rest => do skipFiller fuel (← lineEnd? (rest.dropWhile isPlain))
    | rest =>
      match lineEnd? rest with
      | some rest => skipFiller fuel rest
      | none => some rest

private def filler (text : List Char) : Option (List Char) := skipFiller (text.length + 1) text

-- The items of an array after its opening bracket. A comma may follow the last item.
def scanItems (value : Scan Toml) : Nat → Scan (List Toml)
  | 0, _ => none
  | fuel + 1, text => do
    match ← filler text with
    | ']' :: rest => return ([], rest)
    | rest =>
      let (item, rest) ← value rest
      match ← filler rest with
      | ']' :: rest => return ([item], rest)
      | ',' :: rest =>
        let (items, rest) ← scanItems value fuel rest
        return (item :: items, rest)
      | _ => none

def scanEntry (value : Scan Toml) : Scan (TomlKey × Toml) := fun text => do
  let (segments, rest) ← scanKey text
  let (value, rest) ← value ((← scanChar '=' rest).dropWhile isTomlBlank)
  return ((⟨segments.dropLast, segments.getLastD ""⟩, value), rest)

def scanInlineEntries (value : Scan Toml) : Nat → TomlEntries → Scan TomlEntries
  | 0, _, _ => none
  | fuel + 1, entries, text => do
    let ((key, item), rest) ← scanEntry value text
    let entries ← TomlEntries.assign key.path key.key item .inline entries
    match rest.dropWhile isTomlBlank with
    | '\x7d' :: rest => return (entries, rest)
    -- Unlike in an array, another entry must follow.
    | ',' :: rest => scanInlineEntries value fuel entries rest
    | _ => none

def scanValue : Nat → Scan Toml
  | levels, text =>
    match text with
    | '"' :: _ => (scanText text).map fun (s, rest) => (.string s, rest)
    | '\'' :: _ => (scanText text).map fun (s, rest) => (.string s, rest)
    | '[' :: rest =>
      match levels with
      | 0 => none
      | levels + 1 =>
        (scanItems (scanValue levels) (rest.length + 1) rest).map fun (items, rest) =>
          (.array items, rest)
    | '\x7b' :: rest =>
      match levels with
      | 0 => none
      | levels + 1 =>
        match rest.dropWhile isTomlBlank with
        | '\x7d' :: rest => some (.table .inline [], rest)
        | _ =>
          (scanInlineEntries (scanValue levels) (rest.length + 1) [] rest).map
            fun (entries, rest) => (.table .inline entries, rest)
    | _ => scanScalar text

-- The end of a line: blanks, an optional comment, and a line end or the end of the text.
def scanLineEnd (text : List Char) : Option (List Char) :=
  match skipComment (text.dropWhile isTomlBlank) with
  | [] => some []
  | rest => lineEnd? rest

private def keyOf (segments : List String) : TomlKey :=
  ⟨segments.dropLast, segments.getLastD ""⟩

private def scanClosing : Nat → List Char → Option (List Char)
  | 0, text => some text
  | brackets + 1, text => do scanClosing brackets (← scanChar ']' text)

def scanDocument : Nat → List Char → Option (List TomlLine)
  | 0, _ => none
  | fuel + 1, text =>
    match text.dropWhile isTomlBlank with
    | [] => some []
    | '#' :: rest => do scanDocument fuel (← scanLineEnd ('#' :: rest))
    | '[' :: '[' :: rest => do
      let (segments, rest) ← scanKey rest
      let rest ← scanLineEnd (← scanClosing 2 rest)
      return .tables (keyOf segments) :: (← scanDocument fuel rest)
    | '[' :: rest => do
      let (segments, rest) ← scanKey rest
      let rest ← scanLineEnd (← scanClosing 1 rest)
      return .header (keyOf segments) :: (← scanDocument fuel rest)
    | text =>
      match lineEnd? text with
      | some rest => scanDocument fuel rest
      | none => do
        let ((key, value), rest) ← scanEntry (scanValue (depthLimit - 1)) text
        return .entry key value :: (← scanDocument fuel (← scanLineEnd rest))

private def dropOrderMark : List Char → List Char
  | '\ufeff' :: rest => rest
  | text => text

def readDocument? (text : String) : Option TomlEntries := do
  let chars := dropOrderMark text.toList
  TomlLine.build [] [] (← scanDocument (chars.length + 1) chars)

end RenderCompiler.Toml
