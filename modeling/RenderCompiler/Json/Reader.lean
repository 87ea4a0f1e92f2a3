import RenderCompiler.Json.Number

set_option autoImplicit false

namespace RenderCompiler.Json

def isBlank (c : Char) : Bool := c == ' ' || c == '\n' || c == '\t' || c == '\r'

def skipBlank (text : List Char) : List Char := text.dropWhile isBlank

def hexDigit? (c : Char) : Option Nat :=
  if isDigit c then some (digitValue c)
  else if 'a' ≤ c && c ≤ 'f' then some (c.toNat - 'a'.toNat + 10)
  else if 'A' ≤ c && c ≤ 'F' then some (c.toNat - 'A'.toNat + 10)
  else none

def hexUnit? (a b c d : Char) : Option Nat := do
  let a ← hexDigit? a
  let b ← hexDigit? b
  let c ← hexDigit? c
  let d ← hexDigit? d
  return ((a * 16 + b) * 16 + c) * 16 + d

def shortEscape? : Char → Option Char
  | '"' => some '"'
  | '\\' => some '\\'
  | '/' => some '/'
  | 'b' => some '\x08'
  | 'f' => some '\x0c'
  | 'n' => some '\n'
  | 'r' => some '\r'
  | 't' => some '\t'
  | _ => none

def scanString : List Char → Option (List Nat × List Char)
  | [] => none
  | '"' :: rest => some ([], rest)
  | '\\' :: 'u' :: a :: b :: c :: d :: rest => do
    let unit ← hexUnit? a b c d
    let (units, rest) ← scanString rest
    return (unit :: units, rest)
  | '\\' :: c :: rest => do
    let char ← shortEscape? c
    let (units, rest) ← scanString rest
    return (char.toNat :: units, rest)
  | c :: rest =>
    if c == '\\' || c.toNat < 0x20 then none
    else do
      let (units, rest) ← scanString rest
      return (c.toNat :: units, rest)

def isHighSurrogate (unit : Nat) : Bool := 0xD800 ≤ unit && unit < 0xDC00

def isLowSurrogate (unit : Nat) : Bool := 0xDC00 ≤ unit && unit < 0xE000

-- Joins surrogate pairs; none if half a pair stands alone.
def joinUnits : List Nat → Option (List Char)
  | [] => some []
  | [unit] =>
    if isHighSurrogate unit || isLowSurrogate unit then none else some [Char.ofNat unit]
  | unit :: next :: rest =>
    if isHighSurrogate unit then
      if isLowSurrogate next then
        (joinUnits rest).map
          (Char.ofNat (0x10000 + (unit - 0xD800) * 0x400 + (next - 0xDC00)) :: ·)
      else none
    else if isLowSurrogate unit then none
    else (joinUnits (next :: rest)).map (Char.ofNat unit :: ·)

def nestingLimit : Nat := 128

section Values

variable (limit : Option Nat)

def contain (depth : Nat) (value : Json) (rest : Option (List Char)) :
    Json × Option (List Char) :=
  if limit.all (depth + 1 < ·) then (value, rest)
  else (if rest.isSome then .unfit else .broken, rest)

mutual

-- The value at the front of a text and the text after it, or none where the text broke.
def readValue : Nat → Nat → List Char → Json × Option (List Char)
  | 0, _, _ => (.broken, none)
  | fuel + 1, depth, text =>
    match skipBlank text with
    | '"' :: rest =>
      match scanString rest with
      | none => (.broken, none)
      | some (units, rest) =>
        match joinUnits units with
        | none => (.unfit, some rest)
        | some chars => (.string (String.ofList chars), some rest)
    | '[' :: rest =>
      match skipBlank rest with
      | ']' :: rest => contain limit depth (.array []) (some rest)
      | rest =>
        let (items, rest) := readItems fuel (depth + 1) rest
        contain limit depth (.array items) rest
    | '\x7b' :: rest =>
      match skipBlank rest with
      | '\x7d' :: rest => contain limit depth (.object []) (some rest)
      | rest =>
        let (entries, rest) := readEntries fuel (depth + 1) rest
        contain limit depth (.object entries) rest
    | 'n' :: 'u' :: 'l' :: 'l' :: rest => (.null, some rest)
    | 't' :: 'r' :: 'u' :: 'e' :: rest => (.boolean true, some rest)
    | 'f' :: 'a' :: 'l' :: 's' :: 'e' :: rest => (.boolean false, some rest)
    | rest =>
      match NumberSpelling.scan? rest with
      | none => (.broken, none)
      | some (spelling, rest) =>
        match spelling.value? with
        | none => (.unfit, some rest)
        | some value => (.number value, some rest)

def readItems : Nat → Nat → List Char → List Json × Option (List Char)
  | 0, _, _ => ([.broken], none)
  | fuel + 1, depth, text =>
    let (item, rest) := readValue fuel depth text
    match rest with
    | none => ([item], none)
    | some rest =>
      match skipBlank rest with
      | ']' :: rest => ([item], some rest)
      | ',' :: rest =>
        let (items, rest) := readItems fuel depth rest
        (item :: items, rest)
      | _ => ([item, .broken], none)

def readEntries : Nat → Nat → List Char → List (String × Json) × Option (List Char)
  | 0, _, _ => ([("", .broken)], none)
  | fuel + 1, depth, text =>
    match skipBlank text with
    | '"' :: rest =>
      match scanString rest with
      | none => ([("", .broken)], none)
      | some (units, rest) =>
        -- An unfit key is told apart only after its value, which may break the text first.
        let key := (joinUnits units).map String.ofList
        match skipBlank rest with
        | ':' :: rest =>
          let (value, rest) := readValue fuel depth rest
          let entry := match key with
            | some key => (key, value)
            | none => ("", if rest.isSome then .unfitKey else .broken)
          match rest with
          | none => ([entry], none)
          | some rest =>
            match skipBlank rest with
            | '\x7d' :: rest => ([entry], some rest)
            | ',' :: rest =>
              let (entries, rest) := readEntries fuel depth rest
              (entry :: entries, rest)
            | _ => ([entry, ("", .broken)], none)
        | _ => ([(key.getD "", .broken)], none)
    | _ => ([("", .broken)], none)

end

def readWithin (text : String) : Json × Bool :=
  let chars := text.toList
  let (value, rest) := readValue limit (2 * chars.length + 2) 0 chars
  (value, (rest.map fun rest => (skipBlank rest).isEmpty).getD false)

end Values

def read (text : String) : Json × Bool := readWithin (some nestingLimit) text

def ofText? (text : String) : Option Json :=
  let (value, ended) := read text
  if ended && value.intact then some value else none

end RenderCompiler.Json
