import RenderCompiler.Pattern.Reader

set_option autoImplicit false

namespace RenderCompiler

structure PatternFlags where
  anyCase : Bool := false
  manyLines : Bool := false
  dotTakesAll : Bool := false
  returns : Bool := false
  wide : Bool := true
deriving DecidableEq, Repr

namespace PatternFlags

-- Which matches come first and how a pattern is spaced does not change what it matches.
def set (value : Bool) (flags : PatternFlags) : PatternFlag → PatternFlags
  | .anyCase => { flags with anyCase := value }
  | .manyLines => { flags with manyLines := value }
  | .dotTakesAll => { flags with dotTakesAll := value }
  | .leastFirst => flags
  | .wide => { flags with wide := value }
  | .returns => { flags with returns := value }
  | .spaced => flags

def change (flags : PatternFlags) (changes : FlagChanges) : PatternFlags :=
  changes.foldl (fun flags (flag, value) => flags.set value flag) flags

def fail {α : Type} (span : Span) (fault : PatternFault) : Except LocatedFault α :=
  throw { fault, span }

-- Pairs of cases are known for ASCII letters only. A set without items is the same in any case.
def fold (flags : PatternFlags) (span : Span) (hasItem : Bool) (set : CharSet) :
    Except LocatedFault CharSet :=
  if !flags.anyCase then return set
  else if !flags.wide then return .anyCase set
  else if hasItem then fail span .wideCase
  else return set

-- All characters that are not in a set. Among the bytes these would be no characters.
def negate (flags : PatternFlags) (span : Span) (negated : Bool) (set : CharSet) :
    Except LocatedFault CharSet :=
  if !negated then return set
  else if flags.wide then return .complement set
  else fail span .invalidBytes

def char (flags : PatternFlags) (span : Span) (c : WrittenChar) : Except LocatedFault Char :=
  if !flags.wide && c.isByte && 0x80 ≤ c.char.toNat then fail span .invalidBytes
  else return c.char

def setChar (flags : PatternFlags) (span : Span) (c : WrittenChar) : Except LocatedFault Char := do
  let char ← flags.char span c
  if !flags.wide && 0x80 ≤ char.toNat then fail span .wideNotAllowed else return char

def shorthand (flags : PatternFlags) (span : Span) (kind : Shorthand) (negated : Bool) :
    Except LocatedFault CharSet :=
  if flags.wide then fail span .wideShorthand
  else flags.negate span negated <| match kind with
    | .digit => .digits
    | .space => .spaces
    | .word => .wordChars

def plainName (name : List Char) : String :=
  let lower := name.map Char.toLower
  let name := if ['i', 's'].isPrefixOf lower then lower.drop 2 else lower
  String.ofList (name.filter fun c => c.toNat < 0x80 && c != ' ' && c != '_' && c != '-')

-- No property is known. Some names are those of values, and the fault tells them apart.
def property (flags : PatternFlags) (span : Span) (name : List Char) :
    Except LocatedFault CharSet :=
  if !flags.wide then fail span .wideNotAllowed
  else if plainName name ∈ ["cf", "lc", "sc"] then fail span .propertyValueUnknown
  else fail span .propertyUnknown

def dot (flags : PatternFlags) (span : Span) : Except LocatedFault CharSet :=
  if !flags.wide then fail span .invalidBytes
  else if flags.dotTakesAll then return .complement .empty
  else if flags.returns then return .complement (.union (.single '\n') (.single '\r'))
  else return .complement (.single '\n')

def anchor (flags : PatternFlags) : AnchorMark → Anchor
  | .lineStart => if flags.manyLines then .lineStart flags.returns else .textStart
  | .lineEnd => if flags.manyLines then .lineEnd flags.returns else .textEnd
  | .textStart => .textStart
  | .textEnd => .textEnd
  | .word edge => .word edge flags.wide

end PatternFlags

namespace SetTree

mutual

def meaning (flags : PatternFlags) : SetTree → Except LocatedFault CharSet
  | .empty _ => return .empty
  | .char span c => return .single (← flags.setChar span c)
  | .range low first high last =>
    return .range (← flags.setChar low first) (← flags.setChar high last)
  | .named span negated set => do flags.negate span negated (← flags.fold span true set)
  | .property span name => flags.property span name
  | .shorthand span kind negated => flags.shorthand span kind negated
  | .bracketed span negated body => do
    let set ← body.meaning flags
    flags.negate span negated (← flags.fold span body.hasItem set)
  | .union _ items => meaningOfAll flags items
  | .operation _ operator left right => do
    let a ← left.meaning flags
    let b ← right.meaning flags
    -- The right side is folded first, so its fault is the one that is told.
    let b ← flags.fold right.span right.hasItem b
    let a ← flags.fold left.span left.hasItem a
    return match operator with
      | .intersection => .intersection a b
      | .difference => .difference a b
      | .exclusive => .exclusive a b

def meaningOfAll (flags : PatternFlags) : List SetTree → Except LocatedFault CharSet
  | [] => return .empty
  | item :: rest => do
    let set ← item.meaning flags
    return .union set (← meaningOfAll flags rest)

end

end SetTree

namespace PatternTree

mutual

def meaning (flags : PatternFlags) : PatternTree → Except LocatedFault (Pattern × PatternFlags)
  | .empty _ => return (.empty, flags)
  | .flags _ changes => return (.empty, flags.change changes)
  | .char span c => do
    let c ← flags.char span c
    return (.one (← flags.fold span true (.single c)), flags)
  | .dot span => return (.one (← flags.dot span), flags)
  | .anchor _ mark => return (.anchor (flags.anchor mark), flags)
  | .property span name => return (.one (← flags.property span name), flags)
  | .shorthand span kind negated => return (.one (← flags.shorthand span kind negated), flags)
  | .set span negated body => do
    let set ← body.meaning flags
    return (.one (← flags.negate span negated (← flags.fold span body.hasItem set)), flags)
  | .repetition _ least most body => do
    let (pattern, flags) ← body.meaning flags
    return (.ofCounts least most pattern, flags)
  | .group _ changes body => do
    let (pattern, _) ← body.meaning (flags.change changes)
    return (pattern, flags)
  | .sequence _ items => do
    let (patterns, flags) ← meaningOfAll flags items
    return (patterns.foldr .both .empty, flags)
  | .alternatives _ branches => do
    let (patterns, flags) ← meaningOfAll flags branches
    match patterns with
    | [] => return (.empty, flags)
    | first :: rest => return (rest.foldl .either first, flags)

def meaningOfAll (flags : PatternFlags) :
    List PatternTree → Except LocatedFault (List Pattern × PatternFlags)
  | [] => return ([], flags)
  | item :: rest => do
    let (pattern, flags) ← item.meaning flags
    let (patterns, flags) ← meaningOfAll flags rest
    return (pattern :: patterns, flags)

end

end PatternTree

inductive PatternError where
  | faulty (text : List Char) (fault : LocatedFault)
  | tooLarge
  | wideWords
deriving DecidableEq, Repr

def patternBytes : Nat := 10 * Nat.pow 2 20

def stepBytes : Nat := 32

namespace PatternError

def message : PatternError → String
  | .faulty text fault => fault.report text
  | .tooLarge => "Compiled regex exceeds size limit of " ++ toString patternBytes ++ " bytes."
  | .wideWords => "error building NFA"

end PatternError

namespace Pattern

def ofText (text : List Char) : Except PatternError Pattern :=
  match PatternTree.ofText text >>= (·.meaning {}) with
  | .error fault => .error (.faulty text fault)
  | .ok (pattern, _) =>
    if patternBytes < stepBytes * pattern.steps then .error .tooLarge
    else if pattern.asksWideWords then .error .wideWords
    else .ok pattern

end Pattern

end RenderCompiler
