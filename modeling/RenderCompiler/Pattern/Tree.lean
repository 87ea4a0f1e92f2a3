import RenderCompiler.Pattern.Basic
import RenderCompiler.Pattern.Fault

set_option autoImplicit false

namespace RenderCompiler

inductive PatternFlag where
  | anyCase
  | manyLines
  | dotTakesAll
  | leastFirst
  | wide
  | returns
  | spaced
deriving DecidableEq, Repr

def PatternFlag.ofChar? : Char → Option PatternFlag
  | 'i' => some .anyCase
  | 'm' => some .manyLines
  | 's' => some .dotTakesAll
  | 'U' => some .leastFirst
  | 'u' => some .wide
  | 'R' => some .returns
  | 'x' => some .spaced
  | _ => none

abbrev FlagChanges := List (PatternFlag × Bool)

structure WrittenChar where
  char : Char
  isByte : Bool := false
deriving DecidableEq, Repr

inductive AnchorMark where
  | lineStart
  | lineEnd
  | textStart
  | textEnd
  | word (edge : WordEdge)
deriving DecidableEq, Repr

inductive Shorthand where
  | digit
  | space
  | word
deriving DecidableEq, Repr

inductive SetOperator where
  | intersection
  | difference
  | exclusive
deriving DecidableEq, Repr

inductive SetTree where
  | empty (span : Span)
  | char (span : Span) (char : WrittenChar)
  | range (low : Span) (first : WrittenChar) (high : Span) (last : WrittenChar)
  | named (span : Span) (negated : Bool) (set : CharSet)
  | property (span : Span) (name : List Char)
  | shorthand (span : Span) (kind : Shorthand) (negated : Bool)
  | bracketed (span : Span) (negated : Bool) (body : SetTree)
  | union (span : Span) (items : List SetTree)
  | operation (span : Span) (operator : SetOperator) (left right : SetTree)

inductive PatternTree where
  | empty (span : Span)
  | flags (span : Span) (changes : FlagChanges)
  | char (span : Span) (char : WrittenChar)
  | dot (span : Span)
  | anchor (span : Span) (mark : AnchorMark)
  | property (span : Span) (name : List Char)
  | shorthand (span : Span) (kind : Shorthand) (negated : Bool)
  | set (span : Span) (negated : Bool) (body : SetTree)
  | repetition (span : Span) (least : Nat) (most : Option Nat) (body : PatternTree)
  | group (span : Span) (changes : FlagChanges) (body : PatternTree)
  | sequence (span : Span) (items : List PatternTree)
  | alternatives (span : Span) (branches : List PatternTree)

namespace SetTree

def span : SetTree → Span
  | .empty span => span
  | .char span _ => span
  | .range low _ high _ => ⟨low.start, high.stop⟩
  | .named span _ _ => span
  | .property span _ => span
  | .shorthand span _ _ => span
  | .bracketed span _ _ => span
  | .union span _ => span
  | .operation span _ _ _ => span

def ofItems (place : Nat) : List SetTree → SetTree
  | [] => .empty ⟨place, place⟩
  | [item] => item
  | first :: rest => .union ⟨first.span.start, (rest.getLastD first).span.stop⟩ (first :: rest)

mutual

def hasItem : SetTree → Bool
  | .empty _ => false
  | .char .. => true
  | .range .. => true
  | .named .. => true
  | .property .. => true
  | .shorthand .. => true
  | .bracketed _ _ body => body.hasItem
  | .union _ items => anyHasItem items
  | .operation _ _ left right => left.hasItem || right.hasItem

def anyHasItem : List SetTree → Bool
  | [] => false
  | item :: rest => item.hasItem || anyHasItem rest

end

mutual

def tooDeep? (levels : Nat) : SetTree → Option Span
  | .bracketed span _ body =>
    match levels with
    | 0 => some span
    | levels + 1 => body.tooDeep? levels
  | .union span items =>
    match levels with
    | 0 => some span
    | levels + 1 => anyTooDeep? levels items
  | .operation span _ left right =>
    match levels with
    | 0 => some span
    | levels + 1 => (left.tooDeep? levels).or (right.tooDeep? levels)
  | _ => none

def anyTooDeep? (levels : Nat) : List SetTree → Option Span
  | [] => none
  | item :: rest => (item.tooDeep? levels).or (anyTooDeep? levels rest)

end

end SetTree

namespace PatternTree

def span : PatternTree → Span
  | .empty span => span
  | .flags span _ => span
  | .char span _ => span
  | .dot span => span
  | .anchor span _ => span
  | .property span _ => span
  | .shorthand span _ _ => span
  | .set span _ _ => span
  | .repetition span _ _ _ => span
  | .group span _ _ => span
  | .sequence span _ => span
  | .alternatives span _ => span

def ofItems (span : Span) : List PatternTree → PatternTree
  | [] => .empty span
  | [item] => item
  | items => .sequence span items

-- Flags and nothing at all cannot be repeated.
def isRepeatable : PatternTree → Bool
  | .empty _ => false
  | .flags .. => false
  | _ => true

mutual

def tooDeep? (levels : Nat) : PatternTree → Option Span
  | .set span _ body =>
    match levels with
    | 0 => some span
    | levels + 1 => body.tooDeep? levels
  | .repetition span _ _ body =>
    match levels with
    | 0 => some span
    | levels + 1 => body.tooDeep? levels
  | .group span _ body =>
    match levels with
    | 0 => some span
    | levels + 1 => body.tooDeep? levels
  | .sequence span items =>
    match levels with
    | 0 => some span
    | levels + 1 => anyTooDeep? levels items
  | .alternatives span branches =>
    match levels with
    | 0 => some span
    | levels + 1 => anyTooDeep? levels branches
  | _ => none

def anyTooDeep? (levels : Nat) : List PatternTree → Option Span
  | [] => none
  | item :: rest => (item.tooDeep? levels).or (anyTooDeep? levels rest)

end

end PatternTree

end RenderCompiler
