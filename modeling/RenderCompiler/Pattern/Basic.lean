import RenderCompiler.Pattern.CharSet

set_option autoImplicit false

namespace RenderCompiler

inductive WordEdge where
  | boundary
  | interior
  | first
  | last
  | notAfterWord
  | notBeforeWord
deriving DecidableEq, Repr

-- Conditions on a place. Lines end at line feeds, and on request at carriage returns as well.
-- Wide word characters are those of any script, others those of ASCII.
inductive Anchor where
  | textStart
  | textEnd
  | lineStart (returns : Bool)
  | lineEnd (returns : Bool)
  | word (edge : WordEdge) (wide : Bool)
deriving DecidableEq, Repr

namespace Anchor

def edgeHolds (before after : Bool) : WordEdge → Bool
  | .boundary => before != after
  | .interior => before == after
  | .first => !before && after
  | .last => before && !after
  | .notAfterWord => !before
  | .notBeforeWord => !after

-- The place between two characters meets the condition; at the ends of a text one is missing.
-- Wide word characters are not known, and nothing has their edges.
def holds (before after : Option Char) : Anchor → Bool
  | .textStart => before.isNone
  | .textEnd => after.isNone
  | .lineStart false => before.isNone || before == some '\n'
  | .lineStart true =>
    -- A line feed after a carriage return belongs to the same line end.
    before.isNone || before == some '\n' || (before == some '\r' && after != some '\n')
  | .lineEnd false => after.isNone || after == some '\n'
  | .lineEnd true =>
    after.isNone || after == some '\r' || (after == some '\n' && before != some '\r')
  | .word edge false =>
    edgeHolds (before.any CharSet.wordChars.contains) (after.any CharSet.wordChars.contains) edge
  | .word _ true => false

end Anchor

inductive Pattern where
  | empty
  | one (set : CharSet)
  | anchor (place : Anchor)
  | both (first second : Pattern)
  | either (first second : Pattern)
  | repeated (least : Nat) (most : Option Nat) (body : Pattern)
deriving DecidableEq, Repr

abbrev Positions := List Nat

namespace Positions

def join (a b : Positions) : Positions := a ++ b.filter (!a.contains ·)

def iterate (advance : Positions → Positions) : Nat → Positions → Positions
  | 0, positions => positions
  | count + 1, positions => iterate advance count (advance positions)

def spread (advance : Positions → Positions) : Nat → Positions → Positions → Positions
  | 0, known, _ => known
  | rounds + 1, known, latest =>
    if latest.isEmpty then known
    else
      let found := (advance latest).filter (!known.contains ·)
      spread advance rounds (known ++ found) found

end Positions

namespace Pattern

def after (text : Array Char) : Pattern → Positions → Positions
  | .empty, starts => starts
  | .one set, starts => (starts.filter fun i => text[i]?.any set.contains).map (· + 1)
  | .anchor place, starts =>
    starts.filter fun i => place.holds (if i = 0 then none else text[i - 1]?) text[i]?
  | .both first second, starts => after text second (after text first starts)
  | .either first second, starts => (after text first starts).join (after text second starts)
  | .repeated least most body, starts =>
    -- A longer run of rounds stays somewhere on its way, and one round less or more ends the same.
    let first := Positions.iterate (after text body) (min least (text.size + 1)) starts
    let rounds := match most with
      | none => text.size
      | some most => min (most - least) text.size
    Positions.spread (after text body) rounds first first

def isIn (pattern : Pattern) (text : String) : Bool :=
  let chars := text.toList.toArray
  !(pattern.after chars (List.range (chars.size + 1))).isEmpty

def isWidthless : Pattern → Bool
  | .empty => true
  | .one _ => false
  | .anchor _ => true
  | .both first second => first.isWidthless && second.isWidthless
  | .either first second => first.isWidthless && second.isWidthless
  | .repeated _ most body => body.isWidthless || most == some 0

def ofCounts (least : Nat) (most : Option Nat) (body : Pattern) : Pattern :=
  -- Without a width, one round is as good as many.
  let (least, most) :=
    if body.isWidthless then (min least 1, some (min (most.getD 1) 1)) else (least, most)
  if most = some 0 then .empty
  else if least = 1 ∧ most = some 1 then body
  else .repeated least most body

-- Steps of the pattern with its repetitions written out. A step is a byte or a choice.
def steps : Pattern → Nat
  | .empty => 1
  | .one (.range low high) =>
    if low = high then low.utf8Size else if high.toNat < 0x80 then 1 else 12
  | .one set => if set.passesAscii then 12 else 1
  | .anchor _ => 1
  | .both first second => first.steps + second.steps
  | .either first second => first.steps + second.steps + 1
  | .repeated least none body => max least 1 * body.steps + 1
  | .repeated least (some most) body => most * body.steps + (most - least) + 1

def asksWideWords : Pattern → Bool
  | .empty => false
  | .one _ => false
  | .anchor (.word _ wide) => wide
  | .anchor _ => false
  | .both first second => first.asksWideWords || second.asksWideWords
  | .either first second => first.asksWideWords || second.asksWideWords
  | .repeated _ _ body => body.asksWideWords

end Pattern

end RenderCompiler
