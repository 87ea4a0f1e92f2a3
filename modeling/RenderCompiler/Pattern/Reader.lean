import RenderCompiler.Pattern.SetReader
import RenderCompiler.Text.Letter

set_option autoImplicit false

namespace RenderCompiler

structure GroupOpening where
  span : Span
  changes : FlagChanges
  wasSpaced : Bool

structure OpenGroup where
  opening : Option GroupOpening := none
  first : Nat
  start : Nat
  items : List PatternTree := []
  branches : List PatternTree := []

namespace OpenGroup

def push (group : OpenGroup) (item : PatternTree) : OpenGroup :=
  { group with items := item :: group.items }

def branch (group : OpenGroup) (stop : Nat) : PatternTree :=
  .ofItems ⟨group.start, stop⟩ group.items.reverse

def body (group : OpenGroup) (stop : Nat) : PatternTree :=
  if group.branches.isEmpty then group.branch stop
  else .alternatives ⟨group.first, stop⟩ (group.branch stop :: group.branches).reverse

end OpenGroup

inductive Opening where
  | group (opening : GroupOpening)
  | flags (span : Span) (changes : FlagChanges)

namespace ReadPattern

private def isNameStart (c : Char) : Bool := c == '_' || isLetter c

private def isNameChar (c : Char) : Bool :=
  isNameStart c || isNumeral c || c == '.' || c == '[' || c == ']'

private def nameChars (start : Nat) : Nat → ReadPattern (List Char)
  | 0 => return []
  | fuel + 1 => do
    match ← next? with
    | none => failHere .nameUnfinished
    | some '>' => return []
    | some c =>
      let isFirst := (← position) == start
      if if isFirst then isNameStart c else isNameChar c then
        drop 1
        return c :: (← nameChars start fuel)
      else failNext .nameCharacter

private def groupName : ReadPattern Unit := do
  let start ← position
  let name ← nameChars start ((← get).rest.length + 1)
  let span : Span := ⟨start, ← position⟩
  drop 1
  if name.isEmpty then fail .nameEmpty ⟨start, start⟩
  match (← get).names.lookup name with
  | some earlier => throw { fault := .nameTwice, span, earlier }
  | none => modify fun input => { input with names := (name, span) :: input.names }

-- Flags up to a colon or a closing parenthesis, with their places. A minus sign, which is no
-- flag, stands before those that are cleared.
private def flagItems (items : List (Option PatternFlag × Span)) :
    Nat → ReadPattern (List (Option PatternFlag × Span))
  | 0 => return items
  | fuel + 1 => do
    match ← next? with
    | none => failHere .flagUnfinished
    | some ':' => return items
    | some ')' => return items
    | some c =>
      let place ← position
      let span : Span := ⟨place, place + 1⟩
      let flag := PatternFlag.ofChar? c
      if c != '-' && flag.isNone then fail .flagUnknown span
      if let some earlier := items.lookup flag then
        throw { fault := if flag.isNone then .negationTwice else .flagTwice, span, earlier }
      drop 1
      flagItems (items ++ [(flag, span)]) fuel

private def changesOf (items : List (Option PatternFlag × Span)) : FlagChanges :=
  let (added, removed) := items.span (·.1.isSome)
  added.filterMap (fun item => item.1.map (·, true)) ++
    removed.filterMap (fun item => item.1.map (·, false))

private def flagChanges : ReadPattern FlagChanges := do
  let items ← flagItems [] ((← get).rest.length + 1)
  match items.getLast? with
  | some (none, span) => fail .flagDangling span
  | _ => return changesOf items

private def lookAroundMarks : List (List Char) :=
  [['?', '='], ['?', '!'], ['?', '<', '='], ['?', '<', '!']]

private def opening : ReadPattern Opening := do
  let start ← position
  let parenthesis : Span := ⟨start, start + 1⟩
  let group (changes : FlagChanges) : ReadPattern Opening :=
    return .group ⟨parenthesis, changes, (← get).spaced⟩
  step
  let inner ← position
  for marks in lookAroundMarks do
    if ← accept marks then failFrom start .lookAround
  if (← accept ['?', 'P', '<']) || (← accept ['?', '<']) then
    groupName
    group []
  else if ← accept ['?'] then
    if (← next?).isNone then fail .groupUnclosed parenthesis
    let changes ← flagChanges
    let closes := (← next?) == some ')'
    drop 1
    if closes then
      if changes.isEmpty then fail .nothingRepeated ⟨inner, inner⟩
      return .flags ⟨start, ← position⟩ changes
    else group changes
  else group []

private def operand (group : OpenGroup) : ReadPattern (PatternTree × OpenGroup) :=
  match group.items with
  | item :: items =>
    if item.isRepeatable then return (item, { group with items }) else failHere .nothingRepeated
  | [] => failHere .nothingRepeated

private def repeatItem (group : OpenGroup) (least : Nat) (most : Option Nat) :
    ReadPattern OpenGroup := do
  let (item, group) ← operand group
  drop 1
  let _ ← accept ['?']
  return group.push (.repetition ⟨item.span.start, ← position⟩ least most item)

private def settle (count : Except LocatedFault Nat) : ReadPattern Nat :=
  match count with
  | .ok n => return n
  | .error fault => throw fault

private def counts (start : Nat) : ReadPattern (Nat × Option Nat) := do
  let least ← number
  match ← next? with
  | none => failFrom start .countUnclosed
  | some ',' =>
    step
    match ← next? with
    | none => failFrom start .countUnclosed
    | some '\x7d' => return (← settle least, none)
    | some _ =>
      let least ← settle least
      return (least, ← settle (← number))
  | some _ =>
    let count ← settle least
    return (count, count)

private def repeatCounted (group : OpenGroup) : ReadPattern OpenGroup := do
  let (item, group) ← operand group
  let start ← position
  step
  if (← next?).isNone then failFrom start .countUnclosed
  let (least, most) ← counts start
  if (← next?) != some '\x7d' then failFrom start .countUnclosed
  step
  let _ ← accept ['?']
  if most.any (· < least) then failFrom start .countOrder
  return group.push (.repetition ⟨item.span.start, ← position⟩ least most item)

private def primitive (c : Char) : ReadPattern PatternTree := do
  let place ← position
  let span : Span := ⟨place, place + 1⟩
  match c with
  | '\\' => escape
  | '[' => set
  | c =>
    drop 1
    return match c with
      | '.' => .dot span
      | '^' => .anchor span .lineStart
      | '$' => .anchor span .lineEnd
      | c => .char span { char := c }

private def spacing? (changes : FlagChanges) : Option Bool := changes.lookup .spaced

def groups : Nat → OpenGroup → List OpenGroup → ReadPattern PatternTree
  | 0, group, _ => return group.body (← position)
  | fuel + 1, group, outer => do
    skip
    match ← next? with
    | none =>
      match group.opening with
      | some opening => fail .groupUnclosed opening.span
      | none => return group.body (← position)
    | some '(' =>
      match ← opening with
      | .flags span changes =>
        if let some spaced := spacing? changes then
          modify fun input => { input with spaced }
        groups fuel (group.push (.flags span changes)) outer
      | .group opening =>
        modify fun input =>
          { input with spaced := (spacing? opening.changes).getD opening.wasSpaced }
        let start ← position
        groups fuel { opening := some opening, first := start, start } (group :: outer)
    | some ')' =>
      match group.opening, outer with
      | some opening, around :: outer =>
        let stop ← position
        modify fun input => { input with spaced := opening.wasSpaced }
        drop 1
        let span : Span := ⟨opening.span.start, ← position⟩
        groups fuel (around.push (.group span opening.changes (group.body stop))) outer
      | _, _ => failNext .groupUnopened
    | some '|' =>
      let branch := group.branch (← position)
      drop 1
      let start ← position
      groups fuel { group with start, items := [], branches := branch :: group.branches } outer
    | some '?' => groups fuel (← repeatItem group 0 (some 1)) outer
    | some '*' => groups fuel (← repeatItem group 0 none) outer
    | some '+' => groups fuel (← repeatItem group 1 none) outer
    | some '\x7b' => groups fuel (← repeatCounted group) outer
    | some c => groups fuel (group.push (← primitive c)) outer

end ReadPattern

def nestingLimit : Nat := 250

namespace PatternTree

def ofText (text : List Char) : Except LocatedFault PatternTree := do
  let read := ReadPattern.groups (text.length + 1) { first := 0, start := 0 } []
  let (tree, _) ← read.run { size := text.length, rest := text }
  match tree.tooDeep? nestingLimit with
  | some span => throw { fault := .nested nestingLimit, span }
  | none => return tree

end PatternTree

end RenderCompiler
