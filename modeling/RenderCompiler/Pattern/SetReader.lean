import RenderCompiler.Pattern.Escape

set_option autoImplicit false

namespace RenderCompiler

structure OpenSet where
  start : Nat
  opening : Span
  negated : Bool
  place : Nat
  left : Option (SetOperator × SetTree) := none
  items : List SetTree := []

namespace OpenSet

def push (opened : OpenSet) (item : SetTree) : OpenSet :=
  { opened with items := item :: opened.items }

def body (opened : OpenSet) : SetTree :=
  let right := SetTree.ofItems opened.place opened.items.reverse
  match opened.left with
  | none => right
  | some (operator, left) => .operation ⟨left.span.start, right.span.stop⟩ operator left right

end OpenSet

def SetOperator.ofChar? : Char → Option SetOperator
  | '&' => some .intersection
  | '-' => some .difference
  | '~' => some .exclusive
  | _ => none

def namedSet? : List Char → Option (Bool × CharSet × Nat)
  | '[' :: ':' :: rest =>
    let negated := rest.head? == some '^'
    let name := (if negated then rest.drop 1 else rest).takeWhile (· != ':')
    let size := name.length + if negated then 3 else 2
    if [':', ']'].isPrefixOf (rest.drop (size - 2)) then
      (CharSet.named? (String.ofList name)).map fun set => (negated, set, size + 2)
    else none
  | _ => none

def PatternTree.writtenChar? : PatternTree → Option WrittenChar
  | .char _ c => some c
  | _ => none

def PatternTree.setItem? : PatternTree → Option SetTree
  | .char place c => some (.char place c)
  | .property place name => some (.property place name)
  | .shorthand place kind negated => some (.shorthand place kind negated)
  | _ => none

namespace ReadPattern

private def setChar : ReadPattern PatternTree := do
  match ← next? with
  | none => failHere .setUnclosed
  | some '\\' => escape
  | some char =>
    let place ← position
    drop 1
    return .char ⟨place, place + 1⟩ { char }

private def setItem (opening : Span) : ReadPattern SetTree := do
  let first ← setChar
  skip
  if (← next?).isNone then fail .setUnclosed opening
  let second := (← get).second?
  if (← next?) != some '-' || second == some ']' || second == some '-' then
    match first.setItem? with
    | some item => return item
    | none => fail .setEscape first.span
  else
    step
    if (← next?).isNone then fail .setUnclosed opening
    let last ← setChar
    match first.writtenChar?, last.writtenChar? with
    | some low, some high =>
      if low.char ≤ high.char then return .range first.span low last.span high
      else fail .rangeOrder ⟨first.span.start, last.span.stop⟩
    | none, _ => fail .rangeBound first.span
    | some _, none => fail .rangeBound last.span

private def leadingHyphens (start : Nat) : Nat → ReadPattern (List SetTree)
  | 0 => return []
  | fuel + 1 => do
    if (← next?) != some '-' then return []
    let place ← position
    step
    if (← next?).isNone then fail .setUnclosed ⟨start, start⟩
    return .char ⟨place, place + 1⟩ { char := '-' } :: (← leadingHyphens start fuel)

private def openSet : ReadPattern OpenSet := do
  let start ← position
  step
  let negated := (← next?) == some '^'
  if negated then step
  if (← next?).isNone then failFrom start .setUnclosed
  let place ← position
  let mut items ← leadingHyphens start (← get).rest.length
  if items.isEmpty && (← next?) == some ']' then
    let bracket ← position
    step
    if (← next?).isNone then failFrom start .setUnclosed
    items := [.char ⟨bracket, bracket + 1⟩ { char := ']' }]
  let opening : Span := ⟨start, ← position⟩
  return { start, opening, negated, place, items := items.reverse }

private def setItems : Nat → OpenSet → ReadPattern SetTree
  | 0, opened => fail .setUnclosed opened.opening
  | fuel + 1, opened => do
    skip
    match (← get).rest with
    | [] => fail .setUnclosed opened.opening
    | ']' :: _ =>
      drop 1
      return .bracketed ⟨opened.start, ← position⟩ opened.negated opened.body
    | '[' :: rest =>
      match namedSet? ('[' :: rest) with
      | some (negated, set, size) =>
        let start ← position
        drop size
        setItems fuel (opened.push (.named ⟨start, start + size⟩ negated set))
      | none =>
        let inner ← setItems fuel (← openSet)
        setItems fuel (opened.push inner)
    | c :: rest =>
      match SetOperator.ofChar? c with
      | some operator =>
        if rest.head? == some c then
          drop 2
          let left := some (operator, opened.body)
          setItems fuel { opened with left, items := [], place := ← position }
        else setItems fuel (opened.push (← setItem opened.opening))
      | none => setItems fuel (opened.push (← setItem opened.opening))

def set : ReadPattern PatternTree := do
  let fuel := (← get).rest.length + 1
  match ← setItems fuel (← openSet) with
  | .bracketed span negated body => return .set span negated body
  | body => return .set body.span false body

end ReadPattern

end RenderCompiler
