import RenderCompiler.Proofs.Json.Literals

set_option autoImplicit false

namespace RenderCompiler

namespace Json

def AllBlank (text : List Char) : Prop := ∀ c ∈ text, isBlank c = true

mutual

/-- The text spells the value, and no blanks stand around it. -/
inductive Spells : Json → List Char → Prop
  | null : Spells .null "null".toList
  | yes : Spells (.boolean true) "true".toList
  | no : Spells (.boolean false) "false".toList
  | number {n : JsonNumber} {text : List Char} (read : NumberSpelling.read? text = some n) :
      Spells (.number n) text
  | string (s : String) : Spells (.string s) (stringText s)
  | noItems : Spells (.array []) ['[', ']']
  | items {items : List Json} {text : List Char} (inside : SpellsItems items text) :
      Spells (.array items) ('[' :: text ++ [']'])
  | noEntries : Spells (.object []) ['\x7b', '\x7d']
  | entries {entries : List (String × Json)} {text : List Char}
      (inside : SpellsEntries entries text) : Spells (.object entries) ('\x7b' :: text ++ ['\x7d'])

inductive SpellsItems : List Json → List Char → Prop
  | last {item : Json} {before text after : List Char} (opened : AllBlank before)
      (spelled : Spells item text) (closed : AllBlank after) :
      SpellsItems [item] (before ++ text ++ after)
  | more {item : Json} {rest : List Json} {before text others : List Char}
      (opened : AllBlank before) (spelled : Spells item text) (later : SpellsItems rest others) :
      SpellsItems (item :: rest) (before ++ text ++ ',' :: others)

inductive SpellsEntries : List (String × Json) → List Char → Prop
  | last {key : String} {value : Json} {before gap text after : List Char}
      (opened : AllBlank before) (apart : AllBlank gap) (spelled : Spells value text)
      (closed : AllBlank after) :
      SpellsEntries [(key, value)] (before ++ stringText key ++ ':' :: (gap ++ text ++ after))
  | more {key : String} {value : Json} {rest : List (String × Json)}
      {before gap text others : List Char} (opened : AllBlank before) (apart : AllBlank gap)
      (spelled : Spells value text) (later : SpellsEntries rest others) :
      SpellsEntries ((key, value) :: rest)
        (before ++ stringText key ++ ':' :: (gap ++ text ++ ',' :: others))

end

theorem allBlank_nil : AllBlank [] := fun _ member => nomatch member

theorem skipBlank_append {before : List Char} (blank : AllBlank before) (rest : List Char) :
    skipBlank (before ++ rest) = skipBlank rest :=
  List.dropWhile_append_of_pos blank

theorem skipBlank_cons {c : Char} (apart : isBlank c = false) (rest : List Char) :
    skipBlank (c :: rest) = c :: rest := by
  simp [skipBlank, apart]

theorem skipBlank_skipBlank (text : List Char) : skipBlank (skipBlank text) = skipBlank text := by
  induction text with
  | nil => rfl
  | cons c rest ih =>
    cases blank : isBlank c with
    | true => simpa [skipBlank, blank] using ih
    | false => rw [skipBlank_cons blank, skipBlank_cons blank]

end Json

namespace NumberSpelling

theorem splitMinus_of_ne {c : Char} (apart : c ≠ '-') (rest : List Char) :
    splitMinus (c :: rest) = (false, c :: rest) := by
  simp [splitMinus, apart]

theorem scan?_first {text : List Char} {found : NumberSpelling × List Char}
    (scanned : scan? text = some found) :
    ∃ c rest, text = c :: rest ∧ (c = '-' ∨ isDigit c = true) := by
  cases text with
  | nil => cases scanned
  | cons c rest =>
    refine ⟨c, rest, rfl, ?_⟩
    by_cases minus : c = '-'
    · exact .inl minus
    · right
      simp only [scan?, splitMinus_of_ne minus] at scanned
      cases digit : isDigit c with
      | true => rfl
      | false => simp [digit] at scanned

end NumberSpelling

namespace Json

theorem not_blank_of_first {c : Char} (first : c = '-' ∨ isDigit c = true) : isBlank c = false := by
  cases blank : isBlank c with
  | false => rfl
  | true =>
    simp only [isBlank, Bool.or_eq_true, beq_iff_eq, or_assoc] at blank
    rcases blank with rfl | rfl | rfl | rfl <;> exact absurd first (by decide)

def Within (limit : Option Nat) (levels : Nat) : Prop := ∀ n ∈ limit, levels < n

theorem Within.mono {limit : Option Nat} {levels more : Nat} (within : Within limit more)
    (le : levels ≤ more) : Within limit levels :=
  fun n member => Nat.lt_of_le_of_lt le (within n member)

section Reading

variable {limit : Option Nat} {steps depth : Nat}

theorem readValue_skipBlank (text : List Char) :
    readValue limit steps depth (skipBlank text) = readValue limit steps depth text := by
  cases steps with
  | zero => rfl
  | succ steps =>
    unfold readValue
    rw [skipBlank_skipBlank]

theorem readValue_blank {before : List Char} (blank : AllBlank before) (text : List Char) :
    readValue limit steps depth (before ++ text) = readValue limit steps depth text := by
  rw [← readValue_skipBlank, skipBlank_append blank, readValue_skipBlank]

theorem readValue_number {text rest : List Char} {spelling : NumberSpelling} {n : JsonNumber}
    (scanned : NumberSpelling.scan? text = some (spelling, rest))
    (value : spelling.value? = some n) :
    readValue limit (steps + 1) depth text = (.number n, some rest) := by
  obtain ⟨c, tail, rfl, first⟩ := NumberSpelling.scan?_first scanned
  rw [readValue, skipBlank_cons (not_blank_of_first first)]
  split
  -- None of the characters that the reader looks for first begins a number.
  iterate 6
    next same =>
      cases same
      exact absurd first (by decide)
  next =>
    rw [scanned]
    dsimp only
    rw [value]

theorem scanString_stringText (s : String) (rest : List Char) :
    ∃ text, stringText s ++ rest = '"' :: text ∧
      scanString text = some (s.toList.map Char.toNat, rest) := by
  refine ⟨s.toList.flatMap escapeChar ++ '"' :: rest, ?_, scanString_escaped rest s.toList⟩
  simp only [stringText, List.cons_append, List.append_assoc, List.nil_append]

theorem readValue_string (s : String) (rest : List Char) :
    readValue limit (steps + 1) depth (stringText s ++ rest) = (.string s, some rest) := by
  obtain ⟨text, same, scanned⟩ := scanString_stringText s rest
  have quote : isBlank '"' = false := rfl
  simp only [readValue, same, skipBlank_cons quote, scanned, joinUnits_chars, String.ofList_toList]

theorem contain_within {value : Json} (within : Within limit (depth + 1))
    (rest : Option (List Char)) : contain limit depth value rest = (value, rest) := by
  unfold contain
  rw [if_pos]
  cases limit with
  | none => rfl
  | some n => simpa using within n rfl

theorem readItems_skipBlank (text : List Char) :
    readItems limit steps depth (skipBlank text) = readItems limit steps depth text := by
  cases steps with
  | zero => rfl
  | succ steps => simp only [readItems, readValue_skipBlank]

theorem readEntries_skipBlank (text : List Char) :
    readEntries limit steps depth (skipBlank text) = readEntries limit steps depth text := by
  cases steps with
  | zero => rfl
  | succ steps => simp only [readEntries, skipBlank_skipBlank]

theorem readItems_bracket (rest : List Char) :
    (readItems limit steps depth (']' :: rest)).2 = none := by
  cases steps with
  | zero => rfl
  | succ steps => cases steps <;> rfl

theorem readEntries_brace (rest : List Char) :
    (readEntries limit steps depth ('\x7d' :: rest)).2 = none := by
  cases steps <;> rfl

theorem readValue_items {text rest : List Char} {items : List Json}
    (within : Within limit (depth + 1))
    (inside : readItems limit steps (depth + 1) text = (items, some rest)) :
    readValue limit (steps + 1) depth ('[' :: text) = (.array items, some rest) := by
  have opening : isBlank '[' = false := rfl
  simp only [readValue, skipBlank_cons opening]
  split
  next after closed =>
    rw [← readItems_skipBlank, closed] at inside
    have unread : (readItems limit steps (depth + 1) (']' :: after)).2 = none :=
      readItems_bracket after
    rw [inside] at unread
    cases unread
  next => rw [readItems_skipBlank, inside, contain_within within]

theorem readValue_entries {text rest : List Char} {entries : List (String × Json)}
    (within : Within limit (depth + 1))
    (inside : readEntries limit steps (depth + 1) text = (entries, some rest)) :
    readValue limit (steps + 1) depth ('\x7b' :: text) = (.object entries, some rest) := by
  have opening : isBlank '\x7b' = false := rfl
  simp only [readValue, skipBlank_cons opening]
  split
  next after closed =>
    rw [← readEntries_skipBlank, closed] at inside
    have unread : (readEntries limit steps (depth + 1) ('\x7d' :: after)).2 = none :=
      readEntries_brace after
    rw [inside] at unread
    cases unread
  next => rw [readEntries_skipBlank, inside, contain_within within]

theorem readItems_last {item : Json} {text after rest : List Char}
    (first : readValue limit steps depth text = (item, some (after ++ ']' :: rest)))
    (closed : AllBlank after) :
    readItems limit (steps + 1) depth text = ([item], some rest) := by
  have bracket : isBlank ']' = false := rfl
  simp only [readItems, first, skipBlank_append closed, skipBlank_cons bracket]

theorem readItems_more {item : Json} {items : List Json} {text others rest : List Char}
    (first : readValue limit steps depth text = (item, some (',' :: others)))
    (later : readItems limit steps depth others = (items, some rest)) :
    readItems limit (steps + 1) depth text = (item :: items, some rest) := by
  have comma : isBlank ',' = false := rfl
  simp only [readItems, first, skipBlank_cons comma, later]

theorem readEntries_last {key : String} {value : Json} {text after rest : List Char}
    (first : readValue limit steps depth text = (value, some (after ++ '\x7d' :: rest)))
    (closed : AllBlank after) :
    readEntries limit (steps + 1) depth (stringText key ++ ':' :: text) =
      ([(key, value)], some rest) := by
  obtain ⟨chars, same, scanned⟩ := scanString_stringText key (':' :: text)
  have quote : isBlank '"' = false := rfl
  have colon : isBlank ':' = false := rfl
  have brace : isBlank '\x7d' = false := rfl
  simp only [readEntries, same, skipBlank_cons quote, scanned, joinUnits_chars, Option.map_some,
    String.ofList_toList, skipBlank_cons colon, first, skipBlank_append closed,
    skipBlank_cons brace]

theorem readEntries_more {key : String} {value : Json} {entries : List (String × Json)}
    {text others rest : List Char}
    (first : readValue limit steps depth text = (value, some (',' :: others)))
    (later : readEntries limit steps depth others = (entries, some rest)) :
    readEntries limit (steps + 1) depth (stringText key ++ ':' :: text) =
      ((key, value) :: entries, some rest) := by
  obtain ⟨chars, same, scanned⟩ := scanString_stringText key (':' :: text)
  have quote : isBlank '"' = false := rfl
  have colon : isBlank ':' = false := rfl
  have comma : isBlank ',' = false := rfl
  simp only [readEntries, same, skipBlank_cons quote, scanned, joinUnits_chars, Option.map_some,
    String.ofList_toList, skipBlank_cons colon, first, skipBlank_cons comma, later]

theorem readEntries_blank {before : List Char} (blank : AllBlank before) (text : List Char) :
    readEntries limit steps depth (before ++ text) = readEntries limit steps depth text := by
  rw [← readEntries_skipBlank, skipBlank_append blank, readEntries_skipBlank]

theorem ended_cons {c : Char} (apart : NumberSpelling.extendsNumber c = false)
    (rest : List Char) : NumberSpelling.Ended (c :: rest) := by
  rintro d ⟨⟩
  exact apart

theorem ended_append {after rest : List Char} (blank : AllBlank after)
    (ended : NumberSpelling.Ended rest) : NumberSpelling.Ended (after ++ rest) := by
  cases after with
  | nil => exact ended
  | cons c after =>
    refine ended_cons ?_ _
    have first := blank c List.mem_cons_self
    simp only [isBlank, Bool.or_eq_true, beq_iff_eq, or_assoc] at first
    rcases first with rfl | rfl | rfl | rfl <;> rfl

mutual

theorem Spells.read {value : Json} {text : List Char} (spelled : Spells value text)
    (steps depth : Nat) (rest : List Char) (within : Within limit (depth + value.height))
    (enough : text.length < steps) (ended : NumberSpelling.Ended rest) :
    readValue limit steps depth (text ++ rest) = (value, some rest) := by
  obtain ⟨steps, rfl⟩ := Nat.exists_eq_add_one_of_ne_zero (Nat.ne_zero_of_lt enough)
  match spelled with
  | .null => rfl
  | .yes => rfl
  | .no => rfl
  | .number read =>
    unfold NumberSpelling.read? at read
    split at read
    next spelling scanned =>
      exact readValue_number (NumberSpelling.scan?_append ended scanned) read
    next => cases read
  | .string s => exact readValue_string s rest
  | .noItems => exact contain_within within (some rest)
  | .noEntries => exact contain_within within (some rest)
  | @Spells.items items text inside =>
    simp only [height] at within
    simp only [List.cons_append, List.length_cons, List.length_append, List.length_nil] at enough
    have read := inside.read steps (depth + 1) rest (within.mono (by omega)) (by omega)
    rw [List.cons_append, List.cons_append, List.append_assoc]
    exact readValue_items (within.mono (by omega)) read
  | @Spells.entries entries text inside =>
    simp only [height] at within
    simp only [List.cons_append, List.length_cons, List.length_append, List.length_nil] at enough
    have read := inside.read steps (depth + 1) rest (within.mono (by omega)) (by omega)
    rw [List.cons_append, List.cons_append, List.append_assoc]
    exact readValue_entries (within.mono (by omega)) read

theorem SpellsItems.read {items : List Json} {text : List Char} (spelled : SpellsItems items text)
    (steps depth : Nat) (rest : List Char) (within : Within limit (depth + itemsHeight items))
    (enough : text.length + 1 < steps) :
    readItems limit steps depth (text ++ ']' :: rest) = (items, some rest) := by
  obtain ⟨steps, rfl⟩ := Nat.exists_eq_add_one_of_ne_zero (Nat.ne_zero_of_lt enough)
  match spelled with
  | @SpellsItems.last item before text after opened spelled closed =>
    simp only [itemsHeight, Nat.max_zero, List.length_append] at within enough
    have ended : NumberSpelling.Ended (']' :: rest) := ended_cons rfl rest
    have first := spelled.read steps depth _ within (by omega) (ended_append closed ended)
    rw [← readValue_blank opened] at first
    simp only [List.append_assoc]
    exact readItems_last first closed
  | @SpellsItems.more item items before text others opened spelled later =>
    simp only [itemsHeight, List.length_append, List.length_cons] at within enough
    have ended : NumberSpelling.Ended (',' :: (others ++ ']' :: rest)) := ended_cons rfl _
    have first := spelled.read steps depth _ (within.mono (by omega)) (by omega) ended
    have second := later.read steps depth rest (within.mono (by omega)) (by omega)
    rw [← readValue_blank opened] at first
    simp only [List.append_assoc]
    exact readItems_more first second

theorem SpellsEntries.read {entries : List (String × Json)} {text : List Char}
    (spelled : SpellsEntries entries text) (steps depth : Nat) (rest : List Char)
    (within : Within limit (depth + entriesHeight entries))
    (enough : text.length + 1 < steps) :
    readEntries limit steps depth (text ++ '\x7d' :: rest) = (entries, some rest) := by
  obtain ⟨steps, rfl⟩ := Nat.exists_eq_add_one_of_ne_zero (Nat.ne_zero_of_lt enough)
  match spelled with
  | @SpellsEntries.last key value before gap text after opened apart spelled closed =>
    simp only [entriesHeight, Nat.max_zero, List.length_append, List.length_cons] at within enough
    have ended : NumberSpelling.Ended ('\x7d' :: rest) := ended_cons rfl rest
    have first := spelled.read steps depth _ within (by omega) (ended_append closed ended)
    rw [← readValue_blank apart] at first
    simp only [List.append_assoc, List.cons_append]
    rw [readEntries_blank opened]
    exact readEntries_last first closed
  | @SpellsEntries.more key value entries before gap text others opened apart spelled later =>
    simp only [entriesHeight, List.length_append, List.length_cons] at within enough
    have ended : NumberSpelling.Ended (',' :: (others ++ '\x7d' :: rest)) := ended_cons rfl _
    have first := spelled.read steps depth _ (within.mono (by omega)) (by omega) ended
    have second := later.read steps depth rest (within.mono (by omega)) (by omega)
    rw [← readValue_blank apart] at first
    simp only [List.append_assoc, List.cons_append]
    rw [readEntries_blank opened]
    exact readEntries_more first second

end

end Reading

end Json

end RenderCompiler
