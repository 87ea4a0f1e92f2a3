import Mathlib.Data.List.TakeWhile
import RenderCompiler.Proofs.Json.Finite
import RenderCompiler.Proofs.Json.Spelled

set_option autoImplicit false

namespace RenderCompiler

namespace JsonNumber

def ReadsBack (n : JsonNumber) : Prop :=
  (NumberSpelling.read? n.text).map JsonNumber.toBinary64 = some n.toBinary64

def IsFiniteReal (n : JsonNumber) : Prop := ∃ x, n = .real x ∧ x.isFinite = true

-- Integers are told apart from other numbers by these characters.
def marksReal (c : Char) : Bool := c == '.' || c == 'e'

theorem marksReal_positional {d : Decimal} (below : d.exponent < 0) :
    ∃ c ∈ d.positional, marksReal c = true := by
  refine ⟨'.', ?_, rfl⟩
  unfold Decimal.positional
  rw [if_neg (by omega)]
  split
  · exact List.mem_append_right _ List.mem_cons_self
  · exact List.mem_cons_of_mem _ List.mem_cons_self

theorem marksReal_decimalText (d : Decimal) : ∃ c ∈ decimalText d, marksReal c = true := by
  unfold decimalText
  split
  · exact ⟨'.', List.mem_append_right _ List.mem_cons_self, rfl⟩
  next large =>
    split
    · exact marksReal_positional (by omega)
    · exact ⟨'e', List.mem_append_right _ List.mem_cons_self, rfl⟩

theorem marksReal_realText {x : Binary64} (finite : x.isFinite = true) :
    ∃ c ∈ realText x, marksReal c = true := by
  have magnitude : ∃ c ∈ if x.isZero then "0.0".toList else decimalText (x.shortest .even),
      marksReal c = true := by
    split
    · exact ⟨'.', by decide, rfl⟩
    · exact marksReal_decimalText _
  obtain ⟨c, member, marks⟩ := magnitude
  refine ⟨c, ?_, marks⟩
  simp only [realText, finite, Bool.not_true, Bool.false_eq_true, if_false]
  cases x.negative with
  | false => exact member
  | true => exact List.mem_cons_of_mem _ member

end JsonNumber

namespace NumberSpelling

theorem value?_integer {spelling : NumberSpelling} {i : Int}
    (value : spelling.value? = some (.integer i)) :
    spelling.fraction = none ∧ spelling.power = none := by
  have real {n : Nat} {e : Int} {negative : Bool}
      (same : ((scale? n e).map fun x => JsonNumber.real (if negative then x.negate else x)) =
        some (.integer i)) : False := by
    obtain ⟨x, -, differ⟩ := Option.map_eq_some_iff.mp same
    cases differ
  unfold value? at value
  dsimp only at value
  split at value
  next fraction power => exact ⟨fraction, power⟩
  next =>
    split at value
    · exact (real value).elim
    · exact (real value).elim

theorem splitFraction_none {text rest : List Char} (split : splitFraction text = (none, rest)) :
    rest = text := by
  unfold splitFraction at split
  split at split
  · cases split
  · cases split
    rfl

theorem splitPower?_none {text rest : List Char} (split : splitPower? text = some (none, rest)) :
    rest = text := by
  unfold splitPower? at split
  split at split
  · cases split
    rfl
  · split at split
    · dsimp only at split
      split at split
      · cases split
      · cases split
    · cases split
      rfl

theorem of_splitMinus {text : List Char} {holds : Char → Prop}
    (each : ∀ c ∈ (splitMinus text).2, holds c) : ∀ c ∈ text, c = '-' ∨ holds c := by
  intro c member
  cases text with
  | nil => cases member
  | cons first rest =>
    by_cases minus : first = '-'
    · cases minus
      rcases List.mem_cons.mp member with rfl | later
      · exact .inl rfl
      · exact .inr (each c later)
    · rw [splitMinus_of_ne minus] at each
      exact .inr (each c member)

theorem scan?_integer {text : List Char} {spelling : NumberSpelling}
    (scanned : scan? text = some (spelling, [])) (fraction : spelling.fraction = none)
    (power : spelling.power = none) : ∀ c ∈ text, c = '-' ∨ isDigit c = true := by
  simp only [scan?] at scanned
  split at scanned
  · cases scanned
  split at scanned
  · cases scanned
  obtain ⟨⟨found, left⟩, split, same⟩ := Option.map_eq_some_iff.mp scanned
  cases same
  cases power
  have unpowered := splitPower?_none split
  have whole := splitFraction_none (Prod.ext fraction rfl)
  exact of_splitMinus (List.dropWhile_eq_nil_iff.mp (whole.symm.trans unpowered.symm))

theorem read?_realText {x : Binary64} (finite : x.isFinite = true)
    (back : (JsonNumber.real x).ReadsBack) :
    read? (JsonNumber.realText x) = some (.real x) := by
  obtain ⟨n, read, same⟩ := Option.map_eq_some_iff.mp back
  change read? (JsonNumber.realText x) = some n at read
  rw [read]
  cases n with
  | real y => rw [show y = x from same]
  | integer i =>
    obtain ⟨c, member, marks⟩ := JsonNumber.marksReal_realText finite
    unfold read? at read
    split at read
    next spelling scanned =>
      obtain ⟨fraction, power⟩ := value?_integer read
      simp only [JsonNumber.marksReal, Bool.or_eq_true, beq_iff_eq] at marks
      have integral := scan?_integer scanned fraction power c member
      rcases marks with rfl | rfl
      · exact absurd integral (by decide)
      · exact absurd integral (by decide)
    next => cases read

end NumberSpelling

namespace Json

mutual

def numbers : Json → List JsonNumber
  | .number n => [n]
  | .array items => itemsNumbers items
  | .object entries => entriesNumbers entries
  | .null | .boolean _ | .string _ | .unfit | .unfitKey | .broken => []

def itemsNumbers : List Json → List JsonNumber
  | [] => []
  | item :: rest => item.numbers ++ itemsNumbers rest

def entriesNumbers : List (String × Json) → List JsonNumber
  | [] => []
  | (_, value) :: rest => value.numbers ++ entriesNumbers rest

end

section Each

variable (p : JsonNumber → Prop)

mutual

def Each : Json → Prop
  | .number n => p n
  | .array items => EachItem items
  | .object entries => EachEntry entries
  | .null | .boolean _ | .string _ => True
  | .unfit | .unfitKey | .broken => False

def EachItem : List Json → Prop
  | [] => True
  | item :: rest => item.Each ∧ EachItem rest

def EachEntry : List (String × Json) → Prop
  | [] => True
  | (_, value) :: rest => value.Each ∧ EachEntry rest

end

mutual

theorem each_iff (value : Json) :
    value.Each p ↔ value.intact = true ∧ ∀ n ∈ value.numbers, p n := by
  cases value with
  | null | boolean | string | number | unfit | unfitKey | broken =>
    simp [Each, intact, numbers]
  | array items => exact eachItem_iff items
  | object entries => exact eachEntry_iff entries

theorem eachItem_iff (items : List Json) :
    EachItem p items ↔ allIntact items = true ∧ ∀ n ∈ itemsNumbers items, p n := by
  cases items with
  | nil => simp [EachItem, allIntact, itemsNumbers]
  | cons item rest =>
    simp only [EachItem, allIntact, itemsNumbers, each_iff item, eachItem_iff rest,
      Bool.and_eq_true, List.forall_mem_append]
    exact and_and_and_comm

theorem eachEntry_iff (entries : List (String × Json)) :
    EachEntry p entries ↔
      allEntriesIntact entries = true ∧ ∀ n ∈ entriesNumbers entries, p n := by
  cases entries with
  | nil => simp [EachEntry, allEntriesIntact, entriesNumbers]
  | cons entry rest =>
    obtain ⟨key, value⟩ := entry
    simp only [EachEntry, allEntriesIntact, entriesNumbers, each_iff value, eachEntry_iff rest,
      Bool.and_eq_true, List.forall_mem_append]
    exact and_and_and_comm

end

end Each

theorem eachItem_map {α : Type} {p : JsonNumber → Prop} {encode : α → Json} {items : List α}
    (each : ∀ a ∈ items, (encode a).Each p) : EachItem p (items.map encode) := by
  induction items with
  | nil => trivial
  | cons a rest ih =>
    obtain ⟨first, others⟩ := List.forall_mem_cons.mp each
    exact ⟨first, ih others⟩

theorem each_ofStrings {p : JsonNumber → Prop} (items : List String) : (ofStrings items).Each p :=
  eachItem_map fun _ _ => trivial

def ReadsAsItself (n : JsonNumber) : Prop := NumberSpelling.read? n.text = some n

abbrev Readable (value : Json) : Prop := value.Each ReadsAsItself

theorem readable_of_each {value : Json} (each : value.Each JsonNumber.IsFiniteReal)
    (back : ∀ n ∈ value.numbers, n.IsFinite → n.ReadsBack) : value.Readable := by
  obtain ⟨whole, real⟩ := (each_iff _ value).mp each
  refine (each_iff _ value).mpr ⟨whole, fun n member => ?_⟩
  obtain ⟨x, rfl, finite⟩ := real n member
  exact NumberSpelling.read?_realText finite (back _ member finite)

theorem allBlank_newline (level : Nat) : AllBlank (newline level) := by
  intro c member
  rcases List.mem_cons.mp member with rfl | blank
  · rfl
  · rw [List.eq_of_mem_replicate blank]
    rfl

mutual

theorem spells_compact (value : Json) (readable : value.Readable) :
    Spells value value.compact := by
  cases value with
  | null => exact .null
  | boolean b =>
    cases b with
    | true => exact .yes
    | false => exact .no
  | number n => exact .number readable
  | string s => exact .string s
  | array items =>
    cases items with
    | nil => exact .noItems
    | cons item rest => exact .items (spells_compactItems (item :: rest) (by simp) readable)
  | object entries =>
    cases entries with
    | nil => exact .noEntries
    | cons entry rest => exact .entries (spells_compactEntries (entry :: rest) (by simp) readable)
  | unfit | unfitKey | broken => exact readable.elim

theorem spells_compactItems (items : List Json) (notNil : items ≠ [])
    (readable : EachItem ReadsAsItself items) : SpellsItems items (compactItems items) := by
  cases items with
  | nil => exact absurd rfl notNil
  | cons item rest =>
    have first := spells_compact item readable.1
    cases rest with
    | nil =>
      have last := SpellsItems.last allBlank_nil first allBlank_nil
      rwa [List.append_nil] at last
    | cons next rest =>
      exact .more allBlank_nil first (spells_compactItems (next :: rest) (by simp) readable.2)

theorem spells_compactEntries (entries : List (String × Json)) (notNil : entries ≠ [])
    (readable : EachEntry ReadsAsItself entries) :
    SpellsEntries entries (compactEntries entries) := by
  cases entries with
  | nil => exact absurd rfl notNil
  | cons entry rest =>
    obtain ⟨key, value⟩ := entry
    have first := spells_compact value readable.1
    cases rest with
    | nil =>
      have last : SpellsEntries [(key, value)] _ :=
        .last allBlank_nil allBlank_nil first allBlank_nil
      rwa [List.append_nil] at last
    | cons next rest =>
      have later := spells_compactEntries (next :: rest) (by simp) readable.2
      rw [compactEntries, List.append_assoc]
      · exact .more allBlank_nil allBlank_nil first later
      · simp

end

mutual

theorem spells_indented (level : Nat) (value : Json) (readable : value.Readable) :
    Spells value (value.indented level) := by
  cases value with
  | null => exact .null
  | boolean b =>
    cases b with
    | true => exact .yes
    | false => exact .no
  | number n => exact .number readable
  | string s => exact .string s
  | array items =>
    cases items with
    | nil => exact .noItems
    | cons item rest =>
      exact .items (spells_indentedItems level (level + 1) (item :: rest) (by simp) readable)
  | object entries =>
    cases entries with
    | nil => exact .noEntries
    | cons entry rest =>
      exact .entries (spells_indentedEntries level (level + 1) (entry :: rest) (by simp) readable)
  | unfit | unfitKey | broken => exact readable.elim

theorem spells_indentedItems (outer level : Nat) (items : List Json) (notNil : items ≠ [])
    (readable : EachItem ReadsAsItself items) :
    SpellsItems items (indentedItems level items ++ newline outer) := by
  cases items with
  | nil => exact absurd rfl notNil
  | cons item rest =>
    have first := spells_indented level item readable.1
    cases rest with
    | nil => exact .last (allBlank_newline level) first (allBlank_newline outer)
    | cons next rest =>
      have later := spells_indentedItems outer level (next :: rest) (by simp) readable.2
      rw [indentedItems, List.append_assoc]
      · exact .more (allBlank_newline level) first later
      · simp

theorem spells_indentedEntries (outer level : Nat) (entries : List (String × Json))
    (notNil : entries ≠ []) (readable : EachEntry ReadsAsItself entries) :
    SpellsEntries entries (indentedEntries level entries ++ newline outer) := by
  have gap : AllBlank [' '] := List.forall_mem_singleton.mpr rfl
  cases entries with
  | nil => exact absurd rfl notNil
  | cons entry rest =>
    obtain ⟨key, value⟩ := entry
    have first := spells_indented level value readable.1
    cases rest with
    | nil =>
      rw [indentedEntries, List.append_assoc]
      exact .last (allBlank_newline level) gap first (allBlank_newline outer)
    | cons next rest =>
      have later := spells_indentedEntries outer level (next :: rest) (by simp) readable.2
      rw [indentedEntries, List.append_assoc, List.append_assoc]
      · exact .more (allBlank_newline level) gap first later
      · simp

end

theorem Spells.readWithin {limit : Option Nat} {value : Json} {text after : List Char}
    (spelled : Spells value text) (within : Within limit value.height) (blank : AllBlank after) :
    readWithin limit (String.ofList (text ++ after)) = (value, true) := by
  have ended : NumberSpelling.Ended after := by
    rw [← List.append_nil after]
    exact ended_append blank fun c none => by cases none
  have read := spelled.read (2 * (text ++ after).length + 2) 0 after
    (within.mono (Nat.le_of_eq (Nat.zero_add _))) (by rw [List.length_append]; omega) ended
  have skipped := skipBlank_append blank []
  rw [List.append_nil] at skipped
  simp only [Json.readWithin, String.toList_ofList, read, Option.map_some, skipped]
  rfl

section Whole

variable {limit : Option Nat} {value : Json} (readable : value.Readable)
  (within : Within limit value.height)

include readable within

theorem readWithin_text : Json.readWithin limit value.text = (value, true) := by
  have read := (spells_compact value readable).readWithin within allBlank_nil
  rwa [List.append_nil] at read

theorem readWithin_prettyText : Json.readWithin limit value.prettyText = (value, true) := by
  have read := (spells_indented 0 value readable).readWithin within allBlank_nil
  rwa [List.append_nil] at read

theorem readWithin_prettyLine :
    Json.readWithin limit (value.prettyText ++ "\n") = (value, true) := by
  have feed : AllBlank ['\n'] := List.forall_mem_singleton.mpr rfl
  have read := (spells_indented 0 value readable).readWithin within feed
  rwa [String.ofList_append] at read

end Whole

end Json

end RenderCompiler
