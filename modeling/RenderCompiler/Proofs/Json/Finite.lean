import RenderCompiler.Json.Reader
import RenderCompiler.Proofs.Binary64.Range

set_option autoImplicit false

namespace RenderCompiler

open Binary64

namespace NumberSpelling

theorem gatherWhole_lt {n : Nat} (digits : List Char) (small : n < significandLimit) :
    (gatherWhole n digits).1 < significandLimit := by
  induction digits generalizing n with
  | nil => exact small
  | cons c rest ih =>
    unfold gatherWhole
    dsimp only
    split
    next next => exact ih next
    next => exact small

theorem gatherFraction_lt {n : Nat} (digits : List Char) (small : n < significandLimit) :
    (gatherFraction n digits).1 < significandLimit := by
  induction digits generalizing n with
  | nil => exact small
  | cons c rest ih =>
    unfold gatherFraction
    dsimp only
    split
    next next => exact ih next
    next => exact small

theorem biased_ofNat {n : Nat} (small : n < significandLimit) :
    (Binary64.ofNat n).biased.val ≤ 63 + 1024 := by
  refine biased_ofRatio false (by decide) ?_ (by decide)
  rw [Nat.one_mul]
  exact small

theorem isFinite_scale? {n : Nat} {e : Int} {x : Binary64} (small : n < significandLimit)
    (found : scale? n e = some x) : x.isFinite = true := by
  have start : (Binary64.ofNat n).biased.val ≤ 64 + 1023 := biased_ofNat small
  have tenPow (k : Nat) : AtLeastOne (Binary64.tenPow k) :=
    atLeastOne_ofNat (Nat.ne_of_gt (Nat.pow_pos (by decide)))
  have once (k : Nat) :
      ((Binary64.ofNat n).dividedBy (Binary64.tenPow k)).biased.val ≤ 65 + 1023 :=
    biased_dividedBy start (tenPow k) (by decide)
  have twice (k l : Nat) := biased_dividedBy (once k) (tenPow l) (by decide)
  unfold scale? at found
  dsimp only at found
  split at found
  · cases found
    rfl
  · split at found
    · cases found
    · split at found
      · unfold finite? at found
        split at found
        next finite =>
          cases found
          exact finite
        next => cases found
      · split at found
        · cases found
          exact isFinite_of_biased (once _) (by decide)
        · cases found
          exact isFinite_of_biased (twice _ _) (by decide)

end NumberSpelling

def JsonNumber.IsFinite (n : JsonNumber) : Prop := n.toBinary64.isFinite = true

namespace NumberSpelling

theorem isFinite_integer {i : Int} (small : i.natAbs < significandLimit) :
    (JsonNumber.integer i).IsFinite := by
  refine isFinite_of_biased (biased_ofRatio _ (by decide) ?_ (show 63 < 1023 by decide)) (by decide)
  rw [Nat.one_mul]
  exact small

theorem isFinite_real {n : Nat} {e : Int} {negative : Bool} {found : JsonNumber}
    (small : n < significandLimit)
    (read : ((scale? n e).map fun x => JsonNumber.real (if negative then x.negate else x)) =
      some found) : found.IsFinite := by
  obtain ⟨x, scaled, rfl⟩ := Option.map_eq_some_iff.mp read
  have finite := isFinite_scale? small scaled
  cases negative <;> exact finite

theorem isFinite_value? {spelling : NumberSpelling} {n : JsonNumber}
    (found : spelling.value? = some n) : n.IsFinite := by
  have whole := gatherWhole_lt spelling.whole (show 0 < significandLimit by decide)
  have fraction := gatherFraction_lt (spelling.fraction.getD []) whole
  unfold value? at found
  dsimp only at found
  split at found
  · split at found
    · exact isFinite_real whole found
    · split at found
      · cases found
        exact isFinite_integer whole
      · split at found
        · exact isFinite_real whole found
        next signed =>
          cases found
          refine isFinite_integer ?_
          rw [Int.natAbs_neg]
          exact whole
  · split at found
    · exact isFinite_real fraction found
    · exact isFinite_real fraction found

end NumberSpelling

namespace Json

mutual

def IsFinite : Json → Prop
  | .number n => n.IsFinite
  | .array items => AllFinite items
  | .object entries => EntriesFinite entries
  | .null | .boolean _ | .string _ | .unfit | .unfitKey | .broken => True

def AllFinite : List Json → Prop
  | [] => True
  | item :: rest => item.IsFinite ∧ AllFinite rest

def EntriesFinite : List (String × Json) → Prop
  | [] => True
  | (_, value) :: rest => value.IsFinite ∧ EntriesFinite rest

end

theorem entriesFinite_iff (entries : List (String × Json)) :
    EntriesFinite entries ↔ ∀ entry ∈ entries, entry.2.IsFinite := by
  induction entries with
  | nil => simp [EntriesFinite]
  | cons entry rest ih => simp only [EntriesFinite, ih, List.forall_mem_cons]

variable (limit : Option Nat)

theorem isFinite_contain {value : Json} (depth : Nat) (rest : Option (List Char))
    (finite : value.IsFinite) : (contain limit depth value rest).1.IsFinite := by
  unfold contain
  split
  · exact finite
  · dsimp only
    split <;> trivial

theorem isFinite_entry (key : Option String) {value : Json} (finite : value.IsFinite)
    (whole : Bool) :
    (match key with
      | some key => (key, value)
      | none => ("", if whole then .unfitKey else .broken)).2.IsFinite := by
  cases key with
  | some key => exact finite
  | none => cases whole <;> trivial

mutual

theorem isFinite_readValue (steps depth : Nat) (text : List Char) :
    (readValue limit steps depth text).1.IsFinite := by
  cases steps with
  | zero => trivial
  | succ steps =>
    unfold readValue
    split
    · split
      · trivial
      · split <;> trivial
    · split
      · exact isFinite_contain limit depth _ trivial
      next => exact isFinite_contain limit depth _ (allFinite_readItems steps (depth + 1) _)
    · split
      · exact isFinite_contain limit depth _ trivial
      next => exact isFinite_contain limit depth _ (entriesFinite_readEntries steps (depth + 1) _)
    · trivial
    · trivial
    · trivial
    · split
      · trivial
      · split
        · trivial
        next value found => exact NumberSpelling.isFinite_value? found

theorem allFinite_readItems (steps depth : Nat) (text : List Char) :
    AllFinite (readItems limit steps depth text).1 := by
  cases steps with
  | zero => exact ⟨trivial, trivial⟩
  | succ steps =>
    have item := isFinite_readValue steps depth text
    unfold readItems
    dsimp only
    split
    · exact ⟨item, trivial⟩
    · split
      · exact ⟨item, trivial⟩
      next rest _ => exact ⟨item, allFinite_readItems steps depth rest⟩
      · exact ⟨item, trivial, trivial⟩

theorem entriesFinite_readEntries (steps depth : Nat) (text : List Char) :
    EntriesFinite (readEntries limit steps depth text).1 := by
  cases steps with
  | zero => exact ⟨trivial, trivial⟩
  | succ steps =>
    unfold readEntries
    split
    · split
      · exact ⟨trivial, trivial⟩
      · dsimp only
        split
        next rest _ =>
          have value := isFinite_readValue steps depth rest
          have entry (key : Option String) := isFinite_entry key value
            (readValue limit steps depth rest).2.isSome
          split
          · exact (entriesFinite_iff _).mpr (List.forall_mem_singleton.mpr (entry _))
          · split
            · exact (entriesFinite_iff _).mpr (List.forall_mem_singleton.mpr (entry _))
            next rest _ =>
              have others := entriesFinite_readEntries steps depth rest
              rw [entriesFinite_iff] at others ⊢
              exact List.forall_mem_cons.mpr ⟨entry _, others⟩
            · exact (entriesFinite_iff _).mpr (List.forall_mem_cons.mpr
                ⟨entry _, List.forall_mem_singleton.mpr trivial⟩)
        · exact ⟨trivial, trivial⟩
    · exact ⟨trivial, trivial⟩

end

theorem isFinite_readWithin (text : String) : (readWithin limit text).1.IsFinite := by
  unfold readWithin
  exact isFinite_readValue limit _ 0 text.toList

end Json

end RenderCompiler
