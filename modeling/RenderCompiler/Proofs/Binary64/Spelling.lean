import RenderCompiler.Binary64.Reading
import RenderCompiler.Script.Number

set_option autoImplicit false

namespace RenderCompiler

-- Digits of a whole number. A zero stands alone.
structure IsWhole (text : List Char) : Prop where
  digits : ∀ c ∈ text, isDigit c = true
  notNil : text ≠ []
  leading : text.head? = some '0' → text = ['0']

inductive IsMagnitude : List Char → Prop
  | whole {whole : List Char} (isWhole : IsWhole whole) : IsMagnitude whole
  | fraction {whole fraction : List Char} (isWhole : IsWhole whole)
      (digits : ∀ c ∈ fraction, isDigit c = true) (notNil : fraction ≠ []) :
      IsMagnitude (whole ++ '.' :: fraction)

inductive IsSpelling : List Char → Prop
  | plain {magnitude : List Char} (isMagnitude : IsMagnitude magnitude) : IsSpelling magnitude
  | negative {magnitude : List Char} (isMagnitude : IsMagnitude magnitude) :
      IsSpelling ('-' :: magnitude)

theorem IsWhole.head {text : List Char} (isWhole : IsWhole text) :
    ∃ c rest, isDigit c = true ∧ text = c :: rest := by
  cases text with
  | nil => exact absurd rfl isWhole.notNil
  | cons c rest => exact ⟨c, rest, isWhole.digits c List.mem_cons_self, rfl⟩

theorem IsMagnitude.head {text : List Char} (isMagnitude : IsMagnitude text) :
    ∃ c rest, isDigit c = true ∧ text = c :: rest := by
  cases isMagnitude with
  | whole isWhole => exact isWhole.head
  | fraction isWhole _ _ =>
    obtain ⟨c, rest, digit, chars⟩ := isWhole.head
    exact ⟨c, _, digit, by rw [chars, List.cons_append]⟩

section Digits

theorem head?_or_of_ne_nil {text : List Char} (notNil : text ≠ []) (other : Option Char) :
    text.head?.or other = text.head? := by
  cases text with
  | nil => exact absurd rfl notNil
  | cons c rest => rfl

theorem isDigit_of_mem_toDigits {n : Nat} {c : Char} (member : c ∈ Nat.toDigits 10 n) :
    isDigit c = true :=
  Nat.isDigit_of_mem_toDigits (by decide) (by decide) member

theorem head_toDigits {n : Nat} (positive : n ≠ 0) : (Nat.toDigits 10 n).head? ≠ some '0' := by
  induction n using Nat.strongRecOn with
  | ind n ih =>
    rw [Nat.toDigits_eq_if (by decide)]
    split
    next small =>
      have each : ∀ d : Fin 10, d.val ≠ 0 → [d.val.digitChar].head? ≠ some '0' := by decide
      exact each ⟨n, small⟩ positive
    next large =>
      have before := ih (n / 10) (by omega) (by omega)
      rwa [List.head?_append, head?_or_of_ne_nil Nat.toDigits_ne_nil]

theorem isWhole_toDigits (n : Nat) : IsWhole (Nat.toDigits 10 n) where
  digits _ := isDigit_of_mem_toDigits
  notNil := Nat.toDigits_ne_nil
  leading zero := by
    by_cases none : n = 0
    · rw [none]
      rfl
    · exact absurd zero (head_toDigits none)

end Digits

namespace Decimal

variable {d : Decimal}

theorem head_digits (positive : d.coefficient ≠ 0) : d.digits.head? ≠ some '0' :=
  head_toDigits positive

theorem digits_ne_nil : d.digits ≠ [] := Nat.toDigits_ne_nil

theorem isMagnitude_positional (positive : d.coefficient ≠ 0) : IsMagnitude d.positional := by
  have digits : ∀ c ∈ d.digits, isDigit c = true := fun _ => isDigit_of_mem_toDigits
  have zeros (n : Nat) : ∀ c ∈ List.replicate n '0', isDigit c = true := by
    intro c member
    rw [List.eq_of_mem_replicate member]
    rfl
  have head := head_digits positive
  unfold positional
  split
  next =>
    refine .whole ⟨?_, by simp [digits_ne_nil], ?_⟩
    · intro c member
      rcases List.mem_append.mp member with own | zero
      · exact digits c own
      · exact zeros _ c zero
    · intro leading
      rw [List.head?_append, head?_or_of_ne_nil digits_ne_nil] at leading
      exact absurd leading head
  next negative =>
    split
    next within =>
      have short : d.pointAt.toNat < d.digits.length := by
        unfold pointAt at within ⊢
        omega
      refine .fraction ⟨fun c member => digits c (List.mem_of_mem_take member), ?_, ?_⟩
        (fun c member => digits c (List.mem_of_mem_drop member)) ?_
      · rw [ne_eq, List.take_eq_nil_iff]
        rintro (none | none)
        · omega
        · exact digits_ne_nil none
      · intro leading
        rw [List.head?_take, if_neg (by omega)] at leading
        exact absurd leading head
      · rw [ne_eq, List.drop_eq_nil_iff]
        omega
    next =>
      have zero : IsWhole ['0'] :=
        ⟨List.forall_mem_singleton.mpr rfl, by decide, fun _ => rfl⟩
      refine .fraction zero ?_ ?_
      · intro c member
        rcases List.mem_append.mp member with zero | own
        · exact zeros _ c zero
        · exact digits c own
      · simp [digits_ne_nil]

end Decimal

namespace Binary64

section Shortest

variable {x : Binary64} (positive : x.significand ≠ 0) {tie : Tie}

include positive

theorem not_admits_zero (k : Int) : x.admits k 0 = false := by
  have gap : x.lowerGap ≤ 2 := by
    unfold lowerGap
    split <;> decide
  have unit : 0 < (x.gridScale k).2 :=
    Nat.mul_pos (Nat.pow_pos (by decide)) (Nat.pow_pos (by decide))
  have low : 0 < (4 * x.significand - x.lowerGap) * (x.gridScale k).2 :=
    Nat.mul_pos (by omega) unit
  simp only [admits, Nat.zero_mul]
  split
  · simpa using Nat.ne_of_gt low
  · simp

theorem nearestOnGrid?_positive {k : Int} {d : Decimal} (near : x.nearestOnGrid? tie k = some d) :
    d.coefficient ≠ 0 := by
  have apart {n : Nat} (admitted : x.admits k n = true) : n ≠ 0 := by
    rintro rfl
    rw [not_admits_zero positive] at admitted
    cases admitted
  unfold nearestOnGrid? at near
  simp only at near
  split at near
  next lower upper =>
    cases near
    split
    · exact Nat.succ_ne_zero _
    · exact apart lower
  next lower upper =>
    cases near
    exact apart lower
  next lower upper =>
    cases near
    exact Nat.succ_ne_zero _
  next => cases near

theorem exactDecimal_positive : x.exactDecimal.coefficient ≠ 0 := by
  unfold exactDecimal
  split
  · exact Nat.mul_ne_zero positive (Nat.pos_iff_ne_zero.mp (Nat.pow_pos (by decide)))
  · exact Nat.mul_ne_zero positive (Nat.pos_iff_ne_zero.mp (Nat.pow_pos (by decide)))

theorem shortest_positive : (x.shortest tie).coefficient ≠ 0 := by
  unfold shortest
  simp only
  cases found : (List.range 20).findSome? fun i =>
      x.nearestOnGrid? tie (x.exactDecimal.pointAt - (i : Nat)) with
  | none => exact exactDecimal_positive positive
  | some d =>
    obtain ⟨i, -, near⟩ := List.exists_of_findSome?_eq_some found
    exact nearestOnGrid?_positive positive near

end Shortest

theorem integral?_of_significand {x : Binary64} (none : x.significand = 0) :
    x.integral? = some 0 := by
  simp only [integral?, ratio, none]
  split <;> simp

end Binary64

theorem isSpelling_signedText (negative : Bool) {magnitude : List Char}
    (isMagnitude : IsMagnitude magnitude) :
    IsSpelling (if negative then '-' :: magnitude else magnitude) := by
  split
  · exact .negative isMagnitude
  · exact .plain isMagnitude

theorem isSpelling_numberText {x : Binary64} (finite : x.isFinite = true) :
    IsSpelling (numberText x) := by
  have ordinary : x.isNaN = false ∧ x.isInfinite = false := by
    simp only [Binary64.isFinite, bne_iff_ne] at finite
    simp [Binary64.isNaN, Binary64.isInfinite, finite]
  have shortest (large : ∀ n, x.integral? = some n → ¬ n < integralLimit) :
      IsMagnitude (x.shortest .away).positional := by
    refine Decimal.isMagnitude_positional (Binary64.shortest_positive ?_)
    intro none
    exact large 0 (Binary64.integral?_of_significand none) (by decide)
  unfold numberText
  rw [ordinary.1, ordinary.2, if_neg (by decide), if_neg (by decide)]
  split
  next n integral =>
    split
    next => exact isSpelling_signedText _ (.whole (isWhole_toDigits n))
    next large =>
      refine isSpelling_signedText _ (shortest fun m same => ?_)
      rw [integral] at same
      cases same
      exact large
  next none =>
    refine isSpelling_signedText _ (shortest fun m same => ?_)
    rw [none] at same
    cases same

end RenderCompiler
