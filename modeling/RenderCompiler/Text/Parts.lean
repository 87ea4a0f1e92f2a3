set_option autoImplicit false

namespace RenderCompiler

def partsOf (separator : Char) : List Char → List (List Char)
  | [] => [[]]
  | c :: rest =>
    if c = separator then [] :: partsOf separator rest
    else match partsOf separator rest with
      | [] => [[c]]
      | first :: others => (c :: first) :: others

def joinParts (separator : Char) : List (List Char) → List Char
  | [] => []
  | [part] => part
  | part :: rest => part ++ separator :: joinParts separator rest

theorem partsOf_ne_nil (separator : Char) (text : List Char) : partsOf separator text ≠ [] := by
  cases text with
  | nil => simp [partsOf]
  | cons c rest =>
    unfold partsOf
    split
    · simp
    · split <;> simp

theorem joinParts_partsOf (separator : Char) (text : List Char) :
    joinParts separator (partsOf separator text) = text := by
  induction text with
  | nil => simp [partsOf, joinParts]
  | cons c rest ih =>
    have nonempty := partsOf_ne_nil separator rest
    unfold partsOf
    split
    next same =>
      cases parts : partsOf separator rest with
      | nil => exact absurd parts nonempty
      | cons first others =>
        rw [parts] at ih
        simp [joinParts, ih, same]
    next =>
      cases parts : partsOf separator rest with
      | nil => exact absurd parts nonempty
      | cons first others =>
        rw [parts] at ih
        cases others with
        | nil => simpa [joinParts] using ih
        | cons second more => simpa [joinParts] using ih

def stringParts (separator : Char) (text : String) : List String :=
  (partsOf separator text.toList).map String.ofList

end RenderCompiler
