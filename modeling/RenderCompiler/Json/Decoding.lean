import RenderCompiler.Json.Reader
import RenderCompiler.Json.Writer
import RenderCompiler.Text.Escaped

set_option autoImplicit false

namespace RenderCompiler

-- A value in the running text may be skipped without being understood. One that was kept aside has
-- been read through, so every mark in it has been reported.
inductive Origin where
  | text
  | kept
deriving DecidableEq, Repr

inductive Misfit where
  | missingField (name : String)
  | duplicateField (name : String)
  | unknownVariant (found : String) (known : List String)
  | wrongType (found expected : String)
  | wrongValue (found expected : String)
  | wrongLength (found : Nat) (expected : String)
  | noForm (name : String)
deriving DecidableEq, Repr

inductive ReadFault where
  | notJson
  | misfit (cause : Misfit)
deriving DecidableEq, Repr

def ticked (s : String) : String := "`" ++ s ++ "`"

def oneOf : List String → String
  | [only] => ticked only
  | [first, second] => ticked first ++ " or " ++ ticked second
  | names => "one of " ++ String.intercalate ", " (names.map ticked)

def counted (n : Nat) (noun : String) : String :=
  if n = 1 then "1 " ++ noun else toString n ++ " " ++ noun ++ "s"

def Misfit.message : Misfit → String
  | .missingField name => "missing field " ++ ticked name
  | .duplicateField name => "duplicate field " ++ ticked name
  | .unknownVariant found known =>
    "unknown variant " ++ ticked found ++ ", expected " ++ oneOf known
  | .wrongType found expected => "invalid type: " ++ found ++ ", expected " ++ expected
  | .wrongValue found expected => "invalid value: " ++ found ++ ", expected " ++ expected
  | .wrongLength found expected => "invalid length " ++ toString found ++ ", expected " ++ expected
  | .noForm name => "data did not match any variant of untagged enum " ++ name

def Json.kind? : Json → Option String
  | .null => some "null"
  | .boolean b => some ("boolean " ++ ticked (toString b))
  | .number (.integer i) => some ("integer " ++ ticked (toString i))
  | .number (.real x) => some ("floating point " ++ ticked (String.ofList (JsonNumber.realText x)))
  | .string s => some ("string " ++ String.ofList (escapedText s.toList))
  | .array _ => some "sequence"
  | .object _ => some "map"
  | .unfit | .unfitKey | .broken => none

-- Faults are reported in text order: a value that does not fit before text that breaks after it.
abbrev Decoder (α : Type) := Origin → Json → Except ReadFault α

namespace Decoder

def fail {α : Type} (cause : Misfit) : Except ReadFault α := .error (.misfit cause)

def mismatch {α : Type} (found : Json) (expected : String) : Except ReadFault α :=
  match found.kind? with
  | some kind => fail (.wrongType kind expected)
  | none => .error .notJson

def string : Decoder String
  | _, .string s => .ok s
  | _, j => mismatch j "a string"

def boolean : Decoder Bool
  | _, .boolean b => .ok b
  | _, j => mismatch j "a boolean"

def binary64 : Decoder Binary64
  | _, .number n => .ok n.toBinary64
  | _, j => mismatch j "f64"

def optional {α : Type} (decode : Decoder α) : Decoder (Option α)
  | _, .null => .ok none
  | origin, j => (decode origin j).map some

def list {α : Type} (decode : Decoder α) : Decoder (List α)
  | origin, .array items => items.mapM (decode origin)
  | _, j => mismatch j "a sequence"

def skip : Origin → Json → Except ReadFault Unit
  | .kept, _ => .ok ()
  | .text, .unfitKey => .error .notJson
  | .text, j => if j.skippable then .ok () else .error .notJson

def keep : Decoder Json
  | .kept, j => .ok j
  | .text, j => if j.intact then .ok j else .error .notJson

end Decoder

abbrev Entries (α : Type) := List (String × α)

def Entries.insert {α : Type} (key : String) (value : α) : Entries α → Entries α
  | [] => [(key, value)]
  | (k, v) :: rest => if k == key then (k, value) :: rest else (k, v) :: insert key value rest

def Entries.Distinct {α : Type} (entries : Entries α) : Prop := (entries.map (·.1)).Nodup

theorem Entries.keys_insert {α : Type} (key : String) (value : α) (entries : Entries α) :
    (entries.insert key value).map (·.1) =
      if key ∈ entries.map (·.1) then entries.map (·.1) else entries.map (·.1) ++ [key] := by
  induction entries with
  | nil => simp [insert]
  | cons entry rest ih =>
    obtain ⟨k, v⟩ := entry
    by_cases h : k = key
    · simp [insert, h]
    · have h' : ¬ key = k := fun e => h e.symm
      simp only [insert, beq_iff_eq, h, if_false, List.map_cons, ih, List.mem_cons, h', false_or]
      split <;> simp

theorem Entries.Distinct.insert {α : Type} {entries : Entries α} (h : entries.Distinct)
    (key : String) (value : α) : (entries.insert key value).Distinct := by
  unfold Entries.Distinct at *
  rw [Entries.keys_insert]
  split
  · exact h
  · rename_i absent
    rw [List.nodup_append]
    refine ⟨h, by simp, ?_⟩
    intro a ha b hb
    simp only [List.mem_singleton] at hb
    exact fun e => absent (hb ▸ e ▸ ha)

def Decoder.entriesFrom {α : Type} (decode : Json → Except ReadFault α) :
    Entries α → List (String × Json) → Except ReadFault (Entries α)
  | done, [] => .ok done
  | _, (_, .unfitKey) :: _ => .error .notJson
  | done, (key, value) :: rest => do
    let value ← decode value
    entriesFrom decode (done.insert key value) rest

def Decoder.entries {α : Type} (decode : Decoder α) : Decoder (Entries α)
  | origin, .object members => Decoder.entriesFrom (decode origin) [] members
  | _, j => mismatch j "a map"

structure Field (σ : Type) where
  name : String
  required : Bool
  set : Origin → Json → σ → Except ReadFault σ

namespace Field

variable {σ α : Type}

def mandatory (name : String) (decode : Decoder α) (put : α → σ → σ) : Field σ :=
  ⟨name, true, fun origin j draft => (decode origin j).map (put · draft)⟩

def withDefault (name : String) (decode : Decoder α) (put : α → σ → σ) : Field σ :=
  ⟨name, false, fun origin j draft => (decode origin j).map (put · draft)⟩

-- Sets fields from entries in text order. A repeated field is a fault before its value is.
def fill (fields : List (Field σ)) (origin : Origin) :
    List String → σ → List (String × Json) → Except ReadFault (List String × σ)
  | seen, draft, [] => .ok (seen, draft)
  | seen, draft, (key, value) :: rest =>
    match fields.find? (·.name == key) with
    | none => do
      Decoder.skip origin value
      fill fields origin seen draft rest
    | some field =>
      -- The value of a repeated field is never looked at.
      if key ∈ seen then Decoder.fail (.duplicateField key)
      else do
        let draft ← field.set origin value draft
        fill fields origin (key :: seen) draft rest

def checkPresent (seen : List String) : List (Field σ) → Except ReadFault Unit
  | [] => .ok ()
  | field :: rest =>
    if field.required && !seen.contains field.name then Decoder.fail (.missingField field.name)
    else checkPresent seen rest

-- Sets fields from a list of values in declaration order; `index` values came before. The answer
-- holds the values left over.
def fillInOrder (what : String) (total : Nat) (origin : Origin) :
    Nat → List (Field σ) → σ → List Json → Except ReadFault (σ × List Json)
  | _, [], draft, left => .ok (draft, left)
  | index, field :: fields, draft, [] =>
    if field.required then
      Decoder.fail (.wrongLength index (what ++ " with " ++ counted total "element"))
    else fillInOrder what total origin (index + 1) fields draft []
  | index, field :: fields, draft, value :: rest => do
    let draft ← field.set origin value draft
    fillInOrder what total origin (index + 1) fields draft rest

def checkLength (origin : Origin) (total : Nat) : List Json → Except ReadFault Unit
  | [] => .ok ()
  | left =>
    match origin with
    | .text => .error .notJson
    | .kept =>
      Decoder.fail (.wrongLength (total + left.length) (counted total "element" ++ " in sequence"))

end Field

def Decoder.record {σ : Type} (what : String) (fields : List (Field σ)) (blank : σ) : Decoder σ
  | origin, .object members => do
    let (seen, draft) ← Field.fill fields origin [] blank members
    Field.checkPresent seen fields
    return draft
  | origin, .array items => do
    let (draft, left) ← Field.fillInOrder what fields.length origin 0 fields blank items
    Field.checkLength origin fields.length left
    return draft
  | _, j => mismatch j what

namespace Decoder

-- A name out of a list; a kept value may give its position instead.
def variant (known : List String) : Decoder Nat
  | _, .string s =>
    match known.findIdx? (· == s) with
    | some index => .ok index
    | none => fail (.unknownVariant s known)
  | .kept, .number (.integer (.ofNat n)) =>
    if n < known.length then .ok n
    else
      fail (.wrongValue ("integer " ++ ticked (toString n))
        ("variant index 0 <= i < " ++ toString known.length))
  | _, j => mismatch j "variant identifier"

def tagName : String := "type"

def splitTag (known : List String) (origin : Origin) :
    Option Nat → List (String × Json) → Except ReadFault (Option Nat × List (String × Json))
  | found, [] => .ok (found, [])
  | found, (key, value) :: rest =>
    if key == tagName then
      if found.isSome then fail (.duplicateField tagName)
      else do
        let index ← variant known origin value
        splitTag known origin (some index) rest
    else do
      let value ← keep origin value
      let (found, others) ← splitTag known origin found rest
      return (found, (key, value) :: others)

-- The body is kept aside and read once the tag is known.
def tagged {α : Type} (what : String) (known : List String)
    (body : Nat → Json → Except ReadFault α) : Decoder α
  | origin, .object members => do
    match ← splitTag known origin none members with
    | (some index, others) => body index (.object others)
    | (none, _) => fail (.missingField tagName)
  | _, .array [] => fail (.missingField tagName)
  | origin, .array (tag :: items) => do
    let index ← variant known origin tag
    -- The whole value is read through before its body is decoded.
    let items ← items.mapM (keep origin)
    body index (.array items)
  | _, j => mismatch j what

/-- Decodes a whole text, nested less deep than the limit. Text after the value is a fault found
last. -/
def runWithin {α : Type} (limit : Option Nat) (decode : Decoder α) (text : String) :
    Except ReadFault α := do
  let (value, ended) := Json.readWithin limit text
  let result ← decode .text value
  if ended then return result else .error .notJson

def run {α : Type} (decode : Decoder α) (text : String) : Except ReadFault α :=
  runWithin (some Json.nestingLimit) decode text

end Decoder

end RenderCompiler
