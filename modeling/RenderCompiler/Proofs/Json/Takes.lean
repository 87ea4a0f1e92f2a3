import RenderCompiler.Proofs.Json.Written
import RenderCompiler.Template.Json

set_option autoImplicit false

namespace RenderCompiler

namespace Json

def Fits (levels : Nat) (value : Json) : Prop := value.intact = true ∧ value.height < levels

theorem allEntriesIntact_iff {entries : List (String × Json)} :
    allEntriesIntact entries = true ↔ ∀ entry ∈ entries, entry.2.intact = true := by
  induction entries with
  | nil => simp [allEntriesIntact]
  | cons entry rest ih =>
    simp only [allEntriesIntact, Bool.and_eq_true, ih, List.forall_mem_cons]

variable {levels : Nat}

theorem Fits.mono {more : Nat} {value : Json} (fits : Fits levels value) (le : levels ≤ more) :
    Fits more value :=
  ⟨fits.1, Nat.lt_of_lt_of_le fits.2 le⟩

theorem Fits.entries {entries : List (String × Json)} (fits : Fits (levels + 1) (.object entries)) :
    ∀ entry ∈ entries, entry.2.Fits levels := by
  obtain ⟨whole, below⟩ := fits
  simp only [intact, height, Nat.add_lt_add_iff_right] at whole below
  induction entries with
  | nil => exact fun entry none => by cases none
  | cons entry rest ih =>
    simp only [allEntriesIntact, entriesHeight, Bool.and_eq_true, Nat.max_lt] at whole below
    exact List.forall_mem_cons.mpr ⟨⟨whole.1, below.1⟩, ih whole.2 below.2⟩

theorem Fits.items {items : List Json} (fits : Fits levels (.array items)) :
    ∀ item ∈ items, item.Fits levels := by
  obtain ⟨whole, below⟩ := fits
  simp only [intact, height] at whole below
  induction items with
  | nil => exact fun item none => by cases none
  | cons item rest ih =>
    simp only [allIntact, itemsHeight, Bool.and_eq_true] at whole below
    exact List.forall_mem_cons.mpr ⟨⟨whole.1, by omega⟩, ih whole.2 (by omega)⟩

end Json

theorem Entries.insert_new {α : Type} {key : String} {value : α} {entries : Entries α}
    (new : key ∉ entries.map Prod.fst) : entries.insert key value = entries ++ [(key, value)] := by
  induction entries with
  | nil => rfl
  | cons entry rest ih =>
    obtain ⟨k, v⟩ := entry
    simp only [List.map_cons, List.mem_cons, not_or] at new
    have apart : (k == key) = false := beq_eq_false_iff_ne.mpr fun same => new.1 same.symm
    simp [insert, apart, ih new.2]

namespace Decoder

section Parts

variable {α : Type} {decode : Decoder α} {encode : α → Json} {origin : Origin}

theorem optional_takes {j : Json} {a : α} (takes : decode origin j = .ok a) (some : j ≠ .null) :
    optional decode origin j = .ok (.some a) := by
  unfold optional
  split
  · exact absurd rfl some
  · rw [takes]
    rfl

theorem mapM_takes {items : List α} (each : ∀ a ∈ items, decode origin (encode a) = .ok a) :
    (items.map encode).mapM (decode origin) = .ok items := by
  induction items with
  | nil => rfl
  | cons a rest ih =>
    obtain ⟨first, others⟩ := List.forall_mem_cons.mp each
    rw [List.map_cons, List.mapM_cons, first, ih others]
    rfl

theorem list_takes {items : List α} (each : ∀ a ∈ items, decode origin (encode a) = .ok a) :
    list decode origin (.array (items.map encode)) = .ok items :=
  mapM_takes each

theorem strings_take (items : List String) :
    list string origin (Json.ofStrings items) = .ok items :=
  list_takes fun _ _ => rfl

theorem entriesFrom_takes {done entries : Entries α} (distinct : Entries.Distinct (done ++ entries))
    (whole : ∀ entry ∈ entries, (encode entry.2).intact = true)
    (each : ∀ entry ∈ entries, decode origin (encode entry.2) = .ok entry.2) :
    entriesFrom (decode origin) done (entries.map fun (key, value) => (key, encode value)) =
      .ok (done ++ entries) := by
  induction entries generalizing done with
  | nil => rw [List.append_nil]; rfl
  | cons entry rest ih =>
    obtain ⟨key, value⟩ := entry
    obtain ⟨first, others⟩ := List.forall_mem_cons.mp each
    obtain ⟨intact, later⟩ := List.forall_mem_cons.mp whole
    have new : key ∉ done.map Prod.fst := by
      unfold Entries.Distinct at distinct
      rw [List.map_append, List.nodup_append] at distinct
      intro member
      exact distinct.2.2 key member key List.mem_cons_self rfl
    have split : done.insert key value ++ rest = done ++ (key, value) :: rest := by
      rw [Entries.insert_new new, List.append_assoc]
      rfl
    rw [← split] at distinct ⊢
    rw [List.map_cons, entriesFrom]
    · rw [first]
      exact ih distinct later others
    · intro unfit
      rw [unfit] at intact
      cases intact

theorem entries_take {entries : Entries α} (distinct : entries.Distinct)
    (whole : (entries.toJson encode).intact = true)
    (each : ∀ entry ∈ entries, decode origin (encode entry.2) = .ok entry.2) :
    Decoder.entries decode origin (entries.toJson encode) = .ok entries := by
  refine entriesFrom_takes distinct (fun entry member => ?_) each
  exact Json.allEntriesIntact_iff.mp whole (entry.1, encode entry.2)
    (List.mem_map.mpr ⟨entry, member, rfl⟩)

end Parts

end Decoder

namespace Field

variable {σ : Type} {origin : Origin}

@[simp] theorem name_mandatory {α : Type} (name : String) (decode : Decoder α) (put : α → σ → σ) :
    (mandatory name decode put).name = name := rfl

@[simp] theorem name_withDefault {α : Type} (name : String) (decode : Decoder α)
    (put : α → σ → σ) : (withDefault name decode put).name = name := rfl

variable (origin) in
-- A field that is not required may have no member.
inductive Follows : List (Field σ) → σ → List (String × Json) → σ → Prop
  | nil (draft : σ) : Follows [] draft [] draft
  | set {field : Field σ} {fields : List (Field σ)} {draft next last : σ} {value : Json}
      {rest : List (String × Json)} (set : field.set origin value draft = .ok next)
      (later : Follows fields next rest last) :
      Follows (field :: fields) draft ((field.name, value) :: rest) last
  | skip {field : Field σ} {fields : List (Field σ)} {draft last : σ}
      {members : List (String × Json)} (optional : field.required = false)
      (later : Follows fields draft members last) : Follows (field :: fields) draft members last

variable {fields : List (Field σ)} {draft last : σ} {members : List (String × Json)}

section Fields

variable {α : Type} {name : String} {decode : Decoder α} {put : α → σ → σ} {a : α} {j : Json}

theorem Follows.mandatory (takes : decode origin j = .ok a)
    (later : Follows origin fields (put a draft) members last) :
    Follows origin (.mandatory name decode put :: fields) draft ((name, j) :: members) last := by
  have set : (Field.mandatory name decode put).set origin j draft = .ok (put a draft) := by
    simp only [Field.mandatory, takes]
    rfl
  exact .set set later

theorem Follows.withDefault (takes : decode origin j = .ok a)
    (later : Follows origin fields (put a draft) members last) :
    Follows origin (.withDefault name decode put :: fields) draft ((name, j) :: members) last := by
  have set : (Field.withDefault name decode put).set origin j draft = .ok (put a draft) := by
    simp only [Field.withDefault, takes]
    rfl
  exact .set set later

end Fields

theorem Follows.present {α : Type} {name : String} {decode : Decoder (Option α)}
    {put : Option α → σ → σ} {encode : α → Json} {given : Option α}
    (takes : ∀ a ∈ given, decode origin (encode a) = .ok (some a)) (blank : put none draft = draft)
    (later : Follows origin fields (put given draft) members last) :
    Follows origin (.withDefault name decode put :: fields) draft
      (presentField name encode given ++ members) last := by
  cases given with
  | none =>
    rw [blank] at later
    exact .skip rfl later
  | some a => exact .withDefault (takes a rfl) later

theorem Follows.name_mem (follows : Follows origin fields draft members last) :
    ∀ key ∈ members.map Prod.fst, key ∈ fields.map Field.name := by
  induction follows with
  | nil => exact fun key none => by cases none
  | set _ _ ih =>
    refine List.forall_mem_cons.mpr ⟨List.mem_cons_self, fun key member => ?_⟩
    exact List.mem_cons_of_mem _ (ih key member)
  | skip _ _ ih => exact fun key member => List.mem_cons_of_mem _ (ih key member)

theorem Follows.required (follows : Follows origin fields draft members last) :
    ∀ field ∈ fields, field.required = true → field.name ∈ members.map Prod.fst := by
  induction follows with
  | nil => exact fun field none => by cases none
  | set _ _ ih =>
    refine List.forall_mem_cons.mpr ⟨fun _ => List.mem_cons_self, fun field member required => ?_⟩
    exact List.mem_cons_of_mem _ (ih field member required)
  | skip optional _ ih =>
    refine List.forall_mem_cons.mpr ⟨fun required => ?_, ih⟩
    rw [optional] at required
    cases required

theorem find?_name {before : List (Field σ)} {field : Field σ}
    (distinct : ((before ++ field :: fields).map Field.name).Nodup) :
    (before ++ field :: fields).find? (·.name == field.name) = some field := by
  rw [List.map_append, List.nodup_append] at distinct
  have nothing : before.find? (·.name == field.name) = none := by
    refine List.find?_eq_none.mpr fun other member same => ?_
    exact distinct.2.2 other.name (List.mem_map_of_mem member) field.name List.mem_cons_self
      (beq_iff_eq.mp same)
  simp [List.find?_append, nothing]

theorem Follows.fill (before : List (Field σ)) (seen : List String)
    (follows : Follows origin fields draft members last)
    (distinct : ((before ++ fields).map Field.name).Nodup)
    (among : ∀ key ∈ seen, key ∈ before.map Field.name) :
    fill (before ++ fields) origin seen draft members =
      .ok ((members.map Prod.fst).reverse ++ seen, last) := by
  induction follows generalizing before seen with
  | nil => rfl
  | @set field fields draft next last value rest set later ih =>
    have found := find?_name distinct
    have unseen : field.name ∉ seen := by
      intro member
      rw [List.map_append, List.nodup_append] at distinct
      exact distinct.2.2 field.name (among _ member) field.name List.mem_cons_self rfl
    have shifted : before ++ field :: fields = before ++ [field] ++ fields := by simp
    simp only [Field.fill, found, unseen, if_false, set]
    rw [shifted] at distinct ⊢
    refine (ih _ _ distinct fun key member => ?_).trans ?_
    · rw [List.map_append, List.mem_append]
      rcases List.mem_cons.mp member with rfl | old
      · exact .inr List.mem_cons_self
      · exact .inl (among key old)
    · simp
  | @skip field fields draft last members optional later ih =>
    have shifted : before ++ field :: fields = before ++ [field] ++ fields := by simp
    rw [shifted] at distinct ⊢
    refine ih _ _ distinct fun key member => ?_
    rw [List.map_append, List.mem_append]
    exact .inl (among key member)

theorem checkPresent_of_subset {seen : List String}
    (present : ∀ field ∈ fields, field.required = true → field.name ∈ seen) :
    checkPresent seen fields = .ok () := by
  induction fields with
  | nil => rfl
  | cons field rest ih =>
    obtain ⟨first, others⟩ := List.forall_mem_cons.mp present
    rw [checkPresent, if_neg, ih others]
    simpa using first

theorem Follows.checkPresent (follows : Follows origin fields draft members last) :
    checkPresent ((members.map Prod.fst).reverse ++ []) fields = .ok () := by
  refine checkPresent_of_subset fun field member required => ?_
  rw [List.append_nil, List.mem_reverse]
  exact follows.required field member required

-- Members that name no field are passed over in a value that has been read through.
theorem fill_skips {others : List (String × Json)} {seen : List String}
    (unknown : ∀ key ∈ others.map Prod.fst, key ∉ fields.map Field.name) :
    fill fields .kept seen draft (others ++ members) = fill fields .kept seen draft members := by
  induction others with
  | nil => rfl
  | cons member rest ih =>
    obtain ⟨key, value⟩ := member
    obtain ⟨first, later⟩ := List.forall_mem_cons.mp unknown
    have nothing : fields.find? (·.name == key) = none := by
      refine List.find?_eq_none.mpr fun field member same => ?_
      exact first (List.mem_map.mpr ⟨field, member, beq_iff_eq.mp same⟩)
    rw [List.cons_append, Field.fill, nothing]
    exact ih later

end Field

namespace Decoder

theorem record_takes {σ : Type} {what : String} {fields : List (Field σ)} {blank last : σ}
    {origin : Origin} {members : List (String × Json)}
    (distinct : (fields.map Field.name).Nodup)
    (follows : Field.Follows origin fields blank members last) :
    record what fields blank origin (.object members) = .ok last := by
  have filled := follows.fill [] [] distinct fun _ none => by cases none
  rw [List.nil_append] at filled
  rw [record, filled]
  change (do Field.checkPresent _ fields; pure last) = _
  rw [follows.checkPresent]
  rfl

section Tags

variable {origin : Origin} {known : List String}

theorem splitTag_takes {index : Nat} {members : List (String × Json)}
    (apart : tagName ∉ members.map Prod.fst) (whole : Json.allEntriesIntact members = true) :
    splitTag known origin (some index) members = .ok (some index, members) := by
  induction members with
  | nil => rfl
  | cons member rest ih =>
    obtain ⟨key, value⟩ := member
    simp only [List.map_cons, List.mem_cons, not_or] at apart
    rw [Json.allEntriesIntact, Bool.and_eq_true] at whole
    have other : (key == tagName) = false := beq_eq_false_iff_ne.mpr fun same => apart.1 same.symm
    have kept : keep origin value = .ok value := by
      cases origin <;> simp [keep, whole.1]
    simp only [splitTag, other, kept, ih apart.2 whole.2]
    rfl

theorem tagged_takes {α : Type} {what kind : String} {body : Nat → Json → Except ReadFault α}
    {members : List (String × Json)} (index : Nat)
    (found : known.findIdx? (· == kind) = some index)
    (apart : tagName ∉ members.map Prod.fst)
    (whole : (Json.ofKind kind members).intact = true) :
    tagged what known body origin (.ofKind kind members) = body index (.object members) := by
  have taken : variant known origin (.string kind) = .ok index := by
    simp [variant, found]
  have split : splitTag known origin (some index) members = .ok (some index, members) :=
    splitTag_takes apart whole
  have first : splitTag known origin none (("type", .string kind) :: members) =
      splitTag known origin (some index) members := by
    rw [splitTag, taken]
    rfl
  rw [Json.ofKind, tagged, first, split]
  rfl

end Tags

theorem runWithin_of_read {α : Type} {limit : Option Nat} {decode : Decoder α} {text : String}
    {value : Json} {a : α} (read : Json.readWithin limit text = (value, true))
    (takes : decode .text value = .ok a) : runWithin limit decode text = .ok a := by
  simp only [runWithin, read, takes]
  rfl

theorem run_written {α : Type} {limit : Option Nat} {decode : Decoder α} {value : Json} {a : α}
    (takes : decode .text value = .ok a) (readable : value.Readable)
    (within : Json.Within limit value.height) :
    runWithin limit decode value.text = .ok a ∧ runWithin limit decode value.prettyText = .ok a ∧
      runWithin limit decode (value.prettyText ++ "\n") = .ok a :=
  ⟨runWithin_of_read (Json.readWithin_text readable within) takes,
    runWithin_of_read (Json.readWithin_prettyText readable within) takes,
    runWithin_of_read (Json.readWithin_prettyLine readable within) takes⟩

end Decoder

end RenderCompiler
