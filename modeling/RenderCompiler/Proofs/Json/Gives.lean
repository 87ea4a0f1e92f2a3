import RenderCompiler.Json.Decoding
import RenderCompiler.Proofs.Json.Finite

set_option autoImplicit false

namespace RenderCompiler

theorem bind_ok {ε α β : Type} {first : Except ε α} {next : α → Except ε β} {b : β}
    (ran : first >>= next = .ok b) : ∃ a, first = .ok a ∧ next a = .ok b := by
  cases first with
  | error e => cases ran
  | ok a => exact ⟨a, rfl, ran⟩

theorem map_ok {ε α β : Type} {first : Except ε α} {f : α → β} {b : β}
    (ran : first.map f = .ok b) : ∃ a, first = .ok a ∧ f a = b := by
  cases first with
  | error e => cases ran
  | ok a => exact ⟨a, rfl, Except.ok.inj ran⟩

def Entries.All {α : Type} (holds : α → Prop) (entries : Entries α) : Prop :=
  entries.Distinct ∧ ∀ entry ∈ entries, holds entry.2

theorem Entries.all_nil {α : Type} {holds : α → Prop} : Entries.All holds [] :=
  ⟨List.Pairwise.nil, fun _ member => nomatch member⟩

namespace Decoder

def Gives {α : Type} (decode : Decoder α) (holds : α → Prop) : Prop :=
  ∀ origin j a, j.IsFinite → decode origin j = .ok a → holds a

section Parts

variable {α : Type} {decode : Decoder α} {holds : α → Prop}

theorem mismatch_ne_ok {j : Json} {expected : String} {a : α} :
    mismatch j expected ≠ .ok a := by
  unfold mismatch
  split
  · intro same
    cases same
  · intro same
    cases same

theorem gives_trivial (decode : Decoder α) : Gives decode fun _ => True :=
  fun _ _ _ _ _ => trivial

theorem gives_optional (gives : Gives decode holds) :
    Gives (optional decode) fun found => ∀ a ∈ found, holds a := by
  intro origin j found finite ran
  unfold optional at ran
  split at ran
  · cases ran
    exact fun a same => nomatch same
  · obtain ⟨a, decoded, rfl⟩ := map_ok ran
    rintro b ⟨⟩
    exact gives origin j a finite decoded

theorem mapM_gives {origin : Origin} (gives : Gives decode holds) {items : List Json}
    {found : List α} (finite : Json.AllFinite items)
    (ran : items.mapM (decode origin) = .ok found) : ∀ a ∈ found, holds a := by
  induction items generalizing found with
  | nil =>
    cases ran
    exact fun a member => nomatch member
  | cons item rest ih =>
    rw [List.mapM_cons] at ran
    obtain ⟨a, decoded, ran⟩ := bind_ok ran
    obtain ⟨others, later, ran⟩ := bind_ok ran
    cases ran
    exact List.forall_mem_cons.mpr ⟨gives origin item a finite.1 decoded, ih finite.2 later⟩

theorem gives_list (gives : Gives decode holds) :
    Gives (list decode) fun found => ∀ a ∈ found, holds a := by
  intro origin j found finite ran
  unfold list at ran
  split at ran
  · exact mapM_gives gives finite ran
  · exact absurd ran mismatch_ne_ok

theorem mem_insert {key : String} {a : α} {entries : Entries α} {entry : String × α}
    (member : entry ∈ entries.insert key a) : entry ∈ entries ∨ entry.2 = a := by
  induction entries with
  | nil =>
    rw [List.mem_singleton.mp member]
    exact .inr rfl
  | cons first rest ih =>
    obtain ⟨k, v⟩ := first
    unfold Entries.insert at member
    split at member
    · rcases List.mem_cons.mp member with rfl | later
      · exact .inr rfl
      · exact .inl (List.mem_cons_of_mem _ later)
    · rcases List.mem_cons.mp member with rfl | later
      · exact .inl List.mem_cons_self
      · rcases ih later with old | new
        · exact .inl (List.mem_cons_of_mem _ old)
        · exact .inr new

theorem entriesFrom_gives {origin : Origin} (gives : Gives decode holds)
    {members : List (String × Json)} {done found : Entries α} (sofar : done.All holds)
    (finite : Json.EntriesFinite members)
    (ran : entriesFrom (decode origin) done members = .ok found) : found.All holds := by
  induction members generalizing done with
  | nil =>
    cases ran
    exact sofar
  | cons member rest ih =>
    obtain ⟨key, value⟩ := member
    unfold entriesFrom at ran
    split at ran
    next none => cases none
    next same =>
      cases same
      cases ran
    next same =>
      cases same
      obtain ⟨a, decoded, ran⟩ := bind_ok ran
      refine ih ⟨sofar.1.insert key a, fun entry among => ?_⟩ finite.2 ran
      rcases mem_insert among with old | new
      · exact sofar.2 entry old
      · rw [new]
        exact gives origin value a finite.1 decoded

theorem gives_entries (gives : Gives decode holds) :
    Gives (entries decode) fun found => found.All holds := by
  intro origin j found finite ran
  unfold entries at ran
  split at ran
  · exact entriesFrom_gives gives Entries.all_nil finite ran
  · exact absurd ran mismatch_ne_ok

theorem keep_ok {origin : Origin} {j found : Json} (ran : keep origin j = .ok found) :
    found = j := by
  unfold keep at ran
  split at ran
  · exact (Except.ok.inj ran).symm
  · split at ran
    · exact (Except.ok.inj ran).symm
    · cases ran

end Parts

end Decoder

namespace Field

variable {σ : Type} {holds : σ → Prop}

def Keeps (field : Field σ) (holds : σ → Prop) : Prop :=
  ∀ origin j draft next, j.IsFinite → holds draft → field.set origin j draft = .ok next → holds next

theorem keeps_of_gives {α : Type} {given : α → Prop} {name : String} {required : Bool}
    {decode : Decoder α} {put : α → σ → σ} (gives : decode.Gives given)
    (puts : ∀ a draft, given a → holds draft → holds (put a draft)) :
    Keeps ⟨name, required, fun origin j draft => (decode origin j).map (put · draft)⟩ holds := by
  intro origin j draft next finite here ran
  obtain ⟨a, decoded, rfl⟩ := map_ok ran
  exact puts a draft (gives origin j a finite decoded) here

variable {fields : List (Field σ)} (keeps : ∀ field ∈ fields, field.Keeps holds)

include keeps

theorem fill_keeps {origin : Origin} {members : List (String × Json)} {before after : List String}
    {draft filled : σ} (here : holds draft) (finite : Json.EntriesFinite members)
    (ran : fill fields origin before draft members = .ok (after, filled)) : holds filled := by
  induction members generalizing before draft with
  | nil =>
    cases ran
    exact here
  | cons member rest ih =>
    obtain ⟨key, value⟩ := member
    unfold fill at ran
    split at ran
    · obtain ⟨-, -, ran⟩ := bind_ok ran
      exact ih here finite.2 ran
    next field found =>
      split at ran
      · cases ran
      · obtain ⟨next, set, ran⟩ := bind_ok ran
        have kept := keeps field (List.mem_of_find?_eq_some found) origin value draft next finite.1
          here set
        exact ih kept finite.2 ran

theorem fillInOrder_keeps {what : String} {total index : Nat} {origin : Origin}
    {items left : List Json} {draft filled : σ} (here : holds draft)
    (finite : Json.AllFinite items)
    (ran : fillInOrder what total origin index fields draft items = .ok (filled, left)) :
    holds filled := by
  induction fields generalizing index draft items with
  | nil =>
    cases ran
    exact here
  | cons field rest ih =>
    have later := fun field member => keeps field (List.mem_cons_of_mem _ member)
    cases items with
    | nil =>
      unfold fillInOrder at ran
      split at ran
      · cases ran
      · exact ih later here finite ran
    | cons value items =>
      unfold fillInOrder at ran
      obtain ⟨next, set, ran⟩ := bind_ok ran
      have kept := keeps field List.mem_cons_self origin value draft next finite.1 here set
      exact ih later kept finite.2 ran

end Field

namespace Decoder

theorem gives_record {σ : Type} {holds : σ → Prop} {what : String} {fields : List (Field σ)}
    {blank : σ} (keeps : ∀ field ∈ fields, field.Keeps holds) (here : holds blank) :
    Gives (record what fields blank) holds := by
  intro origin j filled finite ran
  unfold record at ran
  split at ran
  · obtain ⟨⟨seen, draft⟩, set, ran⟩ := bind_ok ran
    obtain ⟨-, -, ran⟩ := bind_ok ran
    cases ran
    exact Field.fill_keeps keeps here finite set
  · obtain ⟨⟨draft, left⟩, set, ran⟩ := bind_ok ran
    obtain ⟨-, -, ran⟩ := bind_ok ran
    cases ran
    exact Field.fillInOrder_keeps keeps here finite set
  · exact absurd ran mismatch_ne_ok

theorem gives_single {α σ : Type} {given : α → Prop} {holds : σ → Prop} {what name : String}
    {required : Bool} {decode : Decoder α} {put : α → σ → σ} {blank : σ}
    (gives : Gives decode given) (here : holds blank)
    (puts : ∀ a draft, given a → holds (put a draft)) :
    Gives (record what [⟨name, required,
      fun origin j draft => (decode origin j).map (put · draft)⟩] blank) holds :=
  gives_record (List.forall_mem_singleton.mpr
    (Field.keeps_of_gives gives fun a draft given _ => puts a draft given)) here

theorem splitTag_keeps {known : List String} {origin : Origin} {before after : Option Nat}
    {members others : List (String × Json)} (finite : Json.EntriesFinite members)
    (ran : splitTag known origin before members = .ok (after, others)) :
    Json.EntriesFinite others := by
  induction members generalizing before after others with
  | nil =>
    cases ran
    trivial
  | cons member rest ih =>
    obtain ⟨key, value⟩ := member
    unfold splitTag at ran
    split at ran
    · split at ran
      · cases ran
      · obtain ⟨index, -, ran⟩ := bind_ok ran
        exact ih finite.2 ran
    · obtain ⟨kept, same, ran⟩ := bind_ok ran
      obtain ⟨⟨found, later⟩, split, ran⟩ := bind_ok ran
      cases ran
      rw [keep_ok same]
      exact ⟨finite.1, ih finite.2 split⟩

theorem mapM_keep {origin : Origin} {items found : List Json}
    (ran : items.mapM (keep origin) = .ok found) : found = items := by
  induction items generalizing found with
  | nil =>
    cases ran
    rfl
  | cons item rest ih =>
    rw [List.mapM_cons] at ran
    obtain ⟨a, same, ran⟩ := bind_ok ran
    obtain ⟨others, later, ran⟩ := bind_ok ran
    cases ran
    rw [keep_ok same, ih later]

theorem gives_tagged {α : Type} {holds : α → Prop} {what : String} {known : List String}
    {body : Nat → Json → Except ReadFault α}
    (gives : ∀ role j a, j.IsFinite → body role j = .ok a → holds a) :
    Gives (tagged what known body) holds := by
  intro origin j a finite ran
  unfold tagged at ran
  split at ran
  · obtain ⟨⟨found, others⟩, split, ran⟩ := bind_ok ran
    cases found with
    | none => cases ran
    | some role => exact gives role (.object others) a (splitTag_keeps finite split) ran
  · cases ran
  · obtain ⟨role, -, ran⟩ := bind_ok ran
    obtain ⟨items, kept, decoded⟩ := bind_ok ran
    rw [mapM_keep kept] at decoded
    exact gives role (.array _) a finite.2 decoded
  · exact absurd ran mismatch_ne_ok

theorem run_ok {α : Type} {limit : Option Nat} {decode : Decoder α} {text : String} {found : α}
    (ran : runWithin limit decode text = .ok found) :
    decode .text (Json.readWithin limit text).1 = .ok found := by
  unfold runWithin at ran
  dsimp only at ran
  obtain ⟨decoded, same, ended⟩ := bind_ok ran
  split at ended
  · cases ended
    exact same
  · cases ended

theorem run_gives {α : Type} {limit : Option Nat} {decode : Decoder α} {holds : α → Prop}
    {text : String} {found : α} (gives : Gives decode holds)
    (ran : runWithin limit decode text = .ok found) : holds found :=
  gives .text _ found (Json.isFinite_readWithin limit text) (run_ok ran)

end Decoder

end RenderCompiler
