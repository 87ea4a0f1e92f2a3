import Std.Data.String.ToNat
import RenderCompiler.Imports
import RenderCompiler.Proofs.Binary64.Spelling
import RenderCompiler.Runtime.Api

set_option autoImplicit false

namespace RenderCompiler.ImportTable

def registerAll (components : List String) (table : ImportTable) : ImportTable :=
  components.foldl (fun table component => (table.register component).2) table

@[simp] theorem registerAll_nil (table : ImportTable) : table.registerAll [] = table := rfl

@[simp] theorem registerAll_append (first others : List String) (table : ImportTable) :
    table.registerAll (first ++ others) = (table.registerAll first).registerAll others :=
  List.foldl_append

@[simp] theorem registerAll_singleton (component : String) (table : ImportTable) :
    table.registerAll [component] = (table.register component).2 := rfl

theorem mem_of_lookup_eq_some {entries : List (String × String)} {component name : String}
    (known : entries.lookup component = some name) : (component, name) ∈ entries := by
  obtain ⟨before, after, rfl, -⟩ := List.lookup_eq_some_iff.mp known
  simp

theorem mem_locals_of_local? {table : ImportTable} {component name : String}
    (known : table.local? component = some name) : name ∈ table.locals :=
  List.mem_map.mpr ⟨(component, name), mem_of_lookup_eq_some known, rfl⟩

-- The names of components that a table and every later one agree on.
def Names (table : ImportTable) (names : String → String) : Prop :=
  ∀ component name, table.local? component = some name → names component = name

def nameOf (table : ImportTable) (component : String) : String :=
  (table.local? component).getD ""

theorem names_nameOf (table : ImportTable) : table.Names table.nameOf := by
  intro component name known
  simp [nameOf, known]

theorem local?_register_of_known {table : ImportTable} {component name : String} (other : String)
    (known : table.local? component = some name) :
    (table.register other).2.local? component = some name := by
  unfold register
  split
  · exact known
  · simp only [local?, List.lookup_append] at *
    simp [known]

theorem local?_register_self (table : ImportTable) (component : String) :
    (table.register component).2.local? component = some (table.register component).1 := by
  unfold register
  split
  next name known => exact known
  next unknown =>
    simp only [local?, List.lookup_append] at *
    simp [unknown]

theorem local?_registerAll_of_known {table : ImportTable} {component name : String}
    (others : List String) (known : table.local? component = some name) :
    (table.registerAll others).local? component = some name := by
  induction others generalizing table with
  | nil => exact known
  | cons other rest ih => exact ih (local?_register_of_known other known)

theorem Names.of_registerAll {table : ImportTable} {components : List String}
    {names : String → String} (agrees : (table.registerAll components).Names names) :
    table.Names names :=
  fun component name known => agrees component name (local?_registerAll_of_known components known)

theorem Names.of_register_table {table : ImportTable} {component : String}
    {names : String → String} (agrees : (table.register component).2.Names names) :
    table.Names names :=
  fun other name known => agrees other name (local?_register_of_known component known)

theorem Names.of_register {table : ImportTable} {component : String} {names : String → String}
    (agrees : (table.register component).2.Names names) :
    names component = (table.register component).1 :=
  agrees _ _ (local?_register_self table component)

theorem local?_registerAll_of_mem {components : List String} {component : String}
    (table : ImportTable) (member : component ∈ components) :
    ∃ name, (table.registerAll components).local? component = some name := by
  induction components generalizing table with
  | nil => cases member
  | cons first rest ih =>
    cases member with
    | head => exact ⟨_, local?_registerAll_of_known rest (local?_register_self table component)⟩
    | tail _ member => exact ih _ member

theorem mem_specifiers_of_local? {table : ImportTable} {component name : String}
    (known : table.local? component = some name) : component ∈ table.specifiers :=
  List.mem_map.mpr ⟨(component, name), mem_of_lookup_eq_some known, rfl⟩

theorem not_mem_specifiers_of_local? {table : ImportTable} {specifier : String}
    (unknown : table.local? specifier = none) : specifier ∉ table.specifiers := by
  intro member
  obtain ⟨entry, among, rfl⟩ := List.mem_map.mp member
  have apart := List.lookup_eq_none_iff.mp unknown entry among
  simp at apart

theorem specifiers_register (table : ImportTable) (component : String) :
    (table.register component).2.specifiers =
      if component ∈ table.specifiers then table.specifiers
      else table.specifiers ++ [component] := by
  unfold register
  split
  next name known => rw [if_pos (mem_specifiers_of_local? known)]
  next unknown =>
    rw [if_neg (not_mem_specifiers_of_local? unknown)]
    simp [specifiers]

theorem specifiers_registerAll (table : ImportTable) (components : List String) :
    (table.registerAll components).specifiers =
      table.specifiers ++ (components.filter (· ∉ table.specifiers)).eraseDups := by
  induction components generalizing table with
  | nil => simp
  | cons component rest ih =>
    have later := ih (table.register component).2
    rw [specifiers_register] at later
    by_cases known : component ∈ table.specifiers
    · rw [if_pos known] at later
      rw [List.filter_cons_of_neg (by simpa using known), ← later]
      rfl
    · rw [if_neg known] at later
      rw [List.filter_cons_of_pos (by simpa using known), List.eraseDups_cons, List.filter_filter]
      have others : rest.filter (· ∉ table.specifiers ++ [component]) =
          rest.filter fun other => !other == component && decide (other ∉ table.specifiers) := by
        refine List.filter_congr fun other _ => ?_
        by_cases same : other = component <;> simp [same]
      rw [others, List.append_assoc] at later
      exact later

theorem specifiers_ofSpecifiers (declared : List String) :
    (ofSpecifiers declared).specifiers = declared.eraseDups := by
  have all : declared.filter (· ∉ specifiers {}) = declared :=
    List.filter_eq_self.mpr fun component _ => by simp [specifiers]
  rw [ofSpecifiers, ← registerAll, specifiers_registerAll, all]
  rfl

/-- The name that goes with a base when these are taken: the base if it is free, and otherwise the
base with the least number from two on that is free. No more numbers are tried than names taken. -/
inductive IsPick (taken : List String) (base : String) : String → Prop
  | bare (free : base ∉ taken) : IsPick taken base base
  | numbered {k : Nat} (held : base ∈ taken) (above : 2 ≤ k) (below : k ≤ taken.length + 1)
      (free : base ++ toString k ∉ taken)
      (least : ∀ j, 2 ≤ j → j < k → base ++ toString j ∈ taken) :
      IsPick taken base (base ++ toString k)

theorem IsPick.not_mem {taken : List String} {base name : String}
    (pick : IsPick taken base name) : name ∉ taken := by
  cases pick with
  | bare free => exact free
  | numbered held above below free least => exact free

theorem IsPick.congr {taken others : List String} {base name : String}
    (pick : IsPick taken base name) (length : taken.length = others.length)
    (same : ∀ name, name ∈ taken ↔ name ∈ others) : IsPick others base name := by
  cases pick with
  | bare free => exact .bare fun member => free ((same _).mpr member)
  | numbered held above below free least =>
    refine .numbered ((same _).mp held) above (length ▸ below) ?_ ?_
    · exact fun member => free ((same _).mpr member)
    · exact fun j from_two before => (same _).mp (least j from_two before)

-- Of two least free numbers neither is below the other.
theorem IsPick.unique {taken : List String} {base first second : String}
    (pick : IsPick taken base first) (pick' : IsPick taken base second) : first = second := by
  cases pick with
  | bare free =>
    cases pick' with
    | bare free' => rfl
    | numbered held above below free' least => exact absurd held free
  | @numbered k held above below free least =>
    cases pick' with
    | bare free' => exact absurd held free'
    | @numbered k' held' above' below' free' least' =>
      rcases Nat.lt_trichotomy k k' with earlier | rfl | later
      · exact absurd (least' k above earlier) free
      · rfl
      · exact absurd (least k' above' later) free'

theorem numbered_inj {base : String} {i j : Nat}
    (same : base ++ toString i = base ++ toString j) : i = j := by
  have shown : toString i = toString j := (String.append_right_inj base).mp same
  exact Nat.repr_injective shown

theorem numbered_ne_base (base : String) (k : Nat) : base ++ toString k ≠ base := by
  intro same
  have none : toString k = "" := (String.append_right_inj base).mp (same.trans (by simp))
  exact Nat.repr_ne_empty none

theorem firstFree_eq (taken : List String) (base : String) (tries k : Nat) :
    ∃ i ≤ tries, firstFree taken base tries k = base ++ toString (k + i) ∧
      (∀ j < i, base ++ toString (k + j) ∈ taken) ∧
      (i < tries → base ++ toString (k + i) ∉ taken) := by
  induction tries generalizing k with
  | zero => exact ⟨0, Nat.le_refl 0, rfl, by simp, by simp⟩
  | succ tries ih =>
    unfold firstFree
    dsimp only
    split
    next here =>
      obtain ⟨i, within, found, passed, free⟩ := ih (k + 1)
      rw [show k + 1 + i = k + (i + 1) by omega] at found free
      refine ⟨i + 1, by omega, found, ?_, fun more => free (by omega)⟩
      intro j before
      cases j with
      | zero => exact here
      | succ j =>
        have taken := passed j (by omega)
        rwa [show k + 1 + j = k + (j + 1) by omega] at taken
    next free => exact ⟨0, by omega, rfl, by simp, fun _ => free⟩

-- The base and its numbers are names apart, so they cannot outnumber the names taken.
theorem numbered_lt_length {taken : List String} {base : String} {i k : Nat}
    (held : base ∈ taken) (passed : ∀ j < i, base ++ toString (k + j) ∈ taken) :
    i < taken.length := by
  have apart : (base :: (List.range i).map fun j => base ++ toString (k + j)).Nodup := by
    refine List.nodup_cons.mpr ⟨?_, ?_⟩
    · intro member
      obtain ⟨j, -, same⟩ := List.mem_map.mp member
      exact numbered_ne_base base _ same
    · refine List.Pairwise.map _ (fun first second different same => different ?_) List.nodup_range
      have := numbered_inj same
      omega
  have within : base :: ((List.range i).map fun j => base ++ toString (k + j)) ⊆ taken := by
    refine List.cons_subset.mpr ⟨held, fun name member => ?_⟩
    obtain ⟨j, inRange, rfl⟩ := List.mem_map.mp member
    exact passed j (List.mem_range.mp inRange)
  have fewer := apart.length_le_of_subset within
  simp only [List.length_cons, List.length_map, List.length_range] at fewer
  omega

theorem isPick_freeName (taken : List String) (base : String) :
    IsPick taken base (freeName taken base) := by
  unfold freeName
  split
  next held =>
    obtain ⟨i, -, found, passed, free⟩ := firstFree_eq taken base taken.length 2
    have short := numbered_lt_length held passed
    rw [found]
    refine .numbered held (by omega) (by omega) (free short) fun j above before => ?_
    have taken := passed (j - 2) (by omega)
    rwa [show 2 + (j - 2) = j by omega] at taken
  next free => exact .bare free

def IsPlain (name : String) : Prop :=
  ∃ rest : List Char, name = String.ofList ('_' :: rest) ∧ ∀ c ∈ rest, isAlphanumeric c = true

theorem isPlain_baseName (specifier : String) : IsPlain (baseName specifier) :=
  ⟨_, rfl, fun _ member => isAlphanumeric_of_mem_camelCase member⟩

theorem IsPlain.numbered {base : String} (plain : IsPlain base) (k : Nat) :
    IsPlain (base ++ toString k) := by
  obtain ⟨rest, rfl, letters⟩ := plain
  refine ⟨rest ++ Nat.toDigits 10 k, ?_, ?_⟩
  · rw [← List.cons_append, String.ofList_append]
    rfl
  · intro c member
    rcases List.mem_append.mp member with letter | digit
    · exact letters c letter
    · have decimal := isDigit_of_mem_toDigits digit
      rw [isAlphanumeric, decimal, Bool.or_true]

theorem IsPick.plain {taken : List String} {specifier name : String}
    (pick : IsPick taken (baseName specifier) name) : IsPlain name := by
  cases pick with
  | bare free => exact isPlain_baseName specifier
  | numbered held above below free least => exact (isPlain_baseName specifier).numbered _

theorem IsPlain.underscored {name : String} (plain : IsPlain name) :
    name.toList.head? = some '_' := by
  obtain ⟨rest, rfl, -⟩ := plain
  simp

/-- What every table made by asking for components satisfies. Each name is the one that went with
its component when the names before it were given. -/
structure Sound (table : ImportTable) : Prop where
  apart : table.specifiers.Nodup
  picked : ∀ before specifier name after, table.entries = before ++ (specifier, name) :: after →
    IsPick (before.map (·.2)) (baseName specifier) name

theorem Sound.empty : Sound {} where
  apart := List.nodup_nil
  picked before specifier name after same := by simp at same

theorem Sound.register {table : ImportTable} (sound : table.Sound) (component : String) :
    (table.register component).2.Sound := by
  unfold ImportTable.register
  split
  · exact sound
  next unknown =>
    have new := not_mem_specifiers_of_local? unknown
    constructor
    · simp only [specifiers, List.map_append, List.map_cons, List.map_nil] at new ⊢
      refine List.nodup_append.mpr ⟨sound.apart, by simp, ?_⟩
      intro specifier old other added same
      rw [List.mem_singleton.mp added] at same
      exact new (same ▸ old)
    · intro before specifier name after same
      rcases List.eq_nil_or_concat after with rfl | ⟨after, last, rfl⟩
      · obtain ⟨rfl, one⟩ := List.append_inj' same rfl
        cases one
        exact isPick_freeName _ _
      · rw [List.concat_eq_append, ← List.cons_append, ← List.append_assoc] at same
        exact sound.picked before specifier name after (List.append_inj' same rfl).1

theorem Sound.distinct {table : ImportTable} (sound : table.Sound) : table.locals.Nodup := by
  refine List.pairwise_iff_getElem.mpr fun i j inside within before same => ?_
  simp only [locals, List.length_map] at inside within
  simp only [locals, List.getElem_map] at same
  have split := (List.take_append_drop j table.entries).symm
  rw [List.drop_eq_getElem_cons within] at split
  have pick := sound.picked _ table.entries[j].1 table.entries[j].2 _ split
  -- The earlier name is among those that were given when the later one was picked.
  refine pick.not_mem (List.mem_map.mpr ⟨table.entries[i], ?_, same⟩)
  exact List.mem_take_iff_getElem.mpr ⟨i, by omega, rfl⟩

theorem Sound.local?_of_mem {table : ImportTable} (sound : table.Sound) {component name : String}
    (member : (component, name) ∈ table.entries) : table.local? component = some name := by
  obtain ⟨before, after, same⟩ := List.append_of_mem member
  have apart := sound.apart
  simp only [specifiers, same, List.map_append, List.map_cons] at apart
  -- No entry before this one is of the same component.
  have unknown : before.lookup component = none := by
    refine List.lookup_eq_none_iff.mpr fun entry among => ?_
    have other := (List.nodup_append.mp apart).2.2 entry.1 (List.mem_map_of_mem among) component
      List.mem_cons_self
    simpa using Ne.symm other
  rw [local?, same, List.lookup_append, unknown]
  simp

theorem Sound.entries_eq {table : ImportTable} (sound : table.Sound) :
    table.entries = table.specifiers.map fun component => (component, table.nameOf component) := by
  rw [specifiers, List.map_map]
  refine (List.map_id _).symm.trans (List.map_congr_left fun entry member => ?_)
  have named := names_nameOf table entry.1 entry.2 (sound.local?_of_mem member)
  simp [named]

theorem Sound.plain {table : ImportTable} (sound : table.Sound) {name : String}
    (member : name ∈ table.locals) : IsPlain name := by
  obtain ⟨⟨specifier, name⟩, among, rfl⟩ := List.mem_map.mp member
  obtain ⟨before, after, same⟩ := List.append_of_mem among
  exact (sound.picked before specifier name after same).plain

theorem Sound.underscored {table : ImportTable} (sound : table.Sound) (name : String)
    (member : name ∈ table.locals) : name.toList.head? = some '_' :=
  (sound.plain member).underscored

theorem Sound.registerAll {table : ImportTable} (sound : table.Sound) (components : List String) :
    (table.registerAll components).Sound := by
  induction components generalizing table with
  | nil => exact sound
  | cons component rest ih => exact ih (sound.register component)

theorem Sound.ofSpecifiers (specifiers : List String) : (ofSpecifiers specifiers).Sound :=
  Sound.empty.registerAll specifiers

-- The second one takes the name that the third one asks for.
example : (ImportTable.ofSpecifiers ["x-foo", "xFoo", "x-foo2"]).locals =
    ["_xFoo", "_xFoo2", "_xFoo22"] := by decide

theorem Sound.not_param {table : ImportTable} (sound : table.Sound) {name : String}
    (member : name ∈ table.locals) : name ∉ RuntimeApi.params {} := by
  intro param
  -- A parameter starts with a dollar, and the name of an import never does.
  have dollar : ∀ param ∈ RuntimeApi.params {}, param.toList.head? = some '$' := by decide
  have underscored := sound.underscored name member
  rw [dollar name param] at underscored
  cases underscored

end RenderCompiler.ImportTable
