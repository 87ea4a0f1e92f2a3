import Mathlib.Data.List.Nodup
import RenderCompiler.Proofs.Lowering.Handlers
import RenderCompiler.Proofs.Reading.Compiled

set_option autoImplicit false

namespace RenderCompiler

namespace ImportTable

structure Indexed where
  table : ImportTable := {}
  taken : List String := []

namespace Indexed

-- A free name is looked for in the set, and the entries are not gone through for it.
def register (component : String) (indexed : Indexed) : Indexed :=
  match indexed.table.local? component with
  | some _ => indexed
  | none =>
    let name := freeName indexed.taken (baseName component)
    ⟨⟨indexed.table.entries ++ [(component, name)]⟩, name :: indexed.taken⟩

def registerAll (components : List String) (indexed : Indexed) : Indexed :=
  components.foldl (fun indexed component => indexed.register component) indexed

structure IsExact (indexed : Indexed) : Prop where
  length : indexed.taken.length = indexed.table.locals.length
  mem_iff : ∀ name, name ∈ indexed.taken ↔ name ∈ indexed.table.locals

theorem IsExact.empty : IsExact {} := ⟨rfl, fun _ => Iff.rfl⟩

theorem IsExact.freeName_eq {indexed : Indexed} (exact : indexed.IsExact) (base : String) :
    freeName indexed.taken base = freeName indexed.table.locals base :=
  ((isPick_freeName indexed.taken base).congr exact.length exact.mem_iff).unique
    (isPick_freeName indexed.table.locals base)

theorem IsExact.register {indexed : Indexed} (exact : indexed.IsExact) (component : String) :
    (indexed.register component).IsExact ∧
      (indexed.register component).table = (indexed.table.register component).2 := by
  unfold Indexed.register ImportTable.register
  cases indexed.table.local? component with
  | some name => exact ⟨exact, rfl⟩
  | none =>
    rw [← exact.freeName_eq]
    refine ⟨⟨?_, fun name => ?_⟩, rfl⟩
    · have length := exact.length
      simp only [locals, List.length_cons, List.length_append, List.length_map,
        List.length_nil] at length ⊢
      omega
    · simp only [locals, List.mem_cons, List.map_append, List.mem_append, List.map_cons,
        List.map_nil, List.not_mem_nil, or_false]
      rw [exact.mem_iff name, or_comm]
      rfl

theorem IsExact.registerAll {indexed : Indexed} (exact : indexed.IsExact)
    (components : List String) :
    (indexed.registerAll components).IsExact ∧
      (indexed.registerAll components).table = indexed.table.registerAll components := by
  induction components generalizing indexed with
  | nil => exact ⟨exact, rfl⟩
  | cons component rest ih =>
    obtain ⟨kept, same⟩ := exact.register component
    have later := ih kept
    rw [same] at later
    exact later

end Indexed

theorem entries_registerAll (table : ImportTable) (components : List String) :
    ∃ added, (table.registerAll components).entries = table.entries ++ added := by
  induction components generalizing table with
  | nil => exact ⟨[], (List.append_nil _).symm⟩
  | cons component rest ih =>
    obtain ⟨added, later⟩ := ih (table.register component).2
    have first : ∃ more, (table.register component).2.entries = table.entries ++ more := by
      unfold register
      split
      · exact ⟨[], (List.append_nil _).symm⟩
      · exact ⟨_, rfl⟩
    obtain ⟨more, grown⟩ := first
    exact ⟨more ++ added, by rw [← List.append_assoc, ← grown]; exact later⟩

theorem Sound.local?_inj {table : ImportTable} (sound : table.Sound) {component other name : String}
    (named : table.local? component = some name) (named' : table.local? other = some name) :
    component = other := by
  have here := mem_of_lookup_eq_some named
  have there := mem_of_lookup_eq_some named'
  have same := List.inj_on_of_nodup_map sound.distinct here there rfl
  exact congrArg Prod.fst same

theorem IsPlain.ne_functionName {name : String} (plain : IsPlain name) :
    name ≠ RuntimeApi.functionName {} := by
  intro same
  have first := plain.underscored
  rw [same] at first
  exact absurd first (by decide)

theorem isPick_register {table : ImportTable} {component : String}
    (unknown : table.local? component = none) :
    IsPick table.locals (baseName component) (table.register component).1 := by
  simp only [register, unknown]
  exact isPick_freeName _ _

end ImportTable

def Step.component? : Step → Option String
  | .imports component => some component
  | .reads _ _ | .handles _ _ | .tests _ => none

def importsOf (steps : List Step) : List String := steps.filterMap Step.component?

namespace Lowering

theorem imports_foldl_step (steps : List Step) (progress : Progress) :
    (steps.foldl Progress.step progress).imports =
      progress.imports.registerAll (importsOf steps) := by
  induction steps generalizing progress with
  | nil => rfl
  | cons step rest ih =>
    rw [List.foldl_cons, ih]
    cases step <;> rfl

-- The components of the steps that are done are asked for, also where a later step is refused.
theorem Performs.imports {α : Type} {program : Lower α} {steps : List Step}
    (performs : Performs program steps) (start : State) :
    (program.run.run start).2.imports =
      start.imports.registerAll (importsOf (taken steps)) := by
  have reached := congrArg (fun outcome => outcome.2.imports) (performs start)
  rw [Progress.follow_eq] at reached
  exact reached.trans (imports_foldl_step (taken steps) start.progress)

-- What can be asked while a table lives: a name, or a lowering, by any binder and names of the
-- runtime.
inductive Demand where
  | name (component : String)
  | lower (env : Environment) (request : Request)

namespace Demand

-- A demand that fails leaves behind what it has come to.
def serve (demand : Demand) (state : State) : State :=
  match demand with
  | .name component => ((localName component).run.run state).2
  | .lower env request => ((request.lower env).run.run state).2

def serveAll (demands : List Demand) (state : State) : State :=
  demands.foldl (fun state demand => demand.serve state) state

def steps : Demand → List Step
  | .name component => [.imports component]
  | .lower _ (.transform scope root) => root.course scope
  | .lower _ (.dataBag scope el) => el.dataCourse scope
  | .lower _ (.memoize _) => [.handles default default]

def components (demand : Demand) : List String := importsOf (taken demand.steps)

theorem imports_serve (demand : Demand) (state : State) :
    (demand.serve state).imports = state.imports.registerAll demand.components := by
  cases demand with
  | name component => exact (localName_performs component).imports state
  | lower env request =>
    cases request with
    | transform scope root => exact (lowerTree_performs env scope root).imports state
    | dataBag scope el => exact (dataBag_performs env scope el).imports state
    | memoize handler => exact (memoize_performs env default handler default).imports state

theorem imports_serveAll (demands : List Demand) (state : State) :
    (serveAll demands state).imports =
      state.imports.registerAll (demands.flatMap components) := by
  induction demands generalizing state with
  | nil => rfl
  | cons demand rest ih =>
    have first := imports_serve demand state
    rw [serveAll, List.foldl_cons, ← serveAll, ih, first, List.flatMap_cons,
      ImportTable.registerAll_append]

theorem serveAll_append (demands later : List Demand) (state : State) :
    serveAll (demands ++ later) state = serveAll later (serveAll demands state) :=
  List.foldl_append

end Demand

open ImportTable in
/-- Whatever is asked of a table that starts with the declared components: names are apart, and each
is made of an underscore, letters and digits, and is the first free one for its component. Names
that are given stay, and later demands only add to them. -/
theorem names_kept (declared : List String) (slots : Nat) (journal : Journal)
    (demands later : List Demand) :
    let start : State := ⟨slots, .ofSpecifiers declared, journal⟩
    let table := (Demand.serveAll demands start).imports
    let grown := (Demand.serveAll (demands ++ later) start).imports
    let indexed := Indexed.registerAll (declared ++ demands.flatMap Demand.components) {}
    (table.specifiers.Nodup ∧ table.locals.Nodup ∧
      ∀ component other name, table.local? component = some name →
        table.local? other = some name → component = other) ∧
    (indexed.table = table ∧ ∀ name, name ∈ indexed.taken ↔ name ∈ table.locals) ∧
    (∀ name ∈ table.locals, IsPlain name ∧ isBareName name = true ∧
      name ∉ Reading.reservedWords ∧ name ∉ RuntimeApi.params {} ∧
      name ≠ RuntimeApi.functionName {}) ∧
    (∃ added, grown.entries = table.entries ++ added) ∧
    (∀ component name, table.local? component = some name →
      grown.register component = (name, grown)) ∧
    (∀ component, table.local? component = none →
      IsPick table.locals (baseName component) (table.register component).1) ∧
    ∀ before component name after, table.entries = before ++ (component, name) :: after →
      IsPick (before.map (·.2)) (baseName component) name := by
  intro start table grown indexed
  have made : table = (ofSpecifiers declared).registerAll (demands.flatMap Demand.components) :=
    Demand.imports_serveAll demands start
  have more : grown = table.registerAll (later.flatMap Demand.components) := by
    rw [← Demand.imports_serveAll later, ← Demand.serveAll_append]
  have sound : table.Sound := made ▸ (Sound.ofSpecifiers declared).registerAll _
  refine ⟨⟨sound.apart, sound.distinct, fun _ _ _ => sound.local?_inj⟩, ?_, ?_, ?_, ?_, ?_,
    sound.picked⟩
  · obtain ⟨exact, same⟩ :=
      Indexed.IsExact.empty.registerAll (declared ++ demands.flatMap Demand.components)
    rw [registerAll_append] at same
    have whole : _ = table := same.trans made.symm
    exact ⟨whole, fun name => whole ▸ exact.mem_iff name⟩
  · intro name member
    have plain := sound.plain member
    exact ⟨plain, plain.isBareName, Reading.free_of_underscore plain.underscored,
      sound.not_param member, plain.ne_functionName⟩
  · exact more ▸ entries_registerAll table _
  · intro component name known
    exact register_of_known (more ▸ local?_registerAll_of_known _ known)
  · exact fun component unknown => isPick_register unknown

end Lowering

end RenderCompiler
