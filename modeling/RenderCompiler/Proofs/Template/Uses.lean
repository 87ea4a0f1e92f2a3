import RenderCompiler.Lowering.Flattening
import RenderCompiler.Proofs.Script.Occurrences
import RenderCompiler.Proofs.Template.Reach

set_option autoImplicit false

namespace RenderCompiler

inductive Provenance where
  | runtime
  | component
  | slots
  | constructor (specifier : String)
  | loopName (name : String)
  | copied (name : String)
deriving DecidableEq, Repr

def Provenance.IsGenerated : Provenance → Prop
  | .runtime | .component | .slots | .constructor _ => True
  | .loopName _ | .copied _ => False

structure Use where
  provenance : Provenance
  around : List (List String)
deriving DecidableEq, Repr

def Path.uses (scope : Scope) (around : List (List String)) (path : Path) : List Use :=
  [⟨if path.head ∈ scope then .loopName path.head else .component, around⟩]

def Value.uses (scope : Scope) (around : List (List String)) : Value → List Use
  | .bound path => path.uses scope around
  | .text _ | .number _ => []

def Expr.copies (around : List (List String)) (expr : Expr) : List Use :=
  (expr.occurrences around).map fun occurrence => ⟨.copied occurrence.name, occurrence.around⟩

def Entries.uses {α : Type} (each : α → List Use) (entries : Option (Entries α)) : List Use :=
  (entries.getD []).flatMap fun entry => each entry.2

def Path.handlerUses (scope : Scope) (around : List (List String)) (path : Path) : List Use :=
  ⟨.runtime, around⟩ :: path.uses scope around

def Element.uses (scope : Scope) (around : List (List String)) (el : Element) : List Use :=
  el.className.toList.flatMap (Value.uses scope around) ++
    Entries.uses (Value.uses scope around) el.style ++
    Entries.uses (Value.uses scope around) el.attrs ++
    Entries.uses (Value.uses scope around) el.props ++
    (el.loop.bind Loop.key).toList.flatMap (Expr.copies around) ++
    Entries.uses (Path.handlerUses scope around) el.on

def innerAround (around : List (List String)) : Option Loop → List (List String)
  | none => around
  | some loop => loop.names :: around

def Loop.uses (scope : Scope) (around : List (List String)) (loop : Loop) : List Use :=
  ⟨.runtime, around⟩ :: loop.path.uses scope around

namespace Node

mutual

def silent : Node → Bool
  | .template el children =>
    el.loop.isNone && el.condition.isSome && !anyYieldsList children && allSilent children
  | .text _ | .element _ _ | .slot _ _ _ | .custom _ _ _ _ => false

def allSilent : List Node → Bool
  | [] => true
  | node :: rest => silent node && allSilent rest

end

-- Lists that are not alone are flattened by the runtime.
def flattenUses (around : List (List String)) (children : List Node) : List Use :=
  if anyYieldsList children && children.length != 1 then [⟨.runtime, around⟩] else []

mutual

def uses : Scope → List (List String) → Node → List Use
  | scope, around, .text value => ⟨.runtime, around⟩ :: value.uses scope around
  | scope, around, .element el children =>
    let inner := Lowering.innerScope scope el.loop
    let body := innerAround around el.loop
    el.loop.toList.flatMap (Loop.uses scope around) ++
      el.condition.toList.flatMap (fun condition => condition.path.uses inner body) ++
      ⟨.runtime, body⟩ :: el.uses inner body ++ flattenUses body children ++
      usesAll inner body children
  | scope, around, .template el children =>
    let inner := Lowering.innerScope scope el.loop
    let body := innerAround around el.loop
    el.loop.toList.flatMap (Loop.uses scope around) ++
      -- A condition on nothing is not tested.
      (if allSilent children then [] else
        el.condition.toList.flatMap fun condition => condition.path.uses inner body) ++
      flattenUses body children ++ usesAll inner body children
  | scope, around, .slot el children _ =>
    let inner := Lowering.innerScope scope el.loop
    ⟨.slots, around⟩ :: flattenUses around children ++ usesAll inner around children
  | scope, around, .custom el _ component content =>
    let inner := Lowering.innerScope scope el.loop
    let body := innerAround around el.loop
    el.loop.toList.flatMap (Loop.uses scope around) ++
      el.condition.toList.flatMap (fun condition => condition.path.uses inner body) ++
      ⟨.runtime, body⟩ :: ⟨.constructor component, body⟩ :: el.uses inner body ++
      usesContent inner body content

def usesAll : Scope → List (List String) → List Node → List Use
  | _, _, [] => []
  | scope, around, node :: rest => uses scope around node ++ usesAll scope around rest

def usesContent : Scope → List (List String) → List (String × List Node) → List Use
  | _, _, [] => []
  | scope, around, (_, nodes) :: rest =>
    flattenUses around nodes ++ usesAll scope around nodes ++ usesContent scope around rest

end

end Node

/-- A property of uses that follows from what is known of the names in scope and the loops around,
together with all that has to be shown for it to hold of every use of these nodes. -/
structure Pervasive (holds : Use → Prop) (known : Scope → List (List String) → Prop)
    (nodes : List Node) : Prop where
  parameter : ∀ provenance ∈ [Provenance.runtime, .component, .slots], ∀ scope around,
    known scope around → holds ⟨provenance, around⟩
  constructor : ∀ component ∈ components nodes, ∀ scope around, known scope around →
    holds ⟨.constructor component, around⟩
  read : ∀ name scope around, name ∈ scope → known scope around → holds ⟨.loopName name, around⟩
  copied : ∀ key ∈ keys nodes, ∀ scope around, known scope around →
    ∀ use ∈ key.copies around, holds use
  inside : ∀ loop ∈ repeats nodes, ∀ scope around, known scope around →
    known (Lowering.innerScope scope (some loop)) (loop.names :: around)
  below : ∀ loop ∈ slotLoops nodes, ∀ scope around, known scope around →
    known (Lowering.innerScope scope (some loop)) around

namespace Pervasive

variable {holds : Use → Prop} {known : Scope → List (List String) → Prop}

theorem append {nodes others : List Node} (pervasive : Pervasive holds known (nodes ++ others)) :
    Pervasive holds known nodes ∧ Pervasive holds known others := by
  obtain ⟨parameter, constructor, read, copied, inside, below⟩ := pervasive
  rw [components_append] at constructor
  rw [keys_append] at copied
  rw [repeats_append] at inside
  rw [slotLoops_append] at below
  constructor
  · exact ⟨parameter, fun component member => constructor component
        (List.mem_append_left _ member), read, fun key member => copied key
        (List.mem_append_left _ member),
      fun loop member => inside loop (List.mem_append_left _ member),
      fun loop member => below loop (List.mem_append_left _ member)⟩
  · exact ⟨parameter, fun component member => constructor component
        (List.mem_append_right _ member), read, fun key member => copied key
        (List.mem_append_right _ member),
      fun loop member => inside loop (List.mem_append_right _ member),
      fun loop member => below loop (List.mem_append_right _ member)⟩

theorem entries {α : Type} {each : α → List Use} (all : ∀ item, ∀ use ∈ each item, holds use)
    (entries : Option (Entries α)) : ∀ use ∈ Entries.uses each entries, holds use := by
  intro use member
  obtain ⟨entry, -, found⟩ := List.mem_flatMap.mp member
  exact all entry.2 use found

section Own

variable {nodes : List Node} (pervasive : Pervasive holds known nodes) {scope : Scope}
  {around : List (List String)} (knows : known scope around)

include pervasive knows

theorem path (path : Path) : ∀ use ∈ path.uses scope around, holds use := by
  intro use member
  obtain rfl := List.mem_singleton.mp member
  by_cases within : path.head ∈ scope
  · rw [if_pos within]
    exact pervasive.read path.head scope around within knows
  · rw [if_neg within]
    exact pervasive.parameter .component (by simp) scope around knows

theorem value (value : Value) : ∀ use ∈ value.uses scope around, holds use := by
  cases value with
  | text value => simp [Value.uses]
  | number value => simp [Value.uses]
  | bound path => exact pervasive.path knows path

theorem handler (path : Path) : ∀ use ∈ path.handlerUses scope around, holds use := by
  intro use member
  rcases List.mem_cons.mp member with rfl | member
  · exact pervasive.parameter .runtime (by simp) scope around knows
  · exact pervasive.path knows path use member

theorem element (el : Element) (keyed : ∀ key ∈ el.loop.bind Loop.key, key ∈ keys nodes) :
    ∀ use ∈ el.uses scope around, holds use := by
  intro use member
  simp only [Element.uses, List.mem_append, List.mem_flatMap, Option.mem_toList] at member
  rcases member with ((((⟨value, -, member⟩ | member) | member) | member) | ⟨key, given, member⟩) |
    member
  · exact pervasive.value knows value use member
  · exact entries (pervasive.value knows) el.style use member
  · exact entries (pervasive.value knows) el.attrs use member
  · exact entries (pervasive.value knows) el.props use member
  · exact pervasive.copied key (keyed key given) scope around knows use member
  · exact entries (pervasive.handler knows) el.on use member

theorem loop (loop : Option Loop) :
    ∀ use ∈ loop.toList.flatMap (Loop.uses scope around), holds use := by
  intro use member
  obtain ⟨loop, -, member⟩ := List.mem_flatMap.mp member
  rcases List.mem_cons.mp member with rfl | member
  · exact pervasive.parameter .runtime (by simp) scope around knows
  · exact pervasive.path knows loop.path use member

theorem condition (condition : Option Condition) :
    ∀ use ∈ condition.toList.flatMap fun condition => condition.path.uses scope around,
      holds use := by
  intro use member
  obtain ⟨condition, -, member⟩ := List.mem_flatMap.mp member
  exact pervasive.path knows condition.path use member

theorem flatten (children : List Node) : ∀ use ∈ Node.flattenUses around children, holds use := by
  intro use member
  unfold Node.flattenUses at member
  split at member
  · obtain rfl := List.mem_singleton.mp member
    exact pervasive.parameter .runtime (by simp) scope around knows
  · cases member

theorem body {loop : Option Loop} (own : ∀ given ∈ loop, given ∈ repeats nodes) :
    known (Lowering.innerScope scope loop) (innerAround around loop) := by
  cases loop with
  | none =>
    rw [Lowering.innerScope_none]
    exact knows
  | some loop => exact pervasive.inside loop (own loop rfl) scope around knows

end Own

mutual

theorem uses (node : Node) (scope : Scope) (around : List (List String))
    (pervasive : Pervasive holds known node.reached) (knows : known scope around) :
    ∀ use ∈ node.uses scope around, holds use := by
  cases node with
  | text value =>
    intro use member
    rcases List.mem_cons.mp member with rfl | member
    · exact pervasive.parameter .runtime (by simp) scope around knows
    · exact pervasive.value knows value use member
  | element el children =>
    rw [Node.reached] at pervasive
    obtain ⟨below, here⟩ := pervasive.append
    have inner := here.body knows fun loop given => by
      simpa [Node.repeat?] using given
    have keyed : ∀ key ∈ el.loop.bind Loop.key, key ∈ keys [Node.element el children] := by
      intro key given
      simpa [Node.key?, Node.carrier?] using given
    intro use member
    simp only [Node.uses, List.mem_append, List.mem_cons] at member
    rcases member with (((member | member) | (rfl | member)) | member) | member
    · exact here.loop knows el.loop use member
    · exact here.condition inner el.condition use member
    · exact here.parameter .runtime (by simp) _ _ inner
    · exact here.element inner el keyed use member
    · exact here.flatten inner children use member
    · exact usesAll children _ _ below inner use member
  | template el children =>
    rw [Node.reached] at pervasive
    obtain ⟨below, here⟩ := pervasive.append
    have inner := here.body knows fun loop given => by
      simpa [Node.repeat?] using given
    intro use member
    simp only [Node.uses, List.mem_append] at member
    rcases member with ((member | member) | member) | member
    · exact here.loop knows el.loop use member
    · split at member
      · cases member
      · exact here.condition inner el.condition use member
    · exact here.flatten inner children use member
    · exact usesAll children _ _ below inner use member
  | slot el children name =>
    rw [Node.reached] at pervasive
    obtain ⟨below, here⟩ := pervasive.append
    -- The loop of a slot brings names into scope but no function around them.
    have inner : known (Lowering.innerScope scope el.loop) around := by
      cases looped : el.loop with
      | none =>
        rw [Lowering.innerScope_none]
        exact knows
      | some loop =>
        exact here.below loop (by simp [Node.slotLoop?, looped]) scope around knows
    intro use member
    simp only [Node.uses, List.mem_append, List.mem_cons] at member
    rcases member with (rfl | member) | member
    · exact here.parameter .slots (by simp) scope around knows
    · exact here.flatten inner children use member
    · exact usesAll children _ _ below inner use member
  | custom el children component content =>
    rw [Node.reached] at pervasive
    obtain ⟨below, here⟩ := pervasive.append
    have inner := here.body knows fun loop given => by
      simpa [Node.repeat?] using given
    have keyed : ∀ key ∈ el.loop.bind Loop.key,
        key ∈ keys [Node.custom el children component content] := by
      intro key given
      simpa [Node.key?, Node.carrier?] using given
    intro use member
    simp only [Node.uses, List.mem_append, List.mem_cons] at member
    rcases member with ((member | member) | (rfl | rfl | member)) | member
    · exact here.loop knows el.loop use member
    · exact here.condition inner el.condition use member
    · exact here.parameter .runtime (by simp) _ _ inner
    · exact here.constructor component (by simp [Node.component?]) _ _ inner
    · exact here.element inner el keyed use member
    · exact usesContent content _ _ below inner use member

theorem usesAll (nodes : List Node) (scope : Scope) (around : List (List String))
    (pervasive : Pervasive holds known (Node.reachedAll nodes)) (knows : known scope around) :
    ∀ use ∈ Node.usesAll scope around nodes, holds use := by
  cases nodes with
  | nil =>
    intro use member
    cases member
  | cons node rest =>
    rw [Node.reachedAll] at pervasive
    obtain ⟨here, later⟩ := pervasive.append
    intro use member
    rw [Node.usesAll, List.mem_append] at member
    rcases member with member | member
    · exact uses node scope around here knows use member
    · exact usesAll rest scope around later knows use member

theorem usesContent (content : List (String × List Node)) (scope : Scope)
    (around : List (List String)) (pervasive : Pervasive holds known (Node.reachedContent content))
    (knows : known scope around) :
    ∀ use ∈ Node.usesContent scope around content, holds use := by
  cases content with
  | nil =>
    intro use member
    cases member
  | cons entry rest =>
    obtain ⟨name, nodes⟩ := entry
    rw [Node.reachedContent] at pervasive
    obtain ⟨here, later⟩ := pervasive.append
    intro use member
    rw [Node.usesContent, List.mem_append, List.mem_append] at member
    rcases member with (member | member) | member
    · exact here.flatten knows nodes use member
    · exact usesAll nodes scope around here knows use member
    · exact usesContent rest scope around later knows use member

end

end Pervasive

end RenderCompiler
