import RenderCompiler.Proofs.Lowering.Course
import RenderCompiler.Proofs.Lowering.Offset

set_option autoImplicit false

namespace RenderCompiler

def Step.handler? : Step → Option (Path × Scope)
  | .handles path scope => some (path, scope)
  | .reads _ _ | .tests _ | .imports _ => none

def handlersOf (steps : List Step) : List (Path × Scope) := steps.filterMap Step.handler?

section Course

@[simp] theorem handlersOf_append (steps others : List Step) :
    handlersOf (steps ++ others) = handlersOf steps ++ handlersOf others :=
  List.filterMap_append

variable (scope : Scope)

@[simp] theorem handlersOf_value (value : Value) : handlersOf (value.course scope) = [] := by
  cases value <;> rfl

theorem handlersOf_flatMap_values {α : Type} (items : List α) (value : α → Value) :
    handlersOf (items.flatMap fun item => (value item).course scope) = [] := by
  induction items with
  | nil => rfl
  | cons item rest ih => rw [List.flatMap_cons, handlersOf_append, ih, handlersOf_value]; rfl

@[simp] theorem handlersOf_handlersCourse (handlers : Entries Path) :
    handlersOf (handlersCourse scope handlers) =
      handlers.map fun handler => (handler.2, scope) := by
  induction handlers with
  | nil => rfl
  | cons handler rest ih =>
    rw [handlersCourse, List.flatMap_cons, handlersOf_append, ← handlersCourse, ih]
    rfl

@[simp] theorem handlersOf_dataCourse (el : Element) :
    handlersOf (el.dataCourse scope) = el.handlers scope := by
  have className := handlersOf_flatMap_values scope el.className.toList id
  simp only [id] at className
  simp [Element.dataCourse, valuesCourse, handlersOf_flatMap_values, className, Element.handlers]

@[simp] theorem handlersOf_conditionCourse (condition : Option Condition) :
    handlersOf (conditionCourse scope condition) = [] := by
  cases condition <;> rfl

@[simp] theorem handlersOf_loopCourse (loop : Option Loop) :
    handlersOf (loopCourse scope loop) = [] := by
  cases loop <;> rfl

@[simp] theorem handlersOf_imports (component : String) (rest : List Step) :
    handlersOf (.imports component :: rest) = handlersOf rest := rfl

end Course

namespace Node

mutual

theorem handlersOf_course (node : Node) (scope : Scope) :
    handlersOf (node.course scope) = node.handlers scope := by
  cases node with
  | text value => simp [course, handlers]
  | element el children => simp [course, handlers, handlersOf_courseAll children]
  | template el children => simp [course, handlers, handlersOf_courseAll children]
  | slot el children name => simp [course, handlers, handlersOf_courseAll children]
  | custom el children component content =>
    simp [course, handlers, handlersOf_courseContent content]

theorem handlersOf_courseAll (nodes : List Node) (scope : Scope) :
    handlersOf (courseAll scope nodes) = handlersAll scope nodes := by
  cases nodes with
  | nil => rfl
  | cons node rest =>
    simp [courseAll, handlersAll, handlersOf_course node, handlersOf_courseAll rest]

theorem handlersOf_courseContent (content : List (String × List Node)) (scope : Scope) :
    handlersOf (courseContent scope content) = handlersContent scope content := by
  cases content with
  | nil => rfl
  | cons slot rest =>
    simp [courseContent, handlersContent, handlersOf_courseAll slot.2,
      handlersOf_courseContent rest]

end

end Node

namespace Lowering

section Counter

theorem slots_foldl_step (steps : List Step) (progress : Progress) :
    (steps.foldl Progress.step progress).slots =
      progress.slots + (handlersOf steps).length := by
  induction steps generalizing progress with
  | nil => rfl
  | cons step rest ih =>
    rw [List.foldl_cons, ih]
    cases step with
    | handles path scope =>
      have one : (handlersOf (.handles path scope :: rest)).length =
          (handlersOf rest).length + 1 := rfl
      simp only [Progress.step, one]
      omega
    | reads path scope => rfl
    | tests modifier => rfl
    | imports component => rfl

variable {α : Type} {program : Lower α} {steps : List Step}

-- The counter goes on by the handlers of the steps that are done, also where one is refused.
theorem Performs.slots (performs : Performs program steps) (start : State) :
    (program.run.run start).2.slots = start.slots + (handlersOf (taken steps)).length := by
  have reached := congrArg (fun outcome => outcome.2.slots) (performs start)
  rw [Progress.follow_eq] at reached
  exact reached.trans (slots_foldl_step (taken steps) start.progress)

end Counter

section Transform

variable (env : Environment)

theorem known_of_ran {scope : Scope} {root : Node} {start finish : State} {expr : Expr}
    (ran : (lowerTree env scope root).run.run start = (.ok expr, finish)) :
    unknownModifiers root.reached = [] := by
  cases unknown : unknownModifiers root.reached with
  | nil => rfl
  | cons modifier rest =>
    have first : (unknownModifiers root.reached).head? = some modifier := by rw [unknown]; rfl
    obtain ⟨reached, failed⟩ := lowerTree_fails env scope root first start.journal
    rw [failed] at ran
    cases ran

theorem lowerTree_ran {scope : Scope} {root : Node} {start finish : State} {expr : Expr}
    (ran : (lowerTree env scope root).run.run start = (.ok expr, finish)) :
    expr = (root.sketch scope start.slots).expr env
        (start.imports.registerAll (components root.reached)).nameOf ∧
      finish.slots = start.slots + handlerTotal root.reached ∧
      finish.imports = start.imports.registerAll (components root.reached) := by
  obtain ⟨journal, goes⟩ := lowerTree_runs env _ scope root (known_of_ran env ran)
    (ImportTable.names_nameOf (start.imports.registerAll (components root.reached))) start.journal
  rw [ran] at goes
  injection goes with written reached
  injection written with written
  exact ⟨written, by rw [reached], by rw [reached]⟩

end Transform

section Request

inductive Request where
  | transform (scope : Scope) (root : Node)
  | dataBag (scope : Scope) (el : Element)
  | memoize (handler : Expr)

namespace Request

variable (env : Environment)

def lower : Request → Lower Expr
  | .transform scope root => lowerTree env scope root
  | .dataBag scope el => Lowering.dataBag env scope el
  | .memoize handler => Lowering.memoize env handler

def handlerCount : Request → Nat
  | .transform _ root => handlerTotal root.reached
  | .dataBag _ el => el.handlerCount
  | .memoize _ => 1

-- No key that is copied hands over a handler of its own.
def Plain : Request → Prop
  | .transform _ root => Node.PlainKeys env root.reached
  | .dataBag _ el => ∀ key ∈ el.loop.bind Loop.key, key.bindCalls env.api = []
  | .memoize _ => True

-- The call sites that a request adds with its result. Those within a memoized handler were there
-- before, so of these only the outermost is new.
def sites (result : Expr) : Request → List (List Expr)
  | .transform _ _ | .dataBag _ _ => result.bindCalls env.api
  | .memoize _ => (result.bindCalls env.api).take 1

end Request

/-- The call sites of requests that one context serves in turn, each for the imports it comes with,
and the slot that is next. A request that fails leaves no call sites. -/
def session (env : Environment) : Nat → List (ImportTable × Request) → List (List Expr) × Nat
  | slots, [] => ([], slots)
  | slots, (imports, request) :: rest =>
    let (result, finish) := (request.lower env).run.run { slots, imports }
    let (sites, last) := session env finish.slots rest
    match result with
    | .ok expr => (request.sites env expr ++ sites, last)
    | .error _ => (sites, last)

end Request

section Given

-- Each of the call sites has a slot of its own, from the first on and before the second.
structure TakeSlots (sites : List (List Expr)) (first next : Nat) : Prop where
  apart : (sites.filterMap slotOf?).Nodup
  within : ∀ site ∈ sites, ∃ slot, slotOf? site = some slot ∧ first ≤ slot ∧ slot < next

variable {sites others : List (List Expr)} {first middle next : Nat}

theorem TakeSlots.nil (first next : Nat) : TakeSlots [] first next where
  apart := List.nodup_nil
  within _ member := nomatch member

theorem TakeSlots.append (here : TakeSlots sites first middle)
    (later : TakeSlots others middle next) (start : first ≤ middle) (finish : middle ≤ next) :
    TakeSlots (sites ++ others) first next where
  apart := by
    rw [List.filterMap_append, List.nodup_append]
    refine ⟨here.apart, later.apart, ?_⟩
    intro slot member other member' same
    obtain ⟨site, among, has⟩ := List.mem_filterMap.mp member
    obtain ⟨site', among', has'⟩ := List.mem_filterMap.mp member'
    obtain ⟨_, found, -, below⟩ := here.within site among
    obtain ⟨_, found', above, -⟩ := later.within site' among'
    rw [has] at found
    rw [has'] at found'
    cases found
    cases found'
    omega
  within site member := by
    rcases List.mem_append.mp member with among | among
    · obtain ⟨slot, has, above, below⟩ := here.within site among
      exact ⟨slot, has, above, by omega⟩
    · obtain ⟨slot, has, above, below⟩ := later.within site among
      exact ⟨slot, has, by omega, below⟩

theorem TakeSlots.of_perm (same : sites.Perm others) (take : TakeSlots others first next) :
    TakeSlots sites first next where
  apart := (same.filterMap slotOf?).nodup_iff.mpr take.apart
  within site member := take.within site (same.mem_iff.mp member)

variable (env : Environment)

theorem slotOf?_given (handler : Expr) {slot : Nat} (fits : slot < slotLimit) :
    slotOf? [handler, .number (.ofUInt32 (.ofNat slot))] = some slot := by
  rw [slotOf?, Binary64.integral?_ofUInt32, UInt32.toNat_ofNat_of_lt' fits]

theorem slots_handlerCalls (given : Nat) (handlers : List (Path × Scope))
    (fits : given + handlers.length ≤ slotLimit) :
    (handlerCalls env given handlers).filterMap slotOf? = List.range' given handlers.length := by
  induction handlers generalizing given with
  | nil => rfl
  | cons handler rest ih =>
    rw [List.length_cons] at fits
    have others := ih (given + 1) (by omega)
    have here := slotOf?_given (env.binder handler.1 handler.2) (show given < slotLimit by omega)
    rw [handlerCalls, List.zipIdx_cons, List.map_cons, List.filterMap_cons, here]
    exact congrArg _ others

theorem handlerCalls_take (given : Nat) (handlers : List (Path × Scope))
    (fits : given + handlers.length ≤ slotLimit) :
    TakeSlots (handlerCalls env given handlers) given (given + handlers.length) where
  apart := by
    rw [slots_handlerCalls env given handlers fits]
    exact List.nodup_range'
  within site member := by
    obtain ⟨⟨⟨path, scope⟩, slot⟩, among, rfl⟩ := List.mem_map.mp member
    obtain ⟨above, below, -⟩ := List.mem_zipIdx among
    exact ⟨slot, slotOf?_given _ (by omega), above, by omega⟩

end Given

section Served

variable {env : Environment} (hands : env.HandsOver)

variable (env) in
theorem memoize_ran (handler : Expr) (start : State) :
    ∃ finish, (memoize env handler).run.run start =
        (.ok (env.api.bindCall handler start.nextSlot), finish) ∧
      finish.slots = start.slots + 1 ∧
      ((env.api.bindCall handler start.nextSlot).bindCalls env.api).take 1 =
        [[handler, .number (.ofUInt32 start.nextSlot)]] := by
  obtain ⟨journal, ran⟩ := memoize_runs env handler start.journal
  refine ⟨_, ran, rfl, ?_⟩
  simp [RuntimeApi.bindCall, RuntimeApi.primitive, Expr.bindCalls, Expr.isBind]

variable (env) in
theorem transform_slots (scope : Scope) (root : Node) (start : State) :
    start.slots ≤ ((lowerTree env scope root).run.run start).2.slots ∧
      ((lowerTree env scope root).run.run start).2.slots ≤
        start.slots + handlerTotal root.reached := by
  have some : (taken (root.course scope)).Sublist (root.course scope) :=
    (List.takeWhile_prefix _).sublist
  have fewer := (some.filterMap Step.handler?).length_le
  have all : ((root.course scope).filterMap Step.handler?).length = handlerTotal root.reached := by
    rw [← root.length_handlers scope, ← root.handlersOf_course scope]
    rfl
  rw [(lowerTree_performs env scope root).slots, handlersOf]
  omega

include hands

theorem transform_sites {scope : Scope} {root : Node} {start finish : State} {expr : Expr}
    (plain : Node.PlainKeys env root.reached)
    (ran : (lowerTree env scope root).run.run start = (.ok expr, finish)) :
    (expr.bindCalls env.api).Perm (handlerCalls env start.slots (root.handlers scope)) := by
  obtain ⟨rfl, -, -⟩ := lowerTree_ran env ran
  exact Node.sketch_calls _ hands root scope start.slots plain

theorem dataBag_ran (scope : Scope) (el : Element) (start : State)
    (plain : ∀ key ∈ el.loop.bind Loop.key, key.bindCalls env.api = []) :
    ∃ expr finish, (dataBag env scope el).run.run start = (.ok expr, finish) ∧
      finish.slots = start.slots + el.handlerCount ∧
      expr.bindCalls env.api = handlerCalls env start.slots (el.handlers scope) := by
  let names := start.imports.nameOf
  have runs : Runs (dataBag env scope el) start.slots start.imports _ _ _ :=
    (dataProperties_runs env names scope el).bind (.pure _)
  obtain ⟨journal, ran⟩ := runs start.journal
  refine ⟨_, _, ran, rfl, ?_⟩
  rw [← Sketch.fieldCalls_dataFields names hands scope start.slots el plain, ← Sketch.calls_object]
  rfl

theorem request_takes {request : Request} {start finish : State}
    {result : Except CompileError Expr}
    (ran : (request.lower env).run.run start = (result, finish)) (plain : request.Plain env)
    (fits : start.slots + request.handlerCount ≤ slotLimit) :
    start.slots ≤ finish.slots ∧ finish.slots ≤ start.slots + request.handlerCount ∧
      ∀ expr, result = .ok expr →
        TakeSlots (request.sites env expr) start.slots finish.slots := by
  cases request with
  | transform scope root =>
    have ⟨above, below⟩ := transform_slots env scope root start
    simp only [Request.lower, Request.handlerCount, Request.sites] at ran fits ⊢
    rw [ran] at above below
    refine ⟨above, below, ?_⟩
    rintro expr rfl
    have sites := transform_sites hands plain ran
    have last := (lowerTree_ran env ran).2.1
    have length := root.length_handlers scope
    have take := handlerCalls_take env start.slots (root.handlers scope) (by omega)
    rw [length, ← last] at take
    exact take.of_perm sites
  | dataBag scope el =>
    obtain ⟨expr, reached, goes, last, sites⟩ := dataBag_ran hands scope el start plain
    have length := Node.length_element_handlers scope el
    simp only [Request.lower, Request.handlerCount, Request.sites] at ran fits ⊢
    obtain ⟨rfl, rfl⟩ := Prod.mk.inj (ran.symm.trans goes)
    refine ⟨by omega, by omega, ?_⟩
    rintro other ok
    cases ok
    have take := handlerCalls_take env start.slots (el.handlers scope) (by omega)
    rwa [length, ← last, ← sites] at take
  | memoize handler =>
    obtain ⟨reached, goes, last, sites⟩ := memoize_ran env handler start
    simp only [Request.lower, Request.handlerCount, Request.sites] at ran fits ⊢
    obtain ⟨rfl, rfl⟩ := Prod.mk.inj (ran.symm.trans goes)
    refine ⟨by omega, by omega, ?_⟩
    rintro other ok
    cases ok
    rw [sites, last]
    have slot : slotOf? [handler, .number (.ofUInt32 start.nextSlot)] = some start.slots :=
      slotOf?_given handler (by omega)
    refine ⟨by simp [slot], fun site member => ?_⟩
    obtain rfl := List.mem_singleton.mp member
    exact ⟨start.slots, slot, by omega, by omega⟩

def requestTotal : List (ImportTable × Request) → Nat
  | [] => 0
  | (_, request) :: rest => request.handlerCount + requestTotal rest

theorem session_takes (requests : List (ImportTable × Request)) (slots : Nat)
    (plain : ∀ entry ∈ requests, entry.2.Plain env)
    (fits : slots + requestTotal requests ≤ slotLimit) :
    slots ≤ (session env slots requests).2 ∧
      (session env slots requests).2 ≤ slots + requestTotal requests ∧
      TakeSlots (session env slots requests).1 slots (session env slots requests).2 := by
  induction requests generalizing slots with
  | nil => exact ⟨Nat.le_refl _, Nat.le_refl _, .nil _ _⟩
  | cons entry rest ih =>
    obtain ⟨imports, request⟩ := entry
    rw [session, requestTotal]
    rw [requestTotal] at fits
    cases ran : (request.lower env).run.run { slots, imports } with
    | mk result finish =>
      obtain ⟨above, below, sites⟩ := request_takes hands ran (plain _ List.mem_cons_self) (by
        change slots + request.handlerCount ≤ slotLimit
        omega)
      change slots ≤ finish.slots at above
      change finish.slots ≤ slots + request.handlerCount at below
      obtain ⟨later, most, others⟩ := ih finish.slots
        (fun entry member => plain entry (List.mem_cons_of_mem _ member)) (by omega)
      have bounded : (session env finish.slots rest).2 ≤
          slots + (request.handlerCount + requestTotal rest) := by omega
      have first := Nat.le_trans above later
      cases result with
      | ok expr => exact ⟨first, bounded, (sites expr rfl).append others above later⟩
      | error error => exact ⟨first, bounded, (TakeSlots.nil _ _).append others above later⟩

end Served

section Offset

def Progress.ahead (offset : Nat) (progress : Progress) : Progress :=
  { progress with slots := progress.slots + offset }

theorem Progress.follow_ahead (offset : Nat) (steps : List Step) (progress : Progress) :
    (progress.ahead offset).follow steps =
      ((progress.follow steps).1, (progress.follow steps).2.ahead offset) := by
  induction steps generalizing progress with
  | nil => rfl
  | cons step rest ih =>
    have same : (progress.ahead offset).step step = (progress.step step).ahead offset := by
      cases step <;> simp [Progress.step, Progress.ahead, Nat.add_right_comm]
    rw [follow, follow, same]
    cases step.refusal? with
    | some error => rfl
    | none => exact ih (progress.step step)

theorem Performs.ahead {α : Type} {program : Lower α} {steps : List Step}
    (performs : Performs program steps) (offset : Nat) (start : State) :
    let plain := program.run.run start
    let further := program.run.run { start with slots := start.slots + offset }
    failure? further.1 = failure? plain.1 ∧
      further.2.progress = plain.2.progress.ahead offset := by
  have further := performs { start with slots := start.slots + offset }
  have moved := Progress.follow_ahead offset steps start.progress
  rw [← performs start] at moved
  exact Prod.mk.inj (further.trans moved)

variable {env : Environment} (hands : env.HandsOver)

include hands

theorem lowerTree_offset (scope : Scope) (root : Node) (start : State) (offset : Nat)
    (plain : Node.PlainKeys env root.reached) :
    let first := (lowerTree env scope root).run.run start
    let further := (lowerTree env scope root).run.run { start with slots := start.slots + offset }
    further.1 = first.1.map (Expr.raised env.api offset) ∧
      further.2.progress = first.2.progress.ahead offset := by
  obtain ⟨fails, reached⟩ := (lowerTree_performs env scope root).ahead offset start
  refine ⟨?_, reached⟩
  cases ran : (lowerTree env scope root).run.run start with
  | mk result finish =>
    cases ran' : (lowerTree env scope root).run.run
        { start with slots := start.slots + offset } with
    | mk result' finish' =>
      rw [ran, ran'] at fails
      cases result with
      | error error =>
        cases result' with
        | ok expr' => cases fails
        | error error' =>
          cases fails
          rfl
      | ok expr =>
        cases result' with
        | error error' => cases fails
        | ok expr' =>
          obtain ⟨rfl, -, -⟩ := lowerTree_ran env ran
          obtain ⟨rfl, -, -⟩ := lowerTree_ran env ran'
          exact congrArg Except.ok
            (Node.sketch_raised _ offset hands root scope start.slots plain)

end Offset

/-- Slots are given out without gap, reuse or loss. A lowering hands over each handler it reaches
once, with the slots that come next; one that fails gives out those of the handlers before the
failure; what was given out before only raises the slots; and a session gives no slot twice. -/
theorem lowerTree_gives_slots (scope : Scope) (root : Node) (start : State)
    (plain : Node.PlainKeys (.ofApi {}) root.reached)
    (fits : start.slots + handlerTotal root.reached < slotLimit) :
    handlersOf (root.course scope) = root.handlers scope ∧
    (root.handlers scope).length = handlerTotal root.reached ∧
    (∀ expr finish, (lowerTree (.ofApi {}) scope root).run.run start = (.ok expr, finish) →
      (expr.bindCalls {}).Perm (handlerCalls (.ofApi {}) start.slots (root.handlers scope)) ∧
        ((expr.bindCalls {}).filterMap slotOf?).Perm
          (List.range' start.slots (handlerTotal root.reached)) ∧
        finish.slots = start.slots + handlerTotal root.reached) ∧
    (∀ error finish, (lowerTree (.ofApi {}) scope root).run.run start = (.error error, finish) →
      finish.slots = start.slots + (handlersOf (taken (root.course scope))).length) ∧
    (let fresh := (lowerTree (.ofApi {}) scope root).run.run { start with slots := 0 }
      let further := (lowerTree (.ofApi {}) scope root).run.run start
      further.1 = fresh.1.map (Expr.raised {} start.slots) ∧
        further.2.progress = fresh.2.progress.ahead start.slots) ∧
    ∀ requests, (∀ entry ∈ requests, entry.2.Plain (.ofApi {})) →
      start.slots + requestTotal requests < slotLimit →
      TakeSlots (session (.ofApi {}) start.slots requests).1 start.slots
        (session (.ofApi {}) start.slots requests).2 := by
  have hands := handsOver_default
  have length := root.length_handlers scope
  refine ⟨root.handlersOf_course scope, length, ?_, ?_, ?_, ?_⟩
  · intro expr finish ran
    have sites := transform_sites hands plain ran
    have slots := sites.filterMap slotOf?
    rw [slots_handlerCalls _ _ _ (by omega), length] at slots
    exact ⟨sites, slots, (lowerTree_ran _ ran).2.1⟩
  · intro error finish ran
    have counted := (lowerTree_performs (.ofApi {}) scope root).slots start
    rwa [ran] at counted
  · have offset := lowerTree_offset hands scope root { start with slots := 0 } start.slots plain
    simp only [Nat.zero_add] at offset
    exact offset
  · intro requests plain fits
    exact (session_takes hands requests start.slots plain (by omega)).2.2

end Lowering

def Node.desk : Node :=
  .element { tag := "ul", on := some [("drop", ⟨"sort", []⟩)] } [.custom
    { tag := "x-card"
      loop := some { path := ⟨"cards", []⟩, item := "card" }
      on := some [("click", ⟨"card", ["open"]⟩)] }
    [] "cards/card"
    [("actions", [.element { tag := "button", on := some [("click", ⟨"card", ["drop"]⟩)] } []])]]

namespace Lowering

theorem desk_gives_slots :
    Node.PlainKeys (.ofApi {}) Node.desk.reached ∧
    3 + handlerTotal Node.desk.reached < slotLimit ∧
    ∃ expr finish,
      (lowerTree (.ofApi {}) [] Node.desk).run.run { slots := 3 } = (.ok expr, finish) ∧
      (expr.bindCalls {}).Perm (handlerCalls (.ofApi {}) 3
        [(⟨"card", ["open"]⟩, ["card", "index"]), (⟨"card", ["drop"]⟩, ["card", "index"]),
          (⟨"sort", []⟩, [])]) ∧
      ((expr.bindCalls {}).filterMap slotOf?).Perm [3, 4, 5] ∧ finish.slots = 6 := by
  have plain : Node.PlainKeys (.ofApi {}) Node.desk.reached := by
    intro key member
    cases member
  have total : handlerTotal Node.desk.reached = 3 := rfl
  have fits : 3 + handlerTotal Node.desk.reached < slotLimit := by decide
  have runs : Runs (lowerTree (.ofApi {}) [] Node.desk) 3 {} _ _ _ :=
    lowerTree_runs (.ofApi {}) _ [] Node.desk rfl (ImportTable.names_nameOf _)
  obtain ⟨journal, ran⟩ := runs #[]
  have ⟨sites, slots, next⟩ :=
    (lowerTree_gives_slots [] Node.desk { slots := 3 } plain fits).2.2.1 _ _ ran
  exact ⟨plain, fits, _, _, ran, sites, slots, next⟩

end Lowering

end RenderCompiler
