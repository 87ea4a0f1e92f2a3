import RenderCompiler.Template.Walk

set_option autoImplicit false

namespace RenderCompiler

namespace Node

mutual

-- The node and all nodes below it, in document order. What is projected into slots is not below.
def subtree : Node → List Node
  | .text value => [.text value]
  | .element el children => .element el children :: subtreeAll children
  | .template el children => .template el children :: subtreeAll children
  | .slot el children name => .slot el children name :: subtreeAll children
  | .custom el children component content =>
    .custom el children component content :: subtreeAll children

def subtreeAll : List Node → List Node
  | [] => []
  | node :: rest => subtree node ++ subtreeAll rest

end

theorem subtree_eq {node : Node} (element : node.element?.isSome) :
    node.subtree = node :: subtreeAll node.children := by
  cases node with
  | text value => cases element
  | _ => rfl

end Node

namespace Visitor

inductive Call (ε : Type) where
  | enter (node : Node) (answer : Except ε Descent)
  | exit (node : Node) (answer : Except ε Unit)
  | text (value : Value) (answer : Except ε Unit)

abbrev Hook (σ ε : Type) := ExceptT ε (StateM σ)

variable {σ ε : Type}

namespace Call

def error? : Call ε → Option ε
  | .enter _ (.error error) | .exit _ (.error error) | .text _ (.error error) => some error
  | .enter _ (.ok _) | .exit _ (.ok _) | .text _ (.ok _) => none

def reached? : Call ε → Option Node
  | .enter node _ => some node
  | .text value _ => some (.text value)
  | .exit _ _ => none

def Made (visitor : Visitor (Hook σ ε)) (state : σ) (call : Call ε) (next : σ) : Prop :=
  match call with
  | .enter node answer => (visitor.enter node).run.run state = (answer, next)
  | .exit node answer => (visitor.exit node).run.run state = (answer, next)
  | .text value answer => (visitor.text value).run.run state = (answer, next)

end Call

inductive Leads (visitor : Visitor (Hook σ ε)) : σ → List (Call ε) → σ → Prop
  | nil (state : σ) : Leads visitor state [] state
  | cons {start next finish : σ} {call : Call ε} {calls : List (Call ε)}
      (made : call.Made visitor start next) (later : Leads visitor next calls finish) :
      Leads visitor start (call :: calls) finish

-- What becomes of the children. A hook that fails has not said it.
def descent (otherwise : Descent) : Except ε Descent → Descent
  | .ok answer => answer
  | .error _ => otherwise

mutual

/-- The calls over a node, if no failure ends them. A hook that fails is then taken to answer
`otherwise`. -/
inductive Course (otherwise : Descent) : Node → List (Call ε) → Prop
  | text (value : Value) (answer : Except ε Unit) :
      Course otherwise (.text value) [.text value answer]
  | skipped {node : Node} {answer : Except ε Descent} {left : Except ε Unit}
      (element : node.element?.isSome) (skips : descent otherwise answer = .skip) :
      Course otherwise node [.enter node answer, .exit node left]
  | descended {node : Node} {answer : Except ε Descent} {left : Except ε Unit}
      {calls : List (Call ε)} (element : node.element?.isSome)
      (descends : descent otherwise answer = .children)
      (below : CourseAll otherwise node.children calls) :
      Course otherwise node (.enter node answer :: calls ++ [.exit node left])

inductive CourseAll (otherwise : Descent) : List Node → List (Call ε) → Prop
  | nil : CourseAll otherwise [] []
  | cons {node : Node} {rest : List Node} {calls more : List (Call ε)}
      (first : Course otherwise node calls) (others : CourseAll otherwise rest more) :
      CourseAll otherwise (node :: rest) (calls ++ more)

end

inductive Matched : List (Call ε) → Prop
  | nil : Matched []
  | text {value : Value} {answer : Except ε Unit} {rest : List (Call ε)} (later : Matched rest) :
      Matched (.text value answer :: rest)
  | pair {node : Node} {answer : Except ε Descent} {left : Except ε Unit}
      {inside rest : List (Call ε)} (within : Matched inside) (later : Matched rest) :
      Matched (.enter node answer :: inside ++ .exit node left :: rest)

/-- How a program ends that would make some calls and then give a value: so, or with the first call
that fails. -/
inductive Ends (visitor : Visitor (Hook σ ε)) (start : σ) (full : List (Call ε)) (finish : σ)
    {α : Type} (value : α) : Except ε α → σ → List (Call ε) → Prop
  | whole (succeed : ∀ call ∈ full, call.error? = none) :
      Ends visitor start full finish value (.ok value) finish full
  | failed {before : List (Call ε)} {call : Call ε} (after : List (Call ε)) {error : ε} {state : σ}
      (split : full = before ++ call :: after) (succeed : ∀ call ∈ before, call.error? = none)
      (fails : call.error? = some error) (leads : Leads visitor start (before ++ [call]) state) :
      Ends visitor start full finish value (.error error) state (before ++ [call])

def noted {α : Type} (call : Except ε α → Call ε) (hook : Hook σ ε α) :
    Hook (σ × List (Call ε)) ε α :=
  ExceptT.mk fun (state, calls) =>
    let (answer, next) := hook.run.run state
    (answer, next, calls ++ [call answer])

def noting (visitor : Visitor (Hook σ ε)) : Visitor (Hook (σ × List (Call ε)) ε) where
  enter node := noted (.enter node) (visitor.enter node)
  exit node := noted (.exit node) (visitor.exit node)
  text value := noted (.text value) (visitor.text value)

section Calls

variable {visitor : Visitor (Hook σ ε)} {otherwise : Descent}

theorem leads_nil {start finish : σ} : Leads visitor start [] finish ↔ start = finish := by
  constructor
  · rintro ⟨⟩
    rfl
  · rintro rfl
    exact .nil start

theorem leads_cons {start finish : σ} {call : Call ε} {calls : List (Call ε)} :
    Leads visitor start (call :: calls) finish ↔
      ∃ next, call.Made visitor start next ∧ Leads visitor next calls finish := by
  constructor
  · rintro (_ | ⟨made, later⟩)
    exact ⟨_, made, later⟩
  · rintro ⟨next, made, later⟩
    exact .cons made later

theorem leads_single {start finish : σ} {call : Call ε} :
    Leads visitor start [call] finish ↔ call.Made visitor start finish := by
  simp [leads_cons, leads_nil]

theorem leads_append {start finish : σ} {first others : List (Call ε)} :
    Leads visitor start (first ++ others) finish ↔
      ∃ middle, Leads visitor start first middle ∧ Leads visitor middle others finish := by
  induction first generalizing start with
  | nil => simp [leads_nil]
  | cons call first ih =>
    simp only [List.cons_append, leads_cons, ih]
    constructor
    · rintro ⟨next, made, middle, here, later⟩
      exact ⟨middle, ⟨next, made, here⟩, later⟩
    · rintro ⟨middle, ⟨next, made, here⟩, later⟩
      exact ⟨next, made, middle, here, later⟩

theorem Ends.calls_prefix {start finish state : σ} {full calls : List (Call ε)} {α : Type}
    {value : α} {result : Except ε α}
    (ends : Ends visitor start full finish value result state calls) : calls <+: full := by
  cases ends with
  | whole => exact List.prefix_refl full
  | @failed before call after _ _ split =>
    rw [split]
    exact ⟨after, by simp⟩

section Exists

variable (visitor otherwise)

theorem exists_around {node : Node} (element : node.element?.isSome)
    (below : ∀ start, ∃ calls finish, CourseAll otherwise node.children calls ∧
      Leads visitor start calls finish) (start : σ) :
    ∃ calls finish, Course otherwise node calls ∧ Leads visitor start calls finish := by
  obtain ⟨answer, entered⟩ : ∃ answer, (visitor.enter node).run.run start = answer := ⟨_, rfl⟩
  cases descends : descent otherwise answer.1 with
  | skip =>
    exact ⟨_, _, .skipped element descends, .cons entered (leads_single.mpr rfl)⟩
  | children =>
    obtain ⟨calls, middle, course, leads⟩ := below answer.2
    exact ⟨_, _, .descended element descends course,
      .cons entered (leads_append.mpr ⟨middle, leads, leads_single.mpr rfl⟩)⟩

mutual

theorem exists_course (node : Node) (start : σ) :
    ∃ calls finish, Course otherwise node calls ∧ Leads visitor start calls finish := by
  cases node with
  | text value => exact ⟨_, _, .text value _, leads_single.mpr rfl⟩
  | element el children | template el children | slot el children name
  | custom el children component content =>
    refine exists_around visitor otherwise rfl ?_ start
    exact exists_courseAll children

theorem exists_courseAll (nodes : List Node) (start : σ) :
    ∃ calls finish, CourseAll otherwise nodes calls ∧ Leads visitor start calls finish := by
  cases nodes with
  | nil => exact ⟨_, _, .nil, .nil start⟩
  | cons node rest =>
    obtain ⟨calls, middle, first, here⟩ := exists_course node start
    obtain ⟨more, finish, others, later⟩ := exists_courseAll rest middle
    exact ⟨_, _, .cons first others, leads_append.mpr ⟨middle, here, later⟩⟩

end

end Exists

theorem Matched.append {first others : List (Call ε)} (here : Matched first)
    (later : Matched others) : Matched (first ++ others) := by
  induction here with
  | nil => exact later
  | text _ ih => exact .text ih
  | pair within _ _ ih =>
    rw [List.append_assoc, List.cons_append]
    exact .pair within ih

mutual

theorem Course.matched {node : Node} {calls : List (Call ε)}
    (course : Course otherwise node calls) : Matched calls := by
  match course with
  | .text value answer => exact .text .nil
  | .skipped _ _ => exact .pair .nil .nil
  | .descended _ _ below => exact .pair below.matched .nil

theorem CourseAll.matched {nodes : List Node} {calls : List (Call ε)}
    (course : CourseAll otherwise nodes calls) : Matched calls := by
  match course with
  | .nil => exact .nil
  | .cons first others => exact first.matched.append others.matched

end

mutual

theorem Course.in_order {node : Node} {calls : List (Call ε)}
    (course : Course otherwise node calls) :
    (calls.filterMap Call.reached?).Sublist node.subtree := by
  match course with
  | .text value answer => exact List.Sublist.refl _
  | .skipped element _ =>
    rw [Node.subtree_eq element]
    exact (List.nil_sublist _).cons_cons node
  | .descended element _ below =>
    rw [Node.subtree_eq element, List.cons_append, List.filterMap_cons, List.filterMap_append]
    rw [show List.filterMap Call.reached? [Call.exit _ _] = [] from rfl, List.append_nil]
    exact below.in_order.cons_cons _

theorem CourseAll.in_order {nodes : List Node} {calls : List (Call ε)}
    (course : CourseAll otherwise nodes calls) :
    (calls.filterMap Call.reached?).Sublist (Node.subtreeAll nodes) := by
  match course with
  | .nil => exact List.Sublist.refl _
  | .cons first others =>
    rw [Node.subtreeAll, List.filterMap_append]
    exact first.in_order.append others.in_order

end

-- The program makes the calls and gives the value, or ends with the first that fails. Its twin
-- notes the calls besides.
def Makes {α : Type} (program : Hook σ ε α) (twin : Hook (σ × List (Call ε)) ε α)
    (visitor : Visitor (Hook σ ε)) (start : σ) (full : List (Call ε)) (finish : σ) (value : α) :
    Prop :=
  ∃ result state calls, Ends visitor start full finish value result state calls ∧
    program.run.run start = (result, state) ∧
    ∀ log, twin.run.run (start, log) = (result, state, log ++ calls)

section Makes

variable {α β : Type} {program : Hook σ ε α} {twin : Hook (σ × List (Call ε)) ε α}
  {start middle finish : σ} {first others : List (Call ε)} {value : α}

theorem makes_pure (start : σ) (value : α) :
    Makes (pure value) (pure value) visitor start [] start value :=
  ⟨_, _, _, .whole nofun, rfl, fun log => by rw [List.append_nil]; rfl⟩

theorem makes_noted {hook : Hook σ ε α} {call : Except ε α → Call ε} {answer : Except ε α}
    (answers : hook.run.run start = (answer, finish))
    (made : (call answer).Made visitor start finish)
    (succeeds : ∀ given, answer = .ok given → given = value ∧ (call answer).error? = none)
    (fails : ∀ error, answer = .error error → (call answer).error? = some error) :
    Makes hook (noted call hook) visitor start [call answer] finish value := by
  have noted (log : List (Call ε)) : (noted call hook).run.run (start, log) =
      (answer, finish, log ++ [call answer]) := by
    change (let (answer, next) := hook.run.run start; (answer, next, log ++ [call answer])) = _
    rw [answers]
  refine ⟨answer, finish, [call answer], ?_, answers, noted⟩
  cases answer with
  | ok given =>
    obtain ⟨rfl, silent⟩ := succeeds given rfl
    exact .whole (List.forall_mem_singleton.mpr silent)
  | error error =>
    have fails := fails error rfl
    change Ends visitor start _ finish value _ finish ([] ++ [call (.error error)])
    exact .failed [] rfl nofun fails (leads_single.mpr made)

theorem Makes.bind {next : α → Hook σ ε β} {nextTwin : α → Hook (σ × List (Call ε)) ε β}
    {result : β} (here : Makes program twin visitor start first middle value)
    (leads : Leads visitor start first middle)
    (later : Makes (next value) (nextTwin value) visitor middle others finish result) :
    Makes (program >>= next) (twin >>= nextTwin) visitor start (first ++ others) finish result := by
  obtain ⟨_, reached, _, ends, ran, noted⟩ := here
  cases ends with
  | whole succeed =>
    obtain ⟨answer, state, calls, ends, ranLater, notedLater⟩ := later
    refine ⟨answer, state, first ++ calls, ?_, ?_, fun log => ?_⟩
    · cases ends with
      | whole succeedLater =>
        refine .whole fun call member => ?_
        rcases List.mem_append.mp member with own | other
        · exact succeed call own
        · exact succeedLater call other
      | @failed before call after error _ split succeedLater fails leadsLater =>
        rw [← List.append_assoc]
        refine .failed after (by rw [split, List.append_assoc]) ?_ fails ?_
        · intro call member
          rcases List.mem_append.mp member with own | other
          · exact succeed call own
          · exact succeedLater call other
        · rw [List.append_assoc]
          exact leads_append.mpr ⟨middle, leads, leadsLater⟩
    · rw [ExceptT.run_bind, StateT.run_bind, ran]
      exact ranLater
    · rw [ExceptT.run_bind, StateT.run_bind, noted log, ← List.append_assoc]
      exact notedLater (log ++ first)
  | @failed before call after error _ split succeed fails leadsHere =>
    refine ⟨.error error, reached, before ++ [call], ?_, ?_, fun log => ?_⟩
    · have whole : first ++ others = before ++ call :: (after ++ others) := by
        rw [split, List.append_assoc]
        rfl
      exact .failed (after ++ others) whole succeed fails leadsHere
    · rw [ExceptT.run_bind, StateT.run_bind, ran]
      rfl
    · rw [ExceptT.run_bind, StateT.run_bind, noted log]
      rfl

end Makes

theorem walk_eq_around {m : Type → Type} [Monad m] (visitor : Visitor m) {node : Node}
    (element : node.element?.isSome) :
    visitor.walk node = visitor.around node (visitor.walkAll node.children) := by
  cases node with
  | text value => cases element
  | _ => simp only [walk, Node.children]

variable {node : Node} {start next finish : σ}

theorem makes_text {value : Value} {answer : Except ε Unit}
    (made : (Call.text value answer).Made visitor start finish) :
    Makes (visitor.text value) (visitor.noting.text value) visitor start [.text value answer]
      finish () := by
  refine makes_noted made made ?_ ?_
  · rintro given rfl
    exact ⟨rfl, rfl⟩
  · rintro error rfl
    rfl

theorem makes_exit {answer : Except ε Unit}
    (made : (Call.exit node answer).Made visitor start finish) :
    Makes (visitor.exit node) (visitor.noting.exit node) visitor start [.exit node answer]
      finish () := by
  refine makes_noted made made ?_ ?_
  · rintro given rfl
    exact ⟨rfl, rfl⟩
  · rintro error rfl
    rfl

variable (otherwise) in
theorem makes_enter {answer : Except ε Descent}
    (made : (Call.enter node answer).Made visitor start finish) :
    Makes (visitor.enter node) (visitor.noting.enter node) visitor start [.enter node answer]
      finish (descent otherwise answer) := by
  refine makes_noted made made ?_ ?_
  · rintro given rfl
    exact ⟨rfl, rfl⟩
  · rintro error rfl
    rfl

mutual

theorem Course.makes {node : Node} {calls : List (Call ε)} {start finish : σ}
    (course : Course otherwise node calls) (leads : Leads visitor start calls finish) :
    Makes (visitor.walk node) (visitor.noting.walk node) visitor start calls finish () := by
  match course with
  | .text value answer =>
    rw [walk_text, walk_text]
    exact makes_text (leads_single.mp leads)
  | .skipped element skips =>
    rw [walk_eq_around visitor element, walk_eq_around visitor.noting element]
    obtain ⟨middle, made, left⟩ := leads_cons.mp leads
    refine (makes_enter otherwise made).bind (leads_single.mpr made) ?_
    rw [skips]
    exact makes_exit (leads_single.mp left)
  | .descended element descends below =>
    rw [walk_eq_around visitor element, walk_eq_around visitor.noting element]
    obtain ⟨next, made, later⟩ := leads_cons.mp leads
    obtain ⟨middle, inside, left⟩ := leads_append.mp later
    refine (makes_enter otherwise made).bind (leads_single.mpr made) ?_
    rw [descends]
    exact (below.makes inside).bind inside (makes_exit (leads_single.mp left))

theorem CourseAll.makes {nodes : List Node} {calls : List (Call ε)} {start finish : σ}
    (course : CourseAll otherwise nodes calls) (leads : Leads visitor start calls finish) :
    Makes (visitor.walkAll nodes) (visitor.noting.walkAll nodes) visitor start calls finish () := by
  match course with
  | .nil =>
    obtain rfl := leads_nil.mp leads
    rw [walkAll_nil, walkAll_nil]
    exact makes_pure start ()
  | .cons first others =>
    obtain ⟨middle, here, later⟩ := leads_append.mp leads
    rw [walkAll_cons, walkAll_cons]
    exact (first.makes here).bind here (others.makes later)

end

end Calls

/-- A walk makes the calls of its tree in order, up to the first that fails and no further. -/
theorem walk_cut (visitor : Visitor (Hook σ ε)) (node : Node) (start : σ) (otherwise : Descent) :
    ∃ full finish result state calls,
      Course otherwise node full ∧ Leads visitor start full finish ∧
      Matched full ∧ (full.filterMap Call.reached?).Sublist node.subtree ∧
      (visitor.noting.walk node).run.run (start, []) = (result, state, calls) ∧
      (visitor.walk node).run.run start = (result, state) ∧
      Ends visitor start full finish () result state calls ∧ calls <+: full := by
  obtain ⟨full, finish, course, leads⟩ := exists_course visitor otherwise node start
  obtain ⟨result, state, calls, ends, ran, noted⟩ := course.makes leads
  exact ⟨full, finish, result, state, calls, course, leads, course.matched, course.in_order,
    noted [], ran, ends, ends.calls_prefix⟩

end Visitor

end RenderCompiler
