import RenderCompiler.Proofs.Lowering.Values

set_option autoImplicit false

namespace RenderCompiler

namespace Node

mutual

-- The node is used in place of a list, and can come to null instead.
def vanishes : Node → Bool
  | .template el children =>
    el.loop.isNone && anyYieldsList children && (el.condition.isSome || vanishesAlone children)
  | .slot _ children _ => vanishesAlone children
  | .text _ | .element _ _ | .custom _ _ _ _ => false

def vanishesAlone : List Node → Bool
  | [node] => vanishes node
  | _ => false

end

theorem yieldsList_of_vanishes {node : Node} (gone : node.vanishes = true) :
    node.yieldsList = true := by
  cases node with
  | slot el children name => rfl
  | template el children =>
    simp only [vanishes, Bool.and_eq_true] at gone
    simp only [yieldsList, gone.1.2, Bool.or_true]
  | _ => cases gone

end Node

namespace Lowering

structure Admissible (bindings : Bindings) : Prop where
  api : bindings.lookup "$api" = some (RuntimeApi.runtime {})
  slotSet : ∃ slotSet, bindings.lookup "$slotset" = some slotSet ∧
    ∀ name, (∃ items, slotSet.read name = .list items) ∨ (slotSet.read name).truthy = false

-- The receiver of a slot set that holds this value for a slot renders the value.
def Taken (name : String) (value : Datum) : Prop :=
  ∀ (host : String → List Datum → Option Datum) (receiver : Bindings) (slotSet : Datum)
    (defaults : Expr), receiver.lookup "$slotset" = some slotSet → slotSet.read name = value →
    (Expr.or (RuntimeApi.slotContent {} name) defaults).eval host receiver = some value

def PassedOver (name : String) (value : Datum) : Prop :=
  ∀ (host : String → List Datum → Option Datum) (receiver : Bindings) (slotSet : Datum)
    (defaults : Expr), receiver.lookup "$slotset" = some slotSet → slotSet.read name = value →
    (Expr.or (RuntimeApi.slotContent {} name) defaults).eval host receiver =
      defaults.eval host receiver

def ComesToList (expr : Expr) : Prop :=
  ∀ (host : String → List Datum → Option Datum) (bindings : Bindings) (value : Datum),
    Admissible bindings → expr.eval host bindings = some value → ∃ items, value = .list items

theorem list_taken (name : String) (items : List Datum) : Taken name (.list items) := by
  intro host receiver slotSet defaults bound read
  simp [RuntimeApi.slotContent, bound, read, Datum.truthy]

theorem null_passedOver (name : String) : PassedOver name .null := by
  intro host receiver slotSet defaults bound read
  simp [RuntimeApi.slotContent, bound, read, Datum.truthy]

variable {names : String → String}

theorem array_comesToList (sketches : List Sketch) :
    ComesToList ((Sketch.array sketches).expr (.ofApi {}) names) := by
  intro host bindings value admissible evaluates
  rw [Sketch.expr, Expr.eval_array, Option.map_eq_some_iff] at evaluates
  obtain ⟨items, -, rfl⟩ := evaluates
  exact ⟨items, rfl⟩

theorem iterate_comesToList (iterable : Sketch) (item index : String) (body : Sketch) :
    ComesToList ((Sketch.iterate iterable item index body).expr (.ofApi {}) names) := by
  intro host bindings value admissible evaluates
  rw [iterate_eval admissible.api] at evaluates
  simp only [Option.bind_eq_bind, Option.bind_eq_some_iff] at evaluates
  obtain ⟨_, -, _, -, results, -, same⟩ := evaluates
  cases same
  exact ⟨_, rfl⟩

theorem flatten_comesToList (sketch : Sketch) :
    ComesToList ((Sketch.call .flatten [sketch]).expr (.ofApi {}) names) := by
  intro host bindings value admissible evaluates
  rw [call_eval admissible.api, List.mapM_cons, List.mapM_nil] at evaluates
  cases given : (sketch.expr (.ofApi {}) names).eval host bindings with
  | none => simp [given] at evaluates
  | some list =>
    simp only [given, Option.bind_eq_bind, Option.bind_some, Option.pure_def,
      Datum.apply_flatten, Option.some.injEq] at evaluates
    exact ⟨_, evaluates.symm⟩

theorem slot_comesToList (name : String) {whole : Sketch}
    (defaults : ComesToList (whole.expr (.ofApi {}) names)) :
    ComesToList ((Sketch.or (.slot name) whole).expr (.ofApi {}) names) := by
  intro host bindings value admissible evaluates
  obtain ⟨slotSet, bound, filled⟩ := admissible.slotSet
  simp only [Sketch.expr, Environment.ofApi, RuntimeApi.slotContent, Expr.eval_or,
    Expr.eval_member, Expr.eval_identifier, bound, Option.map_some, Option.bind_eq_bind,
    Option.bind_some] at evaluates
  rcases filled name with ⟨items, list⟩ | empty
  · rw [list] at evaluates
    cases evaluates
    exact ⟨items, rfl⟩
  · rw [if_neg (by simp [empty])] at evaluates
    exact defaults host bindings value admissible evaluates

theorem template_of_loop {el : Element} {loop : Loop} (looped : el.loop = some loop)
    (inner outer : Scope) (children : SketchedChildren) :
    ∃ body, children.template inner outer el =
      [.iterate (.read loop.path outer) loop.item loop.index body] := by
  cases children with
  | joined sketch =>
    rw [SketchedChildren.template, looped]
    exact ⟨_, rfl⟩
  | separate sketches =>
    rw [SketchedChildren.template, looped]
    exact ⟨_, rfl⟩

mutual

theorem node_comesToList (node : Node) (scope : Scope) (given : Nat) (sketch : Sketch)
    (yields : node.yieldsList = true) (stays : node.vanishes = false)
    (only : node.sketches scope given = [sketch]) :
    ComesToList (sketch.expr (.ofApi {}) names) := by
  cases node with
  | text value => cases yields
  | element el children =>
    obtain ⟨loop, looped⟩ := Option.isSome_iff_exists.mp yields
    rw [Node.sketches, List.cons.injEq] at only
    rw [← only.1, looped]
    exact iterate_comesToList _ _ _ _
  | custom el children component content =>
    obtain ⟨loop, looped⟩ := Option.isSome_iff_exists.mp yields
    rw [Node.sketches, List.cons.injEq] at only
    rw [← only.1, looped]
    exact iterate_comesToList _ _ _ _
  | slot el children name =>
    rw [Node.sketches, List.cons.injEq] at only
    rw [← only.1]
    exact slot_comesToList name (children_comesToList children _ given stays)
  | template el children =>
    rw [Node.sketches] at only
    cases looped : el.loop with
    | some loop =>
      obtain ⟨body, same⟩ := template_of_loop looped (innerScope scope el.loop) scope
        (.of children (Node.sketchesAll (innerScope scope el.loop) given children))
      rw [same, List.cons.injEq] at only
      rw [← only.1]
      exact iterate_comesToList _ _ _ _
    | none =>
      simp only [Node.yieldsList, looped, Option.isSome_none, Bool.false_or] at yields
      simp only [Node.vanishes, looped, yields, Option.isNone_none, Bool.and_self,
        Bool.true_and, Bool.or_eq_false_iff, Option.isSome_eq_false_iff,
        Option.isNone_iff_eq_none] at stays
      -- Without a loop and a condition, the template is nothing but its children.
      have list := children_comesToList children (innerScope scope el.loop) given stays.2
      obtain ⟨joined, same, -⟩ := joined_of_anyYieldsList children (innerScope scope el.loop) given
        yields
      rw [same] at only list
      simp only [SketchedChildren.template, looped, stays.1, List.cons.injEq] at only
      rw [← only.1]
      exact list

theorem children_comesToList (nodes : List Node) (scope : Scope) (given : Nat)
    (stays : Node.vanishesAlone nodes = false) :
    ComesToList ((SketchedChildren.of nodes (Node.sketchesAll scope given nodes)).whole.expr
      (.ofApi {}) names) := by
  cases flatten : Node.anyYieldsList nodes with
  | false =>
    simp only [SketchedChildren.of, flatten, Bool.not_false, if_true]
    exact array_comesToList _
  | true =>
    match nodes with
    | [] => cases flatten
    | [node] =>
      simp only [Node.anyYieldsList, Bool.or_false] at flatten
      obtain ⟨sketch, only, -⟩ := sketches_of_yieldsList node scope given flatten
      have list := node_comesToList node scope given sketch flatten stays only
      simpa [SketchedChildren.of, Node.anyYieldsList, flatten, Node.sketchesAll, only,
        SketchedChildren.whole] using list
    | first :: second :: rest =>
      simp only [SketchedChildren.of, flatten, Bool.not_true, Bool.false_eq_true, if_false]
      exact flatten_comesToList _

end

def ComesToNull (expr : Expr) : Prop :=
  ∃ bindings : Bindings, bindings.lookup "$api" = some (RuntimeApi.runtime {}) ∧
    bindings.lookup "$slotset" = some (.record []) ∧
    ∀ host : String → List Datum → Option Datum, expr.eval host bindings = some .null

def holding (properties : List String) (value : Datum) : Datum :=
  properties.foldr (fun property member => .record [(property, member)]) value

theorem holding_readAll (properties : List String) (value : Datum) :
    (holding properties value).readAll properties = value := by
  induction properties with
  | nil => rfl
  | cons property rest ih =>
    have member : (holding (property :: rest) value).read property = holding rest value := by
      simp [holding, Datum.read]
    rw [Datum.readAll, List.foldl_cons, member]
    exact ih

theorem lookup_map_pair (scope : List String) (name : String) (value : Datum) :
    (scope.map (·, value)).lookup name = none ∨
      (scope.map (·, value)).lookup name = some value := by
  induction scope with
  | nil => exact .inl rfl
  | cons first rest ih =>
    rw [List.map_cons, List.lookup_cons]
    split
    · exact .inr rfl
    · exact ih

section Failing

variable (scope : Scope) (condition : Condition) (host : String → List Datum → Option Datum)

-- The value that loop names and members of the component get for a condition to fail.
def failingItem : Datum :=
  holding condition.path.rest (.boolean (condition.modifier == "false"))

def failingLocals : Bindings := scope.reverse.map (·, failingItem condition)

def failingComponent : Datum := .record [(condition.path.head, failingItem condition)]

def failingStage : Stage where
  component := failingComponent condition
  slotSet := .record []
  outside := RuntimeApi.bindings {} (failingComponent condition) (.record []) .undefined {}
  host := host

theorem scopeOf_failingLocals : scopeOf (failingLocals scope condition) = scope := by
  simp [scopeOf, failingLocals, Function.comp_def]

theorem failingStage_provides :
    Provides (failingStage condition host) names (RuntimeApi.params {}) [] where
  api := ⟨by simp [RuntimeApi.params], rfl⟩
  component := ⟨by simp [RuntimeApi.params], rfl⟩
  slotSet := ⟨by simp [RuntimeApi.params], rfl⟩
  imports := fun component member => by cases member

theorem pathValue_failing :
    (failingStage condition host).pathValue (failingLocals scope condition) condition.path =
      .boolean (condition.modifier == "false") := by
  have start : ((failingLocals scope condition).lookup condition.path.head).getD
      ((failingComponent condition).read condition.path.head) = failingItem condition := by
    have member :
        (failingComponent condition).read condition.path.head = failingItem condition := by
      simp [failingComponent, Datum.read]
    rcases lookup_map_pair scope.reverse condition.path.head (failingItem condition) with
      unbound | bound
    · rw [failingLocals, unbound, member]
      rfl
    · rw [failingLocals, bound]
      rfl
  rw [Stage.pathValue]
  exact (congrArg (·.readAll condition.path.rest) start).trans (holding_readAll _ _)

theorem not_holds_failing (known : Known (some condition)) :
    (failingStage condition host).holds (failingLocals scope condition) condition = false := by
  obtain ⟨test, found⟩ := Option.isSome_iff_exists.mp (known condition rfl)
  rw [Stage.holds, pathValue_failing, found]
  unfold Test.ofModifier? at found
  split at found
  · cases found
    simp [Datum.truthy, *]
  · cases found
    simp [Datum.truthy, *]
  · cases found
    simp [Datum.same, *]
  · cases found

-- Whatever the path of the condition starts with gets a value that fails the test at its end.
theorem test_fails (known : Known (some condition))
    (apart : ∀ name ∈ RuntimeApi.params {}, name ∉ scope) :
    ∃ bindings : Bindings, bindings.lookup "$api" = some (RuntimeApi.runtime {}) ∧
      bindings.lookup "$slotset" = some (.record []) ∧
      ∀ host : String → List Datum → Option Datum,
        (((Sketch.ofTest scope condition).expr (.ofApi {}) names).eval host bindings).map
          Datum.truthy = some false := by
  have clear : Clear (RuntimeApi.params {}) (failingLocals scope condition) := by
    intro name member
    rw [lookup_eq_none_iff, scopeOf_failingLocals]
    exact apart name member
  have provides (host : String → List Datum → Option Datum) :
      Provides (failingStage condition host) names (RuntimeApi.params {}) [] :=
    failingStage_provides condition host
  have unheard := provides fun _ _ => none
  refine ⟨failingLocals scope condition ++ (failingStage condition fun _ _ => none).outside,
    ?_, ?_, fun host => ?_⟩
  · exact (lookup_outside clear unheard.api.1).trans unheard.api.2
  · exact (lookup_outside clear unheard.slotSet.1).trans unheard.slotSet.2
  · have holds := ofTest_holds (provides host) clear condition known
    rw [scopeOf_failingLocals, not_holds_failing scope condition host known] at holds
    exact holds

end Failing

theorem gated_comesToNull (scope : Scope) (condition : Condition) (known : Known (some condition))
    (apart : ∀ name ∈ RuntimeApi.params {}, name ∉ scope) (sketch : Sketch) :
    ComesToNull ((Sketch.gatedOn scope (some condition) sketch).expr (.ofApi {}) names) := by
  obtain ⟨bindings, api, slotSet, fails⟩ := test_fails scope condition known apart
  refine ⟨bindings, api, slotSet, fun host => ?_⟩
  obtain ⟨test, tested, falsy⟩ := Option.map_eq_some_iff.mp (fails host)
  rw [Sketch.gatedOn, Sketch.gated, Sketch.expr, Expr.eval_conditional, tested]
  simp [falsy, Sketch.expr]

theorem slot_comesToNull (name : String) {whole : Sketch}
    (defaults : ComesToNull (whole.expr (.ofApi {}) names)) :
    ComesToNull ((Sketch.or (.slot name) whole).expr (.ofApi {}) names) := by
  obtain ⟨bindings, api, slotSet, null⟩ := defaults
  refine ⟨bindings, api, slotSet, fun host => ?_⟩
  simp [Sketch.expr, Environment.ofApi, RuntimeApi.slotContent, slotSet, Datum.read, Datum.truthy]
  exact null host

mutual

theorem node_comesToNull (node : Node) (scope : Scope) (given : Nat) (sketch : Sketch)
    (gone : node.vanishes = true) (known : unknownModifiers node.reached = [])
    (apart : ∀ name ∈ RuntimeApi.params {}, name ∉ scope ∧ name ∉ localNames node.reached)
    (only : node.sketches scope given = [sketch]) :
    ComesToNull (sketch.expr (.ofApi {}) names) := by
  cases node with
  | text value => cases gone
  | element el children => cases gone
  | custom el children component content => cases gone
  | slot el children name =>
    rw [Node.reached] at known apart
    simp only [unknownModifiers_append, localNames_append, localNames_singleton,
      List.append_eq_nil_iff, List.mem_append, not_or] at known apart
    have inner (param : String) (member : param ∈ RuntimeApi.params {}) :
        param ∉ innerScope scope el.loop ∧ param ∉ localNames (Node.reachedAll children) := by
      obtain ⟨outside, below, own⟩ := apart param member
      rw [innerScope, List.mem_append, not_or]
      exact ⟨⟨outside, own⟩, below⟩
    rw [Node.sketches, List.cons.injEq] at only
    rw [← only.1]
    exact slot_comesToNull name (children_comesToNull children _ given gone known.1 inner)
  | template el children =>
    rw [Node.reached] at known apart
    simp only [unknownModifiers_append, unknownModifiers_singleton, localNames_append,
      List.append_eq_nil_iff, List.mem_append, not_or, Option.toList_eq_nil_iff] at known apart
    simp only [Node.vanishes, Bool.and_eq_true, Bool.or_eq_true, Option.isNone_iff_eq_none] at gone
    obtain ⟨⟨unlooped, flatten⟩, gone⟩ := gone
    obtain ⟨joined, same, -⟩ := joined_of_anyYieldsList children scope given flatten
    rw [Node.sketches, unlooped, innerScope_none] at only
    rw [same] at only
    simp only [SketchedChildren.template, unlooped, Sketch.repeatedOver, List.cons.injEq] at only
    rw [← only.1]
    cases gate : el.condition with
    | some condition =>
      have known := known_of_unknownModifier? known.2
      rw [Node.gate?, gate] at known
      exact gated_comesToNull scope condition known (fun name member => (apart name member).1) _
    | none =>
      rw [gate] at gone
      have null := children_comesToNull children scope given (gone.resolve_left nofun) known.1
        fun name member => ⟨(apart name member).1, (apart name member).2.1⟩
      rw [same] at null
      exact null

theorem children_comesToNull (nodes : List Node) (scope : Scope) (given : Nat)
    (gone : Node.vanishesAlone nodes = true) (known : unknownModifiers (Node.reachedAll nodes) = [])
    (apart : ∀ name ∈ RuntimeApi.params {},
      name ∉ scope ∧ name ∉ localNames (Node.reachedAll nodes)) :
    ComesToNull ((SketchedChildren.of nodes (Node.sketchesAll scope given nodes)).whole.expr
      (.ofApi {}) names) := by
  match nodes with
  | [] => cases gone
  | first :: second :: rest => cases gone
  | [node] =>
    have yields := Node.yieldsList_of_vanishes gone
    obtain ⟨sketch, only, -⟩ := sketches_of_yieldsList node scope given yields
    simp only [Node.reachedAll, List.append_nil] at known apart
    have null := node_comesToNull node scope given sketch gone known apart only
    simpa [SketchedChildren.of, Node.anyYieldsList, yields, Node.sketchesAll, only,
      SketchedChildren.whole] using null

end

theorem content_comesTo (content : List (String × List Node)) (scope : Scope) (given : Nat)
    (known : unknownModifiers (Node.reachedContent content) = []) :
    ∀ entry ∈ content.zip (Sketch.exprProperties (.ofApi {}) names
        (Node.sketchesContent scope given content)),
      (Node.vanishesAlone entry.1.2 = false → ComesToList entry.2.2) ∧
      (Node.vanishesAlone entry.1.2 = true →
        (∀ param ∈ RuntimeApi.params {},
          param ∉ scope ∧ param ∉ localNames (Node.reachedAll entry.1.2)) →
        ComesToNull entry.2.2) := by
  induction content generalizing given with
  | nil =>
    intro entry member
    cases member
  | cons first rest ih =>
    obtain ⟨name, nodes⟩ := first
    rw [Node.reachedContent, unknownModifiers_append, List.append_eq_nil_iff] at known
    have others := ih (given + handlerTotal (Node.reachedAll nodes)) known.2
    rw [Node.sketchesContent, Sketch.exprProperties, List.zip_cons_cons]
    intro entry member
    cases member with
    | tail _ member => exact others entry member
    | head =>
      constructor
      · exact children_comesToList nodes scope given
      · intro gone apart
        exact children_comesToNull nodes scope given gone known.1 apart

theorem sketchesContent_names (content : List (String × List Node)) (scope : Scope) (given : Nat) :
    (Sketch.exprProperties (.ofApi {}) names (Node.sketchesContent scope given content)).map (·.1) =
      content.map (·.1) := by
  induction content generalizing given with
  | nil => rfl
  | cons first rest ih =>
    rw [Node.sketchesContent, Sketch.exprProperties, List.map_cons, ih]
    rfl

-- What is projected is taken by the receiver in every evaluation.
def AlwaysTaken (name : String) (expr : Expr) : Prop :=
  ∀ (host : String → List Datum → Option Datum) (bindings : Bindings) (value : Datum),
    Admissible bindings → expr.eval host bindings = some value →
    (∃ items, value = .list items) ∧ Taken name value

-- What is projected is null in some evaluation, and then not taken.
def CanVanish (name : String) (expr : Expr) : Prop :=
  ∃ bindings, Admissible bindings ∧
    (∀ host : String → List Datum → Option Datum, expr.eval host bindings = some .null) ∧
    PassedOver name .null

theorem ComesToList.alwaysTaken {expr : Expr} (list : ComesToList expr) (name : String) :
    AlwaysTaken name expr := by
  intro host bindings value admissible evaluates
  obtain ⟨items, rfl⟩ := list host bindings value admissible evaluates
  exact ⟨⟨items, rfl⟩, list_taken name items⟩

theorem ComesToNull.canVanish {expr : Expr} (null : ComesToNull expr) (name : String) :
    CanVanish name expr := by
  obtain ⟨bindings, api, slotSet, evaluates⟩ := null
  refine ⟨bindings, ⟨api, _, slotSet, fun other => .inr ?_⟩, evaluates, null_passedOver name⟩
  rfl

/-- Projected content is always taken, except where it can vanish. -/
theorem customElement_projects (scope : Scope) (el : Element) (component : String)
    (content : List (String × List Node)) (slots : Nat) (imports : ImportTable) (journal : Journal)
    (known : unknownModifiers (Node.reachedContent content) = []) :
    ∃ (constructor : String) (data projected : Properties) (finish : State),
      (customElement (.ofApi {}) (lowerTree (.ofApi {})) scope el component content).run.run
          ⟨slots, imports, journal⟩ =
        (.ok (RuntimeApi.customElementCall {} el.tag (.identifier constructor) (.object (data ++
          if content.isEmpty then [] else [("slotset", .object projected)]))), finish) ∧
      projected.map (·.1) = content.map (·.1) ∧
      ∀ entry ∈ content.zip projected,
        (Node.vanishesAlone entry.1.2 = false → AlwaysTaken entry.2.1 entry.2.2) ∧
        (Node.vanishesAlone entry.1.2 = true →
          (∀ param ∈ RuntimeApi.params {},
            param ∉ scope ∧ param ∉ localNames (Node.reachedAll entry.1.2)) →
          CanVanish entry.2.1 entry.2.2) := by
  obtain ⟨names, agrees⟩ : ∃ names, ((imports.registerAll (components (Node.reachedContent
      content))).register component).2.Names names := ⟨_, ImportTable.names_nameOf _⟩
  have projected := content_runs (.ofApi {}) names content el.tag scope (slots + el.handlerCount)
    imports known agrees.of_register_table
  obtain ⟨journal', ran⟩ := customElement_runs (.ofApi {}) names (lowerTree (.ofApi {})) scope el
    component content _ agrees projected journal
  have bag (fields : List (String × Sketch)) :
      (Sketch.call .customElement [.string el.tag, .component component,
        .object (Sketch.dataFields scope slots el ++
          if content.isEmpty then [] else [("slotset", .object fields)])]).expr (.ofApi {}) names =
      RuntimeApi.customElementCall {} el.tag (.identifier (names component)) (.object
        (Sketch.exprProperties (.ofApi {}) names (Sketch.dataFields scope slots el) ++
          if content.isEmpty then []
          else [("slotset", .object (Sketch.exprProperties (.ofApi {}) names fields))])) := by
    simp only [Sketch.expr, Sketch.exprs, Sketch.exprProperties_append]
    cases content <;> rfl
  rw [bag] at ran
  refine ⟨_, _, _, _, ran, sketchesContent_names content scope _, ?_⟩
  intro entry member
  have comes := content_comesTo content scope (slots + el.handlerCount) known entry member
  exact ⟨fun stays => (comes.1 stays).alwaysTaken _,
    fun gone apart => (comes.2 gone apart).canVanish _⟩

def cardContent : List (String × List Node) :=
  [("title", [.element
      { tag := "b", condition := some { path := ⟨"card", ["named"]⟩, modifier := "strict-true" } }
      [.text (.bound ⟨"card", ["title"]⟩)]]),
    ("rows", [.template { condition := some { path := ⟨"card", ["closed"]⟩, modifier := "false" } }
      [.element { tag := "li", loop := some { path := ⟨"card", ["rows"]⟩, item := "row" } }
        [.text (.bound ⟨"row", []⟩)]]])]

theorem title_projects :
    unknownModifiers (Node.reachedContent cardContent) = [] ∧
    ∃ (constructor : String) (data : Properties) (title rows : Expr) (finish : State),
      (customElement (.ofApi {}) (lowerTree (.ofApi {})) ["card", "index"] { tag := "x-card" }
          "cards/card" cardContent).run.run ⟨0, {}, #[]⟩ =
        (.ok (RuntimeApi.customElementCall {} "x-card" (.identifier constructor) (.object
          (data ++ [("slotset", .object [("title", title), ("rows", rows)])]))), finish) ∧
      AlwaysTaken "title" title ∧ CanVanish "rows" rows := by
  have known : unknownModifiers (Node.reachedContent cardContent) = [] := by decide
  obtain ⟨constructor, data, projected, finish, ran, named, each⟩ :=
    customElement_projects ["card", "index"] { tag := "x-card" } "cards/card" cardContent 0 {} #[]
      known
  obtain ⟨title, rows, rfl⟩ : ∃ title rows, projected = [("title", title), ("rows", rows)] := by
    match projected, named with
    | [(_, title), (_, rows)], same =>
      simp only [cardContent, List.map_cons, List.map_nil, List.cons.injEq] at same
      obtain ⟨rfl, rfl, -⟩ := same
      exact ⟨title, rows, rfl⟩
  have apart : ∀ param ∈ RuntimeApi.params {}, param ∉ ["card", "index"] ∧
      param ∉ localNames (Node.reachedContent cardContent) := by decide
  refine ⟨known, constructor, data, title, rows, finish, ran, ?_, ?_⟩
  · exact (each _ List.mem_cons_self).1 rfl
  · exact (each _ (List.mem_cons_of_mem _ List.mem_cons_self)).2 rfl apart

def gatedList : Node :=
  .custom { tag := "x-card" } [] "cards/card"
    [("title", [.template { condition := some { path := ⟨"on", []⟩ } }
      [.element { tag := "p", loop := some { path := ⟨"items", []⟩ } } []]])]

theorem gatedList_null :
    ∃ expr : Expr,
      (compile {} { root := gatedList }).1.map Compilation.script =
        .ok (assemble (RuntimeApi.customElementCall {} "x-card" (.identifier "_cardsCard")
          (.object [("slotset", .object [("title", expr)])])) ⟨[("cards/card", "_cardsCard")]⟩ {}) ∧
      ∀ host : String → List Datum → Option Datum,
        expr.eval host (RuntimeApi.bindings {} (.record []) (.record []) .undefined
          ⟨[("cards/card", "_cardsCard")]⟩) = some .null := by
  refine ⟨.conditional (.member (.identifier "$cmp") "on") (RuntimeApi.iterateCall {}
    (.member (.identifier "$cmp") "items") "item" "index"
    (RuntimeApi.elementCall {} "p" (.object []) (.array []))) .null, rfl, ?_⟩
  intro host
  have component : (RuntimeApi.bindings {} (.record []) (.record []) .undefined
      ⟨[("cards/card", "_cardsCard")]⟩).lookup "$cmp" = some (.record []) := rfl
  simp [component, Datum.read, Datum.truthy]

end Lowering

end RenderCompiler
