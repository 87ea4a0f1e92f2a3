import RenderCompiler.Proofs.Lowering.Bags
import RenderCompiler.Proofs.Lowering.Values

set_option autoImplicit false

namespace RenderCompiler

namespace Datum

def isNode : Datum → Bool
  | .element _ _ _ | .text _ | .custom _ _ _ => true
  | _ => false

def IsItem (value : Datum) : Prop := value = .null ∨ value.isNode = true

def IsFlat (value : Datum) : Prop := ∃ items, value = .list items ∧ ∀ item ∈ items, item.IsItem

def IsFlatOrNull (value : Datum) : Prop := value = .null ∨ value.IsFlat

theorem IsItem.not_list {items : List Datum} (item : (Datum.list items).IsItem) : False := by
  rcases item with same | node
  · cases same
  · cases node

theorem isItem_null : IsItem .null := .inl rfl

theorem IsItem.spread {value : Datum} (item : value.IsItem) : value.spread = [value] := by
  cases value with
  | list items => exact item.not_list.elim
  | _ => rfl

theorem IsItem.leaves {value : Datum} (item : value.IsItem) : value.leaves = [value] := by
  cases value with
  | list items => exact item.not_list.elim
  | _ => rfl

theorem leavesAll_of_items {items : List Datum} (each : ∀ item ∈ items, item.IsItem) :
    leavesAll items = items := by
  induction items with
  | nil => rfl
  | cons item rest ih =>
    have here := each item List.mem_cons_self
    have others := ih fun other member => each other (List.mem_cons_of_mem _ member)
    rw [leavesAll, here.leaves, others]
    rfl

theorem isItem_of_mem_spread {value : Datum} (shape : value.IsItem ∨ value.IsFlatOrNull) :
    ∀ item ∈ value.spread, item.IsItem := by
  rcases shape with item | rfl | ⟨items, rfl, each⟩
  · rw [item.spread]
    exact List.forall_mem_singleton.mpr item
  · exact List.forall_mem_singleton.mpr isItem_null
  · exact each

theorem isItem_of_mem_leaves {value : Datum} (shape : value.IsItem ∨ value.IsFlatOrNull) :
    ∀ item ∈ value.leaves, item.IsItem := by
  rcases shape with item | rfl | ⟨items, rfl, each⟩
  · rw [item.leaves]
    exact List.forall_mem_singleton.mpr item
  · exact List.forall_mem_singleton.mpr isItem_null
  · rw [leaves, leavesAll_of_items each]
    exact each

theorem isItem_of_mem_leavesAll {values : List Datum}
    (shapes : ∀ value ∈ values, value.IsItem ∨ value.IsFlatOrNull) :
    ∀ item ∈ leavesAll values, item.IsItem := by
  induction values with
  | nil =>
    intro item member
    cases member
  | cons value rest ih =>
    intro item member
    rcases List.mem_append.mp member with here | later
    · exact isItem_of_mem_leaves (shapes value List.mem_cons_self) item here
    · exact ih (fun other among => shapes other (List.mem_cons_of_mem _ among)) item later

end Datum

namespace Lowering

/-- What the runtime owes to a relation between sketches and the values that they can come to: the
primitives for nodes give nodes, a loop puts its results together and takes apart those that are
lists, and what fills a slot is a flat list. A loop that gives a reserved name to its items hides
the runtime from its body, and nothing is said of it. -/
structure Contract (reserved : List String) (valued : Sketch → Datum → Prop) : Prop where
  null : ∀ value, valued .null value → value = .null
  element : ∀ tag data children value, valued (.call .element [tag, data, children]) value →
    value.isNode = true
  text : ∀ content value, valued (.call .text [content]) value → value.isNode = true
  customElement : ∀ tag component data value,
    valued (.call .customElement [tag, component, data]) value → value.isNode = true
  flatten : ∀ sketch value, valued (.call .flatten [sketch]) value →
    ∃ given, valued sketch given ∧ value = .list given.leaves
  iterate : ∀ iterable item index body value, item ∉ reserved → index ∉ reserved →
    valued (.iterate iterable item index body) value →
    ∃ results : List Datum, value = .list (results.flatMap Datum.spread) ∧
      ∀ result ∈ results, valued body result
  array : ∀ elements value, valued (.array elements) value →
    ∃ items, value = .list items ∧ ∀ item ∈ items, ∃ element ∈ elements, valued element item
  conditional : ∀ test consequent alternate value,
    valued (.conditional test consequent alternate) value →
    valued consequent value ∨ valued alternate value
  slot : ∀ name defaults value, valued (.or (.slot name) defaults) value →
    value.IsFlat ∨ valued defaults value

section Shapes

variable {reserved : List String} {valued : Sketch → Datum → Prop}

variable (valued) in
def Only (shape : Datum → Prop) (sketch : Sketch) : Prop :=
  ∀ value, valued sketch value → shape value

-- What may stand among children: what is flat or null is taken apart there.
variable (valued) in
def IsPart (sketch : Sketch) : Prop :=
  Only valued Datum.IsItem sketch ∨ Only valued Datum.IsFlatOrNull sketch

theorem IsPart.value {sketch : Sketch} (part : IsPart valued sketch) {value : Datum}
    (comes : valued sketch value) : value.IsItem ∨ value.IsFlatOrNull :=
  part.imp (· value comes) (· value comes)

theorem Only.orNull {sketch : Sketch} (flat : Only valued Datum.IsFlat sketch) :
    Only valued Datum.IsFlatOrNull sketch := fun value comes => .inr (flat value comes)

variable (contract : Contract reserved valued)

include contract

theorem only_array {elements : List Sketch}
    (each : ∀ element ∈ elements, Only valued Datum.IsItem element) :
    Only valued Datum.IsFlat (.array elements) := by
  intro value comes
  obtain ⟨items, rfl, all⟩ := contract.array elements value comes
  refine ⟨items, rfl, fun item member => ?_⟩
  obtain ⟨element, among, comes⟩ := all item member
  exact each element among item comes

theorem only_flatten {elements : List Sketch} (each : ∀ element ∈ elements, IsPart valued element) :
    Only valued Datum.IsFlat (.call .flatten [.array elements]) := by
  intro value comes
  obtain ⟨list, given, rfl⟩ := contract.flatten (.array elements) value comes
  obtain ⟨items, rfl, all⟩ := contract.array elements list given
  refine ⟨_, rfl, Datum.isItem_of_mem_leavesAll fun item member => ?_⟩
  obtain ⟨element, among, comes⟩ := all item member
  exact (each element among).value comes

theorem only_gatedOn {shape : Datum → Prop} (null : shape .null) (scope : Scope)
    (condition : Option Condition) {sketch : Sketch} (only : Only valued shape sketch) :
    Only valued shape (Sketch.gatedOn scope condition sketch) := by
  cases condition with
  | none => exact only
  | some condition =>
    intro value comes
    rcases contract.conditional _ _ _ value comes with shown | hidden
    · exact only value shown
    · exact contract.null value hidden ▸ null

theorem only_iterate {loop : Loop} (outer : Scope) {sketch : Sketch}
    (spared : ∀ name ∈ loop.names, name ∉ reserved) (part : IsPart valued sketch) :
    Only valued Datum.IsFlat (Sketch.repeatedOver outer (some loop) sketch) := by
  intro value comes
  have item := spared loop.item (by simp [Loop.names])
  have index := spared loop.index (by simp [Loop.names])
  obtain ⟨results, rfl, all⟩ := contract.iterate _ _ _ _ value item index comes
  refine ⟨_, rfl, fun item member => ?_⟩
  obtain ⟨result, among, inside⟩ := List.mem_flatMap.mp member
  exact Datum.isItem_of_mem_spread (part.value (all result among)) item inside

theorem only_slot (name : String) {defaults : Sketch}
    (only : Only valued Datum.IsFlatOrNull defaults) :
    Only valued Datum.IsFlatOrNull (.or (.slot name) defaults) := by
  intro value comes
  rcases contract.slot name defaults value comes with projected | own
  · exact .inr projected
  · exact only value own

theorem isPart_single {sketches : List Sketch}
    (each : ∀ sketch ∈ sketches, Only valued Datum.IsItem sketch) :
    IsPart valued (Sketch.single sketches) := by
  unfold Sketch.single
  split
  · exact .inl (each _ List.mem_cons_self)
  · exact .inr (only_array contract each).orNull

end Shapes

end Lowering

namespace Node

def isBare : Node → Bool
  | .template el _ => el.condition.isNone && el.loop.isNone
  | .text _ | .element _ _ | .slot _ _ _ | .custom _ _ _ _ => false

def Spares (reserved : List String) (node : Node) : Prop :=
  ∀ loop ∈ node.repeat?, ∀ name ∈ loop.names, name ∉ reserved

-- The nodes that are lowered with a node, apart from itself.
def inside : Node → List Node
  | .text _ => []
  | .element _ children | .template _ children | .slot _ children _ => reachedAll children
  | .custom _ _ _ content => reachedContent content

theorem reached_eq (node : Node) : node.reached = node.inside ++ [node] := by
  cases node <;> rfl

theorem Reaches.trans {first second third : Node} (reaches : first.Reaches second)
    (onward : second.Reaches third) : first.Reaches third := by
  induction reaches with
  | self node => exact onward
  | child member below ih => exact .child member (ih onward)
  | content projected member below ih => exact .content projected member (ih onward)

theorem inside_reached {root node other : Node} (member : node ∈ root.inside)
    (reached : other ∈ node.reached) : other ∈ root.inside := by
  have onward := reaches_of_mem node other reached
  cases root with
  | text value => cases member
  | element el children | template el children | slot el children name =>
    obtain ⟨child, among, reaches⟩ := reaches_of_mem_all children node member
    exact mem_reachedAll among ((mem_reached_iff _ _).mpr (reaches.trans onward))
  | custom el children component content =>
    obtain ⟨slot, projected, child, among, reaches⟩ := reaches_of_mem_content content node member
    exact mem_reachedContent projected
      (mem_reachedAll among ((mem_reached_iff _ _).mpr (reaches.trans onward)))

theorem inside_subset {root node other : Node} (member : node ∈ root.reached)
    (own : other ∈ node.inside) : other ∈ root.inside := by
  rw [reached_eq] at member
  rcases List.mem_append.mp member with deeper | here
  · apply inside_reached deeper
    rw [reached_eq]
    exact List.mem_append_left _ own
  · exact List.mem_singleton.mp here ▸ own

end Node

namespace Lowering

structure NodeShape (valued : Sketch → Datum → Prop) (node : Node) (sketches : List Sketch) :
    Prop where
  list : node.yieldsList = true → ∃ only, sketches = [only] ∧ Only valued Datum.IsFlatOrNull only
  items : node.yieldsList = false → ∀ sketch ∈ sketches, Only valued Datum.IsItem sketch

structure NodeShapes (valued : Sketch → Datum → Prop) (nodes : List Node)
    (sketches : List Sketch) : Prop where
  parts : ∀ sketch ∈ sketches, IsPart valued sketch
  items : Node.anyYieldsList nodes = false → ∀ sketch ∈ sketches, Only valued Datum.IsItem sketch
  alone : ∀ node, nodes = [node] → node.yieldsList = true →
    ∃ only, sketches = [only] ∧ Only valued Datum.IsFlatOrNull only

section Nodes

variable {reserved : List String} {valued : Sketch → Datum → Prop}

theorem NodeShape.parts {node : Node} {sketches : List Sketch}
    (shape : NodeShape valued node sketches) : ∀ sketch ∈ sketches, IsPart valued sketch := by
  intro sketch member
  cases yields : node.yieldsList with
  | false => exact .inl (shape.items yields sketch member)
  | true =>
    obtain ⟨only, rfl, flat⟩ := shape.list yields
    obtain rfl := List.mem_singleton.mp member
    exact .inr flat

theorem NodeShapes.nil : NodeShapes valued [] [] where
  parts _ member := nomatch member
  items _ _ member := nomatch member
  alone _ same := nomatch same

theorem NodeShapes.cons {node : Node} {rest : List Node} {first others : List Sketch}
    (here : NodeShape valued node first) (later : NodeShapes valued rest others)
    (none : rest = [] → others = []) : NodeShapes valued (node :: rest) (first ++ others) where
  parts sketch member := by
    rcases List.mem_append.mp member with own | among
    · exact here.parts sketch own
    · exact later.parts sketch among
  items yields sketch member := by
    rw [Node.anyYieldsList, Bool.or_eq_false_iff] at yields
    rcases List.mem_append.mp member with own | among
    · exact here.items yields.1 sketch own
    · exact later.items yields.2 sketch among
  alone only same yields := by
    cases same
    rw [none rfl, List.append_nil]
    exact here.list yields

variable (contract : Contract reserved valued)

include contract

theorem flat_whole {nodes : List Node} {lowered : List Sketch}
    (shapes : NodeShapes valued nodes lowered) :
    Only valued Datum.IsFlatOrNull (SketchedChildren.of nodes lowered).whole := by
  unfold SketchedChildren.of
  split
  next apart =>
    exact (only_array contract (shapes.items (by simpa using apart))).orNull
  next yields =>
    split
    next node only =>
      obtain ⟨found, same, flat⟩ := shapes.alone node rfl
        (by simpa [Node.anyYieldsList] using yields)
      cases same
      exact flat
    next => exact (only_flatten contract shapes.parts).orNull

omit contract in
theorem of_cases (nodes : List Node) (lowered : List Sketch) :
    (Node.anyYieldsList nodes = true ∧
      ∃ sketch, SketchedChildren.of nodes lowered = .joined sketch) ∨
    (Node.anyYieldsList nodes = false ∧ SketchedChildren.of nodes lowered = .separate lowered) := by
  unfold SketchedChildren.of
  cases yields : Node.anyYieldsList nodes with
  | false => exact .inr ⟨rfl, rfl⟩
  | true =>
    refine .inl ⟨rfl, ?_⟩
    simp only [Bool.not_true, Bool.false_eq_true, if_false]
    split <;> exact ⟨_, rfl⟩

theorem shape_directed {node : Node} {el : Element} (outer : Scope) {sketch : Sketch}
    (spared : ∀ loop ∈ el.loop, ∀ name ∈ loop.names, name ∉ reserved)
    (stands : node.yieldsList = el.loop.isSome) (item : Only valued Datum.IsItem sketch) :
    NodeShape valued node [Sketch.repeatedOver outer el.loop
      (Sketch.gatedOn (innerScope outer el.loop) el.condition sketch)] := by
  have gated := only_gatedOn contract Datum.isItem_null (innerScope outer el.loop) el.condition item
  cases looped : el.loop with
  | none =>
    rw [looped] at stands gated
    constructor
    · intro yields
      rw [stands] at yields
      cases yields
    · intro apart
      exact List.forall_mem_singleton.mpr gated
  | some loop =>
    rw [looped] at stands gated
    have flat := only_iterate contract outer (spared loop looped) (.inl gated)
    constructor
    · intro yields
      exact ⟨_, rfl, flat.orNull⟩
    · intro apart
      rw [stands] at apart
      cases apart

-- A template with one sketch for its children is gated and repeated as a whole.
theorem shape_joined {el : Element} {children : List Node} {sketch : Sketch} (outer : Scope)
    (spared : ∀ loop ∈ el.loop, ∀ name ∈ loop.names, name ∉ reserved)
    (yields : Node.anyYieldsList children = true)
    (whole : Only valued Datum.IsFlatOrNull sketch) :
    NodeShape valued (.template el children)
      ((SketchedChildren.joined sketch).template (innerScope outer el.loop) outer el) := by
  have list : (Node.template el children).yieldsList = true := by
    rw [Node.yieldsList, yields, Bool.or_true]
  have shown := only_gatedOn contract (.inl rfl) (innerScope outer el.loop) el.condition whole
  constructor
  · intro _
    refine ⟨_, rfl, ?_⟩
    cases looped : el.loop with
    | none =>
      rw [looped] at shown
      exact shown
    | some loop =>
      rw [looped] at shown
      exact (only_iterate contract outer (spared loop looped) (.inr shown)).orNull
  · intro none
    rw [list] at none
    cases none

-- Otherwise it gates each child for itself, and repeats them together.
theorem shape_separate {el : Element} {children : List Node} {lowered : List Sketch}
    (outer : Scope) (spared : ∀ loop ∈ el.loop, ∀ name ∈ loop.names, name ∉ reserved)
    (gated : (Node.template el children).isBare = false)
    (apart : Node.anyYieldsList children = false)
    (items : ∀ sketch ∈ lowered, Only valued Datum.IsItem sketch) :
    NodeShape valued (.template el children)
      ((SketchedChildren.separate lowered).template (innerScope outer el.loop) outer el) := by
  have each : ∀ sketch ∈ lowered.map (Sketch.gatedOn (innerScope outer el.loop) el.condition),
      Only valued Datum.IsItem sketch := by
    intro sketch member
    obtain ⟨child, among, rfl⟩ := List.mem_map.mp member
    exact only_gatedOn contract Datum.isItem_null _ _ (items child among)
  cases looped : el.loop with
  | some loop =>
    rw [looped] at each
    have flat := only_iterate contract outer (spared loop looped) (isPart_single contract each)
    constructor
    · intro _
      refine ⟨_, ?_, flat.orNull⟩
      simp [SketchedChildren.template, looped]
    · intro none
      simp [Node.yieldsList, looped] at none
  | none =>
    rw [looped] at each
    constructor
    · intro yields
      simp [Node.yieldsList, looped, apart] at yields
    · intro _
      -- A test is all that is left.
      cases tested : el.condition with
      | none => simp [Node.isBare, looped, tested] at gated
      | some condition =>
        rw [tested] at each
        simpa [SketchedChildren.template, looped, tested] using each

theorem shape_template {el : Element} {children : List Node} {lowered : List Sketch} (outer : Scope)
    (spared : ∀ loop ∈ el.loop, ∀ name ∈ loop.names, name ∉ reserved)
    (gated : (Node.template el children).isBare = false)
    (shapes : NodeShapes valued children lowered) :
    NodeShape valued (.template el children)
      ((SketchedChildren.of children lowered).template (innerScope outer el.loop) outer el) := by
  have whole := flat_whole contract shapes
  rcases of_cases children lowered with ⟨yields, sketch, same⟩ | ⟨apart, same⟩
  · rw [same] at whole ⊢
    exact shape_joined contract outer spared yields whole
  · rw [same]
    exact shape_separate contract outer spared gated apart (shapes.items apart)

end Nodes

section Nodes

variable {reserved : List String} {valued : Sketch → Datum → Prop}

mutual

theorem node_shape (contract : Contract reserved valued) (node : Node) (scope : Scope) (given : Nat)
    (gated : ∀ other ∈ node.reached, other.isBare = false)
    (spared : ∀ other ∈ node.reached, other.Spares reserved) :
    NodeShape valued node (node.sketches scope given) := by
  have own : node ∈ node.reached := (Node.mem_reached_iff node node).mpr (.self node)
  cases node with
  | text value =>
    have item : Only valued Datum.IsItem (.call .text [Sketch.ofValue scope value]) :=
      fun shown comes => .inr (contract.text _ shown comes)
    constructor
    · intro yields
      cases yields
    · intro apart
      exact List.forall_mem_singleton.mpr item
  | element el children =>
    exact shape_directed contract scope (spared _ own) rfl
      fun value comes => .inr (contract.element _ _ _ value comes)
  | custom el children component content =>
    exact shape_directed contract scope (spared _ own) rfl
      fun value comes => .inr (contract.customElement _ _ _ value comes)
  | slot el children name =>
    have below := children_shape contract children (innerScope scope el.loop) given
      (fun other member => gated other (List.mem_append_left _ member))
      (fun other member => spared other (List.mem_append_left _ member))
    have flat := only_slot contract name (flat_whole contract below)
    constructor
    · intro yields
      exact ⟨_, rfl, flat⟩
    · intro apart
      cases apart
  | template el children =>
    have below := children_shape contract children (innerScope scope el.loop) given
      (fun other member => gated other (List.mem_append_left _ member))
      (fun other member => spared other (List.mem_append_left _ member))
    exact shape_template contract scope (spared _ own) (gated _ own) below

theorem children_shape (contract : Contract reserved valued) (nodes : List Node) (scope : Scope)
    (given : Nat)
    (gated : ∀ other ∈ Node.reachedAll nodes, other.isBare = false)
    (spared : ∀ other ∈ Node.reachedAll nodes, other.Spares reserved) :
    NodeShapes valued nodes (Node.sketchesAll scope given nodes) := by
  cases nodes with
  | nil => exact .nil
  | cons node rest =>
    have here := node_shape contract node scope given
      (fun other member => gated other (List.mem_append_left _ member))
      (fun other member => spared other (List.mem_append_left _ member))
    have later := children_shape contract rest scope (given + handlerTotal node.reached)
      (fun other member => gated other (List.mem_append_right _ member))
      (fun other member => spared other (List.mem_append_right _ member))
    apply NodeShapes.cons here later
    rintro rfl
    rfl

end

theorem content_flat (contract : Contract reserved valued) (content : List (String × List Node))
    (scope : Scope) (given : Nat)
    (gated : ∀ other ∈ Node.reachedContent content, other.isBare = false)
    (spared : ∀ other ∈ Node.reachedContent content, other.Spares reserved) :
    ∀ slot ∈ Node.sketchesContent scope given content, Only valued Datum.IsFlatOrNull slot.2 := by
  induction content generalizing given with
  | nil =>
    intro slot member
    cases member
  | cons first rest ih =>
    obtain ⟨name, nodes⟩ := first
    have here := children_shape contract nodes scope given
      (fun other member => gated other (List.mem_append_left _ member))
      (fun other member => spared other (List.mem_append_left _ member))
    have later := ih (given + handlerTotal (Node.reachedAll nodes))
      (fun other member => gated other (List.mem_append_right _ member))
      (fun other member => spared other (List.mem_append_right _ member))
    intro slot member
    rcases List.mem_cons.mp member with rfl | among
    · exact flat_whole contract here
    · exact later slot among

theorem isPart_bare (contract : Contract reserved valued) {root : Node} (bare : root.isBare = true)
    (scope : Scope) (given : Nat) (gated : ∀ other ∈ root.inside, other.isBare = false)
    (spared : ∀ other ∈ root.reached, other.Spares reserved) :
    IsPart valued (root.sketch scope given) := by
  cases root with
  | text | element | slot | custom => cases bare
  | template el children =>
    simp only [Node.isBare, Bool.and_eq_true, Option.isNone_iff_eq_none] at bare
    have below := children_shape contract children (innerScope scope el.loop) given gated
      (fun other member => spared other (List.mem_append_left _ member))
    have whole := flat_whole contract below
    rw [Node.sketch, Node.sketches]
    rcases of_cases children (Node.sketchesAll (innerScope scope el.loop) given children) with
      ⟨-, sketch, same⟩ | ⟨-, same⟩
    · rw [same] at whole ⊢
      simp only [SketchedChildren.template, bare.1, bare.2]
      exact .inr whole
    · rw [same] at whole ⊢
      have ungated : Sketch.gatedOn (innerScope scope none) none = id := rfl
      simp only [SketchedChildren.template, bare.1, bare.2, ungated, List.map_id] at whole ⊢
      exact .inr whole

theorem isPart_sketch (contract : Contract reserved valued) (root : Node) (scope : Scope)
    (given : Nat) (gated : ∀ other ∈ root.inside, other.isBare = false)
    (spared : ∀ other ∈ root.reached, other.Spares reserved) :
    IsPart valued (root.sketch scope given) := by
  cases bare : root.isBare with
  | true => exact isPart_bare contract bare scope given gated spared
  | false =>
    have all : ∀ other ∈ root.reached, other.isBare = false := by
      intro other member
      rw [Node.reached_eq] at member
      rcases List.mem_append.mp member with below | here
      · exact gated other below
      · exact List.mem_singleton.mp here ▸ bare
    have shape := node_shape contract root scope given all spared
    cases yields : root.yieldsList with
    | false => exact isPart_single contract (shape.items yields)
    | true =>
      obtain ⟨only, same, flat⟩ := shape.list yields
      rw [Node.sketch, same]
      exact .inr flat

end Nodes

section Calls

variable {reserved : List String} {valued : Sketch → Datum → Prop} {root : Node} {scope : Scope}
  {given : Nat}

theorem place_inside (gated : ∀ other ∈ root.inside, other.isBare = false)
    (spared : ∀ other ∈ root.reached, other.Spares reserved) {place : Place}
    (placed : place ∈ root.places scope given) :
    ∀ other ∈ place.node.inside, other.isBare = false ∧ other.Spares reserved := by
  have reached : place.node ∈ root.reached := by
    rw [← root.places_nodes scope given]
    exact List.mem_map_of_mem placed
  intro other own
  have inside := Node.inside_subset reached own
  have among : other ∈ root.reached := by
    rw [Node.reached_eq]
    exact List.mem_append_left _ inside
  exact ⟨gated other inside, spared other among⟩

theorem mem_buildCalls {call : Sketch} (member : call ∈ (root.sketch scope given).buildCalls) :
    ∃ place ∈ root.places scope given, place.call? = some call :=
  List.mem_filterMap.mp ((buildCalls_perm root scope given).mem_iff.mp member)

variable (contract : Contract reserved valued)
  (gated : ∀ other ∈ root.inside, other.isBare = false)
  (spared : ∀ other ∈ root.reached, other.Spares reserved)

include contract gated spared

theorem element_flat {arguments : List Sketch}
    (member : .call .element arguments ∈ (root.sketch scope given).buildCalls) :
    ∃ tag data children, arguments = [tag, data, children] ∧
      Only valued Datum.IsFlatOrNull children := by
  obtain ⟨place, placed, built⟩ := mem_buildCalls member
  have inside := place_inside gated spared placed
  obtain ⟨node, scope, given⟩ := place
  cases node with
  | text | template | slot | custom => cases built
  | element el children =>
    cases built
    refine ⟨_, _, _, rfl, flat_whole contract (children_shape contract children _ _ ?_ ?_)⟩
    · exact fun other own => (inside other own).1
    · exact fun other own => (inside other own).2

theorem customElement_flat {arguments : List Sketch}
    (member : .call .customElement arguments ∈ (root.sketch scope given).buildCalls) :
    ∃ tag component fields, arguments = [tag, component, .object fields] ∧
      ∀ field ∈ fields, field.1 = "slotset" → ∃ slots, field.2 = .object slots ∧
        ∀ slot ∈ slots, Only valued Datum.IsFlatOrNull slot.2 := by
  obtain ⟨place, placed, built⟩ := mem_buildCalls member
  have inside := place_inside gated spared placed
  obtain ⟨node, scope, given⟩ := place
  cases node with
  | text | template | slot | element => cases built
  | custom el children component content =>
    cases built
    refine ⟨_, _, _, rfl, fun field own named => ?_⟩
    rcases List.mem_append.mp own with carried | projected
    -- The element itself carries nothing under this name.
    · have present : field.1 ∈ el.present := by
        rw [← Sketch.names_dataFields]
        exact List.mem_map_of_mem carried
      have apart := (List.nodup_append.mp el.nodup_present).2.2
      exact absurd named (apart field.1 present "slotset" List.mem_cons_self)
    · rw [Place.slotSet_custom] at projected
      split at projected
      · cases projected
      · obtain rfl := List.mem_singleton.mp projected
        refine ⟨_, rfl, content_flat contract content _ _ ?_ ?_⟩
        · exact fun other own => (inside other own).1
        · exact fun other own => (inside other own).2

end Calls

structure Receives (bindings : Bindings) : Prop where
  api : bindings.lookup "$api" = some (RuntimeApi.runtime {})
  slotSet : ∃ slotSet, bindings.lookup "$slotset" = some slotSet ∧
    ∀ name, (slotSet.read name).IsFlat ∨ (slotSet.read name).truthy = false

def Evaluates (names : String → String) (sketch : Sketch) (value : Datum) : Prop :=
  ∃ host bindings, Receives bindings ∧
    (sketch.expr (.ofApi {}) names).eval host bindings = some value

theorem Receives.iteration {bindings : Bindings} (receives : Receives bindings)
    {item index : String} (itemFree : item ∉ ["$api", "$slotset"])
    (indexFree : index ∉ ["$api", "$slotset"]) (value position : Datum) :
    Receives ((index, position) :: (item, value) :: bindings) := by
  have passed (name : String) (member : name ∈ ["$api", "$slotset"]) :
      ((index, position) :: (item, value) :: bindings).lookup name = bindings.lookup name := by
    have ne (other : String) (free : other ∉ ["$api", "$slotset"]) : (name == other) = false := by
      rw [beq_eq_false_iff_ne]
      rintro rfl
      exact free member
    rw [List.lookup_cons, ne index indexFree, List.lookup_cons, ne item itemFree]
  obtain ⟨slotSet, bound, filled⟩ := receives.slotSet
  refine ⟨(passed "$api" (by simp)).trans receives.api, slotSet, ?_, filled⟩
  exact (passed "$slotset" (by simp)).trans bound

section MapM

variable {α β : Type} {step : α → Option β} {first : α} {rest items : List α} {results : List β}

theorem mapM_cons_some (ran : (first :: rest).mapM step = some results) :
    ∃ value values, step first = some value ∧ rest.mapM step = some values ∧
      results = value :: values := by
  rw [List.mapM_cons, Option.bind_eq_bind, Option.bind_eq_some_iff] at ran
  obtain ⟨value, here, ran⟩ := ran
  rw [Option.bind_eq_bind, Option.bind_eq_some_iff] at ran
  obtain ⟨values, later, same⟩ := ran
  cases same
  exact ⟨value, values, here, later, rfl⟩

theorem mapM_nil_some (ran : ([] : List α).mapM step = some results) : results = [] := by
  cases ran
  rfl

theorem mem_of_mapM (ran : items.mapM step = some results) :
    ∀ result ∈ results, ∃ item ∈ items, step item = some result := by
  induction items generalizing results with
  | nil =>
    rw [mapM_nil_some ran]
    intro result member
    cases member
  | cons item rest ih =>
    obtain ⟨value, values, here, later, rfl⟩ := mapM_cons_some ran
    intro result member
    rcases List.mem_cons.mp member with rfl | among
    · exact ⟨item, List.mem_cons_self, here⟩
    · obtain ⟨found, inside, comes⟩ := ih later result among
      exact ⟨found, List.mem_cons_of_mem _ inside, comes⟩

end MapM

section Evaluation

variable {names : String → String} {primitive : Primitive} {value : Datum}

theorem evaluates_call {arguments : List Sketch}
    (comes : Evaluates names (.call primitive arguments) value) :
    ∃ (host : String → List Datum → Option Datum) (bindings : Bindings) (given : List Datum),
      Receives bindings ∧
      arguments.mapM (fun sketch => (sketch.expr (.ofApi {}) names).eval host bindings) =
        some given ∧
      (Datum.primitive primitive).apply host given = some value := by
  obtain ⟨host, bindings, receives, evaluates⟩ := comes
  rw [call_eval receives.api, Option.bind_eq_bind, Option.bind_eq_some_iff] at evaluates
  obtain ⟨given, ran, applied⟩ := evaluates
  exact ⟨host, bindings, given, receives, ran, applied⟩

theorem evaluates_call_one {argument : Sketch}
    (comes : Evaluates names (.call primitive [argument]) value) :
    ∃ host given, Evaluates names argument given ∧
      (Datum.primitive primitive).apply host [given] = some value := by
  obtain ⟨host, bindings, values, receives, ran, applied⟩ := evaluates_call comes
  obtain ⟨given, others, here, later, rfl⟩ := mapM_cons_some ran
  obtain rfl := mapM_nil_some later
  exact ⟨host, given, ⟨host, bindings, receives, here⟩, applied⟩

theorem evaluates_call_three {first second third : Sketch}
    (comes : Evaluates names (.call primitive [first, second, third]) value) :
    ∃ host one two three,
      (Datum.primitive primitive).apply host [one, two, three] = some value := by
  obtain ⟨host, bindings, values, receives, ran, applied⟩ := evaluates_call comes
  obtain ⟨one, _, -, afterOne, rfl⟩ := mapM_cons_some ran
  obtain ⟨two, _, -, afterTwo, rfl⟩ := mapM_cons_some afterOne
  obtain ⟨three, _, -, none, rfl⟩ := mapM_cons_some afterTwo
  obtain rfl := mapM_nil_some none
  exact ⟨host, one, two, three, applied⟩

end Evaluation

/-- Evaluation keeps the contract where no loop hides the runtime or the slots. -/
theorem evaluation_contract (names : String → String) :
    Contract ["$api", "$slotset"] (Evaluates names) where
  null value comes := by
    obtain ⟨host, bindings, -, evaluates⟩ := comes
    simpa [Sketch.expr] using evaluates.symm
  element tag data children value comes := by
    obtain ⟨host, one, two, three, applied⟩ := evaluates_call_three comes
    rw [Datum.apply_element] at applied
    cases applied
    rfl
  text content value comes := by
    obtain ⟨host, given, -, applied⟩ := evaluates_call_one comes
    rw [Datum.apply_text] at applied
    cases applied
    rfl
  customElement tag component data value comes := by
    obtain ⟨host, one, two, three, applied⟩ := evaluates_call_three comes
    rw [Datum.apply_customElement] at applied
    cases applied
    rfl
  flatten sketch value comes := by
    obtain ⟨host, given, list, applied⟩ := evaluates_call_one comes
    rw [Datum.apply_flatten] at applied
    cases applied
    exact ⟨given, list, rfl⟩
  iterate iterable item index body value itemFree indexFree comes := by
    obtain ⟨host, bindings, receives, evaluates⟩ := comes
    rw [iterate_eval receives.api] at evaluates
    simp only [Option.bind_eq_bind, Option.bind_eq_some_iff] at evaluates
    obtain ⟨list, -, items, -, results, ran, same⟩ := evaluates
    cases same
    refine ⟨results, rfl, fun result member => ?_⟩
    obtain ⟨entry, -, comes⟩ := mem_of_mapM ran result member
    exact ⟨host, _, receives.iteration itemFree indexFree _ _, comes⟩
  array elements value comes := by
    obtain ⟨host, bindings, receives, evaluates⟩ := comes
    rw [Sketch.expr, Expr.eval_array, Option.map_eq_some_iff] at evaluates
    obtain ⟨items, ran, rfl⟩ := evaluates
    rw [Sketch.exprs_eq_map, List.mapM_map] at ran
    refine ⟨items, rfl, fun item member => ?_⟩
    obtain ⟨element, among, comes⟩ := mem_of_mapM ran item member
    exact ⟨element, among, host, bindings, receives, comes⟩
  conditional test consequent alternate value comes := by
    obtain ⟨host, bindings, receives, evaluates⟩ := comes
    rw [Sketch.expr, Expr.eval_conditional, Option.bind_eq_bind,
      Option.bind_eq_some_iff] at evaluates
    obtain ⟨tested, -, evaluates⟩ := evaluates
    split at evaluates
    · exact .inl ⟨host, bindings, receives, evaluates⟩
    · exact .inr ⟨host, bindings, receives, evaluates⟩
  slot name defaults value comes := by
    obtain ⟨host, bindings, receives, evaluates⟩ := comes
    obtain ⟨slotSet, bound, filled⟩ := receives.slotSet
    simp only [Sketch.expr, Environment.ofApi, RuntimeApi.slotContent, Expr.eval_or,
      Expr.eval_member, Expr.eval_identifier, bound, Option.map_some, Option.bind_eq_bind,
      Option.bind_some] at evaluates
    split at evaluates
    next truthy =>
      cases evaluates
      rcases filled name with flat | empty
      · exact .inl flat
      · rw [empty] at truthy
        cases truthy
    next => exact .inr ⟨host, bindings, receives, evaluates⟩

def menu : Node :=
  .element { tag := "nav" } [.template { condition := some { path := ⟨"on", []⟩ } }
    [.element { tag := "li", loop := some { path := ⟨"items", []⟩ } } []], .slot {} [] "more"]

def nothing : Bindings := RuntimeApi.bindings {} (.record []) (.record []) .undefined {}

-- Each item of the loop stands where the slots are looked for.
def shadowing : Node :=
  .element { tag := "div", loop := some { path := ⟨"lists", []⟩, item := "$slotset" } }
    [.slot {} [] "x"]

namespace Shadowing

def nested : Datum := .list [.list [.text (.string "a")]]

def bindings : Bindings :=
  RuntimeApi.bindings {} (.record [("lists", .list [.record [("x", nested)]])]) (.record [])
    .undefined {}

def body : Expr :=
  RuntimeApi.elementCall {} "div" (.object []) (.or (RuntimeApi.slotContent {} "x") (.array []))

def root : Expr :=
  RuntimeApi.iterateCall {} (.member (.identifier "$cmp") "lists") "$slotset" "index" body

variable (host : String → List Datum → Option Datum)

theorem body_value (position : Datum) :
    body.eval host (("index", position) :: ("$slotset", .record [("x", nested)]) :: bindings) =
      some (.element (.string "div") (.record []) nested) := by
  simp [body, RuntimeApi.elementCall, RuntimeApi.primitive, RuntimeApi.slotContent, nested,
    bindings, RuntimeApi.bindings, RuntimeApi.params, RuntimeApi.runtime, List.lookup_cons,
    Datum.read, Datum.truthy]

theorem root_value :
    root.eval host bindings =
      some (.list [.element (.string "div") (.record []) nested]) := by
  have called : ((Expr.identifier "$api").member "i").eval host bindings =
      some (.primitive .iterate) := by
    rw [Expr.eval_member, Expr.eval_identifier]
    rfl
  have passed : [(Expr.identifier "$cmp").member "lists",
        .function ["$slotset", "index"] [.returns body]].mapM (Expr.eval host bindings) =
      some [.list [.record [("x", nested)]],
        .closure ["$slotset", "index"] [.returns body] bindings] := by
    rw [List.mapM_cons, List.mapM_cons, Expr.eval_member, Expr.eval_identifier,
      Expr.eval_function]
    rfl
  rw [root, RuntimeApi.iterateCall, RuntimeApi.primitive, Expr.eval_call, called, passed]
  change (Datum.primitive .iterate).apply host _ = _
  rw [Datum.apply_iterate]
  simp [Datum.items?, body_value, Datum.spread]

theorem nested_not_flat : ¬ nested.IsFlatOrNull := by
  rintro (same | ⟨items, same, each⟩)
  · cases same
  · cases same
    exact (each _ List.mem_cons_self).not_list

end Shadowing

end Lowering

end RenderCompiler
