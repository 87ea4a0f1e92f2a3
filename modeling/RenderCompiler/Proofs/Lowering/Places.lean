import RenderCompiler.Proofs.Lowering.Outcome

set_option autoImplicit false

namespace RenderCompiler

namespace Sketch

mutual

def built : Sketch → List Sketch
  | .string _ | .number _ | .boolean _ | .null | .verbatim _ | .read _ _ | .slot _
  | .component _ => []
  | .call primitive arguments =>
    (if primitive = .element ∨ primitive = .customElement then [.call primitive arguments]
      else []) ++ listBuilt arguments
  | .iterate iterable _ _ body => iterable.built ++ body.built
  | .array elements => listBuilt elements
  | .object properties => .object properties :: fieldBuilt properties
  | .conditional test consequent alternate => test.built ++ consequent.built ++ alternate.built
  | .not argument | .isTrue argument => argument.built
  | .or left right => left.built ++ right.built

def listBuilt : List Sketch → List Sketch
  | [] => []
  | sketch :: rest => sketch.built ++ listBuilt rest

def fieldBuilt : List (String × Sketch) → List Sketch
  | [] => []
  | (_, sketch) :: rest => sketch.built ++ fieldBuilt rest

end

section Forms

variable (sketch other third : Sketch) (arguments : List Sketch) (fields : List (String × Sketch))

@[simp] theorem built_string (text : String) : (string text).built = [] := rfl

@[simp] theorem built_number (value : Binary64) : (number value).built = [] := rfl

@[simp] theorem built_read (path : Path) (scope : Scope) : (read path scope).built = [] := rfl

@[simp] theorem built_null : null.built = [] := rfl

@[simp] theorem built_slot (name : String) : (slot name).built = [] := rfl

@[simp] theorem built_component (path : String) : (component path).built = [] := rfl

@[simp] theorem built_call (primitive : Primitive) :
    (call primitive arguments).built =
      (if primitive = .element ∨ primitive = .customElement then [call primitive arguments]
        else []) ++ listBuilt arguments :=
  rfl

@[simp] theorem built_iterate (item index : String) :
    (iterate sketch item index other).built = sketch.built ++ other.built := rfl

@[simp] theorem built_array : (array arguments).built = listBuilt arguments := rfl

@[simp] theorem built_object : (object fields).built = object fields :: fieldBuilt fields := rfl

@[simp] theorem built_conditional :
    (conditional sketch other third).built = sketch.built ++ other.built ++ third.built := rfl

@[simp] theorem built_or : (sketch.or other).built = sketch.built ++ other.built := rfl

@[simp] theorem listBuilt_eq_flatMap : listBuilt arguments = arguments.flatMap built := by
  induction arguments with
  | nil => rfl
  | cons sketch rest ih => exact congrArg (sketch.built ++ ·) ih

@[simp] theorem fieldBuilt_eq_flatMap :
    fieldBuilt fields = fields.flatMap fun field => field.2.built := by
  induction fields with
  | nil => rfl
  | cons field rest ih => exact congrArg (field.2.built ++ ·) ih

end Forms

def isCall : Sketch → Bool
  | .call _ _ => true
  | _ => false

def fields? : Sketch → Option (List (String × Sketch))
  | .object properties => some properties
  | _ => none

def buildCalls (sketch : Sketch) : List Sketch := sketch.built.filter isCall

def objects (sketch : Sketch) : List (List (String × Sketch)) := sketch.built.filterMap fields?

theorem built_ofValue (scope : Scope) (value : Value) : (ofValue scope value).built = [] := by
  cases value <;> rfl

theorem built_ofAttribute (scope : Scope) (value : Value) :
    (ofAttribute scope value).built = [] := by
  rw [ofAttribute_eq]
  split
  · rfl
  · exact built_ofValue scope value

theorem built_ofHandlers (scope : Scope) (given : Nat) (handlers : Entries Path) :
    (ofHandlers scope given handlers).built = [ofHandlers scope given handlers] := by
  simp [ofHandlers, List.flatMap_map]

theorem built_ofEntries {α : Type} {make : α → Sketch} (entries : Entries α)
    (each : ∀ value, (make value).built = []) :
    (ofEntries make entries).built = [ofEntries make entries] := by
  simp [ofEntries, List.flatMap_map, each]

theorem built_ofTest (scope : Scope) (condition : Condition) :
    (ofTest scope condition).built = [] := by
  unfold ofTest
  split <;> rfl

theorem built_gatedOn (scope : Scope) (condition : Option Condition) (sketch : Sketch) :
    (gatedOn scope condition sketch).built = sketch.built := by
  cases condition with
  | none => rfl
  | some condition => simp [gatedOn, gated, built_ofTest]

theorem built_repeatedOver (outer : Scope) (loop : Option Loop) (sketch : Sketch) :
    (repeatedOver outer loop sketch).built = sketch.built := by
  cases loop <;> simp [repeatedOver]

theorem built_directed (inner outer : Scope) (el : Element) (sketch : Sketch) :
    listBuilt [repeatedOver outer el.loop (gatedOn inner el.condition sketch)] = sketch.built := by
  rw [listBuilt_eq_flatMap, List.flatMap_singleton, built_repeatedOver, built_gatedOn]

theorem built_single (sketches : List Sketch) :
    (single sketches).built = listBuilt sketches := by
  unfold single
  split
  · simp
  · rfl

theorem built_whole (nodes : List Node) (lowered : List Sketch) :
    (SketchedChildren.of nodes lowered).whole.built = listBuilt lowered := by
  unfold SketchedChildren.of
  split
  · rfl
  · split <;> simp [SketchedChildren.whole]

theorem built_template (inner outer : Scope) (el : Element) (children : SketchedChildren) :
    listBuilt (children.template inner outer el) = children.whole.built := by
  cases children with
  | joined sketch => exact built_directed inner outer el sketch
  | separate sketches =>
    have gates : listBuilt (sketches.map (gatedOn inner el.condition)) = listBuilt sketches := by
      simp [List.flatMap_map, built_gatedOn]
    simp only [SketchedChildren.template, SketchedChildren.whole, built_array, ← gates]
    split
    · rw [listBuilt_eq_flatMap, List.flatMap_singleton, built_repeatedOver, built_single]
    · rfl
    · simp

end Sketch

/-- A node, with the loop names around it and the number of handler slots given out before it. -/
structure Place where
  node : Node
  scope : Scope
  given : Nat

open Lowering

namespace Node

mutual

-- The places of the nodes that are lowered with a node, in the order in which it reaches them.
def places : Scope → Nat → Node → List Place
  | scope, given, .text value => [⟨.text value, scope, given⟩]
  | scope, given, .element el children =>
    placesAll (innerScope scope el.loop) given children ++ [⟨.element el children, scope, given⟩]
  | scope, given, .template el children =>
    placesAll (innerScope scope el.loop) given children ++ [⟨.template el children, scope, given⟩]
  | scope, given, .slot el children name =>
    placesAll (innerScope scope el.loop) given children ++ [⟨.slot el children name, scope, given⟩]
  | scope, given, .custom el children component content =>
    placesContent (innerScope scope el.loop) (given + el.handlerCount) content ++
      [⟨.custom el children component content, scope, given⟩]

def placesAll : Scope → Nat → List Node → List Place
  | _, _, [] => []
  | scope, given, node :: rest =>
    places scope given node ++ placesAll scope (given + handlerTotal node.reached) rest

def placesContent : Scope → Nat → List (String × List Node) → List Place
  | _, _, [] => []
  | scope, given, (_, nodes) :: rest =>
    placesAll scope given nodes ++
      placesContent scope (given + handlerTotal (reachedAll nodes)) rest

end

mutual

theorem places_nodes (node : Node) (scope : Scope) (given : Nat) :
    (node.places scope given).map Place.node = node.reached := by
  cases node with
  | text value => rfl
  | element el children | template el children | slot el children name =>
    simp [places, reached, placesAll_nodes children]
  | custom el children component content =>
    simp [places, reached, placesContent_nodes content]

theorem placesAll_nodes (nodes : List Node) (scope : Scope) (given : Nat) :
    (placesAll scope given nodes).map Place.node = reachedAll nodes := by
  cases nodes with
  | nil => rfl
  | cons node rest => simp [placesAll, reachedAll, places_nodes node, placesAll_nodes rest]

theorem placesContent_nodes (content : List (String × List Node)) (scope : Scope) (given : Nat) :
    (placesContent scope given content).map Place.node = reachedContent content := by
  cases content with
  | nil => rfl
  | cons slot rest =>
    obtain ⟨name, nodes⟩ := slot
    simp [placesContent, reachedContent, placesAll_nodes nodes, placesContent_nodes rest]

end

def childrenSketch (scope : Scope) (given : Nat) (nodes : List Node) : Sketch :=
  (SketchedChildren.of nodes (sketchesAll scope given nodes)).whole

end Node

namespace Place

def inner (place : Place) : Scope := innerScope place.scope place.node.loop?

-- An element comes after its children, a custom element before its content.
def dataFields (place : Place) : List (String × Sketch) :=
  match place.node with
  | .element el children =>
    Sketch.dataFields place.inner (place.given + handlerTotal (Node.reachedAll children)) el
  | .custom el _ _ _ => Sketch.dataFields place.inner place.given el
  | .text _ | .template _ _ | .slot _ _ _ => []

def slots (place : Place) : List (String × Sketch) :=
  match place.node with
  | .custom el _ _ content =>
    Node.sketchesContent place.inner (place.given + el.handlerCount) content
  | .text _ | .element _ _ | .template _ _ | .slot _ _ _ => []

def slotSet (place : Place) : List (String × Sketch) :=
  if place.slots.isEmpty then [] else [("slotset", .object place.slots)]

def call? (place : Place) : Option Sketch :=
  match place.node with
  | .element el children =>
    some (.call .element [.string el.tag, .object place.dataFields,
      Node.childrenSketch place.inner place.given children])
  | .custom el _ component _ =>
    some (.call .customElement [.string el.tag, .component component,
      .object (place.dataFields ++ place.slotSet)])
  | .text _ | .template _ _ | .slot _ _ _ => none

def objects (place : Place) : List Sketch :=
  .object (place.dataFields ++ place.slotSet) ::
    (Sketch.fieldBuilt place.dataFields ++ place.slotSet.map (·.2))

-- What is built in a place, apart from what is built within its children and its content.
def built (place : Place) : List Sketch :=
  match place.call? with
  | some call => call :: place.objects
  | none => []

theorem fieldBuilt_slotSet (place : Place) :
    Sketch.fieldBuilt place.slotSet =
      place.slotSet.map (·.2) ++ Sketch.fieldBuilt place.slots := by
  unfold slotSet
  cases place.slots <;> simp

end Place

namespace Node

open Sketch

theorem sketchesContent_isEmpty (content : List (String × List Node)) (scope : Scope)
    (given : Nat) : (sketchesContent scope given content).isEmpty = content.isEmpty := by
  cases content <;> rfl

mutual

theorem sketches_built (node : Node) (scope : Scope) (given : Nat) :
    (listBuilt (node.sketches scope given)).Perm
      ((node.places scope given).flatMap Place.built) := by
  cases node with
  | text value => simp [sketches, places, built_ofValue, Place.built, Place.call?]
  | element el children =>
    have inside := sketchesAll_built children (innerScope scope el.loop) given
    have here : (Sketch.call .element [.string el.tag,
        .object (Place.dataFields ⟨.element el children, scope, given⟩),
        childrenSketch (innerScope scope el.loop) given children]).built =
        Place.built ⟨.element el children, scope, given⟩ ++
          listBuilt (sketchesAll (innerScope scope el.loop) given children) := by
      simp [Place.built, Place.objects, Place.call?, Place.slotSet, Place.slots,
        childrenSketch, built_whole, Place.inner, loop?, element?]
    rw [sketches, built_directed, places, List.flatMap_append, List.flatMap_singleton]
    exact (List.Perm.of_eq here).trans (List.perm_append_comm.trans (inside.append_right _))
  | template el children =>
    have inside := sketchesAll_built children (innerScope scope el.loop) given
    rw [sketches, built_template, built_whole, places]
    simpa [Place.built, Place.call?] using inside
  | slot el children name =>
    have inside := sketchesAll_built children (innerScope scope el.loop) given
    rw [sketches, places]
    simpa [built_whole, Place.built, Place.call?] using inside
  | custom el children component content =>
    have inside := sketchesContent_built content (innerScope scope el.loop)
      (given + el.handlerCount)
    have here : (Sketch.call .customElement [.string el.tag, .component component,
        .object (Place.dataFields ⟨.custom el children component content, scope, given⟩ ++
          Place.slotSet ⟨.custom el children component content, scope, given⟩)]).built =
        Place.built ⟨.custom el children component content, scope, given⟩ ++
          fieldBuilt (sketchesContent (innerScope scope el.loop) (given + el.handlerCount)
            content) := by
      have slots := Place.fieldBuilt_slotSet ⟨.custom el children component content, scope, given⟩
      simp only [fieldBuilt_eq_flatMap] at slots ⊢
      simp [Place.built, Place.objects, Place.call?, slots, Place.slots, Place.inner, loop?,
        element?]
    rw [sketches, built_directed, places, List.flatMap_append, List.flatMap_singleton]
    refine (List.Perm.of_eq ?_).trans (List.perm_append_comm.trans (inside.append_right _))
    rw [← here, Place.slotSet, Place.slots, sketchesContent_isEmpty]
    rfl

theorem sketchesAll_built (nodes : List Node) (scope : Scope) (given : Nat) :
    (listBuilt (sketchesAll scope given nodes)).Perm
      ((placesAll scope given nodes).flatMap Place.built) := by
  cases nodes with
  | nil => exact .refl _
  | cons node rest =>
    have first := sketches_built node scope given
    have others := sketchesAll_built rest scope (given + handlerTotal node.reached)
    rw [listBuilt_eq_flatMap] at first others
    rw [sketchesAll, listBuilt_eq_flatMap, List.flatMap_append, placesAll, List.flatMap_append]
    exact first.append others

theorem sketchesContent_built (content : List (String × List Node)) (scope : Scope)
    (given : Nat) :
    (fieldBuilt (sketchesContent scope given content)).Perm
      ((placesContent scope given content).flatMap Place.built) := by
  cases content with
  | nil => exact .refl _
  | cons slot rest =>
    obtain ⟨name, nodes⟩ := slot
    have first := sketchesAll_built nodes scope given
    have others := sketchesContent_built rest scope (given + handlerTotal (reachedAll nodes))
    rw [sketchesContent, fieldBuilt, built_whole, placesContent, List.flatMap_append]
    exact first.append others

end

theorem sketch_built (root : Node) (scope : Scope) (given : Nat) :
    (root.sketch scope given).built.Perm ((root.places scope given).flatMap Place.built) := by
  rw [sketch, built_single]
  exact sketches_built root scope given

end Node

end RenderCompiler
