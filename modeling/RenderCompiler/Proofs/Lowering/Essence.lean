import RenderCompiler.Proofs.Lowering.Handlers

set_option autoImplicit false

namespace RenderCompiler

open Lowering

def Loop.unkeyed (loop : Loop) : Loop := { loop with key := none }

namespace Element

-- Of classes the names count.
def essence (el : Element) : Element :=
  { el with classMap := el.classMap.map fun classes => classes.map fun (name, _) =>
      (name, .text "") }

def templateEssence (el : Element) : Element :=
  { condition := el.condition, loop := el.loop.map Loop.unkeyed }

def slotEssence (el : Element) : Element := { loop := el.loop.map Loop.unkeyed }

end Element

namespace Node

mutual

/-- The node without all that its compilation passes over. -/
def essence : Node → Node
  | .text value => .text value
  | .element el children => .element el.essence (essences children)
  | .template el children => .template el.templateEssence (essences children)
  | .slot el children name => .slot el.slotEssence (essences children) name
  | .custom el _ component content => .custom el.essence [] component (contentEssence content)

def essences : List Node → List Node
  | [] => []
  | node :: rest => essence node :: essences rest

def contentEssence : List (String × List Node) → List (String × List Node)
  | [] => []
  | (name, nodes) :: rest => (name, essences nodes) :: contentEssence rest

end

end Node

def Document.essence (document : Document) : Document :=
  { document with root := document.root.essence }

section Parts

variable (scope : Scope) (el : Element) (loop : Option Loop)

@[simp] theorem innerScope_unkeyed :
    innerScope scope (loop.map Loop.unkeyed) = innerScope scope loop := by
  cases loop <;> rfl

@[simp] theorem loopCourse_unkeyed :
    loopCourse scope (loop.map Loop.unkeyed) = loopCourse scope loop := by
  cases loop <;> rfl

@[simp] theorem repeatedOver_unkeyed (sketch : Sketch) :
    Sketch.repeatedOver scope (loop.map Loop.unkeyed) sketch =
      Sketch.repeatedOver scope loop sketch := by
  cases loop <;> rfl

@[simp] theorem dataFields_essence (given : Nat) :
    Sketch.dataFields scope given el.essence = Sketch.dataFields scope given el := by
  have classes : Sketch.field "classMap" (Sketch.ofEntries fun _ => .boolean true)
      el.essence.classMap =
        Sketch.field "classMap" (Sketch.ofEntries fun _ => .boolean true) el.classMap := by
    cases given : el.classMap with
    | none => simp [Element.essence, given]
    | some classes =>
      simp [Element.essence, given, Sketch.field, Sketch.ofEntries, Function.comp_def]
  simp only [Sketch.dataFields, classes]
  rfl

@[simp] theorem template_templateEssence (children : SketchedChildren) (inner outer : Scope) :
    children.template inner outer el.templateEssence = children.template inner outer el := by
  cases children with
  | joined sketch => simp [SketchedChildren.template, Element.templateEssence]
  | separate sketches =>
    cases loop : el.loop <;> cases condition : el.condition <;>
      simp [SketchedChildren.template, Element.templateEssence, loop, condition] <;> rfl

end Parts

namespace Node

mutual

theorem yieldsList_essence (node : Node) : node.essence.yieldsList = node.yieldsList := by
  cases node with
  | text value => rfl
  | element el children => rfl
  | custom el children component content => rfl
  | slot el children name => rfl
  | template el children =>
    have loop : el.templateEssence.loop.isSome = el.loop.isSome := Option.isSome_map
    rw [essence, yieldsList, yieldsList, loop, anyYieldsList_essences children]

theorem anyYieldsList_essences (nodes : List Node) :
    anyYieldsList (essences nodes) = anyYieldsList nodes := by
  cases nodes with
  | nil => rfl
  | cons node rest =>
    rw [essences, anyYieldsList, anyYieldsList, yieldsList_essence node,
      anyYieldsList_essences rest]

end

-- Besides their verdict it only matters how many children there are.
theorem sketchedChildren_essences (children : List Node) (lowered : List Sketch) :
    SketchedChildren.of (essences children) lowered = SketchedChildren.of children lowered := by
  unfold SketchedChildren.of
  rw [anyYieldsList_essences]
  rcases children with _ | ⟨child, _ | ⟨second, rest⟩⟩ <;> simp only [essences]
  rcases lowered with _ | ⟨only, _ | ⟨other, more⟩⟩ <;> rfl

mutual

theorem reached_essence (node : Node) : node.essence.reached = node.reached.map essence := by
  cases node with
  | text value => rfl
  | element el children => simp [essence, reached, reachedAll_essences children]
  | template el children => simp [essence, reached, reachedAll_essences children]
  | slot el children name => simp [essence, reached, reachedAll_essences children]
  | custom el children component content =>
    simp [essence, reached, reachedContent_essence content]

theorem reachedAll_essences (nodes : List Node) :
    reachedAll (essences nodes) = (reachedAll nodes).map essence := by
  cases nodes with
  | nil => rfl
  | cons node rest =>
    simp [essences, reachedAll, reached_essence node, reachedAll_essences rest]

theorem reachedContent_essence (content : List (String × List Node)) :
    reachedContent (contentEssence content) = (reachedContent content).map essence := by
  cases content with
  | nil => rfl
  | cons slot rest =>
    obtain ⟨name, nodes⟩ := slot
    simp [contentEssence, reachedContent, reachedAll_essences nodes, reachedContent_essence rest]

end

theorem unknownModifier?_essence (node : Node) :
    node.essence.unknownModifier? = node.unknownModifier? := by
  cases node <;> rfl

theorem component?_essence (node : Node) : node.essence.component? = node.component? := by
  cases node <;> rfl

theorem handlerCount_essence (node : Node) : node.essence.handlerCount = node.handlerCount := by
  cases node <;> rfl

end Node

section Collected

variable (nodes : List Node)

theorem unknownModifiers_essence :
    unknownModifiers (nodes.map Node.essence) = unknownModifiers nodes := by
  simp only [unknownModifiers, List.filterMap_map, Function.comp_def,
    Node.unknownModifier?_essence]

theorem components_essence : components (nodes.map Node.essence) = components nodes := by
  simp only [components, List.filterMap_map, Function.comp_def, Node.component?_essence]

theorem handlerTotal_essence : handlerTotal (nodes.map Node.essence) = handlerTotal nodes := by
  induction nodes with
  | nil => rfl
  | cons node rest ih => simp [handlerTotal, Node.handlerCount_essence, ih]

end Collected

namespace Node

mutual

theorem sketches_essence (node : Node) (scope : Scope) (given : Nat) :
    node.essence.sketches scope given = node.sketches scope given := by
  cases node with
  | text value => rfl
  | element el children =>
    have lowered := sketchesAll_essences children (innerScope scope el.loop) given
    simp only [essence, sketches, sketchedChildren_essences, reachedAll_essences,
      handlerTotal_essence, dataFields_essence]
    rw [← lowered]
    rfl
  | template el children =>
    have lowered := sketchesAll_essences children (innerScope scope el.loop) given
    have inner : innerScope scope el.templateEssence.loop = innerScope scope el.loop :=
      innerScope_unkeyed scope el.loop
    simp only [essence, sketches, sketchedChildren_essences, template_templateEssence, inner,
      lowered]
  | slot el children name =>
    have lowered := sketchesAll_essences children (innerScope scope el.loop) given
    have inner : innerScope scope el.slotEssence.loop = innerScope scope el.loop :=
      innerScope_unkeyed scope el.loop
    simp only [essence, sketches, sketchedChildren_essences, inner, lowered]
  | custom el children component content =>
    have slots := sketchesContent_essence content (innerScope scope el.loop)
      (given + el.handlerCount)
    have none : (contentEssence content).isEmpty = content.isEmpty := by cases content <;> rfl
    simp only [essence, sketches, dataFields_essence, none]
    rw [← slots]
    rfl

theorem sketchesAll_essences (nodes : List Node) (scope : Scope) (given : Nat) :
    sketchesAll scope given (essences nodes) = sketchesAll scope given nodes := by
  cases nodes with
  | nil => rfl
  | cons node rest =>
    simp only [essences, sketchesAll, reached_essence, handlerTotal_essence,
      sketches_essence node, sketchesAll_essences rest]

theorem sketchesContent_essence (content : List (String × List Node)) (scope : Scope)
    (given : Nat) :
    sketchesContent scope given (contentEssence content) =
      sketchesContent scope given content := by
  cases content with
  | nil => rfl
  | cons slot rest =>
    obtain ⟨name, nodes⟩ := slot
    simp only [contentEssence, sketchesContent, sketchedChildren_essences, reachedAll_essences,
      handlerTotal_essence, sketchesAll_essences nodes, sketchesContent_essence rest]

end

mutual

theorem course_essence (node : Node) (scope : Scope) :
    node.essence.course scope = node.course scope := by
  cases node with
  | text value => rfl
  | element el children =>
    have below := courseAll_essences children (innerScope scope el.loop)
    simp only [essence, course]
    rw [← below]
    rfl
  | template el children =>
    have below := courseAll_essences children (innerScope scope el.loop)
    simp only [essence, course, Element.templateEssence, innerScope_unkeyed, loopCourse_unkeyed,
      below]
  | slot el children name =>
    have below := courseAll_essences children (innerScope scope el.loop)
    simp only [essence, course, Element.slotEssence, innerScope_unkeyed, below]
  | custom el children component content =>
    have slots := courseContent_essence content (innerScope scope el.loop)
    simp only [essence, course]
    rw [← slots]
    rfl

theorem courseAll_essences (nodes : List Node) (scope : Scope) :
    courseAll scope (essences nodes) = courseAll scope nodes := by
  cases nodes with
  | nil => rfl
  | cons node rest =>
    rw [essences, courseAll, courseAll, course_essence node, courseAll_essences rest]

theorem courseContent_essence (content : List (String × List Node)) (scope : Scope) :
    courseContent scope (contentEssence content) = courseContent scope content := by
  cases content with
  | nil => rfl
  | cons slot rest =>
    obtain ⟨name, nodes⟩ := slot
    rw [contentEssence, courseContent, courseContent, courseAll_essences nodes,
      courseContent_essence rest]

end

end Node

section Compilation

variable (env : Environment) (document : Document)

-- The state that compiling the document ends in, also where it fails.
def Document.finalState : State :=
  ((compileDocument env document).run.run (fresh document.metadata.imports)).2

theorem compileDocument_performs :
    Performs (compileDocument env document) (document.root.course []) := by
  have reads : Performs (get : Lower State) [] := fun _ => rfl
  rw [← List.append_nil (document.root.course [])]
  refine reads.after fun state => (log_performs _ _ _).after fun _ => ?_
  refine (lowerTree_performs env [] document.root).bind fun root => ?_
  exact reads.after fun state => (log_performs _ _ _).after fun _ => .pure _

theorem finalState_essence :
    (document.essence.finalState env).progress = (document.finalState env).progress := by
  have whole := compileDocument_performs env document (fresh document.metadata.imports)
  have essential := compileDocument_performs env document.essence (fresh document.metadata.imports)
  have course : document.essence.root.course [] = document.root.course [] :=
    Node.course_essence document.root []
  rw [course] at essential
  exact congrArg Prod.snd (essential.trans whole.symm)

theorem compileWith_essence :
    (compileWith env document.essence).1 = (compileWith env document).1 := by
  have reached : document.essence.root.reached = document.root.reached.map Node.essence :=
    Node.reached_essence document.root
  have modifiers : unknownModifiers document.essence.root.reached =
      unknownModifiers document.root.reached := by
    rw [reached, unknownModifiers_essence]
  cases unknown : unknownModifiers document.root.reached with
  | nil =>
    have sketch : document.essence.root.sketch [] 0 = document.root.sketch [] 0 :=
      congrArg Sketch.single (Node.sketches_essence document.root [] 0)
    have imports : document.essence.finalImports = document.finalImports := by
      rw [Document.finalImports, Document.finalImports, reached, components_essence]
      rfl
    rw [compileWith_eq_ok env document unknown,
      compileWith_eq_ok env document.essence (modifiers.trans unknown), sketch, imports]
  | cons modifier rest =>
    have first : (unknownModifiers document.root.reached).head? = some modifier := by
      rw [unknown, List.head?_cons]
    rw [compileWith_eq_error env document first,
      compileWith_eq_error env document.essence (by rw [modifiers]; exact first)]

/-- Documents with one essence are compiled alike: into the same module or to the same error, with
as many handler slots and the same imports given out on the way, and with the same paths bound. -/
theorem compileWith_eq_of_essence (other : Document) (same : document.essence = other.essence) :
    (compileWith env document).1 = (compileWith env other).1 ∧
      (document.finalState env).slots = (other.finalState env).slots ∧
      (document.finalState env).imports = (other.finalState env).imports ∧
      (compileWith env document).2.bindings = (compileWith env other).2.bindings := by
  have result : (compileWith env document).1 = (compileWith env other).1 := by
    rw [← compileWith_essence env document, same, compileWith_essence env other]
  have progress : (document.finalState env).progress = (other.finalState env).progress := by
    rw [← finalState_essence env document, same, finalState_essence env other]
  obtain ⟨slots, imports, bindings⟩ := Progress.mk.inj progress
  exact ⟨result, slots, imports, bindings⟩

end Compilation

def ladenRows : Node :=
  .template
    { tag := "tbody", className := some (.text "rows"), on := some [("click", ⟨"open", []⟩)]
      loop := some { path := ⟨"rows", []⟩, item := "row", key := some (.identifier "row") } }
    [.slot { tag := "slot", condition := some { path := ⟨"on", []⟩, modifier := "maybe" } }
        [.text (.bound ⟨"row", []⟩)] "cell",
      .custom { tag := "x-row", classMap := some [("wide", .bound ⟨"isWide", []⟩)] }
        [.custom { condition := some { path := ⟨"on", []⟩, modifier := "never" } } [] "ui/lost" []]
        "ui/row" [("title", [.element { tag := "b", on := some [("click", ⟨"row", []⟩)] } []])]]

def plainRows : Node :=
  .template { loop := some { path := ⟨"rows", []⟩, item := "row" } }
    [.slot {} [.text (.bound ⟨"row", []⟩)] "cell",
      .custom { tag := "x-row", classMap := some [("wide", .number .zero)] } []
        "ui/row" [("title", [.element { tag := "b", on := some [("click", ⟨"row", []⟩)] } []])]]

theorem ladenRows_eq_plainRows :
    ({ root := ladenRows } : Document).essence = ({ root := plainRows } : Document).essence ∧
      (∃ compilation, (compile {} { root := ladenRows }).1 = .ok compilation) ∧
      (compile {} { root := ladenRows }).1 = (compile {} { root := plainRows }).1 ∧
      (({ root := ladenRows } : Document).finalState (.ofApi {})).slots =
        (({ root := plainRows } : Document).finalState (.ofApi {})).slots := by
  obtain ⟨result, slots, -⟩ :=
    compileWith_eq_of_essence (.ofApi {}) { root := ladenRows } { root := plainRows } rfl
  exact ⟨rfl, ⟨_, compileWith_eq_ok (.ofApi {}) { root := ladenRows } (by decide)⟩, result, slots⟩

end RenderCompiler
