import RenderCompiler.Proofs.Lowering.Recursion
import RenderCompiler.Proofs.Script.Datum

set_option autoImplicit false

namespace RenderCompiler

def RuntimeApi.primitiveName (api : RuntimeApi) : Primitive → String
  | .element => api.element
  | .text => api.text
  | .customElement => api.customElement
  | .iterate => api.iterate
  | .flatten => api.flatten
  | .bind => api.bind

/-- What lowering writes, with the names of components and the reading of paths still open. -/
inductive Sketch where
  | string (value : String)
  | number (value : Binary64)
  | boolean (value : Bool)
  | null
  | verbatim (expr : Expr)
  | read (path : Path) (scope : Scope)
  | slot (name : String)
  | component (specifier : String)
  | call (primitive : Primitive) (arguments : List Sketch)
  | iterate (iterable : Sketch) (item index : String) (body : Sketch)
  | array (elements : List Sketch)
  | object (properties : List (String × Sketch))
  | conditional (test consequent alternate : Sketch)
  | not (argument : Sketch)
  | isTrue (argument : Sketch)
  | or (left right : Sketch)

namespace Sketch

section Finished

variable (env : Lowering.Environment) (names : String → String)

mutual

def expr : Sketch → Expr
  | .string value => .string value
  | .number value => .number value
  | .boolean value => .boolean value
  | .null => .null
  | .verbatim expr => expr
  | .read path scope => env.binder path scope
  | .slot name => env.api.slotContent name
  | .component specifier => .identifier (names specifier)
  | .call primitive arguments =>
    env.api.primitive (env.api.primitiveName primitive) (exprs arguments)
  | .iterate iterable item index body => env.api.iterateCall (expr iterable) item index (expr body)
  | .array elements => .array (exprs elements)
  | .object properties => .object (exprProperties properties)
  | .conditional test consequent alternate =>
    .conditional (expr test) (expr consequent) (expr alternate)
  | .not argument => .not (expr argument)
  | .isTrue argument => .strictEqual (expr argument) (.boolean true)
  | .or left right => .or (expr left) (expr right)

def exprs : List Sketch → List Expr
  | [] => []
  | sketch :: rest => expr sketch :: exprs rest

def exprProperties : List (String × Sketch) → List (String × Expr)
  | [] => []
  | (name, sketch) :: rest => (name, expr sketch) :: exprProperties rest

end

@[simp] theorem exprs_eq_map (sketches : List Sketch) :
    exprs env names sketches = sketches.map (expr env names) := by
  induction sketches with
  | nil => rfl
  | cons sketch rest ih => simp [exprs, ih]

theorem exprProperties_append (first others : List (String × Sketch)) :
    exprProperties env names (first ++ others) =
      exprProperties env names first ++ exprProperties env names others := by
  induction first with
  | nil => rfl
  | cons property rest ih => simp [exprProperties, ih]

theorem exprProperties_map {α : Type} (make : α → String × Sketch) (entries : List α) :
    exprProperties env names (entries.map make) =
      entries.map fun entry => ((make entry).1, (make entry).2.expr env names) := by
  induction entries with
  | nil => rfl
  | cons entry rest ih => simp [exprProperties, ih]

end Finished

def ofValue (scope : Scope) : Value → Sketch
  | .text value => .string value
  | .number value => .number value
  | .bound path => .read path scope

def ofAttribute (scope : Scope) : Value → Sketch
  | .text "" => .boolean true
  | value => ofValue scope value

theorem ofAttribute_eq (scope : Scope) (value : Value) :
    ofAttribute scope value = if value = .text "" then .boolean true else ofValue scope value := by
  unfold ofAttribute
  split
  next => rw [if_pos rfl]
  next apart => rw [if_neg apart]

def ofHandlers (scope : Scope) (given : Nat) (handlers : Entries Path) : Sketch :=
  .object ((handlers.zipIdx given).map fun ((event, path), index) =>
    (event, .call .bind [.read path scope, .number (.ofUInt32 (.ofNat index))]))

def ofEntries {α : Type} (make : α → Sketch) (entries : Entries α) : Sketch :=
  .object (entries.map fun (name, value) => (name, make value))

def field {α : Type} (name : String) (make : α → Sketch) : Option α → List (String × Sketch)
  | none => []
  | some value => [(name, make value)]

def dataFields (scope : Scope) (given : Nat) (el : Element) : List (String × Sketch) :=
  field "className" (ofValue scope) el.className ++
    field "classMap" (ofEntries fun _ => .boolean true) el.classMap ++
    field "style" (ofEntries (ofValue scope)) el.style ++
    field "attrs" (ofEntries (ofAttribute scope)) el.attrs ++
    field "props" (ofEntries (ofAttribute scope)) el.props ++
    field "key" .verbatim (el.loop.bind Loop.key) ++
    field "on" (ofHandlers scope given) el.on

def ofTest (scope : Scope) (condition : Condition) : Sketch :=
  match Lowering.Test.ofModifier? condition.modifier with
  | some .falsy => .not (.read condition.path scope)
  | some .exactlyTrue => .isTrue (.read condition.path scope)
  | _ => .read condition.path scope

def gated (test sketch : Sketch) : Sketch := .conditional test sketch .null

def gatedOn (scope : Scope) : Option Condition → Sketch → Sketch
  | none, sketch => sketch
  | some condition, sketch => gated (ofTest scope condition) sketch

def repeatedOver (outer : Scope) : Option Loop → Sketch → Sketch
  | none, sketch => sketch
  | some loop, sketch => .iterate (.read loop.path outer) loop.item loop.index sketch

def single : List Sketch → Sketch
  | [only] => only
  | sketches => .array sketches

end Sketch

-- The children of a node: apart from each other, or joined because they are to be flattened.
inductive SketchedChildren where
  | separate (sketches : List Sketch)
  | joined (sketch : Sketch)

namespace SketchedChildren

def of (children : List Node) (lowered : List Sketch) : SketchedChildren :=
  if !Node.anyYieldsList children then .separate lowered
  else match children, lowered with
    | [_], [only] => .joined only
    | _, _ => .joined (.call .flatten [.array lowered])

def whole : SketchedChildren → Sketch
  | .separate sketches => .array sketches
  | .joined sketch => sketch

def template (inner outer : Scope) (el : Element) : SketchedChildren → List Sketch
  | .joined sketch =>
    [Sketch.repeatedOver outer el.loop (Sketch.gatedOn inner el.condition sketch)]
  | .separate sketches =>
    let gated := sketches.map (Sketch.gatedOn inner el.condition)
    match el.loop, el.condition with
    | some loop, _ => [Sketch.repeatedOver outer (some loop) (Sketch.single gated)]
    | none, some _ => gated
    | none, none => [.array gated]

end SketchedChildren

open Lowering

namespace Node

mutual

/-- What a node contributes to its parent in a scope, with this many handler slots given out. -/
def sketches : Scope → Nat → Node → List Sketch
  | scope, _, .text value => [.call .text [Sketch.ofValue scope value]]
  | scope, given, .element el children =>
    let inner := innerScope scope el.loop
    let lowered := sketchesAll inner given children
    let data := Sketch.dataFields inner (given + handlerTotal (reachedAll children)) el
    [Sketch.repeatedOver scope el.loop (Sketch.gatedOn inner el.condition
      (.call .element
        [.string el.tag, .object data, (SketchedChildren.of children lowered).whole]))]
  | scope, given, .template el children =>
    let inner := innerScope scope el.loop
    (SketchedChildren.of children (sketchesAll inner given children)).template inner scope el
  | scope, given, .slot el children name =>
    let lowered := sketchesAll (innerScope scope el.loop) given children
    [.or (.slot name) (SketchedChildren.of children lowered).whole]
  | scope, given, .custom el _ component content =>
    let inner := innerScope scope el.loop
    let slots := sketchesContent inner (given + el.handlerCount) content
    let data := Sketch.dataFields inner given el ++
      if content.isEmpty then [] else [("slotset", .object slots)]
    [Sketch.repeatedOver scope el.loop (Sketch.gatedOn inner el.condition
      (.call .customElement [.string el.tag, .component component, .object data]))]

def sketchesAll : Scope → Nat → List Node → List Sketch
  | _, _, [] => []
  | scope, given, node :: rest =>
    sketches scope given node ++ sketchesAll scope (given + handlerTotal node.reached) rest

def sketchesContent : Scope → Nat → List (String × List Node) → List (String × Sketch)
  | _, _, [] => []
  | scope, given, (name, nodes) :: rest =>
    (name, (SketchedChildren.of nodes (sketchesAll scope given nodes)).whole) ::
      sketchesContent scope (given + handlerTotal (reachedAll nodes)) rest

end

def sketch (scope : Scope) (given : Nat) (root : Node) : Sketch :=
  Sketch.single (root.sketches scope given)

end Node

end RenderCompiler
