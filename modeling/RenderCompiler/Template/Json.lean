import RenderCompiler.Script.Json
import RenderCompiler.Template.Basic

set_option autoImplicit false

namespace RenderCompiler

def Path.toJson (path : Path) : Json := .string path.text

def Value.toJson : Value → Json
  | .text value => .string value
  | .number value => .ofReal value
  | .bound path => .object [("expr", path.toJson)]

def Entries.toJson {α : Type} (encode : α → Json) (entries : Entries α) : Json :=
  .object (entries.map fun (key, value) => (key, encode value))

def Condition.toJson (condition : Condition) : Json :=
  .object [("expression", condition.path.toJson), ("modifier", .string condition.modifier)]

def presentField {α : Type} (name : String) (encode : α → Json) :
    Option α → List (String × Json)
  | none => []
  | some value => [(name, encode value)]

def Loop.toJson (loop : Loop) : Json :=
  .object
    ([("expression", loop.path.toJson), ("item", .string loop.item), ("index", .string loop.index)]
      ++ presentField "key" Expr.toJson loop.key)

def Element.toEntries (el : Element) (children : List Json) : List (String × Json) :=
  [("tag", .string el.tag), ("children", .array children)] ++
    presentField "if" Condition.toJson el.condition ++
    presentField "for" Loop.toJson el.loop ++
    presentField "className" Value.toJson el.className ++
    presentField "classMap" (Entries.toJson Value.toJson) el.classMap ++
    presentField "style" (Entries.toJson Value.toJson) el.style ++
    presentField "attrs" (Entries.toJson Value.toJson) el.attrs ++
    presentField "props" (Entries.toJson Value.toJson) el.props ++
    presentField "on" (Entries.toJson Path.toJson) el.on

mutual

def Node.toJson : Node → Json
  | .text value => .ofKind "text" [("value", value.toJson)]
  | .element el children => .ofKind "element" (el.toEntries (nodesToJson children))
  | .template el children => .ofKind "template" (el.toEntries (nodesToJson children))
  | .slot el children name =>
    .ofKind "slot" (el.toEntries (nodesToJson children) ++ [("slotName", .string name)])
  | .custom el children component content =>
    .ofKind "custom"
      (el.toEntries (nodesToJson children) ++
        [("component", .string component), ("slotSet", .object (contentToJson content))])

def nodesToJson : List Node → List Json
  | [] => []
  | node :: rest => node.toJson :: nodesToJson rest

def contentToJson : List (String × List Node) → List (String × Json)
  | [] => []
  | (name, nodes) :: rest => (name, .array (nodesToJson nodes)) :: contentToJson rest

end

def Metadata.toJson (metadata : Metadata) : Json :=
  .object [("dependencies", .ofStrings metadata.dependencies)]

def Document.toJson (document : Document) : Json :=
  .object [("root", document.root.toJson), ("metadata", document.metadata.toJson)]

def Node.roles : List String := ["text", "element", "template", "slot", "custom"]

namespace Decoder

def path : Decoder Path := fun origin j => (string origin j).map Path.ofText

-- An object with exactly one text under the key of an expression; other keys do not matter.
def boundPath? (entries : List (String × Json)) : Option Path :=
  match entries.filter (·.1 == "expr") with
  | [(_, .string s)] => some (Path.ofText s)
  | _ => none

def value : Decoder Value := fun origin j => do
  match ← keep origin j with
  | .string s => return .text s
  | .number n => return .number n.toBinary64
  | .object entries =>
    match boundPath? entries with
    | some path => return .bound path
    | none => fail (.noForm "IrValue")
  | _ => fail (.noForm "IrValue")

def condition : Decoder Condition :=
  record "struct IfDirective"
    [.mandatory "expression" path fun p c => { c with path := p },
      .withDefault "modifier" string fun s c => { c with modifier := s }]
    { path := default }

def loop : Decoder Loop :=
  record "struct ForDirective"
    [.mandatory "expression" path fun p l => { l with path := p },
      .withDefault "item" string fun s l => { l with item := s },
      .withDefault "index" string fun s l => { l with index := s },
      .withDefault "key" (optional expr) fun e l => { l with key := e }]
    { path := default }

def elementFields (node : Decoder Node) : List (Field (Element × List Node)) :=
  [.withDefault "tag" string fun s (el, nodes) => ({ el with tag := s }, nodes),
    .withDefault "children" (list node) fun nodes (el, _) => (el, nodes),
    .withDefault "if" (optional condition) fun c (el, nodes) => ({ el with condition := c }, nodes),
    .withDefault "for" (optional loop) fun l (el, nodes) => ({ el with loop := l }, nodes),
    .withDefault "className" (optional value) fun v (el, nodes) =>
      ({ el with className := v }, nodes),
    .withDefault "classMap" (optional (entries value)) fun m (el, nodes) =>
      ({ el with classMap := m }, nodes),
    .withDefault "style" (optional (entries value)) fun m (el, nodes) =>
      ({ el with style := m }, nodes),
    .withDefault "attrs" (optional (entries value)) fun m (el, nodes) =>
      ({ el with attrs := m }, nodes),
    .withDefault "props" (optional (entries value)) fun m (el, nodes) =>
      ({ el with props := m }, nodes),
    .withDefault "on" (optional (entries path)) fun m (el, nodes) => ({ el with on := m }, nodes)]

def elementWith (node : Decoder Node) : Decoder (Element × List Node) :=
  record "struct Element" (elementFields node) ({}, [])

def extended {σ : Type} (what : String) (own : List (Field σ)) (blank : σ)
    (node : Decoder Node) (body : Json) : Except ReadFault (σ × Element × List Node) :=
  match body with
  | .object members => do
    let (seen, draft) ← Field.fill own .kept [] blank members
    Field.checkPresent seen own
    -- A fault among the own fields wins over one among the fields of the element.
    let others := members.filter fun (key, _) => !own.any (·.name == key)
    let (el, nodes) ← elementWith node .kept (.object others)
    return (draft, el, nodes)
  | j => mismatch j what

def nodeBody (node : Decoder Node) (role : Nat) (body : Json) : Except ReadFault Node :=
  match role with
  | 0 =>
    record "struct TextNode" [.mandatory "value" value fun v _ => Node.text v] default .kept body
  | 1 => (elementWith node .kept body).map fun (el, nodes) => .element el nodes
  | 2 => (elementWith node .kept body).map fun (el, nodes) => .template el nodes
  | 3 => do
    let (name, el, nodes) ← extended "struct SlotElement"
      [.withDefault "slotName" string fun s _ => s] "" node body
    return .slot el nodes name
  | _ => do
    let ((component, content), el, nodes) ← extended "struct CustomElement"
      [.mandatory "component" string fun s p => (s, p.2),
        .withDefault "slotSet" (entries (list node)) fun m p => (p.1, m)]
      ("", []) node body
    return .custom el nodes component content

def nodeWithin : Nat → Decoder Node
  | 0 => fun _ _ => .error .notJson
  | levels + 1 =>
    tagged "internally tagged enum IrNode" Node.roles (nodeBody (nodeWithin levels))

def node : Decoder Node := fun origin j => nodeWithin (j.height + 1) origin j

def element : Decoder (Element × List Node) := elementWith node

def metadata : Decoder Metadata :=
  record "struct Metadata"
    [.withDefault "dependencies" (list string) fun ds _ => { dependencies := ds }] {}

def document : Decoder Document :=
  record "struct TemplateDocument"
    [.mandatory "root" node fun n d => { d with root := n },
      .withDefault "metadata" metadata fun m d => { d with metadata := m }]
    { root := default }

end Decoder

end RenderCompiler
