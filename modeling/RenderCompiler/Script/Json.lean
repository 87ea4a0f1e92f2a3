import RenderCompiler.Json.Decoding
import RenderCompiler.Script.Basic

set_option autoImplicit false

namespace RenderCompiler

def Json.ofKind (kind : String) (fields : List (String × Json)) : Json :=
  .object (("type", .string kind) :: fields)

def Json.ofReal (x : Binary64) : Json := .number (.real x)

mutual

def Expr.toJson : Expr → Json
  | .identifier name => .ofKind "identifier" [("name", .string name)]
  | .string value => .ofKind "string-literal" [("value", .string value)]
  | .number value => .ofKind "number-literal" [("value", .ofReal value)]
  | .boolean value => .ofKind "boolean-literal" [("value", .boolean value)]
  | .null => .ofKind "null-literal" []
  | .member object property =>
    .ofKind "member" [("object", object.toJson), ("property", .string property)]
  | .call callee arguments =>
    .ofKind "call" [("callee", callee.toJson), ("arguments", .array (exprsToJson arguments))]
  | .array elements => .ofKind "array" [("elements", .array (exprsToJson elements))]
  | .object properties => .ofKind "object" [("properties", .array (propertiesToJson properties))]
  | .conditional test consequent alternate =>
    .ofKind "conditional"
      [("test", test.toJson), ("consequent", consequent.toJson), ("alternate", alternate.toJson)]
  | .not argument => .ofKind "unary" [("operator", .string "not"), ("argument", argument.toJson)]
  | .strictEqual left right =>
    .ofKind "binary"
      [("operator", .string "strict-equal"), ("left", left.toJson), ("right", right.toJson)]
  | .or left right =>
    .ofKind "logical" [("operator", .string "or"), ("left", left.toJson), ("right", right.toJson)]
  | .function params body =>
    .ofKind "function" [("params", .ofStrings params), ("body", .array (stmtsToJson body))]

def exprsToJson : List Expr → List Json
  | [] => []
  | e :: rest => e.toJson :: exprsToJson rest

def propertiesToJson : List (String × Expr) → List Json
  | [] => []
  | (key, value) :: rest =>
    .object [("key", .string key), ("value", value.toJson)] :: propertiesToJson rest

def Stmt.toJson : Stmt → Json
  | .returns argument => .ofKind "return" [("argument", argument.toJson)]
  | .importDefault binding source =>
    .ofKind "import-default" [("local", .string binding), ("source", .string source)]
  | .exportDefaultFunction name params body =>
    .ofKind "export-default-function"
      [("name", .string name), ("params", .ofStrings params), ("body", .array (stmtsToJson body))]

def stmtsToJson : List Stmt → List Json
  | [] => []
  | s :: rest => s.toJson :: stmtsToJson rest

end

def Script.toJson (script : Script) : Json := .object [("body", .array (stmtsToJson script.body))]

def Expr.kinds : List String :=
  ["identifier", "string-literal", "number-literal", "boolean-literal", "null-literal", "member",
    "call", "array", "object", "conditional", "unary", "binary", "logical", "function"]

def Stmt.kinds : List String := ["return", "import-default", "export-default-function"]

namespace Decoder

def operator (name : String) : Decoder Unit
  | _, .string s => known s
  | _, .object [(key, value)] => do
    known key
    match value with
    | .null | .object [] => return ()
    | j => mismatch j "unit"
  | _, .object _ => fail (.wrongValue "map" "map with a single key")
  | _, j => mismatch j "string or map"
where
  known (s : String) : Except ReadFault Unit :=
    if s == name then .ok () else fail (.unknownVariant s [name])

def property (expr : Decoder Expr) : Decoder (String × Expr) :=
  record "struct Property"
    [.mandatory "key" string fun key p => (key, p.2),
      .mandatory "value" expr fun value p => (p.1, value)]
    ("", .null)

def exprBody (expr : Decoder Expr) (stmt : Decoder Stmt) (kind : Nat) (body : Json) :
    Except ReadFault Expr :=
  let variant (name : String) := "struct variant Expression::" ++ name
  match kind with
  | 0 =>
    record (variant "Identifier") [.mandatory "name" string fun s _ => Expr.identifier s]
      .null .kept body
  | 1 =>
    record (variant "StringLiteral") [.mandatory "value" string fun s _ => Expr.string s]
      .null .kept body
  | 2 =>
    record (variant "NumberLiteral") [.mandatory "value" binary64 fun x _ => Expr.number x]
      .null .kept body
  | 3 =>
    record (variant "BooleanLiteral") [.mandatory "value" boolean fun b _ => Expr.boolean b]
      .null .kept body
  | 4 => record "unit" [] Expr.null .kept body
  | 5 => do
    let (object, property) ← record (variant "Member")
      [.mandatory "object" expr fun e p => (e, p.2),
        .mandatory "property" string fun s p => (p.1, s)]
      (Expr.null, "") .kept body
    return .member object property
  | 6 => do
    let (callee, arguments) ← record (variant "Call")
      [.mandatory "callee" expr fun e p => (e, p.2),
        .mandatory "arguments" (list expr) fun es p => (p.1, es)]
      (Expr.null, []) .kept body
    return .call callee arguments
  | 7 =>
    record (variant "Array") [.mandatory "elements" (list expr) fun es _ => Expr.array es]
      .null .kept body
  | 8 =>
    record (variant "Object")
      [.mandatory "properties" (list (property expr)) fun ps _ => Expr.object ps]
      .null .kept body
  | 9 => do
    let (test, consequent, alternate) ← record (variant "Conditional")
      [.mandatory "test" expr fun e p => (e, p.2),
        .mandatory "consequent" expr fun e p => (p.1, e, p.2.2),
        .mandatory "alternate" expr fun e p => (p.1, p.2.1, e)]
      (Expr.null, Expr.null, Expr.null) .kept body
    return .conditional test consequent alternate
  | 10 =>
    record (variant "Unary")
      [.mandatory "operator" (operator "not") fun _ e => e,
        .mandatory "argument" expr fun e _ => Expr.not e]
      .null .kept body
  | 11 => do
    let (left, right) ← operands "Binary" "strict-equal"
    return .strictEqual left right
  | 12 => do
    let (left, right) ← operands "Logical" "or"
    return .or left right
  | _ => do
    let (params, body) ← record (variant "Function")
      [.mandatory "params" (list string) fun ps p => (ps, p.2),
        .mandatory "body" (list stmt) fun ss p => (p.1, ss)]
      ([], []) .kept body
    return .function params body
where
  operands (name operator : String) : Except ReadFault (Expr × Expr) :=
    record ("struct variant Expression::" ++ name)
      [.mandatory "operator" (Decoder.operator operator) fun _ p => p,
        .mandatory "left" expr fun e p => (e, p.2),
        .mandatory "right" expr fun e p => (p.1, e)]
      (Expr.null, Expr.null) .kept body

def stmtBody (expr : Decoder Expr) (stmt : Decoder Stmt) (kind : Nat) (body : Json) :
    Except ReadFault Stmt :=
  let variant (name : String) := "struct variant Statement::" ++ name
  match kind with
  | 0 =>
    record (variant "Return") [.mandatory "argument" expr fun e _ => Stmt.returns e]
      default .kept body
  | 1 => do
    let (binding, source) ← record (variant "ImportDefault")
      [.mandatory "local" string fun s p => (s, p.2),
        .mandatory "source" string fun s p => (p.1, s)]
      ("", "") .kept body
    return .importDefault binding source
  | _ => do
    let (name, params, body) ← record (variant "ExportDefaultFunction")
      [.mandatory "name" string fun s p => (s, p.2),
        .mandatory "params" (list string) fun ps p => (p.1, ps, p.2.2),
        .mandatory "body" (list stmt) fun ss p => (p.1, p.2.1, ss)]
      ("", [], []) .kept body
    return .exportDefaultFunction name params body

mutual

def exprWithin : Nat → Decoder Expr
  | 0 => fun _ _ => .error .notJson
  | levels + 1 =>
    tagged "internally tagged enum Expression" Expr.kinds
      (exprBody (exprWithin levels) (stmtWithin levels))

def stmtWithin : Nat → Decoder Stmt
  | 0 => fun _ _ => .error .notJson
  | levels + 1 =>
    tagged "internally tagged enum Statement" Stmt.kinds
      (stmtBody (exprWithin levels) (stmtWithin levels))

end

def expr : Decoder Expr := fun origin j => exprWithin (j.height + 1) origin j

def stmt : Decoder Stmt := fun origin j => stmtWithin (j.height + 1) origin j

def script : Decoder Script :=
  record "struct Program" [.mandatory "body" (list stmt) fun body _ => ⟨body⟩] ⟨[]⟩

end Decoder

end RenderCompiler
