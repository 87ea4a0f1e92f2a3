import RenderCompiler.Proofs.Reading.Lexer
import RenderCompiler.Script.Printer

set_option autoImplicit false

namespace RenderCompiler

namespace Reading

mutual

inductive Tree where
  | identifier (name : String)
  | string (value : String)
  | number (spelling : String)
  | boolean (value : Bool)
  | null
  | member (object : Tree) (property : String)
  | call (callee : Tree) (arguments : List Tree)
  | array (elements : List Tree)
  | object (properties : List (String × Tree))
  | conditional (test consequent alternate : Tree)
  | not (argument : Tree)
  | strictEqual (left right : Tree)
  | or (left right : Tree)
  | function (params : List String) (body : List Clause)

inductive Clause where
  | returns (argument : Tree)
  | importDefault (binding source : String)
  | exportDefaultFunction (name : String) (params : List String) (body : List Clause)

end

def reservedWords : List String :=
  ["await", "break", "case", "catch", "class", "const", "continue", "debugger", "default", "delete",
    "do", "else", "enum", "export", "extends", "false", "finally", "for", "function", "if",
    "implements", "import", "in", "instanceof", "interface", "let", "new", "null", "package",
    "private", "protected", "public", "return", "static", "super", "switch", "this", "throw",
    "true", "try", "typeof", "var", "void", "while", "with", "yield"]

def expected (mark : String) : List Lexeme → Option (List Lexeme)
  | .mark found :: rest => if found = mark then some rest else none
  | _ => none

def name? : Lexeme → Option String
  | .word name => if name ∈ reservedWords then none else some name
  | _ => none

def atom? : Lexeme → Option Tree
  | .string value => some (.string value)
  | .number spelling => some (.number spelling)
  | .word "true" => some (.boolean true)
  | .word "false" => some (.boolean false)
  | .word "null" => some .null
  | lexeme => (name? lexeme).map .identifier

-- A key may be a reserved word.
def key? : Lexeme → Option String
  | .word name => some name
  | .string name => some name
  | _ => none

def paramNames : List Lexeme → Option (List String × List Lexeme)
  | .mark ")" :: rest => some ([], rest)
  | lexeme :: .mark ")" :: rest => do return ([← name? lexeme], rest)
  | lexeme :: .mark "," :: rest => do
    let name ← name? lexeme
    let (names, rest) ← paramNames rest
    return (name :: names, rest)
  | _ => none

def params (lexemes : List Lexeme) : Option (List String × List Lexeme) := do
  paramNames (← expected "(" lexemes)

mutual

-- What is answered binds at least this tightly.
def expression : Nat → Nat → List Lexeme → Option (Tree × List Lexeme)
  | 0, _, _ => none
  | _ + 1, _, [] => none
  | steps + 1, least, .mark "(" :: rest => do
    let (inner, rest) ← expression steps Level.assignment rest
    continued steps least inner (← expected ")" rest)
  | steps + 1, least, .mark "[" :: rest => do
    let (elements, rest) ← listed steps "]" rest
    continued steps least (.array elements) rest
  | steps + 1, least, .mark "\x7b" :: rest => do
    let (properties, rest) ← properties steps rest
    continued steps least (.object properties) rest
  | steps + 1, least, .mark "!" :: rest => do
    let (argument, rest) ← expression steps Level.unary rest
    continued steps least (.not argument) rest
  | steps + 1, least, .word "function" :: rest => do
    let (params, rest) ← params rest
    let (body, rest) ← clauses steps (← expected "\x7b" rest)
    continued steps least (.function params body) (← expected "\x7d" rest)
  | steps + 1, least, lexeme :: rest => do continued steps least (← atom? lexeme) rest

def continued : Nat → Nat → Tree → List Lexeme → Option (Tree × List Lexeme)
  | 0, _, _, _ => none
  | steps + 1, least, left, .mark "." :: .word name :: rest =>
    continued steps least (.member left name) rest
  | steps + 1, least, left, .mark "[" :: .string name :: .mark "]" :: rest =>
    continued steps least (.member left name) rest
  | steps + 1, least, left, .mark "(" :: rest => do
    let (arguments, rest) ← listed steps ")" rest
    continued steps least (.call left arguments) rest
  | steps + 1, least, left, .mark "===" :: rest =>
    if least ≤ Level.equality then do
      -- Both operators group to the left.
      let (right, rest) ← expression steps (Level.equality + 1) rest
      continued steps least (.strictEqual left right) rest
    else some (left, .mark "===" :: rest)
  | steps + 1, least, left, .mark "||" :: rest =>
    if least ≤ Level.disjunction then do
      let (right, rest) ← expression steps (Level.disjunction + 1) rest
      continued steps least (.or left right) rest
    else some (left, .mark "||" :: rest)
  | steps + 1, least, left, .mark "?" :: rest =>
    if least ≤ Level.assignment then do
      let (consequent, rest) ← expression steps Level.assignment rest
      let (alternate, rest) ← expression steps Level.assignment (← expected ":" rest)
      continued steps least (.conditional left consequent alternate) rest
    else some (left, .mark "?" :: rest)
  | _ + 1, _, left, lexemes => some (left, lexemes)

def listed : Nat → String → List Lexeme → Option (List Tree × List Lexeme)
  | 0, _, _ => none
  | steps + 1, closing, lexemes =>
    match expected closing lexemes with
    | some rest => some ([], rest)
    | none => do
      let (first, rest) ← expression steps Level.assignment lexemes
      match rest with
      | .mark "," :: rest => do
        let (others, rest) ← listed steps closing rest
        return (first :: others, rest)
      | rest => return ([first], ← expected closing rest)

def properties : Nat → List Lexeme → Option (List (String × Tree) × List Lexeme)
  | 0, _ => none
  | _ + 1, .mark "\x7d" :: rest => some ([], rest)
  | steps + 1, lexeme :: .mark ":" :: rest => do
    let key ← key? lexeme
    let (value, rest) ← expression steps Level.assignment rest
    match rest with
    | .mark "," :: rest => do
      let (others, rest) ← properties steps rest
      return ((key, value) :: others, rest)
    | rest => return ([(key, value)], ← expected "\x7d" rest)
  | _ + 1, _ => none

def clauses : Nat → List Lexeme → Option (List Clause × List Lexeme)
  | 0, _ => none
  | steps + 1, .word "return" :: rest => do
    let (argument, rest) ← expression steps Level.assignment rest
    let (others, rest) ← clauses steps (← expected ";" rest)
    return (.returns argument :: others, rest)
  | steps + 1, .word "import" :: lexeme :: .word "from" :: .string source :: rest => do
    let binding ← name? lexeme
    let (others, rest) ← clauses steps (← expected ";" rest)
    return (.importDefault binding source :: others, rest)
  | steps + 1, .word "export" :: .word "default" :: .word "function" :: lexeme :: rest => do
    let name ← name? lexeme
    let (params, rest) ← params rest
    let (body, rest) ← clauses steps (← expected "\x7b" rest)
    let (others, rest) ← clauses steps (← expected "\x7d" rest)
    return (.exportDefaultFunction name params body :: others, rest)
  | _ + 1, lexemes => some ([], lexemes)

end

def parse (lexemes : List Lexeme) : Option (List Clause) :=
  match clauses (2 * lexemes.length + 2) lexemes with
  | some (body, []) => some body
  | _ => none

/-- The module that a text spells. -/
def read (alphabet : Alphabet) (text : List Char) : Option (List Clause) := do
  parse (← lex alphabet text)

end Reading

mutual

def Expr.tree : Expr → Reading.Tree
  | .identifier name => .identifier name
  | .string value => .string value
  | .number value => .number (String.ofList (numberText value))
  | .boolean value => .boolean value
  | .null => .null
  | .member object property => .member object.tree property
  | .call callee arguments => .call callee.tree (Expr.trees arguments)
  | .array elements => .array (Expr.trees elements)
  | .object properties => .object (Expr.propertyTrees properties)
  | .conditional test consequent alternate =>
    .conditional test.tree consequent.tree alternate.tree
  | .not argument => .not argument.tree
  | .strictEqual left right => .strictEqual left.tree right.tree
  | .or left right => .or left.tree right.tree
  | .function params body => .function params (Stmt.clauses body)

def Expr.trees : List Expr → List Reading.Tree
  | [] => []
  | e :: rest => e.tree :: Expr.trees rest

def Expr.propertyTrees : List (String × Expr) → List (String × Reading.Tree)
  | [] => []
  | (key, value) :: rest => (key, value.tree) :: Expr.propertyTrees rest

def Stmt.clause : Stmt → Reading.Clause
  | .returns argument => .returns argument.tree
  | .importDefault binding source => .importDefault binding source
  | .exportDefaultFunction name params body =>
    .exportDefaultFunction name params (Stmt.clauses body)

def Stmt.clauses : List Stmt → List Reading.Clause
  | [] => []
  | s :: rest => s.clause :: Stmt.clauses rest

end

end RenderCompiler
