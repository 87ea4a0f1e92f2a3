import RenderCompiler.Script.Basic
import RenderCompiler.Script.Token

set_option autoImplicit false

namespace RenderCompiler

namespace Level

def assignment : Nat := 3
def disjunction : Nat := 4
def equality : Nat := 10
def unary : Nat := 15
def call : Nat := 19
def primary : Nat := 20

end Level

def Expr.level : Expr → Nat
  | .conditional .. => Level.assignment
  | .or .. => Level.disjunction
  | .strictEqual .. => Level.equality
  | .not _ => Level.unary
  | .call .. => Level.call
  | .member .. => Level.call
  | _ => Level.primary

def parenthesized (pieces : List Piece) : List Piece := .mark "(" :: pieces ++ [.mark ")"]

def Expr.placed (least : Nat) (e : Expr) (pieces : List Piece) : List Piece :=
  if e.level < least then parenthesized pieces else pieces

def Expr.placedAsObject (e : Expr) (pieces : List Piece) : List Piece :=
  match e with
  | .function .. => parenthesized pieces
  | e => e.placed Level.call pieces

def separated : List (List Piece) → List Piece
  | [] => []
  | [item] => item
  | item :: rest => item ++ .mark "," :: .space :: separated rest

def paramPieces (params : List String) : List Piece :=
  .mark "(" :: separated (params.map fun p => [.word p]) ++ [.mark ")"]

def keyPiece (key : String) : Piece := if isBareName key then .word key else .string key

def memberPieces (property : String) : List Piece :=
  if isBareName property then [.mark ".", .word property]
  else [.mark "[", .string property, .mark "]"]

def indentation : Nat → List Piece
  | 0 => []
  | level + 1 => [.blank (String.ofList (List.replicate (4 * (level + 1)) ' '))]

mutual

def Expr.pieces : Expr → List Piece
  | .identifier name => [.word name]
  | .string value => [.string value]
  | .number value => [.token (.number value)]
  | .boolean true => [.word "true"]
  | .boolean false => [.word "false"]
  | .null => [.word "null"]
  | .member object property => object.placedAsObject object.pieces ++ memberPieces property
  | .call callee arguments =>
    callee.placedAsObject callee.pieces ++
      .mark "(" :: separated (exprsPieces arguments) ++ [.mark ")"]
  | .array elements => .mark "[" :: separated (exprsPieces elements) ++ [.mark "]"]
  | .object [] => [.mark "\x7b", .mark "\x7d"]
  | .object properties =>
    .mark "\x7b" :: .space :: separated (propertiesPieces properties) ++ [.space, .mark "\x7d"]
  | .conditional test consequent alternate =>
    test.placed Level.disjunction test.pieces ++
      .space :: .mark "?" :: .space :: consequent.placed Level.assignment consequent.pieces ++
      .space :: .mark ":" :: .space :: alternate.placed Level.assignment alternate.pieces
  | .not argument => .mark "!" :: argument.placed Level.unary argument.pieces
  | .strictEqual left right =>
    -- Both operators group to the left, so the right operand needs a higher level.
    left.placed Level.equality left.pieces ++
      .space :: .mark "===" :: .space :: right.placed (Level.equality + 1) right.pieces
  | .or left right =>
    left.placed Level.disjunction left.pieces ++
      .space :: .mark "||" :: .space :: right.placed (Level.disjunction + 1) right.pieces
  | .function params body =>
    .word "function" :: .space :: paramPieces params ++
      .space :: .mark "\x7b" :: inlinePieces body ++ [.space, .mark "\x7d"]

def exprsPieces : List Expr → List (List Piece)
  | [] => []
  | e :: rest => e.placed Level.assignment e.pieces :: exprsPieces rest

def propertiesPieces : List (String × Expr) → List (List Piece)
  | [] => []
  | (key, value) :: rest =>
    (keyPiece key :: .mark ":" :: .space :: value.placed Level.assignment value.pieces) ::
      propertiesPieces rest

def Stmt.pieces (level : Nat) : Stmt → List Piece
  | .returns argument =>
    indentation level ++ .word "return" :: .space ::
      argument.placed Level.assignment argument.pieces ++ [.mark ";"]
  | .importDefault binding source =>
    indentation level ++
      [.word "import", .space, .word binding, .space, .word "from", .space, .string source,
        .mark ";"]
  | .exportDefaultFunction name params body =>
    indentation level ++
      [.word "export", .space, .word "default", .space, .word "function", .space, .word name] ++
      paramPieces params ++ .space :: .mark "\x7b" :: .newline ::
      blockPieces (level + 1) body ++ indentation level ++ [.mark "\x7d"]

def blockPieces (level : Nat) : List Stmt → List Piece
  | [] => []
  | s :: rest => s.pieces level ++ .newline :: blockPieces level rest

def inlinePieces : List Stmt → List Piece
  | [] => []
  | s :: rest => .space :: s.pieces 0 ++ inlinePieces rest

end

def Script.pieces (script : Script) : List Piece := blockPieces 0 script.body

def Expr.print (e : Expr) : String := Piece.render (e.placed Level.assignment e.pieces)

def Stmt.print (s : Stmt) : String := Piece.render (blockPieces 0 [s])

def Script.print (script : Script) : String := Piece.render script.pieces

end RenderCompiler
