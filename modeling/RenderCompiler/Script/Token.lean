import RenderCompiler.Script.Number
import RenderCompiler.Script.Quoted

set_option autoImplicit false

namespace RenderCompiler

inductive Token where
  | word (text : String)
  | mark (text : String)
  | string (value : String)
  | number (value : Binary64)
deriving DecidableEq, Repr

def Token.text : Token → List Char
  | .word text => text.toList
  | .mark text => text.toList
  | .string value => quoted value
  | .number value => numberText value

inductive Piece where
  | token (value : Token)
  | blank (text : String)
deriving DecidableEq, Repr

namespace Piece

def word (text : String) : Piece := .token (.word text)

def mark (text : String) : Piece := .token (.mark text)

def string (value : String) : Piece := .token (.string value)

def space : Piece := .blank " "

def newline : Piece := .blank "\n"

def text : Piece → List Char
  | .token t => t.text
  | .blank text => text.toList

def token? : Piece → Option Token
  | .token t => some t
  | .blank _ => none

def render (pieces : List Piece) : String := String.ofList (pieces.flatMap text)

def tokens (pieces : List Piece) : List Token := pieces.filterMap token?

theorem tokens_append (a b : List Piece) : tokens (a ++ b) = tokens a ++ tokens b := by
  simp [tokens, List.filterMap_append]

end Piece

end RenderCompiler
