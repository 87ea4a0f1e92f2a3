import RenderCompiler.Compilation
import RenderCompiler.Configuration
import RenderCompiler.Template.Json

set_option autoImplicit false

namespace RenderCompiler

inductive Emission where
  | source
  | tree
deriving DecidableEq, Repr

inductive DocumentError where
  | malformed (fault : ReadFault)
  | refused (error : CompileError)
deriving DecidableEq, Repr

namespace DocumentError

def chain (notJson : String) : DocumentError → List String
  | .malformed fault =>
    ["Malformed IR document",
      match fault with
      | .notJson => notJson
      | .misfit cause => cause.message]
  | .refused error => [error.message]

end DocumentError

def Compilation.emit (compilation : Compilation) : Emission → String
  | .source => compilation.code
  | .tree => compilation.script.toJson.prettyText ++ "\n"

/-- Reads, compiles and writes a document, and says what happened on the way. -/
def renderDocument (configuration : Configuration) (emission : Emission) (text : String) :
    Except DocumentError String × Journal :=
  match Decoder.document.run text with
  | .error fault => (.error (.malformed fault), #[])
  | .ok document =>
    match compile configuration.runtime document with
    | (.error error, journal) => (.error (.refused error), journal)
    | (.ok compilation, journal) => (.ok (compilation.emit emission), journal)

end RenderCompiler
