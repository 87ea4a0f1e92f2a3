import RenderCompiler.Lowering.Frames
import RenderCompiler.Script.Printer

set_option autoImplicit false

namespace RenderCompiler

def assemble (root : Expr) (imports : ImportTable) (api : RuntimeApi) : Script :=
  ⟨imports.entries.map (fun (specifier, binding) => .importDefault binding specifier) ++
    [.exportDefaultFunction api.functionName api.params [.returns root]]⟩

structure Compilation where
  script : Script
  dependencies : List String

def Compilation.code (compilation : Compilation) : String := compilation.script.print

namespace Lowering

def compileDocument (env : Environment) (document : Document) : Lower Compilation := do
  log .debug .compilation
    ("compiling template with " ++ toString (← get).imports.size ++ " component dependencies")
  let root ← lowerRoot env document.root
  let state ← get
  log .debug .compilation ("lowered template using " ++ toString state.nextSlot ++ " handler slots")
  return ⟨assemble root state.imports env.api, state.imports.specifiers⟩

end Lowering

/-- Compiles a document, and says what happened on the way. -/
def compileWith (env : Lowering.Environment) (document : Document) :
    Except CompileError Compilation × Journal :=
  let (result, state) :=
    (Lowering.compileDocument env document).run.run (Lowering.fresh document.metadata.imports)
  (result, state.journal)

def compile (api : RuntimeApi) (document : Document) : Except CompileError Compilation × Journal :=
  compileWith (.ofApi api) document

end RenderCompiler
