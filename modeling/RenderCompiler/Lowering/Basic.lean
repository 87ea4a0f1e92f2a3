import RenderCompiler.Imports
import RenderCompiler.Journal
import RenderCompiler.Runtime.Calls

set_option autoImplicit false

namespace RenderCompiler

inductive CompileError where
  | unknownModifier (modifier : String)
  | internal (cause : String)
deriving DecidableEq, Repr

def CompileError.message : CompileError → String
  | .unknownModifier modifier => "Unknown if modifier: " ++ modifier
  | .internal cause => "Internal compiler error: " ++ cause

namespace Lowering

structure Environment where
  api : RuntimeApi
  binder : Binder

def Environment.ofApi (api : RuntimeApi) : Environment := ⟨api, componentBinder api.componentParam⟩

structure State where
  slots : Nat := 0
  imports : ImportTable := {}
  journal : Journal := #[]
deriving Inhabited

def State.nextSlot (state : State) : UInt32 := state.slots

abbrev Lower := ExceptT CompileError (StateM State)

def fresh (imports : ImportTable) : State := { imports }

def record (event : Event) : Lower Unit :=
  modify fun state => { state with journal := state.journal.push event }

def log (severity : Severity) (source : LogSource) (message : String) : Lower Unit :=
  record (.logged ⟨severity, source, message⟩)

def bind (env : Environment) (path : Path) (scope : Scope) : Lower Expr := do
  record (.bound path scope)
  return env.binder path scope

def valueExpr (env : Environment) (scope : Scope) : Value → Lower Expr
  | .text value => return .string value
  | .number value => return .number value
  | .bound path => bind env path scope

def memoize (env : Environment) (handler : Expr) : Lower Expr := do
  let slot := (← get).nextSlot
  modify fun state => { state with slots := state.slots + 1 }
  log .trace .handlers ("memoized handler in slot " ++ toString slot)
  return env.api.bindCall handler slot

-- A component is imported even if it was not declared.
def localName (component : String) : Lower String := do
  -- The warning comes before the name is given.
  if ((← get).imports.local? component).isNone then
    log .warn .imports
      ("component '" ++ component ++ "' is not a declared dependency; importing it anyway")
  let state ← get
  let (name, imports) := state.imports.register component
  set { state with imports }
  return name

end Lowering

end RenderCompiler
