import RenderCompiler.Runtime.Api
import RenderCompiler.Toml.Reader
import RenderCompiler.Toml.Writer

set_option autoImplicit false

namespace RenderCompiler

structure Configuration where
  runtime : RuntimeApi := {}
deriving DecidableEq, Repr, Inhabited

namespace Configuration

private def text? : Toml → Option String
  | .string s => some s
  | _ => none

def namesOfEntries : RuntimeApi → TomlEntries → Option RuntimeApi
  | api, [] => some api
  | api, (key, value) :: rest =>
    if key ∈ RuntimeApi.keys then do namesOfEntries (api.set key (← text? value)) rest
    else namesOfEntries api rest

-- Names in the order of their keys. Values past the last key do not matter.
def namesOfItems : RuntimeApi → List String → List Toml → Option RuntimeApi
  | api, key :: keys, item :: items => do
    namesOfItems (RuntimeApi.set key (← text? item) api) keys items
  | api, _, _ => some api

-- A table names what it replaces, and a list gives names in order. A date replaces nothing.
def runtimeOfToml? : Toml → Option RuntimeApi
  | .dateTime => some {}
  | .table _ entries => namesOfEntries {} entries
  | .array items => namesOfItems {} RuntimeApi.keys items
  | _ => none

def ofToml? (text : String) : Option Configuration := do
  let entries ← Toml.readDocument? text
  match entries.lookup "runtime" with
  | none => return {}
  | some value => return ⟨← runtimeOfToml? value⟩

def toToml (configuration : Configuration) : String :=
  let line (entry : String × String) : List Char :=
    entry.1.toList ++ " = ".toList ++ Toml.textForm entry.2.toList ++ ['\n']
  String.ofList ("[runtime]\n".toList ++ configuration.runtime.entries.flatMap line)

end Configuration

end RenderCompiler
