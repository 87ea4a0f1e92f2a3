import RenderCompiler.Script.Basic
import RenderCompiler.Template.Basic

set_option autoImplicit false

namespace RenderCompiler

abbrev Scope := List String

abbrev Binder := Path → Scope → Expr

-- Every path has a first name, so the component is never read as a whole.
def componentBinder (component : String) : Binder := fun path scope =>
  let start :=
    if path.head ∈ scope then Expr.identifier path.head
    else .member (.identifier component) path.head
  start.members path.rest

theorem componentBinder_local {component : String} {path : Path} {scope : Scope}
    (known : path.head ∈ scope) :
    componentBinder component path scope = (Expr.identifier path.head).members path.rest := by
  simp [componentBinder, known]

theorem componentBinder_member {component : String} {path : Path} {scope : Scope}
    (unknown : path.head ∉ scope) :
    componentBinder component path scope =
      (Expr.member (.identifier component) path.head).members path.rest := by
  simp [componentBinder, unknown]

end RenderCompiler
