import RenderCompiler.Proofs.Template.Reach

set_option autoImplicit false

namespace RenderCompiler

def Value.number? : Value → Option Binary64
  | .number value => some value
  | .text _ | .bound _ => none

def Entries.values {α : Type} (entries : Option (Entries α)) : List α :=
  (entries.getD []).map Prod.snd

def Element.values (el : Element) : List Value :=
  el.className.toList ++ Entries.values el.style ++ Entries.values el.attrs ++
    Entries.values el.props

def Node.values : Node → List Value
  | .text value => [value]
  | node => (node.carrier?.map Element.values).getD []

def numbers (nodes : List Node) : List Binary64 :=
  nodes.flatMap fun node => node.values.filterMap Value.number?

def Node.IsFinite (node : Node) : Prop := ∀ number ∈ numbers node.reached, number.isFinite = true

end RenderCompiler
