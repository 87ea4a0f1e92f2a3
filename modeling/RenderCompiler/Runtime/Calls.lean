import RenderCompiler.Binary64.Rounding
import RenderCompiler.Runtime.Api
import RenderCompiler.Script.Basic

set_option autoImplicit false

namespace RenderCompiler.RuntimeApi

def primitive (api : RuntimeApi) (name : String) (arguments : List Expr) : Expr :=
  .call (.member (.identifier api.apiParam) name) arguments

def elementCall (api : RuntimeApi) (tag : String) (data children : Expr) : Expr :=
  api.primitive api.element [.string tag, data, children]

def textCall (api : RuntimeApi) (value : Expr) : Expr := api.primitive api.text [value]

def customElementCall (api : RuntimeApi) (tag : String) (constructor data : Expr) : Expr :=
  api.primitive api.customElement [.string tag, constructor, data]

def iterateCall (api : RuntimeApi) (iterable : Expr) (item index : String) (body : Expr) : Expr :=
  api.primitive api.iterate [iterable, .function [item, index] [.returns body]]

def flattenCall (api : RuntimeApi) (list : Expr) : Expr := api.primitive api.flatten [list]

-- Slots are numbers of 32 bits, which start again after the last of them.
instance : Coe Nat UInt32 := ⟨UInt32.ofNat⟩

def bindCall (api : RuntimeApi) (handler : Expr) (slot : UInt32) : Expr :=
  api.primitive api.bind [handler, .number (.ofUInt32 slot)]

def slotContent (api : RuntimeApi) (name : String) : Expr :=
  .member (.identifier api.slotSetParam) name

end RenderCompiler.RuntimeApi
