import RenderCompiler.Json.Decoding

set_option autoImplicit false

namespace RenderCompiler

structure RuntimeApi where
  element : String := "h"
  text : String := "t"
  customElement : String := "c"
  iterate : String := "i"
  flatten : String := "f"
  bind : String := "b"
  apiParam : String := "$api"
  componentParam : String := "$cmp"
  slotSetParam : String := "$slotset"
  contextParam : String := "$ctx"
  functionName : String := "tmpl"
deriving DecidableEq, Repr, Inhabited

namespace RuntimeApi

def params (api : RuntimeApi) : List String :=
  [api.apiParam, api.componentParam, api.slotSetParam, api.contextParam]

def entries (api : RuntimeApi) : List (String × String) :=
  [("element", api.element), ("text", api.text), ("custom-element", api.customElement),
    ("iterate", api.iterate), ("flatten", api.flatten), ("bind", api.bind),
    ("api-param", api.apiParam), ("component-param", api.componentParam),
    ("slot-set-param", api.slotSetParam), ("context-param", api.contextParam),
    ("function-name", api.functionName)]

def keys : List String := (entries {}).map (·.1)

def set (key name : String) (api : RuntimeApi) : RuntimeApi :=
  match key with
  | "element" => { api with element := name }
  | "text" => { api with text := name }
  | "custom-element" => { api with customElement := name }
  | "iterate" => { api with iterate := name }
  | "flatten" => { api with flatten := name }
  | "bind" => { api with bind := name }
  | "api-param" => { api with apiParam := name }
  | "component-param" => { api with componentParam := name }
  | "slot-set-param" => { api with slotSetParam := name }
  | "context-param" => { api with contextParam := name }
  | "function-name" => { api with functionName := name }
  | _ => api

def toJson (api : RuntimeApi) : Json :=
  .object (api.entries.map fun (key, name) => (key, .string name))

end RuntimeApi

def Decoder.runtimeApi : Decoder RuntimeApi :=
  record "struct RuntimeApi"
    (RuntimeApi.keys.map fun key => .withDefault key string (RuntimeApi.set key)) {}

end RenderCompiler
