set_option autoImplicit false

namespace RenderCompiler

abbrev EnvironmentVariables := List (String × String)

inductive Color where
  | red
  | green
  | yellow
  | blue
  | cyan
  | grey
deriving DecidableEq, Repr

def Color.code : Color → String
  | .red => "\x1b[31m"
  | .green => "\x1b[32m"
  | .yellow => "\x1b[33m"
  | .blue => "\x1b[34m"
  | .cyan => "\x1b[36m"
  | .grey => "\x1b[90m"

def resetCode : String := "\x1b[0m"

def boldCode : String := "\x1b[1m"

end RenderCompiler
