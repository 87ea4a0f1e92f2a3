import RenderCompiler.Command.Arguments
import RenderCompiler.Command.Color

set_option autoImplicit false

namespace RenderCompiler

-- Colours are shown on request, or on a terminal that is not a dumb one; never against a standing
-- refusal.
def ColorMode.shows (settings : EnvironmentVariables) (mode : ColorMode) : Bool :=
  -- The refusal stands even when it is empty.
  if (settings.lookup "NO_COLOR").isSome then false
  else match mode with
    | .always => true
    | .never => false
    | .auto =>
      match settings.lookup "TERM" with
      | none => false
      | some terminal => terminal != "dumb"

def label (colored : Bool) (color : Color) (text : String) : String :=
  if colored then resetCode ++ boldCode ++ color.code ++ text ++ resetCode else text

def reportLines (colored : Bool) : List String → List String
  | [] => []
  | message :: causes =>
    (label colored .red "error" ++ ": " ++ message) ::
      causes.map fun cause => label colored .yellow "  caused by" ++ ": " ++ cause

def reportText (colored : Bool) (messages : List String) : String :=
  String.join ((reportLines colored messages).map (· ++ "\n"))

end RenderCompiler
