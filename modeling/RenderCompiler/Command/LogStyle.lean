import RenderCompiler.Command.Color
import RenderCompiler.Command.LogFilter
import RenderCompiler.Text.Terminal

set_option autoImplicit false

namespace RenderCompiler

inductive LogStyle where
  | plain
  | colored
deriving DecidableEq, Repr

-- The style that the environment asks for. Without a clear word plain is the rule, unless colours
-- are forced and not refused.
def LogStyle.ofSettings (settings : EnvironmentVariables) : LogStyle :=
  let isGiven (name : String) : Bool := (settings.lookup name).any (!·.isEmpty)
  match settings.lookup "RUST_LOG_STYLE" with
  | some "always" => .colored
  | some "never" => .plain
  | _ => if isGiven "CLICOLOR_FORCE" && !isGiven "NO_COLOR" then .colored else .plain

namespace LogRecord

def severityLabel : Severity → String
  | .error => "ERROR"
  | .warn => "WARN "
  | .info => "INFO "
  | .debug => "DEBUG"
  | .trace => "TRACE"

def severityCode : Severity → String
  | .error => boldCode ++ Color.red.code
  | .warn => Color.yellow.code
  | .info => Color.green.code
  | .debug => Color.blue.code
  | .trace => Color.cyan.code

def body (record : LogRecord) : List Char :=
  let indent (c : Char) : List Char := if c == '\n' then "\n    ".toList else [c]
  record.message.toList.flatMap indent ++ ['\n']

def line (style : LogStyle) (record : LogRecord) : List Char :=
  let label := severityLabel record.severity
  let target := " " ++ record.source.target
  match style with
  | .plain => withoutControls (("[" ++ label ++ target ++ "] ").toList ++ record.body)
  | .colored =>
    let grey (text : String) : String := Color.grey.code ++ text ++ resetCode
    let label := severityCode record.severity ++ label ++ resetCode
    (grey "[" ++ label ++ target ++ grey "]" ++ " ").toList ++ record.body

end LogRecord

def LogFilter.text (filter : LogFilter) (style : LogStyle) (journal : Journal) : List Char :=
  (journal.logRecords.filter filter.shows).flatMap (·.line style)

end RenderCompiler
