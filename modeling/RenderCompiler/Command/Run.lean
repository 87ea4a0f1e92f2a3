import RenderCompiler.Command.Host
import RenderCompiler.Command.LogStyle
import RenderCompiler.Command.Report

set_option autoImplicit false

namespace RenderCompiler

inductive CommandFailure where
  | unreadableConfiguration (path : String) (error : SystemError)
  | invalidConfiguration (path : String)
  | unreadableInput (path : String) (error : SystemError)
  | uncompiled (path : String) (error : DocumentError)
  | unwritten (path : String) (error : SystemError)
deriving DecidableEq, Repr

def CommandFailure.chain : CommandFailure → List String
  | .unreadableConfiguration path error =>
    ["Failed to read config file " ++ path, error.message]
  | .invalidConfiguration path => ["Invalid config file " ++ path, "TOML parse error"]
  | .unreadableInput path error => ["Failed to read " ++ path, error.message]
  | .uncompiled path error => ("Failed to compile " ++ path) :: error.chain "expected JSON"
  | .unwritten path error => ["Failed to write " ++ path, error.message]

structure LogSettings where
  filter : LogFilter
  style : LogStyle
deriving DecidableEq, Repr

def LogSettings.ofEnvironment (settings : EnvironmentVariables) : LogSettings where
  filter := ((settings.lookup "RUST_LOG").map LogFilter.ofText).getD .standard
  style := .ofSettings settings

section

variable {m : Type → Type} [Monad m]

abbrev CommandM (m : Type → Type) := ReaderT LogSettings (ExceptT CommandFailure m)

namespace CommandM

def act {α : Type} (action : m α) : CommandM m α := fun _ => ExceptT.lift action

def record (host : Host m) (events : Journal) : CommandM m Unit := do
  let log ← read
  act (host.printError (String.ofList (log.filter.text log.style events)))

def log (host : Host m) (severity : Severity) (source : LogSource) (message : String) :
    CommandM m Unit :=
  record host #[.logged ⟨severity, source, message⟩]

def attempt {α : Type} (failure : SystemError → CommandFailure)
    (action : m (Except SystemError α)) : CommandM m α := do
  match ← act action with
  | .ok a => return a
  | .error error => throw (failure error)

def loadConfiguration (host : Host m) (path : String) : CommandM m Configuration := do
  if ← act (host.isPresent path) then
    let text ← attempt (.unreadableConfiguration path) (host.read path)
    match Configuration.ofToml? text with
    | some configuration => return configuration
    | none => throw (.invalidConfiguration path)
  else
    log host .debug .configuration ("no config at " ++ path ++ ", using defaults")
    return {}

def runCompile (host : Host m) (arguments : CompileArguments) : CommandM m Unit := do
  let configuration ← loadConfiguration host arguments.configuration
  let text ← attempt (.unreadableInput arguments.input) (host.read arguments.input)
  let (result, journal) := renderDocument configuration arguments.emission text
  -- The log of a compilation that fails is shown as well.
  record host journal
  match result with
  | .error error => throw (.uncompiled arguments.input error)
  | .ok rendered =>
    match arguments.output with
    | none => act (host.print rendered)
    | some path =>
      attempt (.unwritten path) (host.write path rendered)
      log host .info .compileCommand ("wrote " ++ path)

def runCommand (host : Host m) : Command → CommandM m Unit
  | .compile arguments => runCompile host arguments
  | .configuration path => do
    let configuration ← loadConfiguration host path
    act (host.print configuration.toToml)

end CommandM

def versionText : String := "tmplc 0.1.0\n"

def usageText : String :=
  "Usage: tmplc [OPTIONS] <COMMAND>\n\n" ++
  "Commands:\n" ++
  "  compile  Compile an IR document (JSON) into a render-function module\n" ++
  "  config   Print the effective runtime configuration\n" ++
  "  help     Print this message\n\n" ++
  "Options:\n" ++
  "      --color <COLOR>  Colored diagnostics [auto, always, never]\n" ++
  "  -h, --help           Print help\n" ++
  "  -V, --version        Print version\n"

def runInvocation (host : Host m) (settings : EnvironmentVariables) (log : LogSettings) :
    Invocation → m Nat
  | .help => do
    host.print usageText
    return 0
  | .version => do
    host.print versionText
    return 0
  | .usageError => do
    host.printError ("error: invalid arguments\n\n" ++ usageText)
    return 2
  | .run color command => do
    match ← ((CommandM.runCommand host command).run log).run with
    | .ok () => return 0
    | .error failure =>
      host.printError (reportText (color.shows settings) failure.chain)
      return 1

def runProgram (host : Host m) (settings : EnvironmentVariables) (arguments : List String) :
    m Nat := do
  let log := LogSettings.ofEnvironment settings
  host.printError (String.ofList log.filter.warnings)
  runInvocation host settings log (Invocation.ofArguments arguments)

end

end RenderCompiler
