import RenderCompiler.Command.Run

set_option autoImplicit false

namespace RenderCompiler

def SystemError.ofError : IO.Error → SystemError
  | .noFileOrDirectory .. => .notFound
  | .inappropriateType _ 21 _ => .isDirectory
  | .inappropriateType .. => .notDirectory
  | .permissionDenied .. => .permissionDenied
  | .invalidArgument _ 36 _ => .nameTooLong
  | .resourceExhausted _ 28 _ => .noSpace
  | error => .other (toString error)

def attemptSystem {α : Type} (action : IO α) : IO (Except SystemError α) := do
  match ← action.toBaseIO with
  | .ok a => return .ok a
  | .error error => return .error (.ofError error)

def readText (path : String) : IO (Except SystemError String) := do
  match ← attemptSystem (IO.FS.readBinFile path) with
  | .ok bytes =>
    match String.fromUTF8? bytes with
    | some text => return .ok text
    | none => return .error .notText
  | .error error => return .error error

def systemHost : Host IO where
  isPresent := fun path => do
    match ← readText path with
    | .ok _ => return true
    | .error error => return error ∉ [.notFound, .notDirectory, .nameTooLong]
  read := readText
  write := fun path content => attemptSystem (IO.FS.writeFile path content)
  print := fun text => IO.print text
  printError := fun text => IO.eprint text

def systemSettings : IO EnvironmentVariables := do
  let mut settings : EnvironmentVariables := []
  for name in ["NO_COLOR", "CLICOLOR_FORCE", "TERM", "RUST_LOG", "RUST_LOG_STYLE"] do
    if let some value ← IO.getEnv name then
      settings := settings ++ [(name, value)]
  return settings

end RenderCompiler

def main (arguments : List String) : IO UInt32 := do
  let settings ← RenderCompiler.systemSettings
  let status ← RenderCompiler.runProgram RenderCompiler.systemHost settings arguments
  return status.toUInt32
