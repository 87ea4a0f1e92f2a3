import RenderCompiler.Binding

set_option autoImplicit false

namespace RenderCompiler

inductive Severity where
  | error
  | warn
  | info
  | debug
  | trace
deriving DecidableEq, Repr

namespace Severity

def name : Severity → String
  | .error => "error"
  | .warn => "warn"
  | .info => "info"
  | .debug => "debug"
  | .trace => "trace"

def rank : Severity → Nat
  | .error => 1
  | .warn => 2
  | .info => 3
  | .debug => 4
  | .trace => 5

end Severity

inductive LogSource where
  | compilation
  | imports
  | frames
  | slots
  | handlers
  | configuration
  | compileCommand
deriving DecidableEq, Repr

def LogSource.target : LogSource → String
  | .compilation => "tmpl_compiler"
  | .imports => "tmpl_compiler::assemble"
  | .frames => "tmpl_compiler::lower::walker"
  | .slots => "tmpl_compiler::lower::slots"
  | .handlers => "tmpl_compiler::lower::memo"
  | .configuration => "tmplc::config"
  | .compileCommand => "tmplc::commands::compile"

structure LogRecord where
  severity : Severity
  source : LogSource
  message : String
deriving DecidableEq, Repr

inductive Event where
  | bound (path : Path) (scope : Scope)
  | logged (record : LogRecord)
deriving DecidableEq, Repr

abbrev Journal := Array Event

namespace Journal

def logRecords (journal : Journal) : List LogRecord :=
  journal.toList.filterMap fun
    | .logged record => some record
    | .bound _ _ => none

def bindings (journal : Journal) : List (Path × Scope) :=
  journal.toList.filterMap fun
    | .bound path scope => some (path, scope)
    | .logged _ => none

@[simp] theorem bindings_push_bound (journal : Journal) (path : Path) (scope : Scope) :
    bindings (journal.push (.bound path scope)) = bindings journal ++ [(path, scope)] := by
  simp [bindings]

@[simp] theorem bindings_push_logged (journal : Journal) (record : LogRecord) :
    bindings (journal.push (.logged record)) = bindings journal := by
  simp [bindings]

end Journal

end RenderCompiler
