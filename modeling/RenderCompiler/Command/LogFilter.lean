import RenderCompiler.Journal
import RenderCompiler.Pattern.Meaning

set_option autoImplicit false

namespace RenderCompiler

structure LogDirective where
  target : Option String
  rank : Nat
deriving DecidableEq, Repr

structure LogFilter where
  directives : List LogDirective
  pattern : Option Pattern := none
  faults : List String := []
deriving DecidableEq, Repr

namespace LogDirective

def traceRank : Nat := Severity.trace.rank

def rankOf? (name : List Char) : Option Nat :=
  match String.ofList (name.map Char.toLower) with
  | "off" => some 0
  | "error" => some Severity.error.rank
  | "warn" => some Severity.warn.rank
  | "info" => some Severity.info.rank
  | "debug" => some Severity.debug.rank
  | "trace" => some Severity.trace.rank
  | _ => none

def ofText (text : List Char) : Except (List Char) LogDirective :=
  match partsOf '=' text with
  | [part] =>
    match rankOf? part with
    | some rank => .ok ⟨none, rank⟩
    | none => .ok ⟨some (String.ofList part), traceRank⟩
  | [target, severity] =>
    let severity := trimBlanks severity
    let target := some (String.ofList target)
    if severity.isEmpty then .ok ⟨target, traceRank⟩
    else match rankOf? severity with
      | some rank => .ok ⟨target, rank⟩
      | none => .error severity
  | _ => .error text

def targetSize (directive : LogDirective) : Nat := (directive.target.getD "").utf8ByteSize

def insert (directive : LogDirective) : List LogDirective → List LogDirective
  | [] => [directive]
  | d :: rest =>
    if d.target == directive.target then directive :: rest else d :: insert directive rest

def covers (directive : LogDirective) (target : String) : Bool :=
  match directive.target with
  | none => true
  | some name => name.toList.isPrefixOf target.toList

end LogDirective

namespace LogFilter

def standard : LogFilter := { directives := [⟨none, Severity.error.rank⟩] }

private def faultOf (text : List Char) (remark : String) : String :=
  "invalid logging spec '" ++ String.ofList text ++ "'" ++ remark

private def ofDirectives (text : List Char) : LogFilter :=
  let parts := ((partsOf ',' text).map trimBlanks).filter (!·.isEmpty)
  let readings := parts.map LogDirective.ofText
  let directives := (readings.filterMap Except.toOption).foldl
    (fun directives directive => directive.insert directives) []
  let faults := readings.filterMap fun
    | .error text => some (faultOf text "")
    | .ok _ => none
  if directives.isEmpty then { standard with faults }
  else { directives := directives.mergeSort fun a b => a.targetSize ≤ b.targetSize, faults }

-- A filter from its text. Directives and patterns that make no sense are left out and told as
-- faults.
def ofText (text : String) : LogFilter :=
  match partsOf '/' text.toList with
  | [directives] => ofDirectives directives
  | [directives, pattern] =>
    let filter := ofDirectives directives
    match Pattern.ofText pattern with
    | .ok pattern => { filter with pattern }
    | .error error =>
      { filter with faults := filter.faults ++ ["invalid regex filter - " ++ error.message] }
  | _ => { standard with faults := [faultOf text.toList " (too many '/'s)"] }

def warnings (filter : LogFilter) : List Char :=
  filter.faults.flatMap fun fault => ("warning: " ++ fault ++ ", ignoring it\n").toList

def shows (filter : LogFilter) (record : LogRecord) : Bool :=
  -- Longer names stand later and are asked first.
  match filter.directives.reverse.find? (·.covers record.source.target) with
  | none => false
  | some directive =>
    record.severity.rank ≤ directive.rank && filter.pattern.all (·.isIn record.message)

end LogFilter

end RenderCompiler
