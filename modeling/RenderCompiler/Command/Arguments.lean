import RenderCompiler.Command.Rendering

set_option autoImplicit false

namespace RenderCompiler

inductive ColorMode where
  | auto
  | always
  | never
deriving DecidableEq, Repr

structure CompileArguments where
  input : String
  output : Option String
  configuration : String
  emission : Emission
deriving DecidableEq, Repr

inductive Command where
  | compile (arguments : CompileArguments)
  | configuration (path : String)
deriving DecidableEq, Repr

inductive Invocation where
  | run (color : ColorMode) (command : Command)
  | help
  | version
  | usageError
deriving DecidableEq, Repr

inductive OptionName where
  | color
  | output
  | configuration
  | emission
deriving DecidableEq, Repr

namespace OptionName

def long : OptionName → String
  | .color => "color"
  | .output => "output"
  | .configuration => "config"
  | .emission => "emit"

def short? : OptionName → Option Char
  | .output => some 'o'
  | .configuration => some 'c'
  | _ => none

end OptionName

def ColorMode.ofName? : String → Option ColorMode
  | "auto" => some .auto
  | "always" => some .always
  | "never" => some .never
  | _ => none

def Emission.ofName? : String → Option Emission
  | "js" => some .source
  | "ast" => some .tree
  | _ => none

def OptionName.accepts (value : String) : OptionName → Bool
  | .color => (ColorMode.ofName? value).isSome
  | .emission => (Emission.ofName? value).isSome
  | .output => !value.isEmpty
  | .configuration => !value.isEmpty

structure ArgumentRules where
  options : List OptionName
  hasVersion : Bool
  positionals : Nat

structure GivenArguments where
  options : List (OptionName × String) := []
  positionals : List String := []

namespace GivenArguments

def value? (given : GivenArguments) (name : OptionName) : Option String :=
  given.options.lookup name

def addOption (name : OptionName) (value : String) (given : GivenArguments) :
    Option GivenArguments :=
  if (given.value? name).isSome || !name.accepts value then none
  else some { given with options := given.options ++ [(name, value)] }

def addPositional (rules : ArgumentRules) (value : String) (given : GivenArguments) :
    Option GivenArguments :=
  if given.positionals.length < rules.positionals && !value.isEmpty then
    some { given with positionals := given.positionals ++ [value] }
  else none

def addPositionals (rules : ArgumentRules) : List String → GivenArguments → Option GivenArguments
  | [], given => some given
  | value :: rest, given => do addPositionals rules rest (← given.addPositional rules value)

end GivenArguments

inductive ArgumentShape where
  | long (name : List Char) (value : Option (List Char))
  | short (chars : List Char)
  | ending
  | plain
deriving DecidableEq, Repr

def ArgumentShape.of (argument : String) : ArgumentShape :=
  match argument.toList with
  | ['-', '-'] => .ending
  | '-' :: '-' :: rest =>
    .long (rest.takeWhile (· != '='))
      (match rest.dropWhile (· != '=') with
        | '=' :: value => some value
        | _ => none)
  | '-' :: c :: rest => .short (c :: rest)
  | _ => .plain

inductive FlagReading where
  | option (name : OptionName) (value : Option String)
  | help
  | version
  | unknown

namespace ArgumentRules

def readLong (rules : ArgumentRules) (name : List Char) (value : Option (List Char)) :
    FlagReading :=
  let name := String.ofList name
  match rules.options.find? (·.long == name) with
  | some option => .option option (value.map String.ofList)
  | none =>
    if value.isSome then .unknown
    else if name == "help" then .help
    else if name == "version" && rules.hasVersion then .version
    else .unknown

-- The first letter decides. A value may follow it at once, with or without an equals sign.
def readShort (rules : ArgumentRules) : List Char → FlagReading
  | [] => .unknown
  | c :: rest =>
    match rules.options.find? (·.short? == some c) with
    | some option =>
      .option option
        (match rest with
          | [] => none
          | '=' :: value => some (String.ofList value)
          | value => some (String.ofList value))
    | none =>
      if c == 'h' then .help
      else if c == 'V' && rules.hasVersion then .version
      else .unknown

end ArgumentRules

inductive ArgumentReading where
  | given (arguments : GivenArguments) (rest : List String)
  | help
  | version
  | usageError

def ArgumentRules.read (rules : ArgumentRules) :
    GivenArguments → List String → ArgumentReading
  | given, [] => .given given []
  | given, argument :: rest =>
    let flag (reading : FlagReading) : ArgumentReading :=
      match reading with
      | .help => .help
      | .version => .version
      | .unknown => .usageError
      | .option name (some value) =>
        match given.addOption name value with
        | some given => rules.read given rest
        | none => .usageError
      | .option name none =>
        match rest with
        | [] => .usageError
        | value :: rest =>
          -- A value of its own may not look like an option.
          match ArgumentShape.of value, given.addOption name value with
          | .plain, some given => rules.read given rest
          | _, _ => .usageError
    match ArgumentShape.of argument with
    | .ending =>
      match given.addPositionals rules rest with
      | some given => .given given []
      | none => .usageError
    | .long name value => flag (rules.readLong name value)
    | .short chars => flag (rules.readShort chars)
    | .plain =>
      if rules.positionals = 0 then .given given (argument :: rest)
      else match given.addPositional rules argument with
        | some given => rules.read given rest
        | none => .usageError

def defaultConfigurationPath : String := "tmplc.toml"

def topRules : ArgumentRules := ⟨[.color], true, 0⟩

def compileRules : ArgumentRules := ⟨[.output, .configuration, .emission, .color], false, 1⟩

def configurationRules : ArgumentRules := ⟨[.configuration, .color], false, 0⟩

private def colorOf (top own : GivenArguments) : ColorMode :=
  (((own.value? .color).or (top.value? .color)).bind ColorMode.ofName?).getD .auto

private def configurationPathOf (given : GivenArguments) : String :=
  (given.value? .configuration).getD defaultConfigurationPath

private def compileCommand? (given : GivenArguments) : Option Command :=
  match given.positionals with
  | [input] =>
    some (.compile
      { input
        output := given.value? .output
        configuration := configurationPathOf given
        emission := ((given.value? .emission).bind Emission.ofName?).getD .source })
  | _ => none

private def readCommand (rules : ArgumentRules) (command? : GivenArguments → Option Command)
    (top : GivenArguments) (arguments : List String) : Invocation :=
  match rules.read {} arguments with
  | .help => .help
  | .version => .version
  | .usageError => .usageError
  | .given _ (_ :: _) => .usageError
  | .given own [] =>
    match command? own with
    | some command => .run (colorOf top own) command
    | none => .usageError

private def helpTopics : List String → Bool
  | [] => true
  | ["compile"] => true
  | ["config"] => true
  | ["help"] => true
  | _ => false

def Invocation.ofArguments (arguments : List String) : Invocation :=
  match topRules.read {} arguments with
  | .help => .help
  | .version => .version
  | .usageError => .usageError
  | .given _ [] => .usageError
  | .given top (command :: rest) =>
    match command with
    | "compile" => readCommand compileRules compileCommand? top rest
    | "config" =>
      readCommand configurationRules (fun own => some (.configuration (configurationPathOf own)))
        top rest
    | "help" => if helpTopics rest then .help else .usageError
    | _ => .usageError

end RenderCompiler
