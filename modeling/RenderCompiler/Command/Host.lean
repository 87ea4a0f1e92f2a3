import RenderCompiler.Text.Parts

set_option autoImplicit false

namespace RenderCompiler

inductive SystemError where
  | notFound
  | notDirectory
  | isDirectory
  | permissionDenied
  | nameTooLong
  | noSpace
  | notText
  | other (message : String)
deriving DecidableEq, Repr

def SystemError.message : SystemError → String
  | .notFound => "No such file or directory (os error 2)"
  | .notDirectory => "Not a directory (os error 20)"
  | .isDirectory => "Is a directory (os error 21)"
  | .permissionDenied => "Permission denied (os error 13)"
  | .nameTooLong => "File name too long (os error 36)"
  | .noSpace => "No space left on device (os error 28)"
  | .notText => "stream did not contain valid UTF-8"
  | .other message => message

structure Host (m : Type → Type) where
  isPresent : String → m Bool
  read : String → m (Except SystemError String)
  write : String → String → m (Except SystemError Unit)
  print : String → m Unit
  printError : String → m Unit

inductive Device where
  | sink
  | output
  | errors
  | full
deriving DecidableEq, Repr

def Device.ofName? : String → Option Device
  | "null" => some .sink
  | "zero" => some .sink
  | "stdin" => some .sink
  | "stdout" => some .output
  | "stderr" => some .errors
  | "full" => some .full
  | _ => none

-- Files by the names on their way. A way from the root starts with a slash of its own, and a way
-- that leaves the working directory starts with double points.
structure Directory where
  files : List (List String × String) := []
deriving DecidableEq, Repr

namespace Directory

inductive FileNode where
  | text (content : String)
  | device (device : Device)
deriving DecidableEq, Repr

inductive Target where
  | file (names : List String) (node : FileNode) (demandsDirectory : Bool)
  | directory
  | missing (names : List String) (demandsDirectory : Bool)
  | failed (error : SystemError)
deriving DecidableEq, Repr

def nameLimit : Nat := 255

def pathLimit : Nat := 4095

def rootNames : List String :=
  ["bin", "dev", "etc", "home", "lib", "opt", "proc", "root", "run", "sbin", "sys", "tmp", "usr",
    "var"]

def node? (directory : Directory) (names : List String) : Option FileNode :=
  match names with
  | ["/", "dev", name] => (Device.ofName? name).map .device
  | names => (directory.files.lookup names).map .text

def isDirectory (directory : Directory) (names : List String) : Bool :=
  match names with
  | ["/"] => true
  | ["/", name] => rootNames.contains name
  | names =>
    names.all (· == "..") ||
      directory.files.any fun (path, _) => names.isPrefixOf path && path != names

def parent (names : List String) : List String :=
  match names.getLast? with
  | none => [".."]
  | some ".." => names ++ [".."]
  | some "/" => names
  | some _ => names.dropLast

def follow (directory : Directory) : List String → List String → Target
  | names, [] => if directory.isDirectory names then .directory else .failed .notFound
  | names, part :: rest =>
    if part == "" || part == "." then follow directory names rest
    else if part == ".." then follow directory (parent names) rest
    else if nameLimit < part.utf8ByteSize then .failed .nameTooLong
    else
      let next := names ++ [part]
      let isLast := rest.all (· == "")
      if directory.isDirectory next then follow directory next rest
      else match directory.node? next with
        | some node =>
          if isLast then .file next node (!rest.isEmpty) else .failed .notDirectory
        | none => if isLast then .missing next (!rest.isEmpty) else .failed .notFound

def target (directory : Directory) (path : String) : Target :=
  if path.isEmpty then .failed .notFound
  else if pathLimit < path.utf8ByteSize then .failed .nameTooLong
  else match stringParts '/' path with
    | "" :: rest => directory.follow ["/"] rest
    | parts => directory.follow [] parts

def put (names : List String) (content : String) (directory : Directory) : Directory :=
  if (directory.files.lookup names).isSome then
    ⟨directory.files.map fun entry => if entry.1 == names then (names, content) else entry⟩
  else ⟨directory.files ++ [(names, content)]⟩

def isPresent (directory : Directory) (path : String) : Bool :=
  match directory.target path with
  | .file _ _ demandsDirectory => !demandsDirectory
  | .directory => true
  | .missing _ _ => false
  | .failed _ => false

def read (directory : Directory) (path : String) : Except SystemError String :=
  match directory.target path with
  | .file _ _ true => .error .notDirectory
  | .file _ (.text content) false => .ok content
  | .file _ (.device _) false => .ok ""
  | .directory => .error .isDirectory
  | .missing _ _ => .error .notFound
  | .failed error => .error error

def ofFiles (files : List (String × String)) : Directory :=
  ⟨files.map fun (path, content) => ((stringParts '/' path).filter (!·.isEmpty), content)⟩

end Directory

structure MemorySystem where
  directory : Directory
  output : String := ""
  errors : String := ""
deriving DecidableEq, Repr

namespace MemorySystem

def print (text : String) (system : MemorySystem) : MemorySystem :=
  { system with output := system.output ++ text }

def printError (text : String) (system : MemorySystem) : MemorySystem :=
  { system with errors := system.errors ++ text }

def write (path content : String) (system : MemorySystem) : Except SystemError MemorySystem :=
  let put (names : List String) : MemorySystem :=
    { system with directory := system.directory.put names content }
  match system.directory.target path with
  | .file _ _ true => .error .isDirectory
  | .file names (.text _) false => .ok (put names)
  | .file _ (.device .sink) false => .ok system
  | .file _ (.device .output) false => .ok (system.print content)
  | .file _ (.device .errors) false => .ok (system.printError content)
  | .file _ (.device .full) false => if content.isEmpty then .ok system else .error .noSpace
  | .directory => .error .isDirectory
  | .missing names false => .ok (put names)
  | .missing _ true => .error .isDirectory
  | .failed error => .error error

def host : Host (StateM MemorySystem) where
  isPresent := fun path => return (← get).directory.isPresent path
  read := fun path => return (← get).directory.read path
  write := fun path content => do
    match (← get).write path content with
    | .ok system =>
      set system
      return .ok ()
    | .error error => return .error error
  print := fun text => modify (·.print text)
  printError := fun text => modify (·.printError text)

end MemorySystem

end RenderCompiler
