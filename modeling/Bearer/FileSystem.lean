import Bearer.Error
import Bearer.Text.Utf8

namespace Bearer

inductive Node where
  | file (content : Bytes) (mode : Nat)
  | directory
  deriving DecidableEq

abbrev Location := List String

structure FileSystem where
  nodes : List (Location × Node)
  workDir : Location
  deriving DecidableEq

namespace FileSystem

def defaultMode : Nat := 0o644

def ownerOnly : Nat := 0o600

def empty : FileSystem := ⟨[], []⟩

/-! ## Paths -/

def follow (start : Location) : List String → Location
  | [] => start
  | name :: names =>
      if name = "" ∨ name = "." then follow start names
      else if name = ".." then follow start.dropLast names
      else follow (start ++ [name]) names

def trail (start : Location) : List String → List Location
  | [] => [start]
  | name :: names => start :: trail (follow start [name]) names

def names (path : String) : List String := (path.toList.splitOn '/').map String.ofList

def isAbsolute (path : String) : Bool := path.toList.head? == some '/'

def origin (fs : FileSystem) (path : String) : Location :=
  if isAbsolute path then [] else fs.workDir

def locate (fs : FileSystem) (path : String) : Location := follow (fs.origin path) (names path)

def maxName : Nat := 255

def maxPath : Nat := 4095

def checkPath (path : String) : Except FileError Unit :=
  if path.toList.contains '\x00' then .error .nulInName
  else if maxPath < path.utf8ByteSize then .error .nameTooLong
  else .ok ()

def join (path name : String) : String :=
  if isAbsolute name ∨ path = "" then name
  else if path.toList.getLast? = some '/' then path ++ name
  else path ++ "/" ++ name

def extension? (name : String) : Option (List Char) :=
  match name.toList.reverse.span (· != '.') with
  | (_, []) => none
  | (_, [_]) => none
  | (behind, _ :: _) => some behind.reverse

/-! ## Reading -/

def node? (fs : FileSystem) (place : Location) : Option Node :=
  if place = [] then some .directory else fs.nodes.lookup place

def pathExists (fs : FileSystem) (place : Location) : Bool := (fs.node? place).isSome

def isDirectory (fs : FileSystem) (place : Location) : Bool :=
  fs.node? place == some .directory

def reach (fs : FileSystem) (start : Location) : List String → Except FileError Unit
  | [] => .ok ()
  | name :: names =>
      match fs.node? (start ++ [name]) with
      | none => .error .notFound
      | some (.file _ _) => .error .notDirectory
      | some .directory => reach fs (start ++ [name]) names

def find (fs : FileSystem) (place : Location) : Except FileError Node := do
  fs.reach [] place.dropLast
  match fs.node? place with
  | some node => return node
  | none => throw .notFound

def read (fs : FileSystem) (place : Location) : Except FileError Bytes := do
  match ← fs.find place with
  | .file content _ => return content
  | .directory => throw .isDirectory

def readText (fs : FileSystem) (place : Location) : Except FileError String := do
  match Utf8.decode? (← fs.read place) with
  | some text => return text
  | none => throw .notUtf8

/-- Where names lead. Each of them, a dot or an empty one too, has to follow a directory; what they
lead to need not be there. -/
def walk (fs : FileSystem) (start : Location) : List String → Except FileError Location
  | [] => .ok start
  | name :: names =>
      match fs.node? start with
      | none => .error .notFound
      | some (.file _ _) => .error .notDirectory
      | some .directory =>
          if maxName < name.utf8ByteSize then .error .nameTooLong
          else fs.walk (follow start [name]) names

def resolve? (fs : FileSystem) (path : String) : Option Location := do
  (checkPath path).toOption
  let place ← (fs.walk (fs.origin path) (names path)).toOption
  guard (fs.pathExists place)
  return place

def list (fs : FileSystem) (place : Location) : Except FileError (List String) := do
  match ← fs.find place with
  | .directory =>
      return fs.nodes.filterMap fun (other, _) =>
        if other.dropLast = place then other.getLast? else none
  | .file _ _ => throw .notDirectory

/-! ## Writing -/

def put (fs : FileSystem) (place : Location) (node : Node) : FileSystem :=
  { fs with nodes := fs.nodes.filter (·.1 != place) ++ [(place, node)] }

def drop (fs : FileSystem) (place : Location) : FileSystem :=
  { fs with nodes := fs.nodes.filter (·.1 != place) }

def dropTree (fs : FileSystem) (place : Location) : FileSystem :=
  { fs with nodes := fs.nodes.filter fun (other, _) => other.take place.length != place }

inductive Step where
  | write (place : Location) (content : Bytes)
  | setMode (place : Location) (mode : Nat)
  | rename (source target : Location)
  | remove (place : Location)

def step (fs : FileSystem) : Step → Except FileError FileSystem
  | .write place content => do
      fs.reach [] place.dropLast
      match fs.node? place with
      | some .directory => throw .isDirectory
      | some (.file _ mode) => return fs.put place (.file content mode)
      | none => return fs.put place (.file content defaultMode)
  | .setMode place mode => do
      match ← fs.find place with
      | .file content _ => return fs.put place (.file content mode)
      | .directory => return fs
  | .rename source target => do
      let node ← fs.find source
      fs.reach [] target.dropLast
      match fs.node? target with
      | some .directory => throw .isDirectory
      | _ => return (fs.drop source).put target node
  | .remove place => do
      match ← fs.find place with
      | .file _ _ => return fs.drop place
      | .directory => throw .isDirectory

/-! ## Making directories -/

def ensureDirectory (fs : FileSystem) (start : Location) (names : List String) :
    Except FileError FileSystem := do
  let place ← fs.walk start names
  match fs.node? place with
  | some .directory => return fs
  | some (.file _ _) => throw .exists
  | none => return fs.put place .directory

/-- Makes the directory that names, the last one first, lead to. Where a directory on the way is
missing, it is made first; those made before a failure stay. -/
def ensureWay (fs : FileSystem) (start : Location) :
    List String → Except FileError Unit × FileSystem
  | [] => (.ok (), fs)
  | name :: parents =>
      let names := (name :: parents).reverse
      match fs.ensureDirectory start names with
      | .ok fs => (.ok (), fs)
      | .error .notFound =>
          match fs.ensureWay start parents with
          | (.error fault, fs) => (.error fault, fs)
          | (.ok (), fs) =>
              match fs.ensureDirectory start names with
              | .ok fs => (.ok (), fs)
              | .error fault => (.error fault, fs)
      | .error fault => (.error fault, fs)

def makeDirectories (fs : FileSystem) (path : String) : Except FileError Unit × FileSystem :=
  match checkPath path with
  | .error fault => (.error fault, fs)
  | .ok () =>
      let steps := (names path).filter fun name => name != "" && name != "."
      fs.ensureWay (fs.origin path) steps.reverse

def plant (fs : FileSystem) (place : Location) (node : Node) : FileSystem :=
  ((fs.ensureWay [] place.dropLast.reverse).2).put place node

def atWorkDir (place : Location) : FileSystem :=
  { (empty.ensureWay [] place.reverse).2 with workDir := place }

end FileSystem

end Bearer
