import Bearer.Config.Basic
import Bearer.EnvFile
import Bearer.Settings.Variable

namespace Bearer

namespace Config

/-! ## The configuration file -/

def directoriesUp (place : Location) : List Location :=
  (List.range (place.length + 1)).map fun steps => place.take (place.length - steps)

def fileAt? (disk : FileSystem) (way : List String) : Option Location :=
  (disk.walk [] way).toOption.filter fun place => (disk.read place).isOk

/-- The ways from the root that a path may stand for. A relative one is looked for in the working
directory and then in those above it. -/
def waysOf (disk : FileSystem) (path : String) : List (List String) :=
  if FileSystem.isAbsolute path then [FileSystem.names path]
  else (directoriesUp disk.workDir).map (· ++ FileSystem.names path)

def sharedDepth : List String → List String → Nat
  | name :: names, other :: others => if name = other then sharedDepth names others + 1 else 0
  | _, _ => 0

def displayWay (disk : FileSystem) (way : List String) : String :=
  let way := way.filter fun name => name != "" && name != "."
  let shared := sharedDepth disk.workDir way
  let relative := List.replicate (disk.workDir.length - shared) ".." ++ way.drop shared
  if relative.length < way.length + 1 then "/".intercalate relative
  else "/" ++ "/".intercalate way

def findFile? (disk : FileSystem) (path : String) : Option (Settings.Source × Location) :=
  (waysOf disk path).findSome? fun way =>
    (fileAt? disk way).map fun place => (.file (displayWay disk way), place)

def loadFile (disk : FileSystem) (path : String) : Except ConfigFault Settings.Tree := do
  if (disk.resolve? path).isNone then throw (.fileMissing path)
  match findFile? disk path with
  | none => return .table .environment []
  | some (source, place) =>
      match disk.readText place with
      | .ok text => (Settings.Tree.ofYaml source text).mapError (.document · source)
      | .error _ => throw (.fileNotUtf8 source)

/-! ## Files of variables -/

def loadEnvFile (host : Host) (path : String) : Host :=
  let found := host.disk.resolve? (host.expandHome path)
  match found.bind fun place => (host.disk.read place).toOption with
  | some content => { host with environment := EnvFile.load host.environment content }
  | none => host

def loadEnvFiles (host : Host) (paths : List String) : Host := paths.foldl loadEnvFile host

/-! ## All together -/

def settings (path : Option String) (host : Host) : Except ConfigFault Settings.Tree := do
  let base ← match path with
    | some path => loadFile host.disk path
    | none => pure (.table .environment [])
  return base.merge (.ofVariables host.environment)

def load (path : Option String) (host : Host) : Except ConfigFault (Config × Host) := do
  let config ← (reader [] (← settings path host)).mapError .setting
  return (config, loadEnvFiles host config.envFiles)

end Config

end Bearer
