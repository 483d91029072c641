import Bearer.CommandLine.Run
import Std.Time.DateTime.Timestamp

namespace Bearer

/-! ## What the process finds -/

def readVariables : IO Variables := do
  let listed ← IO.FS.readBinFile "/proc/self/environ"
  let entries := listed.toList.splitOn 0
  return entries.filterMap fun entry =>
    match entry.span (· != 61) with
    | (name, _ :: value) => do return (← Utf8.decode? name, ← Utf8.decode? value)
    | (_, []) => none

def readClock : IO Instant := do
  let now ← Std.Time.Timestamp.now
  let nanos := now.toNanosecondsSinceUnixEpoch.val
  match Instant.ofNanos? nanos with
  | some instant => return instant
  | none => throw (IO.userError "the clock is beyond the calendar")

def readEntropy : IO Entropy := do
  try
    let bytes ← IO.getRandomBytes (USize.ofNat Entropy.size)
    return (Entropy.ofBytes? bytes.toList).getD (.refused "too few bytes")
  catch error => return .refused error.toString

/-! ## Files -/

def pathOf (place : Location) : String := "/" ++ "/".intercalate place

def copyFile (disk : FileSystem) (place : Location) : IO FileSystem := do
  try
    let content ← IO.FS.readBinFile (pathOf place)
    return disk.plant place (.file content.toList FileSystem.defaultMode)
  catch _ => return disk

def copyPlace (disk : FileSystem) (place : Location) : IO FileSystem := do
  try
    let directory ← IO.FS.realPath (pathOf place)
    let entries ← directory.readDir
    let copied := disk.plant place .directory
    entries.foldlM (fun disk entry => copyFile disk (place ++ [entry.fileName])) copied
  catch _ => copyFile disk place

def copyNode (disk : FileSystem) (place : Location) : IO FileSystem := do
  try
    let found ← IO.FS.realPath (pathOf place)
    if ← found.isDir then return disk.plant place .directory
    else copyFile disk place
  catch _ => return disk

def copyWay (host : Host) (way : List String) : IO Host := do
  let disk ← (FileSystem.trail [] way).foldlM copyNode host.disk
  return { host with disk := ← copyPlace disk (FileSystem.follow [] way) }

def copyNeeded (host : Host) (words : List String) : IO Host := do
  match CommandLine.parse host.environment words with
  | .error _ => return host
  | .ok arguments =>
      let copy (host : Host) (path : String) : IO Host :=
        copyWay host (host.disk.origin path ++ FileSystem.names path)
      let ways := arguments.config.toList.flatMap (Config.waysOf host.disk)
      let host ← ways.foldlM copyWay host
      match Config.load arguments.config host with
      | .error _ => return host
      | .ok (config, _) =>
          let host ← (config.envFiles.map host.expandHome).foldlM copy host
          match config.keyStore.resolvePath host with
          | .error _ => return host
          | .ok base =>
              let paths := base :: [KeyClass.signing, KeyClass.encryption].map fun keyClass =>
                FileSystem.join base keyClass.name
              paths.foldlM copy host

def writeNode (place : Location) : Node → IO Unit
  | .directory => IO.FS.createDirAll (pathOf place)
  | .file content mode => do
      let draft := pathOf place ++ ".tmp"
      IO.FS.writeBinFile draft ⟨content.toArray⟩
      if mode = FileSystem.ownerOnly then
        IO.setAccessRights draft ⟨⟨true, true, false⟩, ⟨false, false, false⟩, ⟨false, false, false⟩⟩
      IO.FS.rename draft (pathOf place)

def writeChanges (before after : FileSystem) : IO Unit := do
  for (place, node) in after.nodes do
    if before.node? place != some node then writeNode place node
  for (place, _) in before.nodes do
    if !after.pathExists place then IO.FS.removeFile (pathOf place)

def runProcess (words : List String) : IO UInt32 := do
  let directory ← IO.currentDir
  let workDir := FileSystem.follow [] (FileSystem.names directory.toString)
  let host ← copyNeeded ⟨.atWorkDir workDir, ← readVariables⟩ words
  let around := ⟨host, ← readClock, ← readEntropy⟩
  let (outcome, after) := CommandLine.run words around
  writeChanges host.disk after
  for notice in outcome.notices do IO.eprintln notice
  IO.print outcome.output
  return UInt32.ofNat outcome.exit

end Bearer

def main (words : List String) : IO UInt32 := Bearer.runProcess words
