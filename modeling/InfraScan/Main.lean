import InfraScan.Command.Reach
import InfraScan.Report.Instant
import Std.Time.DateTime.Timestamp

/-!
# The program

Looks up on the real disk what a command line can ask about, runs it, and prints the outcome.
-/

namespace InfraScan.Main

/-- How deep folders are looked into. -/
def maxFolders : Nat := 64

/-- What stands at the end of a list of names: a file with its text, or a folder without its
entries. -/
def lookUp (names : List String) : IO (Option FileTree) := do
  try
    let path ← IO.FS.realPath ("/" ++ "/".intercalate names)
    if ← path.isDir then return some .empty
    return some (.file (String.fromUTF8? (← IO.FS.readBinFile path)))
  catch _ => return none

/-- What stands at the end of a list of names, with all that is below it.  Only manifest files
are read. -/
def lookUpAll : (depth : Nat) → List String → IO (Option FileTree)
  | 0, _ => return none
  | depth + 1, names => do
    try
      let path ← IO.FS.realPath ("/" ++ "/".intercalate names)
      if ← path.isDir then
        let mut entries : List (String × FileTree) := []
        for entry in ← path.readDir do
          if let some tree ← lookUpAll depth (names ++ [entry.fileName]) then
            entries := (entry.fileName, tree) :: entries
        return some (.folder entries)
      else if path.extension.any Disk.manifestExtensions.contains then
        return some (.file (String.fromUTF8? (← IO.FS.readBinFile path)))
      else return some (.file none)
    catch _ => return none

/-- The disk with what stands on the way to a path, and at its end. -/
def reach (disk : Disk) (path : String) : IO Disk := do
  let names := disk.namesTo path
  let mut root := disk.root
  for length in List.range (names.length + 1) do
    let way := names.take length
    if let .error _ := (Disk.mk root []).find ("/" ++ "/".intercalate way) then
      if let some tree ← lookUp way then root := root.put way tree
  return { disk with root }

/-- The disk with everything below a path. -/
def reachAll (disk : Disk) (path : String) : IO Disk := do
  let disk ← reach disk path
  if !disk.isFolder path then return disk
  match ← lookUpAll maxFolders (disk.namesTo path) with
  | some tree => return disk.put path tree
  | none => return disk

/-- The disk as far as an invocation can ask about it. -/
def diskFor (invocation : Command.Invocation) : IO Disk := do
  let here := (← IO.FS.realPath ".").toString
  let bare : Disk := ⟨.empty, []⟩
  let mut disk : Disk ← reach { bare with here := bare.namesTo here } "."
  for path in Command.Reach.files invocation do
    disk ← reach disk path
  for path in Command.Reach.sources disk.readText invocation do
    disk ← reach disk path
  if let some folder := Command.Reach.folder? invocation then
    disk ← reachAll disk folder
  return disk

/-- The names of the variables that matter. -/
def variableNames : List String :=
  [Settings.apartVariable, Settings.frameworkVariable, "NO_COLOR", "CLICOLOR",
    "CLICOLOR_FORCE"]

/-- The variables that are set. -/
def environment : IO (List (String × String)) :=
  variableNames.filterMapM fun name => do
    return (← IO.getEnv name).map (name, ·)

/-- Run a command line and print the outcome. -/
def run (words : List String) : IO Nat := do
  let disk ← match Command.Invocation.ofWords words with
    | .ok invocation => diskFor invocation
    | .error _ => pure ⟨.empty, []⟩
  let set ← environment
  let moment ← Std.Time.Timestamp.now
  let time := Report.instantText moment.toNanosecondsSinceUnixEpoch.val.toNat
  let output ← IO.getStdout
  let outcome := Command.run
    ⟨disk, fun name => OrderedMap.look name set, ← output.isTty, time⟩ words
  for line in outcome.messages do
    IO.eprintln line
  for line in outcome.output do
    IO.println line
  return outcome.status

end InfraScan.Main

/-- The program. -/
def main (words : List String) : IO UInt32 := do
  return (← InfraScan.Main.run words).toUInt32
