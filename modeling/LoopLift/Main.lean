import LoopLift.CommandLine.Run
import LoopLift.Php.Parser

/-!
# The program

Reads the part of the file system that a command line is about, carries the
command line out on that value, and writes back the files that changed.
-/

namespace LoopLift.Main

open CommandLine

/-- Names in the directories above a project that can matter to it. -/
def sharedNames : List String :=
  [Config.fileName, Config.manifestName, ".ignore", ".gitignore", ".git", ".jj"]

/-- A path in place of one that leads nowhere. -/
def nowhere : Path := ⟨"\x00"⟩

/-- The names of an absolute path. -/
def locationOf (path : String) : Location :=
  (Path.segments ⟨path⟩).filter (· != "")

/-- The paths that a command line is about. -/
def targetsOf (words : List String) : List Path :=
  match read words with
  | .run invocation =>
      match invocation.command with
      | some (.files arguments) => arguments.targets.given
      | some .init => [⟨"."⟩]
      | none => invocation.targets.given
  | _ => []

mutual

/-- Read an entry of a directory with all that is below it. Targets of links are
noted. -/
partial def loadEntry (links : IO.Ref (List String)) (entry : IO.FS.DirEntry) : IO Entry := do
  match (← entry.path.symlinkMetadata).type with
  | .dir => return .directory (← loadEntries links (← entry.path.readDir))
  | .file => return .file (← IO.FS.readBinFile entry.path)
  | .symlink =>
      if ← entry.path.pathExists then
        let target := (← IO.FS.realPath entry.path).toString
        links.modify (target :: ·)
        return .link ⟨target⟩
      else
        return .link nowhere
  | .other => return .file ByteArray.empty

/-- Read the entries of a directory. -/
partial def loadEntries (links : IO.Ref (List String)) (entries : Array IO.FS.DirEntry) :
    IO (List (String × Entry)) :=
  entries.toList.mapM fun entry => return (entry.fileName, ← loadEntry links entry)

end

/-- Read what matters of the directories above a location. -/
def loadAbove (links : IO.Ref (List String)) (location : Location) (root : Entry) : IO Entry := do
  let mut root := root
  for length in List.range location.length do
    let above := location.take length
    let directory ← IO.FS.realPath (Location.path above).text
    for entry in ← directory.readDir do
      if sharedNames.contains entry.fileName then
        root := root.put (above ++ [entry.fileName]) (← loadEntry links entry)
  return root

/-- Read what a path denotes, and the links that lead there. -/
def loadPath (links : IO.Ref (List String)) (working : Location) (root : Entry) (path : Path) :
    IO Entry := do
  let full := ((Location.path working).join path).text
  let mut root := root
  let names := locationOf full
  for length in List.range names.length do
    let parent ← try IO.FS.realPath (Location.path (names.take length)).text
      catch _ => return root
    for entry in ← (try parent.readDir catch _ => pure #[]) do
      if some entry.fileName == names[length]? then
        if (← entry.path.symlinkMetadata).type == .symlink then
          root := root.put (locationOf entry.path.toString) (← loadEntry links entry)
  let resolved ← try IO.FS.realPath full catch _ => return root
  if !(← resolved.pathExists) then return root
  let location := locationOf resolved.toString
  root ← loadAbove links location root
  if ← resolved.isDir then
    return root.put location (.directory (← loadEntries links (← resolved.readDir)))
  else
    return root.put location (.file (← IO.FS.readBinFile resolved))

/-- Read the part of the file system that a list of paths is about. -/
def load (paths : List Path) : IO FileSystem := do
  let links ← IO.mkRef []
  let working := locationOf (← IO.FS.realPath (← IO.currentDir)).toString
  let mut root := (Entry.directory []).put working (.directory [])
  for path in paths do
    root ← loadPath links working root path
  for target in ← links.get do
    let resolved ← IO.FS.realPath target
    if !(← resolved.isDir) then
      root := root.put (locationOf target) (.file (← IO.FS.readBinFile resolved))
  return { root, workingDirectory := working }

/-- Write back the files that differ from what was read. -/
def store (before after : FileSystem) : IO Unit := do
  for (location, content) in after.root.files [] do
    let unchanged := match before.root.at? location with
      | some (.file old) => old == content
      | _ => false
    if !unchanged then
      IO.FS.writeBinFile (Location.path location).text content

/-- Carry out a command line. -/
def run (words : List String) : IO UInt32 := do
  let output ← IO.getStdout
  let diagnostics ← IO.getStderr
  let files ← load (targetsOf words)
  let setting : Setting :=
    { parse := Php.parse, colors := ← output.isTty, threads := "1", seconds := "0.00" }
  let (run, ending) := CommandLine.run setting files words
  output.putStr run.output
  diagnostics.putStr run.diagnostics
  store files run.files
  match ending with
  | .exit code => return UInt32.ofNat code
  | .failure message =>
      diagnostics.putStrLn ("Error: " ++ message)
      return 1

end LoopLift.Main

/-- The program. -/
def main (words : List String) : IO UInt32 :=
  LoopLift.Main.run words
