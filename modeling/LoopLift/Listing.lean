import LoopLift.Analysis.Scan
import LoopLift.Json.Basic
import LoopLift.Report.Table
import LoopLift.Text.Kilobytes

/-!
# Listing of files

The files that a scan would take, with their lines and sizes.
-/

namespace LoopLift

/-- One file of a listing. -/
structure ListedFile where
  /-- The path as it is shown. -/
  file : String
  lines : Nat
  bytes : Nat
  deriving Repr, DecidableEq

namespace Listing

/-- The entry of a file. A file that is no text has no lines. -/
def entry (files : FileSystem) (path : Path) : ListedFile where
  file := path.shown
  lines :=
    match files.readText path with
    | .ok text => Text.countLines text.toList
    | .error _ => 0
  bytes := files.size path

/-- The files that a scan of paths would take. -/
def ofPaths (files : FileSystem) (selection : Selection) (paths : List Path) :
    List ListedFile × List ScanNote :=
  let gathering := Scan.gather files selection paths
  (gathering.files.map (entry files), gathering.notes)

/-- A listing for programs. -/
def json (entries : List ListedFile) : String :=
  let value (entry : ListedFile) := Json.record
    [("file", Json.text entry.file), ("lines", Json.count entry.lines),
     ("size_kb", .number (Text.exactKilobytes entry.bytes))]
  (Json.array (entries.map value)).pretty 0 ++ "\n"

/-- A listing for readers. -/
def table (entries : List ListedFile) : String :=
  let rows := entries.map fun entry =>
    [entry.file, toString entry.lines, Text.roundedKilobytes entry.bytes]
  Table.render ⟨["File", "Lines", "Size (KB)"], rows⟩ .plain ++ "\n" ++
    s!"{entries.length} file(s)\n"

end Listing

end LoopLift
