import LoopLift.Analysis.Basic
import LoopLift.Scan.Walk

/-!
# Analysis of files and directories

Gathers the files that a list of paths stands for and analyzes each once.
-/

namespace LoopLift

open Syntax

/-- Something that a scan did, for those who want to follow it. -/
inductive ScanNote where
  | walkError (message : String)
  /-- A path that is neither a directory nor a file of a scanned kind. -/
  | skipped (path : Path)
  | analyzing (files directories : Nat)
  /-- A file with loops that can be rewritten. -/
  | fixable (file : Path) (problems loops : Nat)
  deriving Repr, DecidableEq

/-- A note as it is shown. -/
def ScanNote.text : ScanNote → String
  | .walkError message => "Walk error: " ++ message
  | .skipped path => "[VERBOSE] Skipping " ++ path.text
  | .analyzing files directories =>
      s!"[VERBOSE] Analyzing {files} files in {directories} directories"
  | .fixable file problems loops =>
      s!"[VERBOSE] {file.text}: {problems} of {loops} loops fixable"

/-- The files that were found for a list of paths. -/
structure Gathering where
  files : List Path := []
  directories : Nat := 0
  notes : List ScanNote := []

namespace Scan

/-- The files that one path stands for. -/
def gatherPath (files : FileSystem) (selection : Selection) (path : Path) : Gathering :=
  if files.isDirectory path then
    let harvest := Walk.collect files selection path
    ⟨harvest.files, harvest.directories, harvest.errors.map .walkError⟩
  else if files.isFile path && selection.takes path then
    { files := [path] }
  else
    { notes := [.skipped path] }

/-- Leave out every path that is the same as the one before it. -/
def dropRepeats : List Path → List Path
  | [] => []
  | first :: rest => first :: dropFrom first rest
where
  /-- Leave out the paths that are the same as the last one kept. -/
  dropFrom (last : Path) : List Path → List Path
    | [] => []
    | path :: rest =>
        if path.same last then dropFrom last rest else path :: dropFrom path rest

/-- The files that a list of paths stands for, in order and each once. No path
stands for the working directory. -/
def gather (files : FileSystem) (selection : Selection) (paths : List Path) : Gathering :=
  let gathered := (if paths.isEmpty then [⟨"."⟩] else paths).map (gatherPath files selection)
  { files := dropRepeats ((gathered.flatMap Gathering.files).mergeSort Path.isBefore)
    directories := total (gathered.map Gathering.directories)
    notes := gathered.flatMap Gathering.notes }

/-- The outcome of one file. -/
def inspectFile (parse : Parser) (files : FileSystem) (file : Path) : FileOutcome :=
  match files.readText file with
  | .ok source => FileOutcome.ofSource parse file source
  | .error error => FileOutcome.unreadable file error.message

/-- The note on the outcome of a file. -/
def noteOn (file : Path) (outcome : FileOutcome) : Option ScanNote :=
  if outcome.problems.isEmpty then none
  else some (.fixable file outcome.problems.length outcome.loops)

/-- Analyze the files that a list of paths stands for. -/
def analyze (parse : Parser) (files : FileSystem) (selection : Selection) (paths : List Path) :
    Analysis × List ScanNote :=
  let gathering := gather files selection paths
  let outcomes := gathering.files.map fun file => (file, inspectFile parse files file)
  (Analysis.ofOutcomes (outcomes.map Prod.snd) gathering.directories,
    gathering.notes ++ [.analyzing gathering.files.length gathering.directories] ++
      outcomes.filterMap fun (file, outcome) => noteOn file outcome)

end Scan

end LoopLift
