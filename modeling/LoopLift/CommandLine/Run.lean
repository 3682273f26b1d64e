import LoopLift.Analysis.Scan
import LoopLift.CommandLine.Invocation
import LoopLift.Config.Lookup
import LoopLift.Fixing.Run
import LoopLift.Listing
import LoopLift.Report.Basic
import LoopLift.Setup
import LoopLift.Text.Literal

/-!
# Running a command line

A run changes the file system, writes two streams of text, and ends with an exit
code or a failure.
-/

namespace LoopLift.CommandLine

open Syntax

/-- What a run depends on besides its files. -/
structure Setting where
  parse : Parser
  /-- Whether output is coloured. -/
  colors : Bool := false
  /-- Number of threads, as it is told. -/
  threads : String
  /-- Seconds that an analysis took, as they are told. -/
  seconds : String

/-- How a run ended. -/
inductive Ending where
  | exit (code : Nat)
  | failure (message : String)
  deriving Repr, DecidableEq

/-- A run as far as it went. -/
structure Run where
  files : FileSystem
  output : String := ""
  diagnostics : String := ""

namespace Run

/-- Write to the output. -/
def write (run : Run) (text : String) : Run :=
  { run with output := run.output ++ text }

/-- Write lines to the diagnostics. -/
def note (run : Run) (lines : List String) : Run :=
  { run with diagnostics := run.diagnostics ++ String.join (lines.map (· ++ "\n")) }

/-- Write lines to the diagnostics under a condition. -/
def noteIf (run : Run) (condition : Bool) (lines : List String) : Run :=
  if condition then run.note lines else run

end Run

/-! ## Texts -/

/-- A list of paths as it is told. -/
def pathLiterals (paths : List Path) : String :=
  Text.literals true (paths.map Path.text)

/-- A truth value as it is told. -/
def truth (value : Bool) : String := if value then "true" else "false"

/-- The command of an invocation as it is told. -/
def Command.literal : Command → String
  | .init => "Init"
  | .files arguments =>
      let root := match arguments.targets.root with
        | some root => "Some(" ++ Text.literal true root.text ++ ")"
        | none => "None"
      "Files \x7b args: FilesArgs \x7b paths: PathArgs \x7b paths: " ++
        pathLiterals arguments.targets.paths ++ ", root: " ++ root ++ " \x7d, json: " ++
        truth arguments.json ++ ", exclude: " ++ Text.literals false arguments.exclude ++
        " \x7d \x7d"

/-- What a reader of details is told at the start. -/
def openingNotes (setting : Setting) (invocation : Invocation) : List String :=
  [s!"[VERBOSE] Collector v{version}", s!"[VERBOSE] Using {setting.threads} threads"] ++
    invocation.command.toList.map fun command =>
      "[VERBOSE] Executing subcommand: " ++ command.literal

/-- What a reader of details is told about the settings in force. -/
def settingNotes (paths : List Path) (selection : Selection) (failOnProblems : Bool) :
    List String :=
  let listed (title : String) (folders : List String) :=
    if folders.isEmpty then [] else [s!"   {title} folders: {Text.literals false folders}"]
  ["[VERBOSE] Configuration:", s!"   Paths: {pathLiterals paths}",
    s!"   Extensions: {Text.literals false selection.extensions}"] ++
    listed "Exclude" selection.excluded ++ listed "Include" selection.included ++
    [s!"   Fail on problems: {truth failOnProblems}", ""]

/-- What a reader of details is told after an analysis. -/
def summaryNotes (setting : Setting) (summary : Summary) : List String :=
  [s!"[VERBOSE] Analysis completed in {setting.seconds}s",
    s!"   Files analyzed: {summary.files}", s!"   Lines analyzed: {summary.lines}",
    s!"   Loops found: {summary.loops}", s!"   Refactorable: {summary.fixable}",
    s!"   Parse errors: {summary.failures}"]

/-! ## Steps -/

/-- The paths that a command works on. -/
def Targets.given (targets : Targets) : List Path :=
  match targets.root with
  | some root => [root]
  | none => if targets.paths.isEmpty then [⟨"."⟩] else targets.paths

/-- The paths that a command works on, or the first of them that does not
exist. -/
def Targets.resolve (files : FileSystem) (targets : Targets) : Except Path (List Path) :=
  match targets.given.find? fun path => !files.pathExists path with
  | some missing => .error missing
  | none => .ok targets.given

/-- What is told about a path that does not exist. -/
def missingNote (path : Path) : String :=
  s!"Error: The file or directory '{path.text}' does not exist."

/-- The settings for a list of paths, which the first of them decides. -/
def configFor (files : FileSystem) (paths : List Path) : Config :=
  Config.load files (paths.headD ⟨"."⟩)

/-- Which files are taken, from settings and from the command line. -/
def selectionFor (settings : Settings) (invocation : Invocation) (excluded : List String) :
    Selection where
  excluded := Exclusion.merge settings.excludeFolders excluded
  included := Exclusion.merge settings.includeFolders invocation.includeFolders
  extensions := settings.scanned

/-- The result of an analysis as output. -/
def resultText (setting : Setting) (invocation : Invocation) (analysis : Analysis) : String :=
  if invocation.json then (Report.json analysis).pretty 0 ++ "\n"
  else if invocation.quiet then Report.quiet analysis
  else
    Report.full setting.colors analysis ++ "\n" ++
      Report.pills setting.colors analysis.summary ++
      Report.statistics setting.colors analysis.summary

/-- Number of reported loops that were not rewritten in a file that was
written. -/
def unresolved (analysis : Analysis) (results : List FileFix) : Nat :=
  analysis.summary.fixable - total ((results.filter FileFix.written).map FileFix.rewritten)

/-- Tell whether loops are left, if that is asked for, and end. -/
def gate (run : Run) (json failOnProblems : Bool) (left : Nat) : Run × Ending :=
  if !failOnProblems then (run, .exit 0)
  else if 0 < left then
    (run.noteIf (!json) [s!"\n[GATE] Refactorable loops: {left} - FAILED"], .exit 1)
  else
    (if json then run else run.write "\n[GATE] Refactorable loops: 0 - PASSED\n", .exit 0)

/-- Fix the loops of an analysis, if that is asked for, and end. -/
def fixAndGate (setting : Setting) (invocation : Invocation) (failOnProblems : Bool) (run : Run)
    (analysis : Analysis) : Run × Ending :=
  let json := invocation.json
  let verbose := invocation.verbose && !json
  if !invocation.fix then gate run json failOnProblems analysis.summary.fixable
  else
    let mode := if invocation.apply then "apply changes" else "dry-run (preview)"
    let run := run.noteIf verbose ["[VERBOSE] Fix mode: " ++ mode]
    let options : FixOptions :=
      { apply := invocation.apply, root := invocation.targets.root.getD ⟨"."⟩ }
    let fixed := FixRun.ofAnalysis setting.parse options run.files analysis
    let run := { run with files := fixed.files }
    let run :=
      if json then run else run.write (FixNotice.render setting.colors verbose fixed.notices)
    match fixed.failure with
    | some failure => (run, .failure failure.message)
    | none =>
        gate run json failOnProblems
          (if invocation.apply then unresolved analysis fixed.results
           else analysis.summary.fixable)

/-- Analyze paths that exist. -/
def analyzePaths (setting : Setting) (invocation : Invocation) (run : Run) (paths : List Path) :
    Run × Ending :=
  let json := invocation.json
  let verbose := invocation.verbose && !json
  let config := configFor run.files paths
  let failOnProblems :=
    invocation.failOnProblems || config.settings.failOnProblems.getD false
  let selection := selectionFor config.settings invocation invocation.excludeFolders
  let showsAll := !json && !invocation.quiet
  let run := run.noteIf verbose (config.file.toList.map fun file =>
    "[VERBOSE] Loaded configuration from " ++ file.text)
  let run :=
    if showsAll then run.write (Report.exclusions setting.colors selection.excluded) else run
  let run := run.noteIf verbose (settingNotes paths selection failOnProblems)
  let counted := Scan.gather run.files selection paths
  let run := run.noteIf (verbose && showsAll) (counted.notes.map ScanNote.text)
  let (analysis, notes) := Scan.analyze setting.parse run.files selection paths
  let run := run.noteIf verbose (notes.map ScanNote.text)
  let run := run.noteIf verbose (summaryNotes setting analysis.summary)
  let run := run.write (resultText setting invocation analysis)
  fixAndGate setting invocation failOnProblems run analysis

/-- List the files below paths that exist. -/
def listPaths (invocation : Invocation) (arguments : ListingArguments) (run : Run)
    (paths : List Path) : Run × Ending :=
  let config := configFor run.files paths
  let selection := selectionFor config.settings invocation
    (invocation.excludeFolders ++ arguments.exclude)
  let (entries, notes) := Listing.ofPaths run.files selection paths
  let run := run.noteIf invocation.verbose (notes.map ScanNote.text)
  (run.write (if arguments.json then Listing.json entries else Listing.table entries), .exit 0)

/-- Go on with the paths that a command works on, if they exist. -/
def withPaths (run : Run) (targets : Targets) (go : List Path → Run × Ending) : Run × Ending :=
  match targets.resolve run.files with
  | .error missing => (run.note [missingNote missing], .exit 1)
  | .ok paths => go paths

/-- Set up the project in the working directory. -/
def setUp (run : Run) : Run × Ending :=
  let (files, outcome) := Setup.run run.files (Location.path run.files.workingDirectory)
  let run := { run with files }.write outcome.output
  match outcome.failure? with
  | some message => (run, .failure message)
  | none => (run, .exit 0)

/-- Carry out an invocation. -/
def invoke (setting : Setting) (files : FileSystem) (invocation : Invocation) : Run × Ending :=
  let run := ({ files } : Run).noteIf (invocation.verbose && !invocation.json)
    (openingNotes setting invocation)
  match invocation.command with
  | some .init => setUp run
  | some (.files arguments) =>
      withPaths run arguments.targets (listPaths invocation arguments run)
  | none => withPaths run invocation.targets (analyzePaths setting invocation run)

/-- Run the words of a command line. -/
def run (setting : Setting) (files : FileSystem) (words : List String) : Run × Ending :=
  match read words with
  | .run invocation => invoke setting files invocation
  | .help topic => ({ files, output := topic.text }, .exit 0)
  | .version => ({ files, output := versionText }, .exit 0)
  | .invalid error => ({ files, diagnostics := error.message ++ "\n" }, .exit 1)

end LoopLift.CommandLine
