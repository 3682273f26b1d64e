import LoopLift.FileSystem.Containment
import LoopLift.Fixing.Notice
import LoopLift.Fixing.Plan

/-!
# Fixing the files of an analysis

Files are fixed one after the other in the order of their paths. A file is read
again, fixed as a whole or left as it is, and nothing outside of the root is
touched. The first file that is outside ends the run.
-/

namespace LoopLift

open Syntax

/-- How a run goes about its files. -/
structure FixOptions where
  /-- Whether files are written, or replacements only shown. -/
  apply : Bool
  /-- The directory that all written files have to be in. -/
  root : Path
  deriving Repr, DecidableEq

/-- What became of the problems of one file. -/
structure FileFix where
  /-- The file as it is shown. -/
  file : String
  rewritten : Nat
  remaining : Nat
  declined : Nat
  written : Bool
  deriving Repr, DecidableEq

/-- Why a run ended early. -/
inductive FixFailure where
  | escaped (error : ContainmentError)
  | unwritable (file : String) (error : IoError)
  deriving Repr, DecidableEq

/-- The wording of a failure. -/
def FixFailure.message : FixFailure → String
  | .escaped error => error.message
  | .unwritable file error => s!"Failed to write {file}: {error.message}"

/-- A run as far as it went. -/
structure FixRun where
  files : FileSystem
  notices : List FixNotice := []
  results : List FileFix := []
  failure : Option FixFailure := none

namespace FixRun

/-- Append notices. -/
def tell (run : FixRun) (notices : List FixNotice) : FixRun :=
  { run with notices := run.notices ++ notices }

/-- The notices on the steps of a plan. Replacements are shown only if nothing is
written. -/
def stepNotices (apply : Bool) (file : String) (steps : List PlanStep) : List FixNotice :=
  steps.filterMap fun
    | .failed problem error => some (.failed file problem.line error.message)
    | .rewritten problem replacement =>
        if apply then none else some (.preview file problem.line replacement)

/-- The result of a plan. -/
def resultOf (file : String) (plan : FixPlan) (written : Bool) : FileFix :=
  ⟨file, plan.rewritten.length, plan.remaining, plan.declined, written⟩

/-- Write the fixes of a file, if it has any. -/
def write (parse : Parser) (run : FixRun) (path : Path) (plan : FixPlan) : FixRun :=
  match plan.session.applyVerified parse with
  | .error error => run.tell [.skipped path.shown error.message]
  | .ok text =>
      match run.files.writeText path text with
      | .error error => { run with failure := some (.unwritable path.shown error) }
      | .ok files =>
          { run.tell [.fixed path.shown plan.rewritten.length] with
            files, results := run.results ++ [resultOf path.shown plan true] }

/-- Fix one file whose path was checked. -/
def fixAt (parse : Parser) (options : FixOptions) (run : FixRun) (path : Path)
    (problems : List Problem) : FixRun :=
  match run.files.readText path with
  | .error error => run.tell [.skipped path.shown error.message]
  | .ok source =>
      let plan := FixPlan.ofProblems parse (parse source) problems
      let unmatched :=
        if 0 < plan.declined then [FixNotice.unmatched path.shown plan.declined] else []
      let run := run.tell (stepNotices options.apply path.shown plan.steps ++ unmatched)
      if options.apply && !plan.rewritten.isEmpty then run.write parse path plan
      else { run with results := run.results ++ [resultOf path.shown plan false] }

/-- Fix one file. After a failure nothing happens. -/
def fixFile (parse : Parser) (options : FixOptions) (run : FixRun) (entry : FileProblems) :
    FixRun :=
  match run.failure with
  | some _ => run
  | none =>
      match run.files.contain entry.file (some options.root) with
      | .error error => { run with failure := some (.escaped error) }
      | .ok path => run.fixAt parse options path entry.problems

/-- Tell how many loops are left inside rewritten ones, unless the run failed. -/
def conclude (run : FixRun) : FixRun :=
  let nested := total (run.results.map FileFix.remaining)
  if run.failure.isNone && 0 < nested then run.tell [.nested nested] else run

/-- Fix the files of an analysis. -/
def ofAnalysis (parse : Parser) (options : FixOptions) (files : FileSystem)
    (analysis : Analysis) : FixRun :=
  let groups := FileProblems.ofProblems analysis.problems
  let opening := if options.apply then FixNotice.applying else FixNotice.previewing
  if groups.isEmpty then { files, notices := [opening, .nothingToFix] }
  else
    let notices := [opening, .statistics groups.length analysis.problems.length]
    (groups.foldl (fixFile parse options) { files, notices }).conclude

end FixRun

end LoopLift
