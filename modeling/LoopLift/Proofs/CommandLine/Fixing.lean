import LoopLift.CommandLine.Run
import LoopLift.Php.Parser
import LoopLift.Proofs.Fixing.Run
import LoopLift.Proofs.Scan.Gathering

/-!
# Fixing from the command line

An invocation reads the files of its analysis from the working directory, and
fixes them from its root. The two agree without a root and with an absolute one.
With a relative root, a reported file is fixed at the place that its path denotes
from the root, which is in general not the file that was analyzed.
-/

namespace LoopLift.CommandLine

open Syntax

/-! ## What an invocation does to its files -/

namespace Run

@[simp] theorem write_files (run : Run) (text : String) : (run.write text).files = run.files := rfl

@[simp] theorem noteIf_files (run : Run) (condition : Bool) (lines : List String) :
    (run.noteIf condition lines).files = run.files := by
  rw [noteIf]
  split <;> rfl

end Run

/-- The analysis that an invocation makes of paths that exist. -/
def Invocation.analysis (setting : Setting) (files : FileSystem) (invocation : Invocation)
    (paths : List Path) : Analysis :=
  (Scan.analyze setting.parse files
    (selectionFor (configFor files paths).settings invocation invocation.excludeFolders) paths).1

/-- How an invocation goes about fixing. -/
def Invocation.fixOptions (invocation : Invocation) : FixOptions :=
  { apply := invocation.apply, root := invocation.targets.root.getD ⟨"."⟩ }

/-- The run that fixes what an invocation reports. -/
def Invocation.fixRun (setting : Setting) (files : FileSystem) (invocation : Invocation)
    (paths : List Path) : FixRun :=
  FixRun.ofAnalysis setting.parse invocation.fixOptions files
    (invocation.analysis setting files paths)

@[simp] theorem gate_files (run : Run) (json failOnProblems : Bool) (left : Nat) :
    (gate run json failOnProblems left).1.files = run.files := by
  rw [gate]
  split
  · rfl
  · split
    · simp
    · cases json <;> rfl

/-- Whether an invocation fails when problems are left. -/
def Invocation.gates (files : FileSystem) (invocation : Invocation) (paths : List Path) : Bool :=
  invocation.failOnProblems || (configFor files paths).settings.failOnProblems.getD false

/-- An invocation without a command fixes and judges what it reports. -/
theorem invoke_eq_fixAndGate {setting : Setting} {files : FileSystem} {invocation : Invocation}
    {paths : List Path} (analyzing : invocation.command = none)
    (found : invocation.targets.resolve files = .ok paths) :
    ∃ run : Run, run.files = files ∧
      invoke setting files invocation =
        fixAndGate setting invocation (invocation.gates files paths) run
          (invocation.analysis setting files paths) := by
  rw [invoke, analyzing]
  simp only [withPaths, Run.noteIf_files, found, analyzePaths, Invocation.gates, Invocation.analysis]
  split
  · simp only [Run.write_files, Run.noteIf_files]
    exact ⟨_, by simp only [Run.write_files, Run.noteIf_files], rfl⟩
  · simp only [Run.noteIf_files]
    exact ⟨_, by simp only [Run.write_files, Run.noteIf_files], rfl⟩

theorem fixAndGate_fix {setting : Setting} {invocation : Invocation}
    (fixing : invocation.fix = true) (failOnProblems : Bool) (run : Run) (analysis : Analysis)
    {fixed : FixRun}
    (fixedEq : fixed = FixRun.ofAnalysis setting.parse invocation.fixOptions run.files analysis) :
    (fixAndGate setting invocation failOnProblems run analysis).1.files = fixed.files ∧
      ∀ failure, fixed.failure = some failure →
        (fixAndGate setting invocation failOnProblems run analysis).2 =
          .failure failure.message := by
  rw [Invocation.fixOptions] at fixedEq
  simp only [fixAndGate, fixing, Bool.not_true, Bool.false_eq_true, ↓reduceIte, Run.noteIf_files,
    ← fixedEq]
  cases failed : fixed.failure with
  | none =>
      refine ⟨?_, by simp⟩
      rw [gate_files]
      cases invocation.json <;> rfl
  | some failure =>
      refine ⟨?_, by simp⟩
      cases invocation.json <;> rfl

/-- An invocation with fixing leaves the files of its fix run, and fails as that
run does. -/
theorem invoke_fix {setting : Setting} {files : FileSystem} {invocation : Invocation}
    {paths : List Path} (analyzing : invocation.command = none) (fixing : invocation.fix = true)
    (found : invocation.targets.resolve files = .ok paths) :
    (invoke setting files invocation).1.files =
        (invocation.fixRun setting files paths).files ∧
      ∀ failure, (invocation.fixRun setting files paths).failure = some failure →
        (invoke setting files invocation).2 = .failure failure.message := by
  rcases invoke_eq_fixAndGate analyzing found with ⟨run, rfl, invoked⟩
  rw [invoked]
  exact fixAndGate_fix fixing _ run _ rfl

/-! ## Two views of a reported file -/

theorem Targets.resolve_eq_ok {files : FileSystem} {targets : Targets} {paths : List Path}
    (found : targets.resolve files = .ok paths) : paths = targets.given := by
  rw [Targets.resolve] at found
  split at found
  · cases found
  · cases found
    rfl

/-- Below an absolute root, all gathered files are absolute. -/
theorem isAbsolute_of_mem_gather {files : FileSystem} {selection : Selection} {targets : Targets}
    {root file : Path} (given : targets.root = some root) (absolute : root.isAbsolute = true)
    (gathered : file ∈ (Scan.gather files selection targets.given).files) :
    file.isAbsolute = true := by
  rcases Scan.exists_gatherPath_of_mem_gather gathered with ⟨path, target, inPath⟩
  have onlyRoot : path = root := by
    simpa [Targets.given, given] using target
  subst onlyRoot
  exact Scan.isAbsolute_of_mem_gatherPath absolute inPath

/-- Without a root, and with an absolute one, a gathered file is the same from the
root as from the working directory. -/
theorem resolve_standingAt_of_root {files : FileSystem} {selection : Selection}
    {targets : Targets} {file : Path} {base : Location}
    (absolute : ∀ root, targets.root = some root → root.isAbsolute = true)
    (gathered : file ∈ (Scan.gather files selection targets.given).files)
    (resolved : files.resolve (targets.root.getD ⟨"."⟩) = .ok base) :
    (files.standingAt base).resolve file = files.resolve file := by
  cases given : targets.root with
  | none =>
      rw [given, Option.getD_none] at resolved
      rw [FileSystem.resolve_current resolved]
      rfl
  | some root =>
      have fileAbsolute := isAbsolute_of_mem_gather given (absolute root given) gathered
      exact FileSystem.resolve_standingAt_of_isAbsolute fileAbsolute files base

/-- The stage for a reported file, in the run of an invocation, fails because the
file is outside of the root, or fixes the file that the path denotes from the
root. So the analyzed file is the one that is fixed exactly when the path denotes
the same from both directories. This is so without a root and with an absolute
one. -/
structure FixesAsSeenFromRoot (setting : Setting) (files : FileSystem) (invocation : Invocation)
    {analysis : Analysis} {item : FileProblem} (stage : FixRun.Stage analysis item) : Prop where
  inRun : (invoke setting files invocation).1.files =
    (stage.after.foldl (FixRun.fixFile setting.parse invocation.fixOptions)
      (stage.next setting.parse invocation.fixOptions files)).files
  outcome :
    (∃ error, (stage.next setting.parse invocation.fixOptions files).failure =
        some (.escaped error) ∧
      (invoke setting files invocation).2 = .failure error.message) ∨
    ∃ base, files.resolve invocation.fixOptions.root = .ok base ∧
      (stage.reached setting.parse invocation.fixOptions files).FixesAt setting.parse
        invocation.fixOptions stage.entry ((files.standingAt base).resolve item.file) ∧
      ((stage.reached setting.parse invocation.fixOptions files).FixesAt setting.parse
          invocation.fixOptions stage.entry (files.resolve item.file) ↔
        (files.standingAt base).resolve item.file = files.resolve item.file) ∧
      ((∀ root, invocation.targets.root = some root → root.isAbsolute = true) →
        (files.standingAt base).resolve item.file = files.resolve item.file)

/-- A problem that an invocation with fixing reports is one of a file that was
read from the working directory, and the run has a stage for it, in which the file
is fixed as it is seen from the root. -/
theorem reported_file_is_fixed_as_seen_from_root (setting : Setting) (files : FileSystem)
    (invocation : Invocation) (paths : List Path)
    (proper : ∀ name ∈ files.workingDirectory, IsEntryName name)
    (analyzing : invocation.command = none) (fixing : invocation.fix = true)
    (found : invocation.targets.resolve files = .ok paths) (item : FileProblem)
    (reported : item ∈ (invocation.analysis setting files paths).problems) :
    (∃ source, files.readText item.file = .ok source) ∧
    Nonempty (FixRun.Stage (invocation.analysis setting files paths) item) ∧
    ∀ stage : FixRun.Stage (invocation.analysis setting files paths) item,
      FixesAsSeenFromRoot setting files invocation stage := by
  rcases Scan.mem_problems_analyze_iff.mp reported with ⟨gathered, source, read, -⟩
  have nonempty := FileSystem.text_ne_empty_of_readText read
  rw [Targets.resolve_eq_ok found] at gathered
  rcases invoke_fix analyzing fixing found with ⟨leftFiles, failing⟩
  refine ⟨⟨source, read⟩, ?_, ?_⟩
  · apply FixRun.nonempty_stage _ reported
    intro left leftReported right rightReported same
    exact Scan.eq_of_same_of_mem_gather (Scan.mem_problems_analyze_iff.mp leftReported).1
      (Scan.mem_problems_analyze_iff.mp rightReported).1 same
  · intro stage
    constructor
    · rw [leftFiles, Invocation.fixRun, stage.ofAnalysis_eq, FixRun.conclude_files]
    · have underway := stage.reached_underway setting.parse invocation.fixOptions files
      rcases FixRun.fixFile_fixesAt proper (stage.file ▸ nonempty) underway with
        ⟨error, escaped⟩ | ⟨base, resolved, fixesAt⟩
      · refine .inl ⟨error, escaped, ?_⟩
        exact failing _ (stage.ofAnalysis_failure escaped)
      · rw [stage.file] at fixesAt
        refine .inr ⟨base, resolved, fixesAt, ⟨?_, ?_⟩, ?_⟩
        · intro inPlace
          exact fixesAt.unique inPlace
        · intro seenAlike
          rwa [seenAlike] at fixesAt
        · intro absolute
          exact resolve_standingAt_of_root absolute gathered resolved

/-! ## A relative root -/

/-- A loop in a file of a directory that serves as a relative root. -/
def appFiles : FileSystem :=
  { root := .directory
      [("srv", .directory
        [("app", .directory [("a.php", .file "<?php foreach ($a as $b) f();".toUTF8)])])]
    workingDirectory := ["srv"] }

/-- Fix what is reported below the relative root. -/
def appInvocation : Invocation :=
  { targets := { root := some ⟨"app"⟩ }, fix := true, apply := true }

/-- A setting with the parser of the program. -/
def appSetting : Setting := { parse := Php.parse, threads := "1", seconds := "0.00" }

/-- The problem that is reported on the loop. -/
def appItem : FileProblem :=
  ⟨⟨"app/a.php"⟩, ⟨"foreach_statement", 6, 29, 1, 7, Problem.loopMessage, Problem.loopFixName⟩⟩

theorem resolve_appItem : appFiles.resolve appItem.file = .ok ["srv", "app", "a.php"] := by
  decide +kernel

theorem problems_appFiles :
    (appInvocation.analysis appSetting appFiles [⟨"app"⟩]).problems = [appItem] := by
  have directory : appFiles.isDirectory ⟨"app"⟩ = true := by decide +kernel
  have unsorted : (Walk.unsorted appFiles (selectionFor (configFor appFiles [⟨"app"⟩]).settings
      appInvocation appInvocation.excludeFolders) ⟨"app"⟩).files = [appItem.file] := by
    decide +kernel
  have read := FileSystem.readText_eq_ok_iff.mpr
    ⟨_, _, resolve_appItem, rfl, FileSystem.fromUTF8?_toUTF8 "<?php foreach ($a as $b) f();"⟩
  have inspected : Inspection.inspect (Php.parse "<?php foreach ($a as $b) f();") =
      [appItem.problem] := by decide +kernel
  simp [Invocation.analysis, Scan.analyze, Scan.gather, Scan.gatherPath, directory, Walk.collect,
    unsorted, Scan.dropRepeats, Scan.dropRepeats.dropFrom, Scan.inspectFile, read,
    Analysis.ofOutcomes, FileOutcome.ofSource, appSetting, inspected]

theorem reported_file_is_fixed_as_seen_from_root_app :
    (∀ name ∈ appFiles.workingDirectory, IsEntryName name) ∧
    appInvocation.targets.resolve appFiles = .ok [⟨"app"⟩] ∧
    appItem ∈ (appInvocation.analysis appSetting appFiles [⟨"app"⟩]).problems ∧
    (∃ source, appFiles.readText appItem.file = .ok source) ∧
    Nonempty (FixRun.Stage (appInvocation.analysis appSetting appFiles [⟨"app"⟩]) appItem) ∧
    ∀ stage : FixRun.Stage (appInvocation.analysis appSetting appFiles [⟨"app"⟩]) appItem,
      FixesAsSeenFromRoot appSetting appFiles appInvocation stage :=
  have proper : ∀ name ∈ appFiles.workingDirectory, IsEntryName name := by decide
  have found : appInvocation.targets.resolve appFiles = .ok [⟨"app"⟩] := by decide +kernel
  have reported : appItem ∈ (appInvocation.analysis appSetting appFiles [⟨"app"⟩]).problems :=
    problems_appFiles ▸ List.mem_singleton_self appItem
  ⟨proper, found, reported, reported_file_is_fixed_as_seen_from_root appSetting appFiles
    appInvocation [⟨"app"⟩] proper rfl rfl found appItem reported⟩

/-- With a relative root, a run can pass the stage for a reported file without a
failure and without having come to this file. -/
theorem relative_root_misses_analyzed_file :
    appItem ∈ (appInvocation.analysis appSetting appFiles [⟨"app"⟩]).problems ∧
    appFiles.resolve appItem.file = .ok ["srv", "app", "a.php"] ∧
    ∃ stage : FixRun.Stage (appInvocation.analysis appSetting appFiles [⟨"app"⟩]) appItem,
      (stage.next appSetting.parse appInvocation.fixOptions appFiles).failure = none ∧
      ¬(stage.reached appSetting.parse appInvocation.fixOptions appFiles).FixesAt
        appSetting.parse appInvocation.fixOptions stage.entry
        (appFiles.resolve appItem.file) := by
  have contained : appFiles.contain appItem.file (some appInvocation.fixOptions.root) =
      .ok ⟨"/srv/app/app/a.php"⟩ := by decide +kernel
  have missing : appFiles.resolve ⟨"/srv/app/app/a.php"⟩ = .error .notFound := by decide +kernel
  have groups : FileProblems.ofProblems
      (appInvocation.analysis appSetting appFiles [⟨"app"⟩]).problems =
        [⟨appItem.file, [appItem.problem]⟩] := by
    rw [problems_appFiles]
    simp [FileProblems.ofProblems, FileProblems.grouped]
  refine ⟨problems_appFiles ▸ List.mem_singleton_self appItem, resolve_appItem,
    ⟨[], ⟨appItem.file, [appItem.problem]⟩, [], groups, rfl, List.mem_singleton_self _⟩, ?_, ?_⟩
  · have unread : appFiles.readText ⟨"/srv/app/app/a.php"⟩ = .error .notFound := by
      rw [FileSystem.readText, FileSystem.readBytes, missing]
    simp [FixRun.Stage.next, FixRun.Stage.reached, FixRun.opened, FixRun.fixFile, contained,
      FixRun.fixAt, unread, FixRun.tell]
  · intro inPlace
    rcases inPlace.path with ⟨path, inside, place, -⟩
    cases contained.symm.trans inside
    cases missing.symm.trans (place.trans resolve_appItem)

end LoopLift.CommandLine
