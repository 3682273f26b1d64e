import LoopLift.Proofs.Fixing.FileFix

/-!
# Stages of a run

A run fixes one file after the other. No stage changes the shape of the file
system, so that paths denote the same files in all stages, and containment is
judged as it was at the start. The only failure of a run is a file outside of the
root, and nothing happens after it. A stage changes no other file than the one
that its checked path denotes.
-/

namespace LoopLift

open Syntax

/-- A run that started with some files: they have kept their shape, and a failure
is a file outside of the root. -/
structure FixRun.Underway (files : FileSystem) (run : FixRun) : Prop where
  shape : files.SameShape run.files
  failure : ∀ failure, run.failure = some failure → ∃ error, failure = .escaped error

namespace FixMove

variable {parse : Parser} {options : FixOptions} {run after : FixRun} {entry : FileProblems}

theorem underway {files : FileSystem} (move : FixMove parse options run entry after)
    (before : run.Underway files) : after.Underway files := by
  cases move with
  | stopped => exact before
  | escaped going outside =>
      refine ⟨before.shape, ?_⟩
      intro failure failed
      cases failed
      exact ⟨_, rfl⟩
  | unread => exact ⟨before.shape, before.failure⟩
  | kept => exact ⟨before.shape, before.failure⟩
  | refused => exact ⟨before.shape, before.failure⟩
  | @written _ _ text _ _ going inside read planned applying busy verified saved =>
      rcases FileSystem.writeText_of_readText read text with
        ⟨location, writtenFiles, -, savedAgain, shape, -⟩
      cases saved.symm.trans savedAgain
      exact ⟨before.shape.trans shape, before.failure⟩

/-- A stage changes no other file than the one that its path denotes. -/
theorem frame (move : FixMove parse options run entry after) {path : Path}
    (inside : run.files.contain entry.file (some options.root) = .ok path) {location : Location}
    (elsewhere : run.files.resolve path ≠ .ok location) (content : ByteArray) :
    after.files.root.at? location = some (.file content) ↔
      run.files.root.at? location = some (.file content) := by
  cases move with
  | stopped => exact Iff.rfl
  | escaped => exact Iff.rfl
  | unread => exact Iff.rfl
  | kept => exact Iff.rfl
  | refused => exact Iff.rfl
  | @written _ _ text _ _ going reached read planned applying busy verified saved =>
      cases inside.symm.trans reached
      rcases FileSystem.writeText_of_readText read text with
        ⟨target, writtenFiles, resolved, savedAgain, -, -, unchanged⟩
      cases saved.symm.trans savedAgain
      apply unchanged
      intro same
      subst same
      exact elsewhere resolved

end FixMove

namespace FixRun

variable {parse : Parser} {options : FixOptions}

theorem foldl_fixFile_underway {files : FileSystem} {run : FixRun} (before : run.Underway files)
    (entries : List FileProblems) :
    (entries.foldl (fixFile parse options) run).Underway files := by
  induction entries generalizing run with
  | nil => exact before
  | cons entry rest ih => exact ih ((run.move_fixFile parse options entry).underway before)

/-- Nothing happens after a failure. -/
theorem foldl_fixFile_of_failure {run : FixRun} {failure : FixFailure}
    (failed : run.failure = some failure) (entries : List FileProblems) :
    entries.foldl (fixFile parse options) run = run := by
  induction entries with
  | nil => rfl
  | cons entry rest ih =>
      have same : run.fixFile parse options entry = run := by
        rw [fixFile, failed]
      rw [List.foldl_cons, same, ih]

theorem fixFile_of_contain {run : FixRun} {entry : FileProblems} {path : Path}
    (going : run.failure = none)
    (inside : run.files.contain entry.file (some options.root) = .ok path) :
    run.fixFile parse options entry = run.fixAt parse options path entry.problems := by
  rw [fixFile, going, inside]

@[simp] theorem conclude_files (run : FixRun) : run.conclude.files = run.files := by
  rw [conclude]
  split <;> rfl

@[simp] theorem conclude_failure (run : FixRun) : run.conclude.failure = run.failure := by
  rw [conclude]
  split <;> rfl

@[simp] theorem conclude_results (run : FixRun) : run.conclude.results = run.results := by
  rw [conclude]
  split <;> rfl

/-- The run before its first file. -/
def opened (options : FixOptions) (files : FileSystem) (analysis : Analysis) : FixRun :=
  { files
    notices :=
      [if options.apply then FixNotice.applying else FixNotice.previewing,
        .statistics (FileProblems.ofProblems analysis.problems).length analysis.problems.length] }

theorem opened_underway (options : FixOptions) (files : FileSystem) (analysis : Analysis) :
    (opened options files analysis).Underway files :=
  ⟨FileSystem.SameShape.refl files, by simp [opened]⟩

/-- A run over an analysis with problems goes through their files. -/
theorem ofAnalysis_eq {analysis : Analysis}
    (problems : FileProblems.ofProblems analysis.problems ≠ []) (files : FileSystem) :
    ofAnalysis parse options files analysis =
      ((FileProblems.ofProblems analysis.problems).foldl (fixFile parse options)
        (opened options files analysis)).conclude := by
  rw [ofAnalysis]
  simp only
  rw [if_neg (by simpa using problems)]
  rfl

/-- A stage fixes a file at the place that is given: the checked path leads there,
the file is fixed by this path, and no file at another place changes. -/
structure FixesAt (parse : Parser) (options : FixOptions) (run : FixRun) (entry : FileProblems)
    (place : Except IoError Location) : Prop where
  path : ∃ path, run.files.contain entry.file (some options.root) = .ok path ∧
    run.files.resolve path = place ∧
    run.fixFile parse options entry = run.fixAt parse options path entry.problems
  frame : ∀ location, place ≠ .ok location → ∀ content,
    (run.fixFile parse options entry).files.root.at? location = some (.file content) ↔
      run.files.root.at? location = some (.file content)

/-- A stage ends the run with a file outside of the root, or it fixes the file at
the place that its path denotes from the root as the working directory. -/
theorem fixFile_fixesAt {files : FileSystem} {run : FixRun} {entry : FileProblems}
    (proper : ∀ name ∈ files.workingDirectory, IsEntryName name)
    (nonempty : entry.file.text ≠ "") (before : run.Underway files) :
    (∃ error, (run.fixFile parse options entry).failure = some (.escaped error)) ∨
      ∃ base, files.resolve options.root = .ok base ∧
        FixesAt parse options run entry ((files.standingAt base).resolve entry.file) := by
  cases going : run.failure with
  | some failure =>
      rcases before.failure failure going with ⟨error, rfl⟩
      refine .inl ⟨error, ?_⟩
      rw [fixFile, going]
      exact going
  | none =>
      cases inside : run.files.contain entry.file (some options.root) with
      | error error =>
          refine .inl ⟨error, ?_⟩
          rw [fixFile, going, inside]
      | ok path =>
          have insideAtStart : files.contain entry.file (some options.root) = .ok path := by
            rw [before.shape.contain]
            exact inside
          rcases FileSystem.resolve_of_contain proper nonempty insideAtStart with
            ⟨base, resolvedRoot, seen⟩
          rw [before.shape.resolve] at seen
          refine .inr ⟨base, resolvedRoot, ⟨path, inside, seen, fixFile_of_contain going inside⟩, ?_⟩
          intro location elsewhere
          rw [← seen] at elsewhere
          exact (run.move_fixFile parse options entry).frame inside elsewhere

/-! ## The stage of a reported problem -/

/-- The stage of a run that fixes the file of a reported problem. -/
structure Stage (analysis : Analysis) (item : FileProblem) where
  before : List FileProblems
  entry : FileProblems
  after : List FileProblems
  groups : FileProblems.ofProblems analysis.problems = before ++ entry :: after
  file : entry.file = item.file
  problem : item.problem ∈ entry.problems

/-- Every reported problem has a stage, when no two files of the analysis are the
same. -/
theorem nonempty_stage {analysis : Analysis}
    (distinct : ∀ left ∈ analysis.problems, ∀ right ∈ analysis.problems,
      left.file.same right.file = true → left.file = right.file)
    {item : FileProblem} (member : item ∈ analysis.problems) : Nonempty (Stage analysis item) := by
  rcases FileProblems.exists_mem_ofProblems member with
    ⟨entry, listed, problem, same, first, reported⟩
  rcases List.append_of_mem listed with ⟨before, after, groups⟩
  have file : entry.file = item.file := distinct ⟨entry.file, first⟩ reported item member same
  exact ⟨⟨before, entry, after, groups, file, problem⟩⟩

namespace Stage

variable {analysis : Analysis} {item : FileProblem}

/-- The run when it comes to a stage. -/
def reached (stage : Stage analysis item) (parse : Parser) (options : FixOptions)
    (files : FileSystem) : FixRun :=
  stage.before.foldl (fixFile parse options) (opened options files analysis)

/-- The run when it has passed a stage. -/
def next (stage : Stage analysis item) (parse : Parser) (options : FixOptions)
    (files : FileSystem) : FixRun :=
  (stage.reached parse options files).fixFile parse options stage.entry

theorem reached_underway (stage : Stage analysis item) (parse : Parser) (options : FixOptions)
    (files : FileSystem) : (stage.reached parse options files).Underway files :=
  foldl_fixFile_underway (opened_underway options files analysis) stage.before

/-- A run goes on from each of its stages. -/
theorem ofAnalysis_eq (stage : Stage analysis item) (parse : Parser) (options : FixOptions)
    (files : FileSystem) :
    FixRun.ofAnalysis parse options files analysis =
      (stage.after.foldl (fixFile parse options) (stage.next parse options files)).conclude := by
  rw [FixRun.ofAnalysis_eq (by simp [stage.groups]), stage.groups, List.foldl_append,
    List.foldl_cons]
  rfl

/-- A run fails with the failure of a stage. -/
theorem ofAnalysis_failure (stage : Stage analysis item) {files : FileSystem}
    {failure : FixFailure}
    (failed : (stage.next parse options files).failure = some failure) :
    (FixRun.ofAnalysis parse options files analysis).failure = some failure := by
  rw [stage.ofAnalysis_eq, conclude_failure, foldl_fixFile_of_failure failed]
  exact failed

end Stage

/-- A file is fixed at one place only. -/
theorem FixesAt.unique {run : FixRun} {entry : FileProblems} {left right : Except IoError Location}
    (atLeft : FixesAt parse options run entry left)
    (atRight : FixesAt parse options run entry right) : left = right := by
  rcases atLeft.path with ⟨path, inside, resolved, -⟩
  rcases atRight.path with ⟨other, otherInside, otherResolved, -⟩
  cases inside.symm.trans otherInside
  exact resolved.symm.trans otherResolved

end FixRun

end LoopLift
