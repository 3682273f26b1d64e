import LoopLift.Proofs.CommandLine.Fixing
import LoopLift.Proofs.Fixing.Accounting

/-!
# The gate after fixing

An invocation that applies fixes is judged by the number of problems that are left.
That number is a difference of two counts, which are taken in different places. It is
exact: it counts the problems left in written files, and all problems of the files
that are not written. So an invocation passes exactly when every reported problem
was rewritten.
-/

namespace LoopLift.CommandLine

open Syntax FixRun

theorem gate_ending (run : Run) (json : Bool) (left : Nat) :
    (gate run json true left).2 = if left = 0 then .exit 0 else .exit 1 := by
  cases left with
  | zero => simp [gate]
  | succ left => simp [gate]

/-- An invocation that applies fixes, in a run without a failure, ends as the number
of problems left decides. -/
theorem fixAndGate_ending {setting : Setting} {invocation : Invocation} {analysis : Analysis}
    {run : Run} (fixing : invocation.fix = true) (applying : invocation.apply = true)
    (finished : (ofAnalysis setting.parse invocation.fixOptions run.files analysis).failure =
      none) :
    (fixAndGate setting invocation true run analysis).2 =
      if unresolved analysis
          (ofAnalysis setting.parse invocation.fixOptions run.files analysis).results = 0
      then .exit 0 else .exit 1 := by
  rw [Invocation.fixOptions] at finished ⊢
  simp only [applying] at finished ⊢
  simp only [fixAndGate, fixing, applying, Bool.not_true, Bool.false_eq_true, ↓reduceIte,
    Run.noteIf_files, finished, gate_ending]

/-- The account of an applying run over an analysis, which has one turn for each file
with problems. A result counts all problems of its file. The number of problems left
is the full difference of what was found and what was rewritten, and counts the
problems left in written files and those of unwritten ones. With the gate on, an
invocation passes exactly when every reported problem was rewritten. -/
structure Accounted (setting : Setting) (invocation : Invocation) (files : FileSystem)
    (analysis : Analysis) (turns : List Turn) (results : List FileFix) : Prop where
  turnPerFile : turns.map Turn.entry = FileProblems.ofProblems analysis.problems
  resultOfTurn : results = turns.filterMap (Turn.result? setting.parse invocation.fixOptions)
  counts : ∀ turn ∈ turns, ∀ fix, turn.result? setting.parse invocation.fixOptions = some fix →
    fix.rewritten + fix.remaining + fix.declined =
        (analysis.problems.filter fun item => item.file.same turn.entry.file).length ∧
      fix.written = (turn.output? setting.parse invocation.fixOptions).isSome
  unwritten : ∀ turn ∈ turns, ∃ path,
    turn.reached.files.contain turn.entry.file (some invocation.fixOptions.root) = .ok path ∧
    (turn.output? setting.parse invocation.fixOptions = none ↔
      (∃ error, turn.reached.files.readText path = .error error) ∨
      ∃ draft, turn.draft? setting.parse invocation.fixOptions = some draft ∧
        (draft.plan.rewritten = [] ∨
          ∃ error, draft.plan.session.applyVerified setting.parse = .error error))
  neverSaturates : rewrittenInWritten results ≤ analysis.summary.fixable
  left : unresolved analysis results =
    leftInWritten results + leftUnwritten setting.parse invocation.fixOptions turns
  passes : ∀ run : Run, run.files = files →
    ((fixAndGate setting invocation true run analysis).2 = .exit 0 ↔
      AllRewritten setting.parse invocation.fixOptions analysis turns)
  invocationPasses : ∀ paths, invocation.command = none →
    invocation.targets.resolve files = .ok paths → invocation.gates files paths = true →
    analysis = invocation.analysis setting files paths →
    ((invoke setting files invocation).2 = .exit 0 ↔
      AllRewritten setting.parse invocation.fixOptions analysis turns)

theorem applying_run_is_accounted (setting : Setting) (invocation : Invocation)
    (files : FileSystem) (analysis : Analysis) (fixing : invocation.fix = true)
    (applying : invocation.apply = true)
    (countsAll : analysis.summary.fixable = analysis.problems.length)
    (finished : (ofAnalysis setting.parse invocation.fixOptions files analysis).failure = none) :
    Accounted setting invocation files analysis
      (turnsOf setting.parse invocation.fixOptions files analysis)
      (ofAnalysis setting.parse invocation.fixOptions files analysis).results := by
  have results := @ofAnalysis_results setting.parse invocation.fixOptions files analysis
  have entries := @map_entry_turnsOf setting.parse invocation.fixOptions files analysis
  have sum := @total_turns setting.parse invocation.fixOptions
    (turnsOf setting.parse invocation.fixOptions files analysis)
  have all : total ((turnsOf setting.parse invocation.fixOptions files analysis).map
      fun turn => turn.entry.problems.length) = analysis.summary.fixable := by
    rw [countsAll, ← FileProblems.total_length_ofProblems, ← entries, List.map_map]
    rfl
  rw [← results, all] at sum
  have left : unresolved analysis
        (ofAnalysis setting.parse invocation.fixOptions files analysis).results =
      leftInWritten (ofAnalysis setting.parse invocation.fixOptions files analysis).results +
        leftUnwritten setting.parse invocation.fixOptions
          (turnsOf setting.parse invocation.fixOptions files analysis) := by
    rw [unresolved, ← rewrittenInWritten]
    omega
  have passes : ∀ run : Run, run.files = files →
      ((fixAndGate setting invocation true run analysis).2 = .exit 0 ↔
        AllRewritten setting.parse invocation.fixOptions analysis
          (turnsOf setting.parse invocation.fixOptions files analysis)) := by
    intro run sameFiles
    subst sameFiles
    rw [fixAndGate_ending fixing applying finished, left, results, ← left_eq_zero_iff]
    simp
  refine ⟨entries, results, ?_, ?_, by omega, left, passes, ?_⟩
  · intro turn member fix result
    have ofFile := FileProblems.perm_of_mem_ofProblems (mem_ofProblems_of_mem_turnsOf member)
    rw [Turn.result?_counts result, ofFile.length_eq, List.length_map]
    exact ⟨rfl, Turn.written_eq result⟩
  · intro turn member
    rw [(ofAnalysis_eq_passed files analysis).2.2] at finished
    rcases going_of_mem_turns finished member with ⟨going, path, inside⟩
    exact ⟨path, inside, Turn.output?_eq_none_iff applying going inside⟩
  · intro paths analyzing found gates analyzed
    rcases invoke_eq_fixAndGate analyzing found with ⟨run, sameFiles, invoked⟩
    rw [invoked, gates, ← analyzed]
    exact passes run sameFiles

/-- Fix what is reported in the working directory, and fail on what is left. -/
def strictInvocation : Invocation := { fix := true, apply := true, failOnProblems := true }

/-- Problems of a file with loops and of one that does not exist. -/
def mixedAnalysis : Analysis := { problems := mixedReports, summary := { fixable := 4 } }

theorem applying_run_is_accounted_mixedReports :
    (ofAnalysis appSetting.parse strictInvocation.fixOptions singleFileRun.files
      mixedAnalysis).failure = none ∧
    Accounted appSetting strictInvocation singleFileRun.files mixedAnalysis
      (turnsOf appSetting.parse strictInvocation.fixOptions singleFileRun.files mixedAnalysis)
      (ofAnalysis appSetting.parse strictInvocation.fixOptions singleFileRun.files
        mixedAnalysis).results :=
  have first : singleFileRun.files.contain ⟨"a.php"⟩ (some ⟨"."⟩) = .ok ⟨"/a.php"⟩ := by
    decide +kernel
  have second : singleFileRun.files.contain ⟨"b.php"⟩ (some ⟨"."⟩) = .ok ⟨"/b.php"⟩ := by
    decide +kernel
  have inside : ∀ item ∈ mixedAnalysis.problems,
      ∃ path, singleFileRun.files.contain item.file (some ⟨"."⟩) = .ok path := by
    simp [mixedAnalysis, mixedReports, first, second]
  have finished : (ofAnalysis appSetting.parse strictInvocation.fixOptions singleFileRun.files
      mixedAnalysis).failure = none := ofAnalysis_failure_eq_none inside
  ⟨finished, applying_run_is_accounted appSetting strictInvocation singleFileRun.files
    mixedAnalysis rfl rfl rfl finished⟩

end LoopLift.CommandLine
