import LoopLift.Fixing.Run
import LoopLift.Proofs.FileSystem.Containment
import LoopLift.Proofs.Fixing.Grouping

/-!
# Fixing one file

`FixMove` says all that one file can do to a run. A file is written only with the
result of its verified edits, and a file that was read can always be written. Over
a well-formed tree the edits are those of a separated plan, so that a written file
holds its old content with the ranges of the fixed problems exchanged.
-/

namespace LoopLift

open Syntax

namespace FixRun

/-- The notices on a plan for a file. -/
def planNotices (apply : Bool) (file : String) (plan : FixPlan) : List FixNotice :=
  stepNotices apply file plan.steps ++
    if 0 < plan.declined then [FixNotice.unmatched file plan.declined] else []

end FixRun

/-- What one file does to a run. -/
inductive FixMove (parse : Parser) (options : FixOptions) (run : FixRun) (entry : FileProblems) :
    FixRun → Prop where
  /-- The run has failed before. -/
  | stopped {failure : FixFailure} (failed : run.failure = some failure) :
      FixMove parse options run entry run
  /-- The file is outside of the root. -/
  | escaped {error : ContainmentError} (going : run.failure = none)
      (outside : run.files.contain entry.file (some options.root) = .error error) :
      FixMove parse options run entry { run with failure := some (.escaped error) }
  /-- The file cannot be read. -/
  | unread {path : Path} {error : IoError} (going : run.failure = none)
      (inside : run.files.contain entry.file (some options.root) = .ok path)
      (unreadable : run.files.readText path = .error error) :
      FixMove parse options run entry (run.tell [.skipped path.shown error.message])
  /-- Nothing is to be written. -/
  | kept {path : Path} {source : String} {plan : FixPlan} (going : run.failure = none)
      (inside : run.files.contain entry.file (some options.root) = .ok path)
      (read : run.files.readText path = .ok source)
      (planned : plan = FixPlan.ofProblems parse (parse source) entry.problems)
      (idle : options.apply = false ∨ plan.rewritten = []) :
      FixMove parse options run entry
        { run.tell (FixRun.planNotices options.apply path.shown plan) with
          results := run.results ++ [FixRun.resultOf path.shown plan false] }
  /-- The edits are refused. -/
  | refused {path : Path} {source : String} {plan : FixPlan} {error : EditError}
      (going : run.failure = none)
      (inside : run.files.contain entry.file (some options.root) = .ok path)
      (read : run.files.readText path = .ok source)
      (planned : plan = FixPlan.ofProblems parse (parse source) entry.problems)
      (applying : options.apply = true) (busy : plan.rewritten ≠ [])
      (unverified : plan.session.applyVerified parse = .error error) :
      FixMove parse options run entry
        ((run.tell (FixRun.planNotices options.apply path.shown plan)).tell
          [.skipped path.shown error.message])
  /-- The file is written. -/
  | written {path : Path} {source text : String} {plan : FixPlan} {files : FileSystem}
      (going : run.failure = none)
      (inside : run.files.contain entry.file (some options.root) = .ok path)
      (read : run.files.readText path = .ok source)
      (planned : plan = FixPlan.ofProblems parse (parse source) entry.problems)
      (applying : options.apply = true) (busy : plan.rewritten ≠ [])
      (verified : plan.session.applyVerified parse = .ok text)
      (saved : run.files.writeText path text = .ok files) :
      FixMove parse options run entry
        { (run.tell (FixRun.planNotices options.apply path.shown plan)).tell
            [.fixed path.shown plan.rewritten.length] with
          files, results := run.results ++ [FixRun.resultOf path.shown plan true] }

namespace FixRun

/-- Every file moves a run in one of the six ways. -/
theorem move_fixFile (parse : Parser) (options : FixOptions) (run : FixRun)
    (entry : FileProblems) : FixMove parse options run entry (run.fixFile parse options entry) := by
  rw [fixFile]
  cases going : run.failure with
  | some failure => exact .stopped going
  | none =>
      cases inside : run.files.contain entry.file (some options.root) with
      | error error => exact .escaped going inside
      | ok path =>
          simp only [fixAt]
          cases read : run.files.readText path with
          | error error => exact .unread going inside read
          | ok source =>
              simp only
              split
              · rename_i proceeds
                rw [Bool.and_eq_true, Bool.not_eq_true', List.isEmpty_eq_false_iff] at proceeds
                rw [write]
                split
                · rename_i unverified
                  exact .refused going inside read rfl proceeds.1 proceeds.2 unverified
                · rename_i text verified
                  rcases FileSystem.writeText_of_readText read text with
                    ⟨location, files, -, saved, -⟩
                  simp only [tell, saved]
                  exact .written going inside read rfl proceeds.1 proceeds.2 verified saved
              · rename_i halts
                rw [Bool.and_eq_true, Bool.not_eq_true', List.isEmpty_eq_false_iff] at halts
                apply FixMove.kept going inside read rfl
                cases applying : options.apply with
                | false => exact .inl rfl
                | true => exact .inr (not_not.mp fun busy => halts ⟨applying, busy⟩)

/-- A file that was read is left as it is, since nothing is to be written or its
edits are refused, or it is written with the result of its edits, and no other
file changes. -/
theorem fixFile_of_readText (parse : Parser) {options : FixOptions} {run : FixRun}
    {entry : FileProblems} {path : Path} {source : String} {plan : FixPlan}
    (going : run.failure = none)
    (inside : run.files.contain entry.file (some options.root) = .ok path)
    (read : run.files.readText path = .ok source)
    (planned : plan = FixPlan.ofProblems parse (parse source) entry.problems) :
    ((options.apply = false ∨ plan.rewritten = [] ∨
        ∃ error, plan.session.applyVerified parse = .error error) ∧
      (run.fixFile parse options entry).files = run.files) ∨
    ∃ text location, options.apply = true ∧ plan.rewritten ≠ [] ∧
      plan.session.applyVerified parse = .ok text ∧
      (run.fixFile parse options entry).results =
        run.results ++ [resultOf path.shown plan true] ∧
      (run.fixFile parse options entry).files.readText path = .ok text ∧
      run.files.resolve path = .ok location ∧
      ∀ other, other ≠ location → ∀ content,
        (run.fixFile parse options entry).files.root.at? other = some (.file content) ↔
          run.files.root.at? other = some (.file content) := by
  have move := run.move_fixFile parse options entry
  generalize run.fixFile parse options entry = after at move
  subst planned
  -- What was contained and read fixes the path and the source of each case.
  cases move with
  | stopped failed => cases going.symm.trans failed
  | escaped _ outside => cases inside.symm.trans outside
  | unread _ reached unreadable =>
      cases inside.symm.trans reached
      cases read.symm.trans unreadable
  | kept _ reached readAgain planned idle =>
      cases inside.symm.trans reached
      cases read.symm.trans readAgain
      subst planned
      exact .inl ⟨idle.imp_right .inl, rfl⟩
  | refused _ reached readAgain planned _ _ unverified =>
      cases inside.symm.trans reached
      cases read.symm.trans readAgain
      subst planned
      exact .inl ⟨.inr (.inr ⟨_, unverified⟩), rfl⟩
  | @written _ _ text _ files _ reached readAgain planned applying busy verified saved =>
      cases inside.symm.trans reached
      cases read.symm.trans readAgain
      subst planned
      rcases FileSystem.writeText_of_readText read text with
        ⟨location, writtenFiles, resolved, savedAgain, -, readBack, frame⟩
      cases saved.symm.trans savedAgain
      exact .inr ⟨text, location, applying, busy, verified, rfl, readBack, resolved, frame⟩

/-- Fixing a file with a plan splices its source. The edits of the plan are those
of its fixed problems, pass the check, and are refused only for syntax errors. The
file is written with their splice, and no other file changes, unless nothing is to
be written or the edits are refused. -/
structure Splices (parse : Parser) (options : FixOptions) (run after : FixRun) (path : Path)
    (source : String) (problems : List Problem) (plan : FixPlan) : Prop where
  fixed : plan.rewritten.Sublist problems
  ranges : plan.session.edits.map Edit.range = plan.rewritten.map Problem.range
  fits : ∀ edit ∈ plan.session.edits, edit.Fits source.toList
  disjoint : plan.session.edits.Pairwise fun left right => left.overlaps right = false
  valid : Edit.validate source.toList plan.session.edits = .ok ()
  refusal : ∀ error, plan.session.applyVerified parse = .error error → error = .unparsable
  outcome :
    ((options.apply = false ∨ plan.rewritten = [] ∨
        plan.session.applyVerified parse = .error .unparsable) ∧ after.files = run.files) ∨
    ∃ text location, options.apply = true ∧ plan.rewritten ≠ [] ∧
      plan.session.applyVerified parse = .ok text ∧
      after.results = run.results ++ [resultOf path.shown plan true] ∧
      Edit.weave? source.toList 0 plan.session.edits = some text.toList ∧
      after.files.readText path = .ok text ∧ run.files.resolve path = .ok location ∧
      ∀ other, other ≠ location → ∀ content,
        after.files.root.at? other = some (.file content) ↔
          run.files.root.at? other = some (.file content)

/-- Take a file of an analysis whose reported problems have ranges of their own,
over a well-formed tree. Fixing it exchanges exactly the ranges of the fixed
problems for their replacements. -/
theorem fixFile_splices_fixed_problems (parse : Parser) (options : FixOptions) (run : FixRun)
    (reported : List FileProblem) (entry : FileProblems)
    (listed : entry ∈ FileProblems.ofProblems reported)
    (distinct : (reported.filter fun item => item.file.same entry.file).Pairwise
      fun left right => left.problem.range ≠ right.problem.range)
    (path : Path) (source : String) (going : run.failure = none)
    (inside : run.files.contain entry.file (some options.root) = .ok path)
    (read : run.files.readText path = .ok source)
    (ownSource : (parse source).source = source) (formed : (parse source).WellFormed) :
    Splices parse options run (run.fixFile parse options entry) path source entry.problems
      (FixPlan.ofProblems parse (parse source) entry.problems) := by
  have sorted := FileProblems.sorted_of_mem_ofProblems listed
  have ownRanges : entry.problems.Pairwise fun left right => left.range ≠ right.range :=
    FileProblems.pairwise_of_mem_ofProblems Ne.symm listed distinct
  have selected := FixPlan.Selected.ofProblems parse formed sorted ownRanges
  have part := FixPlan.rewritten_sublist parse (parse source) entry.problems
  have edits := fixFile_of_readText parse going inside read rfl
  generalize FixPlan.ofProblems parse (parse source) entry.problems = plan at *
  rcases selected.verdict formed parse with ⟨text, woven, verdict⟩
  have valid := selected.validate_edits formed
  rw [ownSource] at valid woven
  rcases Edit.validate_eq_ok_iff.mp valid with ⟨fits, disjoint⟩
  have refusal : ∀ error, plan.session.applyVerified parse = .error error →
      error = .unparsable := by
    intro error refused
    rcases verdict with verified | unparsable
    · cases verified.symm.trans refused
    · cases unparsable.symm.trans refused
      rfl
  refine ⟨part, selected.ranges, fits, disjoint, valid, refusal, ?_⟩
  rcases edits with ⟨reason, unchanged⟩ |
    ⟨written, location, applying, busy, verified, results, readBack, resolved, frame⟩
  · refine .inl ⟨?_, unchanged⟩
    rcases reason with preview | idle | ⟨error, refused⟩
    · exact .inl preview
    · exact .inr (.inl idle)
    · rw [refusal error refused] at refused
      exact .inr (.inr refused)
  · rcases verdict with verifiedText | unparsable
    · cases verified.symm.trans verifiedText
      exact .inr ⟨text, location, applying, busy, verified, results, woven, readBack, resolved,
        frame⟩
    · cases verified.symm.trans unparsable

open FixPlan (nestedLoops loopAt)

/-- The two loops of `nestedLoops`, the inner one first, a range that overlaps the
inner loop and denotes none, and a loop of another file. -/
def mixedReports : List FileProblem :=
  [⟨⟨"a.php"⟩, loopAt 25 48 26⟩, ⟨⟨"a.php"⟩, loopAt 6 30 7⟩, ⟨⟨"a.php"⟩, loopAt 6 48 7⟩,
    ⟨⟨"b.php"⟩, loopAt 6 48 7⟩]

/-- The problems of the first file, the outer loop first. -/
def mixedEntry : FileProblems := ⟨⟨"a.php"⟩, [loopAt 6 48 7, loopAt 6 30 7, loopAt 25 48 26]⟩

/-- A run over a directory with one file. -/
def singleFileRun : FixRun :=
  { files := { root := .directory [("a.php", .file nestedLoops.toUTF8)] } }

theorem mem_ofProblems_mixedReports : mixedEntry ∈ FileProblems.ofProblems mixedReports := by
  have byFile : mixedReports.mergeSort (fun left right => left.file.isBefore right.file) =
      mixedReports := List.mergeSort_of_pairwise (by decide +kernel)
  have byRange : [loopAt 25 48 26, loopAt 6 30 7, loopAt 6 48 7].mergeSort
      FileProblems.comesFirst = [loopAt 6 48 7, loopAt 6 30 7, loopAt 25 48 26] := by
    simp [List.mergeSort, List.MergeSort.Internal.splitInTwo, FileProblems.comesFirst, loopAt]
  have groups : FileProblems.grouped mixedReports =
      [(⟨"a.php"⟩, [loopAt 25 48 26, loopAt 6 30 7, loopAt 6 48 7]),
        (⟨"b.php"⟩, [loopAt 6 48 7])] := by decide +kernel
  rw [FileProblems.ofProblems, byFile, groups]
  simp only [List.map_cons, byRange]
  exact List.mem_cons_self

set_option maxRecDepth 100000 in
theorem fixFile_splices_fixed_problems_nestedLoops :
    mixedEntry ∈ FileProblems.ofProblems mixedReports ∧
    singleFileRun.files.contain mixedEntry.file (some ⟨"."⟩) = .ok ⟨"/a.php"⟩ ∧
    singleFileRun.files.readText ⟨"/a.php"⟩ = .ok nestedLoops ∧
    (Php.parse nestedLoops).WellFormed ∧
    Splices Php.parse ⟨true, ⟨"."⟩⟩ singleFileRun
      (singleFileRun.fixFile Php.parse ⟨true, ⟨"."⟩⟩ mixedEntry) ⟨"/a.php"⟩ nestedLoops
      mixedEntry.problems
      (FixPlan.ofProblems Php.parse (Php.parse nestedLoops) mixedEntry.problems) :=
  have inside : singleFileRun.files.contain mixedEntry.file (some ⟨"."⟩) = .ok ⟨"/a.php"⟩ := by
    decide +kernel
  have resolved : singleFileRun.files.resolve ⟨"/a.php"⟩ = .ok ["a.php"] := by decide +kernel
  have read : singleFileRun.files.readText ⟨"/a.php"⟩ = .ok nestedLoops :=
    FileSystem.readText_eq_ok_iff.mpr
      ⟨["a.php"], nestedLoops.toUTF8, resolved, rfl, FileSystem.fromUTF8?_toUTF8 nestedLoops⟩
  have formed : (Php.parse nestedLoops).source = nestedLoops ∧
      (Php.parse nestedLoops).WellFormed := by decide +kernel
  ⟨mem_ofProblems_mixedReports, inside, read, formed.2,
    fixFile_splices_fixed_problems Php.parse ⟨true, ⟨"."⟩⟩ singleFileRun mixedReports mixedEntry
      mem_ofProblems_mixedReports (by decide +kernel) ⟨"/a.php"⟩ nestedLoops rfl inside read
      formed.1 formed.2⟩

end FixRun

end LoopLift
