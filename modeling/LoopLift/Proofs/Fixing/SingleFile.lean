import LoopLift.Proofs.Fixing.Suppressed

/-!
# Runs over a single file

In a directory with one file, a run with problems of this file has one turn. What the run
leaves is then said by the plan for the file alone.
-/

namespace LoopLift

open Syntax

/-- Problems of one file that stand in order are its entry. -/
theorem FileProblems.ofProblems_map_mk {file : Path} {problems : List Problem}
    (some : problems ≠ [])
    (sorted : problems.Pairwise fun left right => comesFirst left right = true) :
    ofProblems (problems.map (FileProblem.mk file)) = [⟨file, problems⟩] := by
  have itself : file.isBefore file = true := by simpa using Path.isBefore_total file file
  have byFile : (problems.map (FileProblem.mk file)).mergeSort
      (fun left right => left.file.isBefore right.file) = problems.map (FileProblem.mk file) := by
    apply List.mergeSort_of_pairwise
    rw [List.pairwise_map]
    exact List.pairwise_of_forall fun _ _ => itself
  have together : ∀ first rest, grouped ((first :: rest).map (FileProblem.mk file)) =
      [(file, first :: rest)] := by
    intro first rest
    induction rest generalizing first with
    | nil => rfl
    | cons second rest ih =>
        rw [List.map_cons, grouped, ih]
        simp only [Path.same_iff.mpr rfl, ↓reduceIte]
  rcases List.exists_cons_of_ne_nil some with ⟨first, rest, rfl⟩
  have byRange := List.mergeSort_of_pairwise sorted
  rw [ofProblems, byFile, together]
  simp only [List.map_cons, List.map_nil, byRange]

namespace FixRun

/-- The problems of the one file. -/
def singleAnalysis (problems : List Problem) : Analysis where
  problems := problems.map (FileProblem.mk ⟨"a.php"⟩)

/-- The one turn of an applying run over a single file. -/
def singleTurn (source : String) (problems : List Problem) : Turn where
  reached := opened ⟨true, ⟨"."⟩⟩ (singleFile source) (singleAnalysis problems)
  entry := ⟨⟨"a.php"⟩, problems⟩

/-- The draft of the one turn. -/
def singleDraft (parse : Parser) (source : String) (problems : List Problem) : Draft where
  path := ⟨"/a.php"⟩
  source := source
  plan := FixPlan.ofProblems parse (parse source) problems

variable {parse : Parser} {source text : String} {problems : List Problem}

theorem ofProblems_singleAnalysis (some : problems ≠ [])
    (sorted : problems.Pairwise fun left right => FileProblems.comesFirst left right = true) :
    FileProblems.ofProblems (singleAnalysis problems).problems = [⟨⟨"a.php"⟩, problems⟩] :=
  FileProblems.ofProblems_map_mk some sorted

theorem turnsOf_singleFile (some : problems ≠ [])
    (sorted : problems.Pairwise fun left right => FileProblems.comesFirst left right = true) :
    turnsOf parse ⟨true, ⟨"."⟩⟩ (singleFile source) (singleAnalysis problems) =
      [singleTurn source problems] := by
  rw [turnsOf, ofProblems_singleAnalysis some sorted]
  rfl

theorem draft?_singleTurn :
    (singleTurn source problems).draft? parse ⟨true, ⟨"."⟩⟩ =
      some (singleDraft parse source problems) :=
  Turn.draft?_eq_some_iff.mpr
    ⟨rfl, contain_singleFile source, readText_singleFile source, rfl⟩

theorem output?_singleDraft
    (busy : (FixPlan.ofProblems parse (parse source) problems).rewritten ≠ [])
    (verified : ((FixPlan.ofProblems parse (parse source) problems).session.applyVerified
      parse).toOption = some text) :
    (singleDraft parse source problems).output? parse true = some text := by
  rw [Draft.output?, singleDraft]
  simp only [Bool.true_and, Bool.not_eq_true', List.isEmpty_eq_false_iff.mpr busy, ↓reduceIte]
  exact verified

end FixRun

end LoopLift
