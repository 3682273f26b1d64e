import LoopLift.Proofs.Loop.Fix
import LoopLift.Proofs.FileSystem.Following
import LoopLift.Proofs.Scan.Gathering
import LoopLift.Proofs.Fixing.Selection
import Mathlib.Data.List.Nodup

/-!
# The outcomes of a scan

Each gathered file is inspected by a worker of its own, and workers finish in whatever
order. An outcome goes to the slot of its file, so the slots hold the outcomes in the order
of the files once all workers are done. Nothing is sorted after that: the problems of the
analysis are in order because the files are, and because the loops of a tree with nested
ranges come in the order of their starts, outer loops first.
-/

namespace LoopLift

open Syntax

/-! ## Workers -/

namespace Scan

section Workers

variable (parse : Parser) (files : FileSystem) (gathered : List Path)

/-- A worker finishes with the file at an index: the outcome goes to the slot of the
file. -/
def finish (slots : List (Option FileOutcome)) (index : Nat) : List (Option FileOutcome) :=
  slots.set index (gathered[index]?.map (inspectFile parse files))

/-- The slots after some workers have finished, one slot for each file. -/
def slotsAfter (finished : List Nat) : List (Option FileOutcome) :=
  finished.foldl (finish parse files gathered) (List.replicate gathered.length none)

/-- The analysis when the workers finish in a certain order. -/
def analyzeFinishing (selection : Selection) (paths : List Path) (finished : List Nat) :
    Analysis :=
  let gathering := gather files selection paths
  Analysis.ofOutcomes ((slotsAfter parse files gathering.files finished).filterMap id)
    gathering.directories

variable {parse files gathered}

/-- One more finished worker fills its own slot and no other. -/
theorem getElem?_finish {slots : List (Option FileOutcome)}
    (oneEach : slots.length = gathered.length) (index slot : Nat) :
    (finish parse files gathered slots index)[slot]? =
      if slot = index then gathered[slot]?.map (fun file => some (inspectFile parse files file))
      else slots[slot]? := by
  rw [finish, List.getElem?_set]
  by_cases same : index = slot
  · subst same
    by_cases inRange : index < gathered.length
    · simp [oneEach, inRange]
    · simp [oneEach, inRange]
  · rw [if_neg same, if_neg (Ne.symm same)]

/-- The slots that are filled are those of the finished workers, each with the outcome of
its file. -/
theorem getElem?_slotsAfter (finished : List Nat) (slot : Nat) :
    (slotsAfter parse files gathered finished)[slot]? =
      gathered[slot]?.map fun file =>
        if slot ∈ finished then some (inspectFile parse files file) else none := by
  have filled : ∀ slots : List (Option FileOutcome), slots.length = gathered.length →
      (finished.foldl (finish parse files gathered) slots)[slot]? =
        if slot ∈ finished then
          gathered[slot]?.map fun file => some (inspectFile parse files file)
        else slots[slot]? := by
    induction finished with
    | nil => simp
    | cons index finished ih =>
        intro slots oneEach
        have oneEachNext : (finish parse files gathered slots index).length =
            gathered.length := by
          rw [finish, List.length_set, oneEach]
        rw [List.foldl_cons, ih _ oneEachNext, getElem?_finish oneEach]
        by_cases later : slot ∈ finished
        · simp [later]
        · simp [later]
  rw [slotsAfter, filled _ List.length_replicate]
  split
  · rfl
  · rw [List.getElem?_replicate]
    by_cases inRange : slot < gathered.length
    · simp [inRange]
    · simp [inRange]

/-- When all workers have finished, the slots hold the outcomes in the order of the files,
whatever the order in which the workers have finished. -/
theorem slotsAfter_eq_map {finished : List Nat}
    (all : finished.Perm (List.range gathered.length)) :
    slotsAfter parse files gathered finished =
      gathered.map fun file => some (inspectFile parse files file) := by
  apply List.ext_getElem?
  intro slot
  rw [getElem?_slotsAfter, List.getElem?_map]
  by_cases inRange : slot < gathered.length
  · have done : slot ∈ finished := all.mem_iff.mpr (List.mem_range.mpr inRange)
    simp [done]
  · simp [inRange]

/-- The order in which workers finish does not show in the analysis. -/
theorem analyzeFinishing_eq {selection : Selection} {paths : List Path} {finished : List Nat}
    (all : finished.Perm (List.range (gather files selection paths).files.length)) :
    analyzeFinishing parse files selection paths finished =
      (analyze parse files selection paths).1 := by
  simp only [analyzeFinishing, analyze, slotsAfter_eq_map all]
  congr 1
  rw [List.filterMap_map, List.map_map]
  exact congrFun (List.filterMap_eq_map (f := inspectFile parse files)) _

end Workers

end Scan

/-! ## Problems of one tree -/

/-- A well-formed tree whose loops are not empty and have ranges of their own. -/
structure Syntax.Tree.Regular (tree : Tree) : Prop where
  formed : tree.WellFormed
  nonempty : ∀ loop ∈ tree.loops, loop.start < loop.stop
  distinct : tree.loops.Pairwise fun left right =>
    (left.start, left.stop) ≠ (right.start, right.stop)

/-- A problem starts before another one, or at the same place and ends behind it. -/
def Problem.Precedes (earlier later : Problem) : Prop :=
  earlier.start < later.start ∨ earlier.start = later.start ∧ later.stop < earlier.stop

/-- A problem holds another one, or ends before it. -/
def Problem.HoldsOrEndsBefore (earlier later : Problem) : Prop :=
  later.isNestedIn earlier = true ∨ earlier.stop ≤ later.start

namespace Inspection

/-- The problems of a tree come in the order of their starts, outer ones before those
inside. -/
theorem pairwise_inspect {tree : Tree} (regular : tree.Regular) :
    (inspect tree).Pairwise fun earlier later =>
      earlier.Precedes later ∧ earlier.HoldsOrEndsBefore later := by
  have ordered : tree.loops.Pairwise fun earlier later =>
      (Problem.ofNode earlier).Precedes (Problem.ofNode later) ∧
        (Problem.ofNode earlier).HoldsOrEndsBefore (Problem.ofNode later) := by
    have nested : tree.loops.Pairwise fun earlier later =>
        later.Within earlier ∨ earlier.stop ≤ later.start :=
      regular.formed.nested.pairwise_preorder.filter _
    refine (nested.and regular.distinct).imp_of_mem ?_
    intro earlier later earlierLoop laterLoop both
    rcases both with ⟨placed, different⟩
    have earlierNonempty := regular.nonempty earlier earlierLoop
    rw [Problem.HoldsOrEndsBefore, Problem.isNestedIn_iff]
    simp only [Problem.Precedes, Problem.ofNode, Problem.range, ne_eq, Prod.mk.injEq]
      at different ⊢
    rcases placed with within | behind
    · have := within.1
      have := within.2
      exact ⟨by omega, .inl ⟨within.1, within.2, different⟩⟩
    · exact ⟨by omega, .inr behind⟩
  rw [inspect, List.pairwise_map]
  exact ordered.filter _

theorem length_inspect_le (tree : Tree) : (inspect tree).length ≤ tree.loops.length := by
  rw [inspect, List.length_map]
  exact List.length_filter_le _ _

end Inspection

/-! ## The outcome of one file -/

namespace Scan

/-- Number of lines that a file adds to a scan. A file that cannot be read adds none. -/
def linesIn (files : FileSystem) (file : Path) : Nat :=
  match files.readText file with
  | .ok source => Text.countLines source.toList
  | .error _ => 0

/-- Number of loops that a file adds to a scan. A file that cannot be read adds none. -/
def loopsIn (parse : Parser) (files : FileSystem) (file : Path) : Nat :=
  match files.readText file with
  | .ok source => (parse source).loops.length
  | .error _ => 0

variable {parse : Parser} {files : FileSystem} {file : Path}

theorem lines_inspectFile : (inspectFile parse files file).lines = linesIn files file := by
  rw [inspectFile, linesIn]
  cases files.readText file <;> rfl

theorem loops_inspectFile : (inspectFile parse files file).loops = loopsIn parse files file := by
  rw [inspectFile, loopsIn]
  cases files.readText file <;> rfl

theorem file_of_mem_problems {item : FileProblem}
    (member : item ∈ (inspectFile parse files file).problems) : item.file = file := by
  rw [inspectFile] at member
  split at member
  · rcases List.mem_map.mp member with ⟨problem, -, rfl⟩
    rfl
  · cases member

theorem file_of_failure {failure : FileFailure}
    (failed : (inspectFile parse files file).failure = some failure) : failure.file = file := by
  rw [inspectFile] at failed
  split at failed
  · rw [FileOutcome.ofSource, Option.ite_none_right_eq_some] at failed
    cases failed.2
    rfl
  · cases failed
    rfl

theorem length_problems_le : (inspectFile parse files file).problems.length ≤
    (inspectFile parse files file).loops := by
  rw [inspectFile]
  split
  · simpa [FileOutcome.ofSource] using Inspection.length_inspect_le _
  · exact Nat.le_refl _

theorem pairwise_problems
    (regular : ∀ source, files.readText file = .ok source → (parse source).Regular) :
    (inspectFile parse files file).problems.Pairwise fun earlier later =>
      earlier.problem.Precedes later.problem ∧
        earlier.problem.HoldsOrEndsBefore later.problem := by
  rw [inspectFile]
  split
  · rename_i source read
    exact List.pairwise_map.mpr (Inspection.pairwise_inspect (regular source read))
  · exact .nil

end Scan

/-! ## The analysis -/

/-- A reported problem comes before another one: by the paths of the files, and in one file
by the starts and, from one start, by the ends in reverse. -/
def FileProblem.Precedes (earlier later : FileProblem) : Prop :=
  earlier.file.order later.file = .lt ∨
    earlier.file = later.file ∧ earlier.problem.Precedes later.problem

/-- An analysis of files, given in their order, reports in order and counts what it reports.
Problems ascend strictly by file and place, and in one file they are nested or disjoint, the
outer before the inner. Failures ascend strictly by file, so that a file has one at most. The
summary counts problems and failures, and adds up the lines and the loops of the files. A
file that cannot be read adds a failure that tells the reason, and nothing else. -/
structure Analysis.Reports (parse : Parser) (files : FileSystem) (scanned : List Path)
    (analysis : Analysis) : Prop where
  ascending : analysis.problems.Pairwise FileProblem.Precedes
  nested : analysis.problems.Pairwise fun earlier later =>
    earlier.file = later.file → earlier.problem.HoldsOrEndsBefore later.problem
  failures : analysis.failures.Pairwise fun earlier later =>
    earlier.file.order later.file = .lt
  fixableCount : analysis.summary.fixable = analysis.problems.length
  fixable_le_loops : analysis.problems.length ≤ analysis.summary.loops
  failureCount : analysis.summary.failures = analysis.failures.length
  fileCount : analysis.summary.files = scanned.length
  lineCount : analysis.summary.lines = total (scanned.map (Scan.linesIn files))
  loopCount : analysis.summary.loops = total (scanned.map (Scan.loopsIn parse files))
  unreadable : ∀ file ∈ scanned, ∀ error, files.readText file = .error error →
    analysis.failures.filter (fun failure => failure.file == file) =
        [⟨file, "Failed to read file: " ++ error.message⟩] ∧
      (∀ item ∈ analysis.problems, item.file ≠ file) ∧
      Scan.linesIn files file = 0 ∧ Scan.loopsIn parse files file = 0

namespace Scan

variable {parse : Parser} {files : FileSystem} {scanned : List Path}

/-- The analysis of the outcomes of files. -/
abbrev analysisOf (parse : Parser) (files : FileSystem) (scanned : List Path)
    (directories : Nat) : Analysis :=
  Analysis.ofOutcomes (scanned.map (inspectFile parse files)) directories

theorem problems_analysisOf (directories : Nat) :
    (analysisOf parse files scanned directories).problems =
      scanned.flatMap fun file => (inspectFile parse files file).problems := by
  rw [analysisOf, Analysis.ofOutcomes, List.flatMap_map]

theorem failures_analysisOf (directories : Nat) :
    (analysisOf parse files scanned directories).failures =
      scanned.filterMap fun file => (inspectFile parse files file).failure := by
  rw [analysisOf, Analysis.ofOutcomes, List.filterMap_map]
  rfl

/-- A strict order of the files gives a strict order of what they report. -/
theorem pairwise_problems_analysisOf (directories : Nat)
    (ordered : scanned.Pairwise fun left right => left.order right = .lt)
    (regular : ∀ file ∈ scanned, ∀ source, files.readText file = .ok source →
      (parse source).Regular) :
    (analysisOf parse files scanned directories).problems.Pairwise fun earlier later =>
      earlier.Precedes later ∧
        (earlier.file = later.file → earlier.problem.HoldsOrEndsBefore later.problem) := by
  rw [problems_analysisOf, List.pairwise_flatMap]
  constructor
  · intro file member
    refine (pairwise_problems (regular file member)).imp_of_mem ?_
    intro earlier later earlierMember laterMember both
    have sameFile : earlier.file = later.file :=
      (file_of_mem_problems earlierMember).trans (file_of_mem_problems laterMember).symm
    exact ⟨.inr ⟨sameFile, both.1⟩, fun _ => both.2⟩
  · refine ordered.imp ?_
    intro left right before earlier earlierMember later laterMember
    rw [← file_of_mem_problems earlierMember, ← file_of_mem_problems laterMember] at before
    refine ⟨.inl before, ?_⟩
    intro sameFile
    rw [sameFile] at before
    exact absurd before (Path.order_lt_irrefl _)

theorem pairwise_failures_analysisOf (directories : Nat)
    (ordered : scanned.Pairwise fun left right => left.order right = .lt) :
    (analysisOf parse files scanned directories).failures.Pairwise fun earlier later =>
      earlier.file.order later.file = .lt := by
  rw [failures_analysisOf, List.pairwise_filterMap]
  refine ordered.imp ?_
  intro left right before earlier earlierFailed later laterFailed
  rw [file_of_failure earlierFailed, file_of_failure laterFailed]
  exact before

/-- The failures of a file are those of its own outcome. -/
theorem filter_failures_analysisOf (directories : Nat) {file : Path}
    (ordered : scanned.Pairwise fun left right => left.order right = .lt)
    (member : file ∈ scanned) :
    (analysisOf parse files scanned directories).failures.filter
        (fun failure => failure.file == file) =
      (inspectFile parse files file).failure.toList := by
  have once : scanned.filter (fun other => other == file) = [file] := by
    have distinct : scanned.Nodup := by
      refine ordered.imp ?_
      rintro left _ before rfl
      exact Path.order_lt_irrefl left before
    rw [List.filter_beq, List.count_eq_one_of_mem distinct member, List.replicate_one]
  calc (analysisOf parse files scanned directories).failures.filter
        (fun failure => failure.file == file)
      = scanned.filterMap fun other =>
          if other == file then (inspectFile parse files other).failure else none := by
        rw [failures_analysisOf, List.filter_filterMap]
        apply List.filterMap_congr
        intro other otherMember
        cases failed : (inspectFile parse files other).failure with
        | none => simp
        | some failure => simp [Option.filter, file_of_failure failed]
    _ = (scanned.filter fun other => other == file).filterMap fun other =>
          (inspectFile parse files other).failure := List.filterMap_filter.symm
    _ = (inspectFile parse files file).failure.toList := by
        rw [once, List.filterMap_cons]
        cases (inspectFile parse files file).failure <;> rfl

/-- The analysis of regular files in their order reports in order and counts what it
reports. -/
theorem reports_analysisOf (directories : Nat)
    (ordered : scanned.Pairwise fun left right => left.order right = .lt)
    (regular : ∀ file ∈ scanned, ∀ source, files.readText file = .ok source →
      (parse source).Regular) :
    (analysisOf parse files scanned directories).Reports parse files scanned := by
  have problems := pairwise_problems_analysisOf directories ordered regular
  have lineCount : (analysisOf parse files scanned directories).summary.lines =
      total (scanned.map (linesIn files)) := by
    simp only [analysisOf, Analysis.ofOutcomes, List.map_map]
    congr 1
    exact List.map_congr_left fun file _ => lines_inspectFile
  have loopCount : (analysisOf parse files scanned directories).summary.loops =
      total (scanned.map (loopsIn parse files)) := by
    simp only [analysisOf, Analysis.ofOutcomes, List.map_map]
    congr 1
    exact List.map_congr_left fun file _ => loops_inspectFile
  refine ⟨problems.imp And.left, problems.imp And.right,
    pairwise_failures_analysisOf directories ordered, rfl, ?_, rfl, by simp [Analysis.ofOutcomes],
    lineCount, loopCount, ?_⟩
  · rw [loopCount, problems_analysisOf, ← total_map_length]
    apply total_map_le
    intro file _
    rw [← loops_inspectFile]
    exact length_problems_le
  · intro file member error unread
    refine ⟨?_, ?_, by rw [linesIn, unread], by rw [loopsIn, unread]⟩
    · rw [filter_failures_analysisOf directories ordered member, inspectFile, unread]
      rfl
    · intro item reported sameFile
      rw [problems_analysisOf] at reported
      rcases List.mem_flatMap.mp reported with ⟨other, -, inOutcome⟩
      rw [← file_of_mem_problems inOutcome, sameFile, inspectFile, unread] at inOutcome
      cases inOutcome

/-- Whatever the order in which the workers finish, the analysis of files whose trees are
regular is that of the files one after the other, it reports in the order of the files, and
it counts what it reports. -/
theorem analysis_reports_in_order (parse : Parser) (files : FileSystem) (selection : Selection)
    (paths : List Path) (finished : List Nat)
    (all : finished.Perm (List.range (gather files selection paths).files.length))
    (regular : ∀ file ∈ (gather files selection paths).files, ∀ source,
      files.readText file = .ok source → (parse source).Regular) :
    analyzeFinishing parse files selection paths finished =
        (analyze parse files selection paths).1 ∧
      (analyzeFinishing parse files selection paths finished).Reports parse files
        (gather files selection paths).files := by
  have unchanged : analyzeFinishing parse files selection paths finished =
      (analyze parse files selection paths).1 := analyzeFinishing_eq all
  have analysis : (analyze parse files selection paths).1 =
      analysisOf parse files (gather files selection paths).files
        (gather files selection paths).directories := by
    simp only [analyze, analysisOf, List.map_map]
    rfl
  refine ⟨unchanged, ?_⟩
  rw [unchanged, analysis]
  exact reports_analysisOf _ (pairwise_gather files selection paths) regular

/-- A file with a loop in a loop, and a file that is no text. -/
def twoFiles : FileSystem :=
  { root := .directory
      [("a.php", .file FixPlan.nestedLoops.toUTF8), ("b.php", .file ⟨#[0xff]⟩)] }

theorem files_gather_twoFiles :
    (gather twoFiles {} [⟨"b.php"⟩, ⟨"a.php"⟩]).files = [⟨"a.php"⟩, ⟨"b.php"⟩] := by
  have given : ∀ path ∈ [(⟨"a.php"⟩ : Path), ⟨"b.php"⟩], twoFiles.isDirectory path = false ∧
      twoFiles.isFile path = true ∧ Selection.takes {} path = true := by decide +kernel
  have order : Path.isBefore ⟨"b.php"⟩ ⟨"a.php"⟩ = false ∧
      Path.same ⟨"b.php"⟩ ⟨"a.php"⟩ = false := by decide +kernel
  have first := given ⟨"a.php"⟩ (by simp)
  have second := given ⟨"b.php"⟩ (by simp)
  simp [gather, gatherPath, first, second, List.mergeSort, List.MergeSort.Internal.splitInTwo,
    order, dropRepeats, dropRepeats.dropFrom]

set_option maxRecDepth 100000 in
theorem regular_nestedLoops : (Php.parse FixPlan.nestedLoops).Regular := by
  have given : (Php.parse FixPlan.nestedLoops).WellFormed ∧
      (∀ loop ∈ (Php.parse FixPlan.nestedLoops).loops, loop.start < loop.stop) ∧
      (Php.parse FixPlan.nestedLoops).loops.Pairwise fun left right =>
        (left.start, left.stop) ≠ (right.start, right.stop) := by decide +kernel
  exact ⟨given.1, given.2.1, given.2.2⟩

theorem analysis_reports_in_order_twoFiles :
    [1, 0].Perm (List.range (gather twoFiles {} [⟨"b.php"⟩, ⟨"a.php"⟩]).files.length) ∧
    (analyzeFinishing Php.parse twoFiles {} [⟨"b.php"⟩, ⟨"a.php"⟩] [1, 0]).Reports Php.parse
      twoFiles (gather twoFiles {} [⟨"b.php"⟩, ⟨"a.php"⟩]).files := by
  have all : [1, 0].Perm
      (List.range (gather twoFiles {} [⟨"b.php"⟩, ⟨"a.php"⟩]).files.length) := by
    rw [files_gather_twoFiles]
    decide
  have regular : ∀ file ∈ (gather twoFiles {} [⟨"b.php"⟩, ⟨"a.php"⟩]).files, ∀ source,
      twoFiles.readText file = .ok source → (Php.parse source).Regular := by
    rw [files_gather_twoFiles]
    have firstPlace : twoFiles.resolve ⟨"a.php"⟩ = .ok ["a.php"] := by decide +kernel
    have secondPlace : twoFiles.resolve ⟨"b.php"⟩ = .ok ["b.php"] := by decide +kernel
    have noText : String.fromUTF8? ⟨#[0xff]⟩ = none := by decide +kernel
    have firstText : twoFiles.readText ⟨"a.php"⟩ = .ok FixPlan.nestedLoops :=
      FileSystem.readText_eq_ok_iff.mpr
        ⟨_, _, firstPlace, rfl, FileSystem.fromUTF8?_toUTF8 FixPlan.nestedLoops⟩
    intro file member source read
    simp only [List.mem_cons, List.not_mem_nil, or_false] at member
    rcases member with rfl | rfl
    · cases firstText.symm.trans read
      exact regular_nestedLoops
    · rcases FileSystem.readText_eq_ok_iff.mp read with ⟨location, content, place, found, text⟩
      cases secondPlace.symm.trans place
      cases found
      cases noText.symm.trans text
  exact ⟨all, (analysis_reports_in_order Php.parse twoFiles {} [⟨"b.php"⟩, ⟨"a.php"⟩] [1, 0] all
    regular).2⟩

end Scan

end LoopLift
