import LoopLift.Analysis.Scan
import LoopLift.Proofs.Path.Order
import LoopLift.Proofs.Path.Segments
import Mathlib.Data.List.Pairwise

/-!
# Gathered files

The files of a scan are gathered from its paths, sorted, and freed of repeats, so
that no two of them have the same components. What is gathered below an absolute
path is absolute. Every problem of the analysis is a problem of a gathered file
that was read.
-/

namespace LoopLift

open Syntax

/-! ## Repeats -/

namespace Scan

theorem pairwise_dropFrom {last : Path} {paths : List Path}
    (sorted : (last :: paths).Pairwise fun left right => left.isBefore right = true) :
    (last :: dropRepeats.dropFrom last paths).Pairwise fun left right =>
      left.order right = .lt := by
  induction paths generalizing last with
  | nil => exact List.pairwise_singleton _ _
  | cons path rest ih =>
      rcases List.pairwise_cons.mp sorted with ⟨lastFirst, sortedRest⟩
      rw [dropRepeats.dropFrom]
      split
      · apply ih
        rw [List.pairwise_cons]
        exact ⟨fun other member => lastFirst other (List.mem_cons_of_mem _ member),
          (List.pairwise_cons.mp sortedRest).2⟩
      · rename_i different
        have before : last.order path = .lt :=
          Path.order_lt_of_isBefore (lastFirst path (by simp)) (Bool.eq_false_iff.mpr different)
        have strict := ih sortedRest
        rw [List.pairwise_cons]
        refine ⟨?_, strict⟩
        intro other member
        rcases List.mem_cons.mp member with rfl | later
        · exact before
        · exact Path.order_lt_trans before ((List.pairwise_cons.mp strict).1 other later)

theorem mem_of_mem_dropFrom {last path : Path} {paths : List Path}
    (member : path ∈ dropRepeats.dropFrom last paths) : path ∈ paths := by
  induction paths generalizing last with
  | nil => cases member
  | cons first rest ih =>
      rw [dropRepeats.dropFrom] at member
      split at member
      · exact List.mem_cons_of_mem _ (ih member)
      · rcases List.mem_cons.mp member with rfl | later
        · exact List.mem_cons_self
        · exact List.mem_cons_of_mem _ (ih later)

theorem mem_of_mem_dropRepeats {path : Path} {paths : List Path}
    (member : path ∈ dropRepeats paths) : path ∈ paths := by
  cases paths with
  | nil => cases member
  | cons first rest =>
      rcases List.mem_cons.mp member with rfl | later
      · exact List.mem_cons_self
      · exact List.mem_cons_of_mem _ (mem_of_mem_dropFrom later)

/-- The gathered files stand in the order of their paths, each once. -/
theorem pairwise_gather (files : FileSystem) (selection : Selection) (paths : List Path) :
    (gather files selection paths).files.Pairwise fun left right => left.order right = .lt := by
  rw [gather]
  simp only
  generalize sortedEq : List.mergeSort _ Path.isBefore = sorted
  have inOrder : sorted.Pairwise fun left right => left.isBefore right = true := by
    rw [← sortedEq]
    exact Path.pairwise_mergeSort_isBefore _
  cases sorted with
  | nil => exact List.Pairwise.nil
  | cons first rest => exact pairwise_dropFrom inOrder

/-- No two gathered files are the same. -/
theorem eq_of_same_of_mem_gather {files : FileSystem} {selection : Selection} {paths : List Path}
    {left right : Path} (leftMember : left ∈ (gather files selection paths).files)
    (rightMember : right ∈ (gather files selection paths).files)
    (same : left.same right = true) : left = right := by
  have apart : (gather files selection paths).files.Pairwise fun left right =>
      left.same right = false := by
    apply (pairwise_gather files selection paths).imp
    intro left right before
    exact Path.same_eq_false_of_order_lt before
  have : Std.Symm fun left right : Path => left.same right = false :=
    ⟨fun left right different => by rwa [Path.same, BEq.comm]⟩
  by_contra different
  have distinct := apart.forall leftMember rightMember different
  rw [same] at distinct
  cases distinct

theorem exists_gatherPath_of_mem_gather {files : FileSystem} {selection : Selection}
    {paths : List Path} {file : Path} (member : file ∈ (gather files selection paths).files) :
    ∃ path ∈ (if paths.isEmpty then [⟨"."⟩] else paths),
      file ∈ (gatherPath files selection path).files := by
  have inSorted := mem_of_mem_dropRepeats member
  rw [List.mem_mergeSort, List.mem_flatMap] at inSorted
  rcases inSorted with ⟨gathering, ofPath, inGathering⟩
  rcases List.mem_map.mp ofPath with ⟨path, given, rfl⟩
  exact ⟨path, given, inGathering⟩

end Scan

/-! ## Absolute paths -/

namespace Walk

theorem mem_files_append {left right : Harvest} {file : Path} :
    file ∈ (left ++ right).files ↔ file ∈ left.files ∨ file ∈ right.files :=
  List.mem_append

theorem eq_of_mem_file {selection : Selection} {path file : Path}
    (member : file ∈ (selection.file path).files) : file = path := by
  rw [Selection.file] at member
  split at member
  · exact List.mem_singleton.mp member
  · cases member

mutual

theorem isAbsolute_of_mem_entry {path file : Path} (absolute : path.isAbsolute = true)
    (visit : Visit) (name : String) :
    (below : Entry) → file ∈ (entry visit path name below).files → file.isAbsolute = true
  | .directory entries, member => by
      rw [entry] at member
      split at member
      · cases member
      · split at member
        · cases member
        · rcases mem_files_append.mp member with counted | inside
          · cases counted
          · exact isAbsolute_of_mem_entriesOf absolute (visit.enter path) entries inside
  | .file _, member => by
      rw [entry] at member
      split at member
      · cases member
      · rw [eq_of_mem_file member]
        exact absolute
  | .link _, member => by
      rw [entry] at member
      split at member
      · cases member
      · rw [eq_of_mem_file member]
        exact absolute

theorem isAbsolute_of_mem_entriesOf {directory file : Path}
    (absolute : directory.isAbsolute = true) (visit : Visit) :
    (entries : List (String × Entry)) → file ∈ (entriesOf visit directory entries).files →
      file.isAbsolute = true
  | [], member => by cases member
  | (name, below) :: rest, member => by
      rw [entriesOf] at member
      rcases mem_files_append.mp member with here | later
      · exact isAbsolute_of_mem_entry (Path.isAbsolute_join absolute ⟨name⟩) visit name below here
      · exact isAbsolute_of_mem_entriesOf absolute visit rest later

end

theorem isAbsolute_of_mem_unsorted {files : FileSystem} {selection : Selection}
    {start file : Path} (absolute : start.isAbsolute = true)
    (member : file ∈ (unsorted files selection start).files) : file.isAbsolute = true := by
  rw [unsorted] at member
  split at member
  · cases member
  · split at member
    · simp only at member
      rcases mem_files_append.mp member with before | inside
      · rcases mem_files_append.mp before with none | own
        · cases none
        · split at own
          · rw [eq_of_mem_file own]
            exact absolute
          · cases own
      · exact isAbsolute_of_mem_entriesOf absolute _ _ inside
    · rw [eq_of_mem_file member]
      exact absolute

end Walk

namespace Scan

/-- What is gathered for an absolute path is absolute. -/
theorem isAbsolute_of_mem_gatherPath {files : FileSystem} {selection : Selection}
    {path file : Path} (absolute : path.isAbsolute = true)
    (member : file ∈ (gatherPath files selection path).files) : file.isAbsolute = true := by
  rw [gatherPath] at member
  split at member
  · apply Walk.isAbsolute_of_mem_unsorted absolute
    exact List.mem_mergeSort.mp member
  · split at member
    · rw [List.mem_singleton.mp member]
      exact absolute
    · cases member

/-! ## Problems of an analysis -/

/-- The problems of an analysis are those of the gathered files that can be read. -/
theorem mem_problems_analyze_iff {parse : Parser} {files : FileSystem} {selection : Selection}
    {paths : List Path} {item : FileProblem} :
    item ∈ (analyze parse files selection paths).1.problems ↔
      item.file ∈ (gather files selection paths).files ∧
        ∃ source, files.readText item.file = .ok source ∧
          item.problem ∈ Inspection.inspect (parse source) := by
  simp only [analyze, Analysis.ofOutcomes, List.map_map, List.mem_flatMap, List.mem_map,
    Function.comp_apply]
  constructor
  · rintro ⟨outcome, ⟨file, gathered, rfl⟩, inOutcome⟩
    rw [inspectFile] at inOutcome
    split at inOutcome
    · rename_i source read
      rcases List.mem_map.mp inOutcome with ⟨problem, inspected, rfl⟩
      exact ⟨gathered, source, read, inspected⟩
    · cases inOutcome
  · rintro ⟨gathered, source, read, inspected⟩
    refine ⟨_, ⟨item.file, gathered, rfl⟩, ?_⟩
    rw [inspectFile, read]
    exact List.mem_map_of_mem inspected

end Scan

end LoopLift
