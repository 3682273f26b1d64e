import LoopLift.Proofs.FileSystem.Reaching
import LoopLift.Proofs.Scan.Gathering

/-!
# Files that are listed more than once

A scan lists every path that it finds once, and paths are told apart by their
components. In a file system without links, two of them denote one file exactly
if their components lead to one place. This does not happen when all given paths
consist of names behind a common start, since names alone lead to different
places. It does happen when a file is given with and without a leading `.`.
-/

namespace LoopLift

/-! ## Paths of a walk -/

namespace Walk

mutual

/-- What a walk finds at or below an entry has names behind the path of the
entry. -/
theorem exists_names_of_mem_entry {path file : Path} (visit : Visit) (name : String) :
    (below : Entry) → below.isPlain = true → file ∈ (entry visit path name below).files →
      ∃ names : List String, file.components = path.components ++ names.map .name
  | .directory entries, plain, member => by
      rw [Entry.isPlain] at plain
      rw [entry] at member
      split at member
      · cases member
      · split at member
        · cases member
        · rcases mem_files_append.mp member with counted | inside
          · cases counted
          · exact exists_names_of_mem_entriesOf (visit.enter path) entries plain inside
  | .file _, _, member => by
      rw [entry] at member
      split at member
      · cases member
      · exact ⟨[], by simp [eq_of_mem_file member]⟩
  | .link _, plain, _ => by
      rw [Entry.isPlain] at plain
      cases plain

theorem exists_names_of_mem_entriesOf {directory file : Path} (visit : Visit) :
    (entries : List (String × Entry)) → Entry.arePlain entries = true →
      file ∈ (entriesOf visit directory entries).files →
      ∃ names : List String, file.components = directory.components ++ names.map .name
  | [], _, member => by cases member
  | (name, below) :: rest, plain, member => by
      rcases Entry.arePlain_cons_iff.mp plain with ⟨proper, belowPlain, restPlain⟩
      rw [entriesOf] at member
      rcases mem_files_append.mp member with here | later
      · rcases exists_names_of_mem_entry visit name below belowPlain here with ⟨names, read⟩
        refine ⟨name :: names, ?_⟩
        rw [read, Path.components_child proper, List.append_assoc]
        rfl
      · exact exists_names_of_mem_entriesOf visit rest restPlain later

end

theorem exists_names_of_mem_unsorted {files : FileSystem} {selection : Selection}
    {start file : Path} (plain : files.root.isPlain = true)
    (member : file ∈ (unsorted files selection start).files) :
    ∃ names : List String, file.components = start.components ++ names.map .name := by
  have itself : ∀ {other : Path}, other = start →
      ∃ names : List String, other.components = start.components ++ names.map .name := by
    rintro other rfl
    exact ⟨[], by simp⟩
  rw [unsorted] at member
  split at member
  · cases member
  · split at member
    · rename_i entries found
      have entriesPlain := Entry.isPlain_of_at? plain found
      rw [Entry.isPlain] at entriesPlain
      simp only at member
      rcases mem_files_append.mp member with before | inside
      · rcases mem_files_append.mp before with none | own
        · cases none
        · split at own
          · exact itself (eq_of_mem_file own)
          · cases own
      · exact exists_names_of_mem_entriesOf _ entries entriesPlain inside
    · exact itself (eq_of_mem_file member)

end Walk

/-! ## The list of a scan -/

namespace Scan

variable {files : FileSystem} {selection : Selection} {paths : List Path}

theorem exists_names_of_mem_gatherPath {path file : Path} (plain : files.root.isPlain = true)
    (member : file ∈ (gatherPath files selection path).files) :
    ∃ names : List String, file.components = path.components ++ names.map .name := by
  rw [gatherPath] at member
  split at member
  · apply Walk.exists_names_of_mem_unsorted plain
    exact List.mem_mergeSort.mp member
  · split at member
    · rw [List.mem_singleton.mp member]
      exact ⟨[], by simp⟩
    · cases member

/-- A path that is left out has the components of one that is kept. -/
theorem exists_mem_dropFrom (last : Path) {path : Path} {paths : List Path}
    (member : path ∈ paths) :
    ∃ kept ∈ last :: dropRepeats.dropFrom last paths, kept.components = path.components := by
  induction paths generalizing last with
  | nil => cases member
  | cons first rest ih =>
      rw [dropRepeats.dropFrom]
      split
      · rename_i same
        rcases List.mem_cons.mp member with rfl | later
        · exact ⟨last, List.mem_cons_self, (Path.same_iff.mp same).symm⟩
        · exact ih last later
      · rcases List.mem_cons.mp member with rfl | later
        · exact ⟨path, by simp, rfl⟩
        · rcases ih first later with ⟨kept, inKept, read⟩
          exact ⟨kept, List.mem_cons_of_mem _ inKept, read⟩

/-- Every path that was found is listed, as far as its components go. -/
theorem exists_mem_gather {path file : Path}
    (given : path ∈ if paths.isEmpty then [⟨"."⟩] else paths)
    (member : file ∈ (gatherPath files selection path).files) :
    ∃ listed ∈ (gather files selection paths).files, listed.components = file.components := by
  have found : file ∈ (((if paths.isEmpty then [⟨"."⟩] else paths).map
      (gatherPath files selection)).flatMap Gathering.files).mergeSort Path.isBefore := by
    rw [List.mem_mergeSort, List.mem_flatMap]
    exact ⟨_, List.mem_map_of_mem given, member⟩
  rw [gather]
  simp only
  generalize List.mergeSort _ Path.isBefore = sorted at found
  cases sorted with
  | nil => cases found
  | cons first rest =>
      rcases List.mem_cons.mp found with rfl | later
      · exact ⟨file, List.mem_cons_self, rfl⟩
      · exact exists_mem_dropFrom _ later

theorem pairwise_components_gather (files : FileSystem) (selection : Selection)
    (paths : List Path) :
    (gather files selection paths).files.Pairwise fun left right =>
      left.components ≠ right.components := by
  apply (pairwise_gather files selection paths).imp
  intro left right before same
  have apart := Path.same_eq_false_of_order_lt before
  rw [Path.same_iff.mpr same] at apart
  cases apart

/-- Two paths of names behind a common start that lead to one place have the same
components. -/
theorem components_eq_of_resolve_eq {lead : List Component} {left right : Path}
    {location : Location} (plain : files.root.isPlain = true)
    (leftNames : ∃ names : List String, left.components = lead ++ names.map .name)
    (rightNames : ∃ names : List String, right.components = lead ++ names.map .name)
    (leftPlace : files.resolve left = .ok location)
    (rightPlace : files.resolve right = .ok location) : left.components = right.components := by
  rcases leftNames with ⟨leftNames, leftRead⟩
  rcases rightNames with ⟨rightNames, rightRead⟩
  have unlinked := FileSystem.unlinked_of_isPlain plain
  have reached : files.reach left = files.reach right := by
    rw [← FileSystem.eq_reach_of_resolve (unlinked left) leftPlace,
      ← FileSystem.eq_reach_of_resolve (unlinked right) rightPlace]
  rw [FileSystem.reach, FileSystem.reach, leftRead, rightRead, Location.reach_append,
    Location.reach_append, Location.reach_names, Location.reach_names] at reached
  rw [leftRead, rightRead, List.append_cancel_left reached]

/-- In a file system without links, a scan lists every path that it finds, once for
each list of components. Two listed paths denote one file exactly if their
components lead to one place. If all given paths consist of names behind a common
start, such as none, `.`, or the top, no two listed paths denote one file. -/
theorem file_repeats_only_respelled (files : FileSystem) (plain : files.root.isPlain = true)
    (selection : Selection) (paths : List Path) :
    (∀ path ∈ (if paths.isEmpty then [⟨"."⟩] else paths),
      ∀ file ∈ (gatherPath files selection path).files,
        ∃ listed ∈ (gather files selection paths).files, listed.components = file.components) ∧
    ((gather files selection paths).files.Pairwise fun left right =>
      left.components ≠ right.components) ∧
    (∀ left ∈ (gather files selection paths).files,
      ∀ right ∈ (gather files selection paths).files, ∀ here there,
        files.resolve left = .ok here → files.resolve right = .ok there →
          (here = there ↔ files.reach left = files.reach right)) ∧
    ∀ lead : List Component,
      (∀ path ∈ (if paths.isEmpty then [⟨"."⟩] else paths),
        ∃ names : List String, path.components = lead ++ names.map .name) →
      (gather files selection paths).files.Pairwise fun left right =>
        ∀ location, files.resolve left = .ok location → files.resolve right ≠ .ok location := by
  refine ⟨?_, pairwise_components_gather files selection paths, ?_, ?_⟩
  · intro path given file member
    exact exists_mem_gather given member
  · intro left _ right _ here there leftPlace rightPlace
    rw [FileSystem.eq_reach_of_resolve (FileSystem.unlinked_of_isPlain plain left) leftPlace,
      FileSystem.eq_reach_of_resolve (FileSystem.unlinked_of_isPlain plain right) rightPlace]
  · intro lead alike
    have named : ∀ file ∈ (gather files selection paths).files,
        ∃ names : List String, file.components = lead ++ names.map .name := by
      intro file member
      rcases exists_gatherPath_of_mem_gather member with ⟨path, given, inPath⟩
      rcases alike path given with ⟨front, read⟩
      rcases exists_names_of_mem_gatherPath plain inPath with ⟨names, behind⟩
      exact ⟨front ++ names, by rw [behind, read, List.map_append, List.append_assoc]⟩
    apply (pairwise_components_gather files selection paths).imp_of_mem
    intro left right leftMember rightMember different location leftPlace rightPlace
    exact different (components_eq_of_resolve_eq plain (named left leftMember)
      (named right rightMember) leftPlace rightPlace)

/-- A file in a folder. -/
def fileInFolder : FileSystem where
  root := .directory [("app", .directory [("a.php", .file "<?php".toUTF8)])]

theorem file_repeats_only_respelled_fileInFolder :
    fileInFolder.root.isPlain = true ∧
    (∀ path ∈ [(⟨"app/a.php"⟩ : Path), ⟨"app"⟩, ⟨"app//a.php"⟩],
      ∃ names : List String, path.components = [] ++ names.map .name) ∧
    (gather fileInFolder {} [⟨"app/a.php"⟩, ⟨"app"⟩, ⟨"app//a.php"⟩]).files.Pairwise
      fun left right => ∀ location,
        fileInFolder.resolve left = .ok location → fileInFolder.resolve right ≠ .ok location := by
  have plain : fileInFolder.root.isPlain = true := by decide +kernel
  have alike : ∀ path ∈ [(⟨"app/a.php"⟩ : Path), ⟨"app"⟩, ⟨"app//a.php"⟩],
      ∃ names : List String, path.components = [] ++ names.map .name := by
    have file : Path.components ⟨"app/a.php"⟩ = ["app", "a.php"].map .name := by decide +kernel
    have folder : Path.components ⟨"app"⟩ = ["app"].map .name := by decide +kernel
    have slashes : Path.components ⟨"app//a.php"⟩ = ["app", "a.php"].map .name := by decide +kernel
    simp only [List.forall_mem_cons]
    exact ⟨⟨["app", "a.php"], file⟩, ⟨["app"], folder⟩, ⟨["app", "a.php"], slashes⟩, by simp⟩
  exact ⟨plain, alike, (file_repeats_only_respelled fileInFolder plain {} _).2.2.2 [] alike⟩

theorem files_gather_fileInFolder :
    (gather fileInFolder {} [⟨"app/a.php"⟩, ⟨"./app/a.php"⟩]).files =
      [⟨"./app/a.php"⟩, ⟨"app/a.php"⟩] := by
  have given : ∀ path ∈ [(⟨"app/a.php"⟩ : Path), ⟨"./app/a.php"⟩],
      fileInFolder.isDirectory path = false ∧ fileInFolder.isFile path = true ∧
        Selection.takes {} path = true := by decide +kernel
  have order : Path.isBefore ⟨"app/a.php"⟩ ⟨"./app/a.php"⟩ = false ∧
      Path.same ⟨"app/a.php"⟩ ⟨"./app/a.php"⟩ = false := by decide +kernel
  have first := given ⟨"app/a.php"⟩ (by simp)
  have second := given ⟨"./app/a.php"⟩ (by simp)
  simp [gather, gatherPath, first, second, List.mergeSort, List.MergeSort.Internal.splitInTwo,
    order, dropRepeats, dropRepeats.dropFrom]

/-- A file that is given with and without a leading `.` is listed twice. -/
theorem respelled_file_is_listed_twice :
    ¬ ∀ (files : FileSystem) (selection : Selection) (paths : List Path),
      files.root.isPlain = true →
      (gather files selection paths).files.Pairwise fun left right =>
        ∀ location, files.resolve left = .ok location → files.resolve right ≠ .ok location := by
  intro once
  have apart := once fileInFolder {} [⟨"app/a.php"⟩, ⟨"./app/a.php"⟩] (by decide +kernel)
  rw [files_gather_fileInFolder, List.pairwise_pair] at apart
  have first : fileInFolder.resolve ⟨"./app/a.php"⟩ = .ok ["app", "a.php"] := by decide +kernel
  have second : fileInFolder.resolve ⟨"app/a.php"⟩ = .ok ["app", "a.php"] := by decide +kernel
  exact apart _ first second

end Scan

end LoopLift
