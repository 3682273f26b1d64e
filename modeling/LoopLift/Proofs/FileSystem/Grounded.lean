import LoopLift.Proofs.FileSystem.Following
import LoopLift.Proofs.Path.Segments

/-!
# Grounded locations

A path that leads to an entry leads to a grounded location: there is no link left
on it, and its names can stand in directories. The absolute path of a grounded
location leads back to it. So a path that is written behind the absolute path of a
location leads where it leads from that location as the working directory.
-/

namespace LoopLift

open Entry

/-- A location whose names can stand in directories, with an entry that is no
link. -/
structure Entry.Grounded (root : Entry) (location : Location) : Prop where
  proper : ∀ name ∈ location, IsEntryName name
  present : ∃ kind, root.kindAt location = some kind ∧ ∀ target, kind ≠ .link target

namespace Entry

/-- What has an entry below it is a directory. -/
theorem kindAt_of_append {root : Entry} {here rest : Location} {name : String} {kind : Kind}
    (below : root.kindAt (here ++ name :: rest) = some kind) :
    root.kindAt here = some .directory := by
  simp only [kindAt, at?_append, at?_cons] at below ⊢
  cases found : root.at? here with
  | none => simp [found] at below
  | some entry =>
      cases entry with
      | file content => simp [found, child?] at below
      | link target => simp [found, child?] at below
      | directory entries => rfl

/-- What stands above a directory is a directory. -/
theorem kindAt_directory_of_prefix {root : Entry} {above here : Location} (start : above <+: here)
    (directory : root.kindAt here = some .directory) : root.kindAt above = some .directory := by
  rcases start with ⟨rest, rfl⟩
  cases rest with
  | nil => rwa [List.append_nil] at directory
  | cons name rest => exact kindAt_of_append directory

theorem Grounded.of_directory {root : Entry} {location : Location}
    (proper : ∀ name ∈ location, IsEntryName name)
    (directory : root.kindAt location = some .directory) : root.Grounded location :=
  ⟨proper, .directory, directory, by simp⟩

theorem kindAt_dropLast {root : Entry} {here : Location}
    (directory : root.kindAt here = some .directory) :
    root.kindAt here.dropLast = some .directory := by
  rcases List.eq_nil_or_concat here with rfl | ⟨front, last, rfl⟩
  · exact directory
  · rw [List.concat_eq_append, List.dropLast_concat]
    rw [List.concat_eq_append] at directory
    exact kindAt_of_append directory

end Entry

namespace FileSystem

/-- Segments lead to grounded locations. Without any segment this takes a grounded
start. -/
theorem grounded_of_follow {root : Entry} {links : Nat} {here location : Location} :
    {segments : List String} → (∀ name ∈ here, IsEntryName name) →
      (∀ segment ∈ segments, '/' ∉ segment.toList) → (segments = [] → root.Grounded here) →
      follow root links here segments = .ok (.occupied location) → root.Grounded location
  | [], _, _, started, followed => by
      rw [follow_nil] at followed
      cases followed
      exact started rfl
  | segment :: rest, proper, free, _, followed => by
      rcases List.forall_mem_cons.mp free with ⟨segmentFree, restFree⟩
      rcases follow_cons_eq_ok_iff.mp followed with ⟨directory, step⟩
      cases step with
      | stay blank onwards =>
          exact grounded_of_follow proper restFree (fun _ => .of_directory proper directory) onwards
      | up up onwards =>
          have above : ∀ name ∈ here.dropLast, IsEntryName name :=
            fun name member => proper name (here.dropLast_subset member)
          exact grounded_of_follow above restFree
            (fun _ => .of_directory above (kindAt_dropLast directory)) onwards
      | free named absent last ends => cases ends
      | @link fewer target named linked more onwards =>
          subst more
          -- What a link points to has segments of its own, so the start does not matter.
          refine grounded_of_follow ?_ ?_ ?_ onwards
          · split
            · simp
            · exact proper
          · intro inner member
            rcases List.mem_append.mp member with ofTarget | ofRest
            · exact Path.slash_notMem_of_mem_segments ofTarget
            · exact restFree inner ofRest
          · intro empty
            exact absurd (List.append_eq_nil_iff.mp empty).1 (Path.segments_ne_nil target)
      | @enter kind named stands noLink onwards =>
          have below : ∀ name ∈ here ++ [segment], IsEntryName name := by
            intro name member
            rcases List.mem_append.mp member with earlier | last
            · exact proper name earlier
            · rw [List.mem_singleton.mp last]
              exact ⟨named.1, named.2.1, named.2.2, segmentFree⟩
          exact grounded_of_follow below restFree
            (fun _ => ⟨below, kind, stands, noLink⟩) onwards
termination_by segments => (links, segments.length)

/-- The names of a grounded location lead to it. -/
theorem follow_names {root : Entry} {links : Nat} {here names : Location} (rest : List String)
    (grounded : root.Grounded (here ++ names)) :
    follow root links here (names ++ rest) = follow root links (here ++ names) rest := by
  induction names generalizing here with
  | nil => simp
  | cons name names ih =>
      have regrouped : here ++ name :: names = here ++ [name] ++ names := by simp
      -- The name leads to the end of the location, or to a directory on the way.
      rcases grounded.present with ⟨kind, present, notLink⟩
      have directory := kindAt_of_append present
      have proper : IsEntryName name := grounded.proper name (by simp)
      have reached : ∃ kind, root.kindAt (here ++ [name]) = some kind ∧
          ∀ target, kind ≠ .link target := by
        cases names with
        | nil => exact ⟨kind, present, notLink⟩
        | cons next others =>
            rw [regrouped] at present
            exact ⟨.directory, kindAt_of_append present, by simp⟩
      rcases reached with ⟨step, stepAt, stepNoLink⟩
      rw [List.cons_append, follow_cons, if_pos directory,
        if_neg (not_or.mpr ⟨proper.1, proper.2.1⟩), if_neg proper.2.2.1, stepAt]
      rw [regrouped] at grounded ⊢
      cases step with
      | file => exact ih grounded
      | directory => exact ih grounded
      | link target => exact absurd rfl (stepNoLink target)

/-- A file system as it is seen from another working directory. -/
def standingAt (files : FileSystem) (location : Location) : FileSystem :=
  { files with workingDirectory := location }

theorem locate_eq_follow {files : FileSystem} {path : Path} (nonempty : path.text ≠ "") :
    files.locate path =
      follow files.root linkLimit (if path.isAbsolute then [] else files.workingDirectory)
        path.segments := by
  rw [locate, if_neg]
  rwa [String.isEmpty_iff]

/-- A path that leads to an entry leads to a grounded location. -/
theorem grounded_of_resolve {files : FileSystem} {path : Path} {location : Location}
    (proper : ∀ name ∈ files.workingDirectory, IsEntryName name)
    (resolved : files.resolve path = .ok location) : files.root.Grounded location := by
  have located := locate_eq_of_resolve resolved
  rw [locate] at located
  split at located
  · cases located
  · apply grounded_of_follow _ _ _ located
    · split
      · simp
      · exact proper
    · intro segment
      exact Path.slash_notMem_of_mem_segments
    · intro none
      exact absurd none (Path.segments_ne_nil path)

/-- A path behind the absolute path of a grounded location leads where it leads
from that location. -/
theorem locate_join {files : FileSystem} {base : Location} {path : Path}
    (grounded : files.root.Grounded base) (nonempty : path.text ≠ "") :
    files.locate ((Location.path base).join path) = (files.standingAt base).locate path := by
  cases absolute : path.isAbsolute with
  | true => simp [Path.join, locate, standingAt, absolute]
  | false =>
      have joinedAbsolute := Path.isAbsolute_join (Path.isAbsolute_path base) path
      have joinedText := Path.text_ne_empty_of_isAbsolute joinedAbsolute
      rw [locate_eq_follow joinedText, locate_eq_follow nonempty, joinedAbsolute, absolute,
        Path.segments_join_of_relative grounded.proper absolute]
      simp only [standingAt, ↓reduceIte, Bool.false_eq_true]
      rw [follow_cons]
      split
      · simp only [true_or, ↓reduceIte]
        exact follow_names path.segments grounded
      · rename_i noDirectory
        -- Below something else than a directory there is nothing, so both fail.
        cases base with
        | cons name names =>
            rcases grounded.present with ⟨kind, present, -⟩
            rw [← List.nil_append (name :: names)] at present
            exact absurd (kindAt_of_append present) noDirectory
        | nil =>
            cases segments : path.segments with
            | nil => exact absurd segments path.segments_ne_nil
            | cons segment rest => rw [follow_cons, if_neg noDirectory]

theorem resolve_join {files : FileSystem} {base : Location} {path : Path}
    (grounded : files.root.Grounded base) (nonempty : path.text ≠ "") :
    files.resolve ((Location.path base).join path) = (files.standingAt base).resolve path := by
  rw [resolve, resolve, locate_join grounded nonempty]

end FileSystem

end LoopLift
