import LoopLift.FileSystem.Entry

/-!
# Segments of a path

The segments of a path are the texts between its slashes, so no segment has a
slash. Conversely, names without slashes that are written one behind the other
are read back as they are. In particular the absolute path of a location, with a
relative path behind it, has the names of the location and then the segments of
that path.
-/

namespace LoopLift

/-- A text that can stand as a name in a directory. -/
def IsEntryName (name : String) : Prop :=
  name ≠ "" ∧ name ≠ "." ∧ name ≠ ".." ∧ '/' ∉ name.toList

instance (name : String) : Decidable (IsEntryName name) :=
  inferInstanceAs (Decidable (_ ∧ _))

namespace Path

/-! ## Absolute paths -/

theorem isAbsolute_iff {path : Path} :
    path.isAbsolute = true ↔ ∃ rest, path.text.toList = '/' :: rest := by
  rw [isAbsolute, beq_iff_eq, List.head?_eq_some_iff]

theorem text_ne_empty_of_isAbsolute {path : Path} (absolute : path.isAbsolute = true) :
    path.text ≠ "" := by
  intro empty
  rw [isAbsolute, empty] at absolute
  cases absolute

theorem isAbsolute_path (location : Location) : (Location.path location).isAbsolute = true := by
  rw [isAbsolute_iff, Location.path, String.toList_append]
  exact ⟨_, rfl⟩

/-- Behind an absolute path, every path is absolute. -/
theorem isAbsolute_join {base : Path} (absolute : base.isAbsolute = true) (path : Path) :
    (base.join path).isAbsolute = true := by
  rcases isAbsolute_iff.mp absolute with ⟨rest, text⟩
  rw [join]
  split
  · rename_i instead
    rw [Bool.or_eq_true, String.isEmpty_iff] at instead
    rcases instead with pathAbsolute | empty
    · exact pathAbsolute
    · exact absurd empty (text_ne_empty_of_isAbsolute absolute)
  · split
    · rw [isAbsolute_iff, String.toList_append, text]
      exact ⟨_, rfl⟩
    · rw [isAbsolute_iff, String.toList_append, String.toList_append, text]
      exact ⟨_, rfl⟩

/-! ## Names and slashes -/

theorem segmentsFrom_cons (held : List Char) (char : Char) (rest : List Char) :
    segmentsFrom held (char :: rest) =
      if char = '/' then String.ofList held.reverse :: segmentsFrom [] rest
      else segmentsFrom (char :: held) rest := by
  rw [segmentsFrom.eq_def]
  split
  · rename_i none
    cases none
  · rename_i slash
    cases slash
    rfl
  · rename_i other notSlash equal
    cases equal
    rw [if_neg]
    intro slash
    exact notSlash slash

theorem segmentsFrom_ne_nil (held text : List Char) : segmentsFrom held text ≠ [] := by
  induction text generalizing held with
  | nil => simp [segmentsFrom]
  | cons char rest ih =>
      rw [segmentsFrom_cons]
      split
      · simp
      · exact ih (char :: held)

theorem segments_ne_nil (path : Path) : path.segments ≠ [] :=
  segmentsFrom_ne_nil [] path.text.toList

/-- No segment has a slash. -/
theorem slash_notMem_of_mem_segmentsFrom {held text : List Char} {segment : String}
    (heldFree : '/' ∉ held) (member : segment ∈ segmentsFrom held text) :
    '/' ∉ segment.toList := by
  induction text generalizing held with
  | nil =>
      rw [segmentsFrom, List.mem_singleton] at member
      subst member
      simpa using heldFree
  | cons char rest ih =>
      rw [segmentsFrom_cons] at member
      split at member
      · rcases List.mem_cons.mp member with rfl | later
        · simpa using heldFree
        · exact ih List.not_mem_nil later
      · rename_i notSlash
        apply ih _ member
        intro inHeld
        rcases List.mem_cons.mp inHeld with slash | earlier
        · exact notSlash slash.symm
        · exact heldFree earlier

theorem slash_notMem_of_mem_segments {path : Path} {segment : String}
    (member : segment ∈ path.segments) : '/' ∉ segment.toList :=
  slash_notMem_of_mem_segmentsFrom List.not_mem_nil member

/-- A text without slashes is read up to the slash behind it. -/
theorem segmentsFrom_append {chars : List Char} (free : '/' ∉ chars) (held rest : List Char) :
    segmentsFrom held (chars ++ '/' :: rest) =
      String.ofList (held.reverse ++ chars) :: segmentsFrom [] rest := by
  induction chars generalizing held with
  | nil => simp [segmentsFrom_cons]
  | cons char chars ih =>
      rw [List.mem_cons, not_or] at free
      rw [List.cons_append, segmentsFrom_cons, if_neg (Ne.symm free.1), ih free.2]
      simp

/-- Names written one behind the other are read back. -/
theorem segmentsFrom_intercalate {names : List String} (nonempty : names ≠ [])
    (free : ∀ name ∈ names, '/' ∉ name.toList) (rest : List Char) :
    segmentsFrom [] (['/'].intercalate (names.map String.toList) ++ '/' :: rest) =
      names ++ segmentsFrom [] rest := by
  induction names with
  | nil => exact absurd rfl nonempty
  | cons name names ih =>
      rcases List.forall_mem_cons.mp free with ⟨nameFree, namesFree⟩
      cases names with
      | nil => simp [segmentsFrom_append nameFree]
      | cons next others =>
          have inner := ih (by simp) namesFree
          rw [List.map_cons, List.map_cons, List.intercalate_cons_cons, ← List.map_cons]
          rw [List.append_assoc, List.append_assoc, List.singleton_append]
          rw [segmentsFrom_append nameFree, inner]
          simp

/-- Names written one behind the other do not end with a slash. -/
theorem exists_last_intercalate {names : List String} (nonempty : names ≠ [])
    (proper : ∀ name ∈ names, IsEntryName name) :
    ∃ front last, ['/'].intercalate (names.map String.toList) = front ++ [last] ∧ last ≠ '/' := by
  induction names with
  | nil => exact absurd rfl nonempty
  | cons name names ih =>
      rcases List.forall_mem_cons.mp proper with ⟨nameProper, namesProper⟩
      cases names with
      | nil =>
          have chars : name.toList ≠ [] := by simpa using nameProper.1
          refine ⟨name.toList.dropLast, name.toList.getLast chars, ?_, ?_⟩
          · rw [List.map_singleton, List.intercalate_singleton, List.dropLast_concat_getLast]
          · intro slash
            exact nameProper.2.2.2 (slash ▸ List.getLast_mem chars)
      | cons next others =>
          rcases ih (by simp) namesProper with ⟨front, last, inner, notSlash⟩
          refine ⟨name.toList ++ ['/'] ++ front, last, ?_, notSlash⟩
          rw [List.map_cons, List.map_cons, List.intercalate_cons_cons, ← List.map_cons, inner]
          simp

/-- The path of a location, with a relative path behind it, is read as the names
of the location and then the segments of the path. -/
theorem segments_join_of_relative {location : Location} {path : Path}
    (proper : ∀ name ∈ location, IsEntryName name) (relative : path.isAbsolute = false) :
    ((Location.path location).join path).segments = "" :: (location ++ path.segments) := by
  have nonempty : (Location.path location).text.isEmpty = false := by
    simp [Location.path, ← String.toList_inj]
  have slashes : ("/" : String).toList = ['/'] := rfl
  rw [join, relative, nonempty]
  cases location with
  | nil =>
      have onlySlash : (Location.path []).text.toList = ['/'] := by
        simp [Location.path]
      simp only [onlySlash, List.getLast?_singleton, BEq.rfl, Bool.or_self, Bool.false_eq_true,
        ↓reduceIte]
      simp only [segments, String.toList_append, onlySlash, List.singleton_append,
        segmentsFrom_cons, ↓reduceIte]
      rfl
  | cons name names =>
      rcases exists_last_intercalate (by simp) proper with ⟨front, last, ending, notSlash⟩
      have chars : (Location.path (name :: names)).text.toList =
          '/' :: ['/'].intercalate ((name :: names).map String.toList) := by
        simp only [Location.path, String.toList_append, String.toList_intercalate, slashes]
        rfl
      have unfinished : ((Location.path (name :: names)).text.toList.getLast? == some '/') = false := by
        rw [chars, ending, ← List.cons_append, List.getLast?_concat]
        simpa using notSlash
      simp only [unfinished, Bool.or_self, Bool.false_eq_true, ↓reduceIte]
      simp only [segments, String.toList_append, chars, slashes, List.cons_append,
        segmentsFrom_cons, ↓reduceIte, List.append_assoc]
      rw [segmentsFrom_intercalate (by simp) fun inner member => (proper inner member).2.2.2]
      rfl

end Path

end LoopLift
