import LoopLift.Scan.Walk

/-!
# Exclusions in force

A wildcard covers every name with its ending, and any other exclusion covers the
name that it is. A walk leaves a folder out exactly if its name is covered by an
exclusion that is not itself included. So a folder that is included by name
escapes the exclusion of that name but no wildcard.
-/

namespace LoopLift

namespace Exclusion

/-! ## What an exclusion covers -/

/-- The exclusion of every name with an ending. -/
def wildcard (ending : String) : String := "*." ++ ending

/-- What an exclusion covers. -/
inductive Covers : (name exclusion : String) → Prop where
  /-- A wildcard covers the names that end with a dot and its ending. -/
  | ending (front ending : String) : Covers (front ++ "." ++ ending) (wildcard ending)
  /-- Any other exclusion covers itself. -/
  | exactly {name : String} (plain : ∀ ending, name ≠ wildcard ending) : Covers name name

theorem toList_wildcard (ending : String) :
    (wildcard ending).toList = '*' :: '.' :: ending.toList := by
  simp [wildcard]

theorem covers_wildcard_iff {name ending : String} :
    covers name (wildcard ending) = true ↔ ∃ front, name = front ++ "." ++ ending := by
  rw [covers, toList_wildcard]
  simp only [List.isSuffixOf_iff_suffix]
  constructor
  · rintro ⟨front, whole⟩
    refine ⟨String.ofList front, ?_⟩
    simp [← String.toList_inj, ← whole]
  · rintro ⟨front, rfl⟩
    exact ⟨front.toList, by simp⟩

theorem covers_plain_iff {name exclusion : String} (plain : ∀ ending, exclusion ≠ wildcard ending) :
    covers name exclusion = true ↔ name = exclusion := by
  rw [covers]
  split
  · rename_i ending read
    refine absurd ?_ (plain (String.ofList ending))
    rw [← String.toList_inj, read, toList_wildcard, String.toList_ofList]
  · exact beq_iff_eq

theorem covers_iff {name exclusion : String} :
    covers name exclusion = true ↔ Covers name exclusion := by
  constructor
  · intro covered
    by_cases ends : ∃ ending, exclusion = wildcard ending
    · rcases ends with ⟨ending, rfl⟩
      rcases covers_wildcard_iff.mp covered with ⟨front, rfl⟩
      exact .ending front ending
    · have plain : ∀ ending, exclusion ≠ wildcard ending := not_exists.mp ends
      rw [(covers_plain_iff plain).mp covered]
      exact .exactly plain
  · intro covered
    cases covered with
    | ending front ending => exact covers_wildcard_iff.mpr ⟨front, rfl⟩
    | exactly plain => exact (covers_plain_iff plain).mpr rfl

/-! ## Inclusion -/

theorem isExcluded_inForce_iff {excluded included : List String} {name : String} :
    isExcluded name (inForce excluded included) = true ↔
      ∃ exclusion, (exclusion ∈ excluded ∨ exclusion ∈ defaults) ∧ exclusion ∉ included ∧
        Covers name exclusion := by
  simp only [isExcluded, inForce, List.any_eq_true, List.mem_filter, List.mem_append,
    Bool.not_eq_true', List.contains_eq_mem, decide_eq_false_iff_not, covers_iff, and_assoc]

/-- No folder is excluded by default with all names of its ending. -/
theorem wildcard_notMem_defaults (ending : String) : wildcard ending ∉ defaults := by
  have starless : ∀ exclusion ∈ defaults, exclusion.toList.head? ≠ some '*' := by decide
  intro member
  apply starless _ member
  rw [toList_wildcard, List.head?_cons]

/-- The exclusion of the name of an included folder is not in force, so only
wildcards are left. -/
theorem isExcluded_inForce_iff_of_mem {excluded included : List String} {name : String}
    (listed : name ∈ included) :
    isExcluded name (inForce excluded included) = true ↔
      ∃ front ending, name = front ++ "." ++ ending ∧ wildcard ending ∈ excluded ∧
        wildcard ending ∉ included := by
  rw [isExcluded_inForce_iff]
  constructor
  · rintro ⟨exclusion, given, notIncluded, covered⟩
    cases covered with
    | ending front ending =>
        have byHand := given.resolve_right (wildcard_notMem_defaults ending)
        exact ⟨front, ending, rfl, byHand, notIncluded⟩
    | exactly plain => exact absurd listed notIncluded
  · rintro ⟨front, ending, rfl, given, notIncluded⟩
    exact ⟨wildcard ending, .inl given, notIncluded, .ending front ending⟩

end Exclusion

/-! ## Folders of a walk -/

namespace Walk

/-- Unless a rule skips it, a folder is counted and entered, or else excluded. -/
theorem entry_directory_eq_empty_iff {visit : Visit} {path : Path}
    (seen : (visit.sight path).skips true = false) (name : String)
    (entries : List (String × Entry)) :
    entry visit path name (.directory entries) = {} ↔
      Exclusion.isExcluded name
        (Exclusion.inForce visit.selection.excluded visit.selection.included) = true := by
  rw [entry, seen, if_neg Bool.false_ne_true]
  split
  · rename_i leftOut
    exact iff_of_true rfl leftOut
  · rename_i entered
    refine iff_of_false ?_ entered
    intro empty
    have counted := congrArg Harvest.directories empty
    exact Nat.succ_ne_zero _ ((Nat.add_comm _ _).trans counted)

end Walk

namespace Exclusion

/-- A folder is left out of a walk exactly if its name is covered by an exclusion,
given or by default, that is not itself included. For a folder that is included
by name these are the given wildcards alone. -/
theorem included_folder_is_excluded_by_wildcards_alone (excluded included : List String)
    (name : String) :
    (isExcluded name (inForce excluded included) = true ↔
      ∃ exclusion, (exclusion ∈ excluded ∨ exclusion ∈ defaults) ∧ exclusion ∉ included ∧
        Covers name exclusion) ∧
    (name ∈ included →
      (isExcluded name (inForce excluded included) = true ↔
        ∃ front ending, name = front ++ "." ++ ending ∧ wildcard ending ∈ excluded ∧
          wildcard ending ∉ included)) ∧
    ∀ (visit : Walk.Visit) (path : Path) (entries : List (String × Entry)),
      visit.selection.excluded = excluded → visit.selection.included = included →
      (visit.sight path).skips true = false →
      (Walk.entry visit path name (.directory entries) = {} ↔
        isExcluded name (inForce excluded included) = true) := by
  refine ⟨isExcluded_inForce_iff, isExcluded_inForce_iff_of_mem, ?_⟩
  rintro visit path entries rfl rfl seen
  exact Walk.entry_directory_eq_empty_iff seen name entries

theorem included_folder_is_excluded_by_wildcards_alone_cache :
    "app.cache" ∈ ["app.cache", "vendor"] ∧
      isExcluded "app.cache" (inForce ["*.cache", "app.cache"] ["app.cache", "vendor"]) = true ∧
      isExcluded "vendor" (inForce ["*.cache", "app.cache"] ["app.cache", "vendor"]) = false := by
  refine ⟨by decide, ?_, ?_⟩
  · apply ((included_folder_is_excluded_by_wildcards_alone _ _ _).2.1 (by decide)).mpr
    exact ⟨"app", "cache", by decide, by decide, by decide⟩
  · rw [Bool.eq_false_iff, ne_eq,
      (included_folder_is_excluded_by_wildcards_alone _ _ _).2.1 (by decide)]
    rintro ⟨front, ending, vendor, -, -⟩
    have dotless : '.' ∉ "vendor".toList := by decide
    rw [vendor] at dotless
    simp at dotless

/-- Including a folder by name does not keep a wildcard from excluding it. -/
theorem included_folder_is_not_always_walked :
    ¬ ∀ (excluded included : List String) (name : String), name ∈ included →
      isExcluded name (inForce excluded included) = false := by
  intro never
  have walked := never ["*.cache"] ["app.cache"] "app.cache" (by decide)
  have excluded : isExcluded "app.cache" (inForce ["*.cache"] ["app.cache"]) = true := by decide
  rw [walked] at excluded
  cases excluded

end Exclusion

end LoopLift
