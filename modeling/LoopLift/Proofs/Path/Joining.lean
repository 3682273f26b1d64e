import LoopLift.Proofs.Path.Ancestors

/-!
# Joined paths

A relative path behind another one is read as the segments of both, whether or
not the first one ends with a slash. So a name behind a path is one component
more, and the path of a location has the names of the location as its components.
Going up from a relative path drops one component after the other and ends at the
empty path.
-/

namespace LoopLift

namespace Component

theorem ofSegment?_eq_name {segment : String}
    (named : segment ≠ "" ∧ segment ≠ "." ∧ segment ≠ "..") :
    ofSegment? segment = some (.name segment) := by
  rw [ofSegment?, if_neg (not_or.mpr ⟨named.1, named.2.1⟩), if_neg named.2.2]

theorem ofSegment?_of_isEntryName {name : String} (proper : IsEntryName name) :
    ofSegment? name = some (.name name) :=
  ofSegment?_eq_name ⟨proper.1, proper.2.1, proper.2.2.1⟩

theorem ofSegment?_ne_root (segment : String) : ofSegment? segment ≠ some .root := by
  rw [ofSegment?]
  split
  · simp
  · split <;> simp

end Component

namespace Path

/-! ## Segments -/

/-- A text is read up to a slash, and then behind it. -/
theorem segmentsFrom_append_slash (held left right : List Char) :
    segmentsFrom held (left ++ '/' :: right) = segmentsFrom held left ++ segmentsFrom [] right := by
  induction left generalizing held with
  | nil =>
      rw [List.nil_append, segmentsFrom_cons, if_pos rfl]
      rfl
  | cons char rest ih =>
      rw [List.cons_append, segmentsFrom_cons, segmentsFrom_cons]
      split
      · rw [ih, List.cons_append]
      · exact ih (char :: held)

theorem segments_of_slash_notMem {name : String} (free : '/' ∉ name.toList) :
    segments ⟨name⟩ = [name] := by
  have read := segmentsFrom_append free [] []
  rw [segmentsFrom_append_slash, List.reverse_nil, List.nil_append, String.ofList_toList,
    ← List.singleton_append] at read
  exact List.append_cancel_right read

theorem isAbsolute_of_slash_notMem {name : String} (free : '/' ∉ name.toList) :
    isAbsolute ⟨name⟩ = false := by
  rw [Bool.eq_false_iff, ne_eq, isAbsolute_iff]
  rintro ⟨rest, read⟩
  rw [read] at free
  exact free List.mem_cons_self

/-- A relative path behind another one is read as the segments of both. An empty
segment behind the last slash of the first one is left out. -/
theorem exists_segments_join {base path : Path} (nonempty : base.text ≠ "")
    (relative : path.isAbsolute = false) :
    ∃ front, base.segments.head? = (front ++ path.segments).head? ∧
      (base.join path).segments = front ++ path.segments ∧
      base.segments.filterMap Component.ofSegment? = front.filterMap Component.ofSegment? := by
  have written : base.text.isEmpty = false := by simpa using nonempty
  rw [join, relative, written, Bool.or_self, if_neg Bool.false_ne_true]
  split
  · rename_i ended
    rw [beq_iff_eq] at ended
    rcases List.getLast?_eq_some_iff.mp ended with ⟨before, text⟩
    have read : base.segments = segmentsFrom [] before ++ [""] := by
      rw [segments, text, segmentsFrom_append_slash]
      rfl
    have some := segmentsFrom_ne_nil [] before
    refine ⟨segmentsFrom [] before, ?_, ?_, ?_⟩
    · rw [read, List.head?_append_of_ne_nil _ some, List.head?_append_of_ne_nil _ some]
    · rw [segments, String.toList_append, text, List.append_assoc, List.singleton_append,
        segmentsFrom_append_slash]
      rfl
    · simp [read, Component.ofSegment?]
  · refine ⟨base.segments, (List.head?_append_of_ne_nil _ base.segments_ne_nil).symm, ?_, rfl⟩
    have slash : ("/" : String).toList = ['/'] := rfl
    rw [segments, String.toList_append, String.toList_append, slash, List.append_assoc,
      List.singleton_append, segmentsFrom_append_slash]
    rfl

/-- Behind a path that is not empty, a relative path changes nothing of where it
starts. -/
theorem isAbsolute_join_of_relative {base path : Path} (nonempty : base.text ≠ "")
    (relative : path.isAbsolute = false) : (base.join path).isAbsolute = base.isAbsolute := by
  have written : base.text.isEmpty = false := by simpa using nonempty
  have first : base.text.toList ≠ [] := by simpa using nonempty
  rw [join, relative, written, Bool.or_self, if_neg Bool.false_ne_true]
  split
  · rw [isAbsolute, String.toList_append, List.head?_append_of_ne_nil _ first, isAbsolute]
  · rw [isAbsolute, String.toList_append, String.toList_append, List.append_assoc,
      List.head?_append_of_ne_nil _ first, isAbsolute]

/-! ## Components -/

theorem components_eq (path : Path) :
    path.components =
      (path.lead?.map Prod.fst).toList ++ path.segments.filterMap Component.ofSegment? := by
  rw [components, spans_eq, List.map_append, map_fst_spansFrom]
  cases path.lead? <;> rfl

theorem root_notMem_components {path : Path} (relative : path.isAbsolute = false) :
    .root ∉ path.components := by
  rw [components_eq, List.mem_append, not_or]
  constructor
  · rw [lead?, relative, if_neg Bool.false_ne_true]
    split <;> simp
  · intro member
    rcases List.mem_filterMap.mp member with ⟨segment, -, read⟩
    exact Component.ofSegment?_ne_root segment read

/-- A relative path without `..` has names only, perhaps behind a `.`. -/
theorem exists_names_of_relative {path : Path} (relative : path.isAbsolute = false)
    (plain : .parent ∉ path.components) :
    ∃ (lead : List Component) (names : List String),
      path.components = lead ++ names.map .name ∧ (lead = [] ∨ lead = [.current]) := by
  rw [components_eq, List.mem_append, not_or] at plain
  rcases exists_names_of_segments plain.2 with ⟨names, same⟩
  refine ⟨(path.lead?.map Prod.fst).toList, names, by rw [components_eq, same], ?_⟩
  rw [lead?, relative, if_neg Bool.false_ne_true]
  split
  · exact .inr rfl
  · exact .inl rfl

/-- A relative path behind another one has the components of both, less a leading
`.` of its own. -/
theorem components_join {base path : Path} (nonempty : base.text ≠ "")
    (relative : path.isAbsolute = false) :
    (base.join path).components =
      base.components ++ path.segments.filterMap Component.ofSegment? := by
  rcases exists_segments_join nonempty relative with ⟨front, first, joined, read⟩
  have leads : (base.join path).lead? = base.lead? :=
    lead?_congr (isAbsolute_join_of_relative nonempty relative) (by rw [joined, first])
  rw [components_eq, components_eq base, leads, joined, List.filterMap_append, read,
    List.append_assoc]

theorem components_name {name : String} (proper : IsEntryName name) :
    components ⟨name⟩ = [.name name] := by
  have notCurrent : [name].head? ≠ some "." := by simpa using proper.2.1
  rw [components_eq, lead?, isAbsolute_of_slash_notMem proper.2.2.2,
    segments_of_slash_notMem proper.2.2.2, if_neg Bool.false_ne_true, if_neg notCurrent]
  simp [Component.ofSegment?_of_isEntryName proper]

/-- A name behind a path is one component more. -/
theorem components_child {base : Path} {name : String} (proper : IsEntryName name) :
    (base.child name).components = base.components ++ [.name name] := by
  by_cases empty : base.text = ""
  · have noBase : base = ⟨""⟩ := congrArg Path.mk empty
    rw [noBase, child, join, if_pos (by simp), components_name proper, components_empty,
      List.nil_append]
  · rw [child, components_join empty (isAbsolute_of_slash_notMem proper.2.2.2),
      segments_of_slash_notMem proper.2.2.2]
    simp [Component.ofSegment?_of_isEntryName proper]

/-! ## The path of a location -/

theorem segments_path {location : Location} (proper : ∀ name ∈ location, IsEntryName name)
    (nonempty : location ≠ []) : (Location.path location).segments = "" :: location := by
  have free : ∀ name ∈ location, '/' ∉ name.toList :=
    fun name member => (proper name member).2.2.2
  have read := segmentsFrom_intercalate nonempty free []
  rw [segmentsFrom_append_slash] at read
  have names := List.append_cancel_right read
  have slash : ("/" : String).toList = ['/'] := rfl
  rw [segments, Location.path, String.toList_append, String.toList_intercalate, slash,
    List.singleton_append, segmentsFrom_cons, if_pos rfl, names]
  rfl

/-- The path of a location has the names of the location as components. -/
theorem components_path {location : Location} (proper : ∀ name ∈ location, IsEntryName name) :
    (Location.path location).components = .root :: location.map .name := by
  rw [components_of_isAbsolute (isAbsolute_path location)]
  congr 1
  cases location with
  | nil => decide +kernel
  | cons name names =>
      have blank : Component.ofSegment? "" = none := by decide
      rw [segments_path proper (List.cons_ne_nil name names), List.filterMap_cons, blank]
      apply List.filterMap_eq_map_iff_forall_eq_some.mpr
      intro inner member
      exact Component.ofSegment?_of_isEntryName (proper inner member)

/-! ## The way up -/

/-- The components of a path above are the first ones of a path. -/
theorem prefix_of_mem_lineage {path above : Path} (member : above ∈ path.lineage) :
    above.components <+: path.components := by
  induction path using lineage.induct with
  | case1 path ih =>
      cases parent : path.parent? with
      | none =>
          rw [lineage_of_parent?_none parent, List.mem_singleton] at member
          rw [member]
      | some farther =>
          rw [lineage_of_parent? parent] at member
          rcases List.mem_cons.mp member with rfl | higher
          · exact List.prefix_rfl
          · rcases components_of_parent? parent with ⟨last, whole⟩
            rw [whole]
            exact (ih farther parent higher).trans (List.prefix_append _ _)

/-- Going up from a relative path visits what its components lead through, the
nearest first, and the empty path at last. -/
theorem components_lineage_of_relative {path : Path} (relative : .root ∉ path.components) :
    path.lineage.map components = path.components.inits.reverse := by
  generalize read : path.components = components at relative
  induction components using List.reverseRecOn generalizing path with
  | nil =>
      rw [lineage_of_parent?_none (parent?_eq_none (.inl read))]
      simp [read]
  | append_singleton front last ih =>
      rw [List.mem_append, not_or, List.mem_singleton] at relative
      rcases exists_parent? read (Ne.symm relative.2) with ⟨parent, above, parentRead⟩
      rw [lineage_of_parent? above, List.map_cons, ih parentRead relative.1, read]
      simp

end Path

end LoopLift
