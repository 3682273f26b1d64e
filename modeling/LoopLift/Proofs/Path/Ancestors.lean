import Mathlib.Data.List.Infix
import Mathlib.Data.Set.List
import LoopLift.Proofs.Path.Segments

/-!
# Ancestors of a path

A path is shortened by cutting its text at the end of its last component but
one. What remains is read as the components without the last one, whatever
slashes and `.` steps stand in between, so going up from an absolute path visits
every directory that its components lead through and ends at the top.
-/

namespace LoopLift

namespace Component

theorem ofSegment?_eq_none_iff {segment : String} :
    ofSegment? segment = none ↔ segment = "" ∨ segment = "." := by
  rw [ofSegment?]
  split
  · simpa
  · split <;> simp_all

/-- A segment stands for a name or a step up. -/
theorem exists_name_of_ofSegment? {segment : String} {component : Component}
    (read : ofSegment? segment = some component) (below : component ≠ .parent) :
    ∃ name, Component.name name = component := by
  rw [ofSegment?] at read
  split at read
  · cases read
  · split at read
    · cases read
      exact absurd rfl below
    · cases read
      exact ⟨segment, rfl⟩

end Component

namespace Path

/-! ## Components of a text that is cut short -/

theorem spansFrom_cons (position : Nat) (segment : String) (rest : List String) :
    spansFrom position (segment :: rest) =
      ((Component.ofSegment? segment).map fun component =>
        (component, position + segment.length)).toList ++
          spansFrom (position + segment.length + 1) rest := by
  rw [spansFrom]
  cases Component.ofSegment? segment <;> rfl

/-- The components are those that the segments stand for. -/
theorem map_fst_spansFrom (position : Nat) (segments : List String) :
    (spansFrom position segments).map Prod.fst = segments.filterMap Component.ofSegment? := by
  induction segments generalizing position with
  | nil => rfl
  | cons segment rest ih =>
      rw [spansFrom_cons, List.map_append, ih, List.filterMap_cons]
      cases Component.ofSegment? segment <;> rfl

theorem toList_append_eq_append_cons {α : Type} {first : Option α} {behind front back : List α}
    {item : α} (equal : first.toList ++ behind = front ++ item :: back) :
    (first = some item ∧ front = []) ∨
      ∃ others, front = first.toList ++ others ∧ behind = others ++ item :: back := by
  cases first with
  | none => exact .inr ⟨front, rfl, equal⟩
  | some head =>
      cases front with
      | nil =>
          injection equal with same
          exact .inl ⟨congrArg some same, rfl⟩
      | cons other others =>
          injection equal with same later
          exact .inr ⟨others, by simp [same], later⟩

/-- A text that ends behind the segment that is held has the component of this
segment only. -/
theorem spansFrom_held {position : Nat} {held : List Char} {component : Component} {stop : Nat}
    (only : (Component.ofSegment? (String.ofList held.reverse)).map (fun component =>
      (component, position + (String.ofList held.reverse).length)) = some (component, stop)) :
    stop = position + held.length ∧
      spansFrom position (segmentsFrom held []) = [(component, stop)] := by
  constructor
  · rcases Option.map_eq_some_iff.mp only with ⟨named, -, same⟩
    cases same
    simp
  · rw [segmentsFrom, spansFrom_cons, only]
    rfl

/-- A text that is cut at the end of a component has the components up to that
one, and its first segment stays. -/
theorem exists_spansFrom_take {position : Nat} {held chars : List Char}
    {front back : List (Component × Nat)} {component : Component} {stop : Nat}
    (read : spansFrom position (segmentsFrom held chars) = front ++ (component, stop) :: back) :
    ∃ count, stop = position + held.length + count ∧
      spansFrom position (segmentsFrom held (chars.take count)) = front ++ [(component, stop)] ∧
      (segmentsFrom held (chars.take count)).head? = (segmentsFrom held chars).head? := by
  -- The induction follows the reading of segments, so the cut is counted from
  -- what has been read already.
  induction chars generalizing position held front with
  | nil =>
      rw [segmentsFrom, spansFrom_cons] at read
      rcases toList_append_eq_append_cons read with ⟨only, rfl⟩ | ⟨others, -, none⟩
      · rcases spansFrom_held only with ⟨reached, cut⟩
        exact ⟨0, reached, cut, rfl⟩
      · simp [spansFrom] at none
  | cons char rest ih =>
      by_cases slash : char = '/'
      · subst slash
        rw [segmentsFrom_cons, if_pos rfl, spansFrom_cons] at read
        rw [segmentsFrom_cons, if_pos rfl]
        rcases toList_append_eq_append_cons read with ⟨first, rfl⟩ | ⟨others, rfl, later⟩
        · rcases spansFrom_held first with ⟨reached, cut⟩
          exact ⟨0, reached, cut, rfl⟩
        · rcases ih later with ⟨count, reached, cut, -⟩
          refine ⟨count + 1, ?_, ?_, ?_⟩
          · rw [reached, String.length_ofList, List.length_reverse, List.length_nil]
            omega
          · rw [List.take_succ_cons, segmentsFrom_cons, if_pos rfl, spansFrom_cons, cut,
              List.append_assoc]
          · rw [List.take_succ_cons, segmentsFrom_cons, if_pos rfl]
            rfl
      · rw [segmentsFrom_cons, if_neg slash] at read ⊢
        rcases ih read with ⟨count, reached, cut, first⟩
        refine ⟨count + 1, ?_, ?_, ?_⟩
        · rw [reached, List.length_cons]
          omega
        · rw [List.take_succ_cons, segmentsFrom_cons, if_neg slash, cut]
        · rw [List.take_succ_cons, segmentsFrom_cons, if_neg slash, first]

/-- The first segment of a text reaches up to its first slash. -/
theorem head?_segmentsFrom (held chars : List Char) :
    (segmentsFrom held chars).head? =
      some (String.ofList (held.reverse ++ chars.takeWhile (· ≠ '/'))) := by
  induction chars generalizing held with
  | nil => simp [segmentsFrom]
  | cons char rest ih =>
      rw [segmentsFrom_cons]
      split
      · rename_i slash
        simp [slash]
      · rename_i notSlash
        simp [ih, notSlash]

/-! ## Cutting a path -/

/-- The component that only the start of a path can have, with its end. -/
def lead? (path : Path) : Option (Component × Nat) :=
  if path.isAbsolute then some (.root, 1)
  else if path.segments.head? = some "." then some (.current, 1)
  else none

/-- Behind its start a path has the components of all its segments, since the
segment of the start is empty or a `.`. -/
theorem spans_eq (path : Path) :
    path.spans = path.lead?.toList ++ spansFrom 0 path.segments := by
  rw [spans, lead?]
  cases read : path.segments with
  | nil => exact absurd read path.segments_ne_nil
  | cons first rest =>
      cases absolute : path.isAbsolute with
      | true =>
          rcases isAbsolute_iff.mp absolute with ⟨chars, text⟩
          rw [segments, text, segmentsFrom_cons, if_pos rfl] at read
          cases read
          rfl
      | false =>
          by_cases current : first = "."
          · subst current
            rfl
          · simp [current]

theorem lead?_congr {left right : Path} (start : left.isAbsolute = right.isAbsolute)
    (first : left.segments.head? = right.segments.head?) : left.lead? = right.lead? := by
  rw [lead?, lead?, start, first]

/-- A path that starts with a `.` segment starts with a dot. -/
theorem exists_cons_of_head?_segments {path : Path} (current : path.segments.head? = some ".") :
    ∃ rest, path.text.toList = '.' :: rest := by
  rw [segments, head?_segmentsFrom, Option.some_inj, ← String.toList_inj, String.toList_ofList,
    List.reverse_nil, List.nil_append] at current
  refine ⟨path.text.toList.dropWhile (· ≠ '/'), ?_⟩
  have whole := List.takeWhile_append_dropWhile (p := (· ≠ '/')) (l := path.text.toList)
  rw [current] at whole
  exact whole.symm

/-- A path that is cut at the end of a component has the components up to that
one. -/
theorem spans_take {path : Path} {front back : List (Component × Nat)} {component : Component}
    {stop : Nat} (read : path.spans = front ++ (component, stop) :: back) :
    spans ⟨String.ofList (path.text.toList.take stop)⟩ = front ++ [(component, stop)] := by
  rw [spans_eq] at read
  rcases toList_append_eq_append_cons read with ⟨leads, rfl⟩ | ⟨others, rfl, later⟩
  · rw [lead?] at leads
    split at leads
    · rename_i absolute
      rcases isAbsolute_iff.mp absolute with ⟨rest, text⟩
      cases leads
      rw [text]
      simp [spans, segments, isAbsolute, segmentsFrom, spansFrom, Component.ofSegment?]
    · split at leads
      · rename_i current
        rcases exists_cons_of_head?_segments current with ⟨rest, text⟩
        cases leads
        rw [text]
        simp [spans, segments, isAbsolute, segmentsFrom, spansFrom]
      · cases leads
  · rcases exists_spansFrom_take later with ⟨count, reached, cut, first⟩
    have counted : stop = count := by simpa using reached
    subst counted
    have some : stop ≠ 0 := by
      rintro rfl
      simp [segmentsFrom, spansFrom, Component.ofSegment?] at cut
    have leads : lead? ⟨String.ofList (path.text.toList.take stop)⟩ = path.lead? := by
      apply lead?_congr
      · simp [isAbsolute, List.head?_take, some]
      · simpa [segments] using first
    rw [spans_eq, leads, List.append_assoc]
    congr 1
    simpa [segments] using cut

/-! ## Components of an absolute path -/

theorem components_of_isAbsolute {path : Path} (absolute : path.isAbsolute = true) :
    path.components = .root :: path.segments.filterMap Component.ofSegment? := by
  rw [components, spans_eq, lead?, if_pos absolute, List.map_append, map_fst_spansFrom]
  rfl

/-- Segments without `..` stand for names only. -/
theorem exists_names_of_segments {segments : List String}
    (plain : .parent ∉ segments.filterMap Component.ofSegment?) :
    ∃ names : List String, segments.filterMap Component.ofSegment? = names.map .name := by
  have named : ∀ component ∈ segments.filterMap Component.ofSegment?,
      component ∈ Set.range Component.name := by
    intro component member
    rcases List.mem_filterMap.mp member with ⟨segment, -, read⟩
    apply Component.exists_name_of_ofSegment? read
    rintro rfl
    exact plain member
  rcases (Set.range_list_map Component.name).ge named with ⟨names, same⟩
  exact ⟨names, same.symm⟩

/-- An absolute path without `..` has the top and then names only. -/
theorem exists_names_of_isAbsolute {path : Path} (absolute : path.isAbsolute = true)
    (plain : .parent ∉ path.components) :
    ∃ names : List String, path.components = .root :: names.map .name := by
  rw [components_of_isAbsolute absolute] at plain ⊢
  rcases exists_names_of_segments fun up => plain (List.mem_cons_of_mem _ up) with ⟨names, same⟩
  exact ⟨names, by rw [same]⟩

/-! ## The path above a path -/

@[simp] theorem components_empty : components ⟨""⟩ = [] := by
  simp [components, spans, segments, isAbsolute, segmentsFrom, spansFrom, Component.ofSegment?]

/-- The path above has the components without the last one. -/
theorem exists_parent? {path : Path} {above : List Component} {last : Component}
    (read : path.components = above ++ [last]) (below : last ≠ .root) :
    ∃ parent, path.parent? = some parent ∧ parent.components = above := by
  rcases List.map_eq_append_iff.mp read with ⟨front, back, whole, rfl, ending⟩
  rcases List.map_eq_singleton_iff.mp ending with ⟨⟨component, stop⟩, rfl, rfl⟩
  have reversed : path.spans.reverse = (component, stop) :: front.reverse := by simp [whole]
  rcases List.eq_nil_or_concat front with rfl | ⟨farther, ⟨next, cut⟩, rfl⟩
  · refine ⟨⟨""⟩, ?_, components_empty⟩
    rw [parent?, reversed]
    cases component <;> first | rfl | exact absurd rfl below
  · refine ⟨⟨String.ofList (path.text.toList.take cut)⟩, ?_, ?_⟩
    · rw [parent?, reversed, List.concat_eq_append, List.reverse_append]
      cases component <;> first | rfl | exact absurd rfl below
    · rw [List.concat_eq_append, List.append_assoc] at whole
      rw [components, spans_take whole, List.concat_eq_append]

/-- Nothing is above the top, nor above a path without components. -/
theorem parent?_eq_none {path : Path}
    (top : path.components = [] ∨ path.components.getLast? = some .root) :
    path.parent? = none := by
  rw [parent?]
  rcases top with empty | root
  · rw [List.map_eq_nil_iff.mp empty]
    rfl
  · rw [components, List.getLast?_map, ← List.head?_reverse] at root
    cases reversed : path.spans.reverse with
    | nil => rfl
    | cons last front =>
        rcases last with ⟨component, stop⟩
        simp only [reversed, List.head?_cons, Option.map_some, Option.some_inj] at root
        subst root
        rfl

theorem components_of_parent? {path parent : Path} (above : path.parent? = some parent) :
    ∃ last, path.components = parent.components ++ [last] := by
  rcases List.eq_nil_or_concat path.components with empty | ⟨front, last, whole⟩
  · rw [parent?_eq_none (.inl empty)] at above
    cases above
  · rw [List.concat_eq_append] at whole
    have below : last ≠ .root := by
      rintro rfl
      rw [parent?_eq_none (.inr (by simp [whole]))] at above
      cases above
    rcases exists_parent? whole below with ⟨other, sameAbove, read⟩
    rw [above, Option.some_inj] at sameAbove
    subst sameAbove
    exact ⟨last, by rw [read, whole]⟩

theorem length_components_parent? {path parent : Path} (above : path.parent? = some parent) :
    parent.components.length < path.components.length := by
  rcases components_of_parent? above with ⟨last, whole⟩
  simp [whole]

/-- The path and those above it, nearest first. -/
def lineage (path : Path) : List Path :=
  path ::
    match _ : path.parent? with
    | some parent => lineage parent
    | none => []
termination_by path.components.length
decreasing_by exact length_components_parent? (by assumption)

theorem lineage_of_parent? {path parent : Path} (above : path.parent? = some parent) :
    path.lineage = path :: parent.lineage := by
  rw [lineage]
  split
  · rename_i other sameAbove
    rw [above, Option.some_inj] at sameAbove
    rw [sameAbove]
  · rename_i none
    rw [above] at none
    cases none

theorem lineage_of_parent?_none {path : Path} (top : path.parent? = none) :
    path.lineage = [path] := by
  rw [lineage]
  split
  · rename_i parent above
    rw [top] at above
    cases above
  · rfl

/-- Going up an absolute path visits every directory on the way to it, the
nearest one first. -/
theorem components_lineage {path : Path} {names : List String}
    (read : path.components = .root :: names.map .name) :
    path.lineage.map components = names.inits.reverse.map fun above => .root :: above.map .name := by
  induction names using List.reverseRecOn generalizing path with
  | nil =>
      rw [lineage_of_parent?_none (parent?_eq_none (.inr (by simp [read])))]
      simp [read]
  | append_singleton front last ih =>
      have split : path.components = (.root :: front.map .name) ++ [.name last] := by simp [read]
      rcases exists_parent? split (by simp) with ⟨parent, above, parentRead⟩
      rw [lineage_of_parent? above, List.map_cons, ih parentRead, read]
      simp

end Path

end LoopLift
