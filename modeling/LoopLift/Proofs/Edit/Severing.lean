import LoopLift.Proofs.Edit.Splicing
import Mathlib.Data.List.Induction

/-!
# Severed edits

Edits are checked against the source, but each of them is carried out on a text that other
edits have changed already. From the start of an edit to its stop, the two texts differ in
one way only: the insertions at this start that were made before the edit stand in front of
the piece of the source that the edit is meant for. The range of the edit then takes in
what was inserted, and it may end inside a character. There is no other way in which edits
that pass the check can fail.
-/

namespace LoopLift

namespace Text

theorem isBoundary_append_left (front text : List Char) (offset : Nat) :
    isBoundary (front ++ text) (byteLength front + offset) = isBoundary text offset := by
  rw [Bool.eq_iff_iff, isBoundary_iff, isBoundary_iff]
  constructor
  · intro cut
    rcases cut with ⟨left, right, pieces, size⟩
    rcases exists_middle_of_byteLength_le pieces (by omega) with ⟨middle, rfl, rest⟩
    rw [byteLength_append] at size
    exact ⟨middle, right, rest, Nat.add_left_cancel size⟩
  · intro cut
    rcases cut with ⟨left, right, rfl, rfl⟩
    exact ⟨front ++ left, right, by simp, byteLength_append front left⟩

theorem isBoundary_append_right {text : List Char} {offset : Nat}
    (inside : offset ≤ byteLength text) (rest : List Char) :
    isBoundary (text ++ rest) offset = isBoundary text offset := by
  rw [Bool.eq_iff_iff, isBoundary_iff, isBoundary_iff]
  constructor
  · intro cut
    rcases cut with ⟨left, right, pieces, rfl⟩
    rcases exists_middle_of_byteLength_le pieces.symm inside with ⟨middle, textEq, -⟩
    exact ⟨left, middle, textEq, rfl⟩
  · intro cut
    rcases cut with ⟨left, right, rfl, rfl⟩
    exact ⟨left, right ++ rest, by simp, rfl⟩

/-- An exchange behind the front of a text leaves the front as it is. -/
theorem exists_rest_of_replaceRange? {front rest replacement result : List Char}
    {start stop : Nat}
    (replaced : replaceRange? (front ++ rest) start stop replacement = some result)
    (behind : byteLength front ≤ start) : ∃ rest', result = front ++ rest' := by
  rcases replaceRange?_eq_some_iff.mp replaced with
    ⟨before, removed, after, pieces, startEq, -, resultEq⟩
  rw [List.append_assoc] at pieces
  rcases exists_middle_of_byteLength_le pieces (by omega) with ⟨middle, rfl, -⟩
  exact ⟨middle ++ replacement ++ after, by rw [resultEq]; simp⟩

theorem replaceRange?_insertion (before rest inserted : List Char) :
    replaceRange? (before ++ rest) (byteLength before) (byteLength before) inserted =
      some (before ++ inserted ++ rest) :=
  replaceRange?_eq_some_iff.mpr ⟨before, [], rest, by simp, rfl, by simp, rfl⟩

end Text

namespace Edit

/-- The text that insertions put at a place. The one made last comes first. -/
def insertedAt (place : Nat) (edits : List Edit) : List Char :=
  (edits.reverse.filter fun edit => edit.start == place && edit.stop == place).flatMap
    fun edit => edit.replacement.toList

/-- Whether the edits made before an edit sever it: behind what they insert at its start,
the piece of the source that the edit covers is cut inside a character. -/
def isSeveredBy (source : List Char) (earlier : List Edit) (edit : Edit) : Bool :=
  (Text.slice? source edit.start edit.stop).any fun piece =>
    !Text.isBoundary (insertedAt edit.start earlier ++ piece) (edit.stop - edit.start)

/-- Some edit is severed by those made before it. -/
def Severed (source : List Char) (edits : List Edit) : Prop :=
  ∃ earlier edit later, edits = earlier ++ edit :: later ∧
    edit.isSeveredBy source earlier = true

/-! ## Where carrying out edits stops -/

theorem exists_replaceRange?_iff_fits {current : List Char} {edit : Edit} :
    (∃ edited, Text.replaceRange? current edit.start edit.stop edit.replacement.toList =
      some edited) ↔ edit.Fits current := by
  constructor
  · intro exchange
    rcases exchange with ⟨edited, replaced⟩
    have spliced : splice current ([] ++ edit :: []) = .ok edited := by
      simp [splice, replaced]
    rcases fits_of_splice_eq_ok spliced with ⟨same, reached, fits⟩
    cases reached
    exact fits
  · intro fits
    rcases Text.exists_slice?_of_boundaries fits.ordered fits.startBoundary
      fits.stopBoundary with ⟨removed, sliced⟩
    rcases Text.slice?_eq_some_iff.mp sliced with ⟨before, after, pieces, startEq, stopEq⟩
    exact ⟨_, Text.replaceRange?_eq_some_iff.mpr
      ⟨before, removed, after, pieces, startEq, stopEq, rfl⟩⟩

/-- Carrying out edits stops at an edit that does not fit the text reached by then. -/
theorem exists_misfit_of_splice_eq_error {source : List Char} {edits : List Edit}
    {error : EditError} (stopped : splice source edits = .error error) :
    error = .severed ∧ ∃ performed edit later current, edits = performed ++ edit :: later ∧
      splice source performed = .ok current ∧ ¬edit.Fits current := by
  induction edits generalizing source with
  | nil => cases stopped
  | cons edit rest ih =>
      rw [splice] at stopped
      cases replaced : Text.replaceRange? source edit.start edit.stop edit.replacement.toList with
      | none =>
          rw [replaced] at stopped
          cases stopped
          refine ⟨rfl, [], edit, rest, source, rfl, rfl, ?_⟩
          intro fits
          rcases exists_replaceRange?_iff_fits.mpr fits with ⟨edited, found⟩
          rw [replaced] at found
          cases found
      | some edited =>
          rw [replaced] at stopped
          rcases ih stopped with
            ⟨errorEq, performed, misfit, later, current, rfl, reached, unfit⟩
          refine ⟨errorEq, edit :: performed, misfit, later, current, rfl, ?_, unfit⟩
          rw [splice, replaced]
          exact reached

/-! ## The text that an edit meets -/

theorem insertedAt_concat (place : Nat) (edits : List Edit) (edit : Edit) :
    insertedAt place (edits ++ [edit]) =
      (if edit.start = place ∧ edit.stop = place then edit.replacement.toList else []) ++
        insertedAt place edits := by
  simp only [insertedAt, List.reverse_append, List.reverse_singleton, List.singleton_append,
    List.filter_cons, Bool.and_eq_true, beq_iff_eq]
  split
  · rw [List.flatMap_cons]
  · rw [List.nil_append]

theorem insertedAt_eq_nil {place : Nat} {edits : List Edit}
    (elsewhere : ∀ edit ∈ edits, place < edit.start) : insertedAt place edits = [] := by
  rw [insertedAt, List.filter_eq_nil_iff.mpr, List.flatMap_nil]
  intro edit member insertion
  simp only [Bool.and_eq_true, beq_iff_eq] at insertion
  have := elsewhere edit (List.mem_reverse.mp member)
  omega

theorem splice_concat {source result : List Char} {edits : List Edit} {edit : Edit}
    (spliced : splice source (edits ++ [edit]) = .ok result) :
    ∃ current, splice source edits = .ok current ∧
      Text.replaceRange? current edit.start edit.stop edit.replacement.toList = some result := by
  rw [splice_append] at spliced
  cases reached : splice source edits with
  | error error => simp [reached, Except.bind] at spliced
  | ok current =>
      simp only [reached, Except.bind, splice] at spliced
      split at spliced
      · rename_i edited replaced
        cases spliced
        exact ⟨current, rfl, replaced⟩
      · cases spliced

/-- Edits behind the front of a source leave the front as it is. -/
theorem exists_rest_of_splice {front rest current : List Char} {performed : List Edit}
    (behind : ∀ edit ∈ performed, Text.byteLength front ≤ edit.start)
    (reached : splice (front ++ rest) performed = .ok current) :
    ∃ rest', current = front ++ rest' := by
  induction performed using List.reverseRecOn generalizing current with
  | nil =>
      cases reached
      exact ⟨rest, rfl⟩
  | append_singleton performed edit ih =>
      rcases List.forall_mem_append.mp behind with ⟨behindEarlier, behindLast⟩
      rcases splice_concat reached with ⟨between, reachedBetween, replaced⟩
      rcases ih behindEarlier reachedBetween with ⟨rest', rfl⟩
      exact Text.exists_rest_of_replaceRange? replaced (behindLast edit (by simp))

/-- Edits from the end of the source to its start that spare a piece, but for insertions at
its start, leave the piece as it is behind what they insert. -/
theorem exists_insertedAt_of_splice {before piece rest current : List Char}
    {performed : List Edit} (nonempty : 0 < Text.byteLength piece)
    (sorted : performed.Pairwise fun left right => right.start ≤ left.start)
    (sparing : ∀ edit ∈ performed,
      Text.byteLength before + Text.byteLength piece ≤ edit.start ∨
        edit.start = Text.byteLength before ∧ edit.stop = Text.byteLength before)
    (reached : splice (before ++ piece ++ rest) performed = .ok current) :
    ∃ rest', current =
      before ++ insertedAt (Text.byteLength before) performed ++ piece ++ rest' := by
  induction performed using List.reverseRecOn generalizing current with
  | nil =>
      cases reached
      exact ⟨rest, by simp [insertedAt]⟩
  | append_singleton performed edit ih =>
      rcases List.forall_mem_append.mp sparing with ⟨sparingEarlier, sparingLast⟩
      rcases List.pairwise_append.mp sorted with ⟨sortedEarlier, -, lastBelow⟩
      rcases splice_concat reached with ⟨between, reachedBetween, replaced⟩
      rcases ih sortedEarlier sparingEarlier reachedBetween with ⟨rest', rfl⟩
      rw [insertedAt_concat]
      rcases sparingLast edit (by simp) with behind | insertion
      · -- Everything carried out so far lies behind the piece, so nothing is inserted yet.
        have elsewhere : ∀ other ∈ performed, Text.byteLength before < other.start := by
          intro other member
          have := lastBelow other member edit (by simp)
          omega
        rw [insertedAt_eq_nil elsewhere] at replaced ⊢
        rw [if_neg (by omega)]
        simp only [List.append_nil] at replaced ⊢
        exact Text.exists_rest_of_replaceRange? replaced
          (by rw [Text.byteLength_append]; exact behind)
      · rw [if_pos insertion]
        rw [insertion.1, insertion.2, List.append_assoc, List.append_assoc,
          Text.replaceRange?_insertion] at replaced
        cases replaced
        exact ⟨rest', by simp⟩

/-! ## Severed or not -/

theorem isSeveredBy_eq_true_iff {source piece : List Char} {earlier : List Edit} {edit : Edit}
    (sliced : Text.slice? source edit.start edit.stop = some piece) :
    edit.isSeveredBy source earlier = true ↔
      Text.isBoundary (insertedAt edit.start earlier ++ piece) (edit.stop - edit.start) =
        false := by
  rw [isSeveredBy, sliced]
  simp

theorem fromTheEnd_perm (edits : List Edit) : (fromTheEnd edits).Perm edits :=
  List.mergeSort_perm _ _

/-- What an edit that has passed the check meets when its turn comes. Its range lies in the
text reached by then and starts on a character boundary, and it ends on one unless the edit
is severed. -/
theorem boundary_iff_not_severed {source current : List Char} {edits performed later : List Edit}
    {edit : Edit} (valid : validate source edits = .ok ())
    (order : fromTheEnd edits = performed ++ edit :: later)
    (reached : splice source performed = .ok current) :
    edit.start ≤ edit.stop ∧ edit.stop ≤ Text.byteLength current ∧
      Text.isBoundary current edit.start = true ∧
      (Text.isBoundary current edit.stop = true ↔
        edit.isSeveredBy source performed = false) := by
  rcases validate_eq_ok_iff.mp valid with ⟨fits, disjoint⟩
  have fitsOrdered : ∀ other ∈ performed ++ edit :: later, other.Fits source := by
    intro other member
    rw [← order] at member
    exact fits other ((fromTheEnd_perm edits).subset member)
  have symmetric : ∀ {left right : Edit}, left.overlaps right = false →
      right.overlaps left = false := by
    intro left right apart
    exact overlaps_eq_false_iff.mpr (overlaps_eq_false_iff.mp apart).symm
  have apart := ((fromTheEnd_perm edits).pairwise_iff symmetric).mpr disjoint
  have sorted := pairwise_fromTheEnd edits
  rw [order, List.pairwise_append] at apart sorted
  have fitsHere := fitsOrdered edit (by simp)
  rcases Text.exists_slice?_of_boundaries fitsHere.ordered fitsHere.startBoundary
    fitsHere.stopBoundary with ⟨piece, sliced⟩
  rcases Text.slice?_eq_some_iff.mp sliced with ⟨before, rest, rfl, startEq, stopEq⟩
  have above : ∀ other ∈ performed, edit.start ≤ other.start := by
    intro other member
    exact sorted.2.2 other member edit (by simp)
  refine ⟨fitsHere.ordered, ?_⟩
  rcases Nat.eq_or_lt_of_le fitsHere.ordered with empty | longer
  · -- An insertion stays where it was, since everything so far lies behind it.
    have noBytes : piece = [] := Text.eq_nil_of_byteLength_eq_zero (by omega)
    subst noBytes
    rw [List.append_nil] at reached
    rcases exists_rest_of_splice (by rw [startEq]; exact above) reached with ⟨rest', rfl⟩
    have starts : Text.isBoundary (before ++ rest') edit.start = true :=
      Text.isBoundary_iff.mpr ⟨before, rest', rfl, startEq⟩
    have whole : edit.isSeveredBy (before ++ [] ++ rest) performed = false := by
      rw [Bool.eq_false_iff, ne_eq, isSeveredBy_eq_true_iff sliced, ← empty, Nat.sub_self]
      simp [Text.isBoundary, Text.splitAtByte?, Text.splitAtByteFrom]
    refine ⟨?_, starts, ?_⟩
    · rw [Text.byteLength_append]
      omega
    · rw [← empty, whole]
      simp [starts]
  · have sparing : ∀ other ∈ performed,
        Text.byteLength before + Text.byteLength piece ≤ other.start ∨
          other.start = Text.byteLength before ∧ other.stop = Text.byteLength before := by
      intro other member
      have := (fitsOrdered other (by simp [member])).ordered
      have := above other member
      have := overlaps_eq_false_iff.mp (apart.2.2 other member edit (by simp))
      omega
    rcases exists_insertedAt_of_splice (by omega) sorted.1 sparing reached with ⟨rest', rfl⟩
    rw [startEq]
    refine ⟨?_, ?_, ?_⟩
    · simp only [Text.byteLength_append]
      omega
    · exact Text.isBoundary_iff.mpr
        ⟨before, insertedAt edit.start performed ++ piece ++ rest', by simp, startEq⟩
    · have stopOffset : edit.stop = Text.byteLength before + (edit.stop - edit.start) := by omega
      have inside : edit.stop - edit.start ≤
          Text.byteLength (insertedAt edit.start performed ++ piece) := by
        rw [Text.byteLength_append]
        omega
      have ends : Text.isBoundary (before ++ insertedAt edit.start performed ++ piece ++ rest')
          edit.stop = Text.isBoundary (insertedAt edit.start performed ++ piece)
            (edit.stop - edit.start) := by
        calc Text.isBoundary (before ++ insertedAt edit.start performed ++ piece ++ rest') edit.stop
            = Text.isBoundary (before ++ (insertedAt edit.start performed ++ piece ++ rest'))
                (Text.byteLength before + (edit.stop - edit.start)) := by
              rw [← stopOffset]
              simp
          _ = Text.isBoundary (insertedAt edit.start performed ++ piece ++ rest')
                (edit.stop - edit.start) := Text.isBoundary_append_left _ _ _
          _ = _ := Text.isBoundary_append_right inside rest'
      rw [ends, Bool.eq_false_iff, ne_eq, isSeveredBy_eq_true_iff sliced, Bool.not_eq_false]

/-- Edits that pass the check are stopped exactly when one of them is severed by those
carried out before it. -/
theorem splice_eq_error_iff {source : List Char} {edits : List Edit}
    (valid : validate source edits = .ok ()) :
    splice source (fromTheEnd edits) = .error .severed ↔ Severed source (fromTheEnd edits) := by
  constructor
  · intro stopped
    rcases exists_misfit_of_splice_eq_error stopped with
      ⟨-, performed, edit, later, current, order, reached, misfit⟩
    rcases boundary_iff_not_severed valid order reached with ⟨ordered, inside, starts, stops⟩
    refine ⟨performed, edit, later, order, ?_⟩
    rw [← Bool.not_eq_false]
    intro whole
    exact misfit ⟨ordered, inside, starts, stops.mpr whole⟩
  · intro severed
    rcases severed with ⟨performed, edit, later, order, cut⟩
    cases outcome : splice source (fromTheEnd edits) with
    | error error => rw [(exists_misfit_of_splice_eq_error outcome).1]
    | ok result =>
        rw [order] at outcome
        rcases fits_of_splice_eq_ok outcome with ⟨current, reached, fits⟩
        rcases boundary_iff_not_severed valid order reached with ⟨-, -, -, stops⟩
        rw [stops.mp fits.stopBoundary] at cut
        cases cut

/-! ## The order in which the edits were made -/

theorem insertedAt_eq_of_filter_eq {place : Nat} {left right : List Edit}
    (agree : left.filter (fun edit => edit.start == place) =
      right.filter fun edit => edit.start == place) :
    insertedAt place left = insertedAt place right := by
  have onlyHere : ∀ edits : List Edit, insertedAt place edits =
      insertedAt place (edits.filter fun edit => edit.start == place) := by
    intro edits
    rw [insertedAt, insertedAt, ← List.filter_reverse, List.filter_filter]
    congr 2
    funext edit
    cases edit.start == place <;> simp
  rw [onlyHere left, agree, ← onlyHere right]

/-- Whether an edit is severed depends on the order of the edits with one start alone. -/
theorem Severed.of_filter_eq {source : List Char} {left right : List Edit}
    (agree : ∀ place, left.filter (fun edit => edit.start == place) =
      right.filter fun edit => edit.start == place)
    (severed : Severed source left) : Severed source right := by
  rcases severed with ⟨earlier, edit, later, rfl, cut⟩
  have sameStart := (agree edit.start).symm
  rw [List.filter_append, List.filter_cons_of_pos (by simp)] at sameStart
  rcases List.filter_eq_append_iff.mp sameStart with ⟨front, back, rfl, frontEq, backEq⟩
  rcases List.filter_eq_cons_iff.mp backEq with ⟨gap, others, rfl, skipped, -, -⟩
  refine ⟨front ++ gap, edit, others, by simp, ?_⟩
  have inserted : insertedAt edit.start (front ++ gap) = insertedAt edit.start earlier := by
    apply insertedAt_eq_of_filter_eq
    rw [List.filter_append, frontEq, List.filter_eq_nil_iff.mpr skipped, List.append_nil]
  rw [isSeveredBy, inserted]
  exact cut

theorem filter_fromTheEnd (edits : List Edit) (place : Nat) :
    (fromTheEnd edits).filter (fun edit => edit.start == place) =
      edits.filter fun edit => edit.start == place := by
  apply filter_mergeSort
  all_goals simp only [decide_eq_true_eq, beq_iff_eq, Bool.or_eq_true]
  all_goals omega

theorem severed_fromTheEnd_iff {source : List Char} {edits : List Edit} :
    Severed source (fromTheEnd edits) ↔ Severed source edits :=
  ⟨Severed.of_filter_eq (filter_fromTheEnd edits),
    Severed.of_filter_eq fun place => (filter_fromTheEnd edits place).symm⟩

/-- Edits that pass the check fail exactly when one of them is severed by those made before
it. -/
theorem apply_eq_error_iff {source : String} {edits : List Edit}
    (valid : validate source.toList edits = .ok ()) :
    apply source edits = .error .severed ↔ Severed source.toList edits := by
  rw [← severed_fromTheEnd_iff, ← splice_eq_error_iff valid, apply, valid]
  cases splice source.toList (fromTheEnd edits) with
  | error error => simp [bind, Except.bind]
  | ok edited => simp [bind, Except.bind, pure, Except.pure]

theorem exists_apply_iff {source : String} {edits : List Edit}
    (valid : validate source.toList edits = .ok ()) :
    (∃ text, apply source edits = .ok text) ↔ ¬Severed source.toList edits := by
  rw [← severed_fromTheEnd_iff, ← splice_eq_error_iff valid]
  cases outcome : splice source.toList (fromTheEnd edits) with
  | error error =>
      rw [(exists_misfit_of_splice_eq_error outcome).1, apply, valid, outcome]
      simp [bind, Except.bind]
  | ok edited => simp [apply_of_splice valid outcome]

/-- The exact extent to which the check guards the edits that it accepts. Each edit meets a
text in which its range is in bounds and starts on a character boundary, and it ends on one
unless the edit is severed by those carried out before it. Hence all edits are carried out
unless one of them is severed by those made before it, and then applying them fails. -/
theorem checked_edits_fail_only_severed (source : String) (edits : List Edit)
    (valid : validate source.toList edits = .ok ()) :
    (∀ performed edit later current, fromTheEnd edits = performed ++ edit :: later →
      splice source.toList performed = .ok current →
        edit.start ≤ edit.stop ∧ edit.stop ≤ Text.byteLength current ∧
        Text.isBoundary current edit.start = true ∧
        (Text.isBoundary current edit.stop = true ↔
          edit.isSeveredBy source.toList performed = false)) ∧
    ((∃ text, apply source edits = .ok text) ↔ ¬Severed source.toList edits) ∧
    (apply source edits = .error .severed ↔ Severed source.toList edits) := by
  refine ⟨?_, exists_apply_iff valid, apply_eq_error_iff valid⟩
  intro performed edit later current order reached
  exact boundary_iff_not_severed valid order reached

/-- An insertion of one byte, and then the exchange of a two-byte character behind it. -/
def shiftedEdits : List Edit := [⟨1, 1, "+", none⟩, ⟨1, 3, "x", none⟩]

theorem severed_shiftedEdits : Severed "aéb".toList shiftedEdits :=
  ⟨[⟨1, 1, "+", none⟩], ⟨1, 3, "x", none⟩, [], rfl, by decide⟩

theorem checked_edits_fail_only_severed_shiftedEdits :
    validate "aéb".toList shiftedEdits = .ok () ∧
      apply "aéb" shiftedEdits = .error .severed :=
  have valid : validate "aéb".toList shiftedEdits = .ok () :=
    validate_eq_ok_iff.mpr (by decide)
  ⟨valid, (checked_edits_fail_only_severed "aéb" shiftedEdits valid).2.2.mpr
    severed_shiftedEdits⟩

/-- An insertion of a two-byte character, and then the exchange of one byte behind it. -/
def brokenInsertion : List Edit := [⟨0, 0, "é", none⟩, ⟨0, 1, "x", none⟩]

/-- Passing the check is not enough: an edit can end inside of an inserted character. -/
theorem check_passes_edits_that_fail :
    validate "ab".toList brokenInsertion = .ok () ∧
      apply "ab" brokenInsertion = .error .severed :=
  have valid : validate "ab".toList brokenInsertion = .ok () :=
    validate_eq_ok_iff.mpr (by decide)
  ⟨valid, (apply_eq_error_iff valid).mpr
    ⟨[⟨0, 0, "é", none⟩], ⟨0, 1, "x", none⟩, [], rfl, by decide⟩⟩

end Edit

end LoopLift
