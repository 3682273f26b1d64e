import LoopLift.Proofs.Edit.Validation
import Mathlib.Data.List.Pairwise

/-!
# Splicing in one pass

Edits are carried out one after the other from the end of the source to its
start. Here this is identified with one pass over the source in the other
direction, which keeps what stands between the edits and exchanges their ranges.
The argument needs that each edit, in source order, starts where the one before
it has ended: then everything below the end of an edit is still the original
text when its turn comes.
-/

namespace LoopLift.Edit

/-- The edits in the order of their starts. Of edits with one start, the one made
last comes first. -/
def inSourceOrder (edits : List Edit) : List Edit :=
  edits.reverse.mergeSort fun left right => decide (left.start ≤ right.start)

/-- One pass over a source from a byte offset. The text before each edit is kept,
the edit gives its replacement, and the text after the last edit is kept. -/
def weave? (source : List Char) (offset : Nat) : List Edit → Option (List Char)
  | [] => Text.slice? source offset (Text.byteLength source)
  | edit :: rest => do
      let kept ← Text.slice? source offset edit.start
      let woven ← weave? source edit.stop rest
      return kept ++ edit.replacement.toList ++ woven

/-- Each edit ends before the next one starts. -/
def Separated (edits : List Edit) : Prop :=
  edits.Pairwise fun left right => left.stop ≤ right.start

/-- No insertion is made before an edit of a longer range at the same place. -/
def InsertsLast (edits : List Edit) : Prop :=
  edits.Pairwise fun earlier later =>
    ¬(earlier.start = earlier.stop ∧ later.start = earlier.start ∧ later.start < later.stop)

instance (edits : List Edit) : Decidable (Separated edits) :=
  inferInstanceAs (Decidable (List.Pairwise _ edits))

instance (edits : List Edit) : Decidable (InsertsLast edits) :=
  inferInstanceAs (Decidable (List.Pairwise _ edits))

/-! ## The two orders -/

/-- Sorting by a key keeps the order of the elements with one value of the
key. -/
theorem filter_mergeSort {α : Type} {le : α → α → Bool} {chosen : α → Bool}
    (trans : ∀ first second third, le first second → le second third → le first third)
    (total : ∀ first second, le first second || le second first)
    (tied : ∀ first second, chosen first → chosen second → le first second)
    (items : List α) :
    (items.mergeSort le).filter chosen = items.filter chosen := by
  have sorted : (items.filter chosen).Pairwise fun first second => le first second := by
    rw [List.pairwise_iff_forall_sublist]
    intro first second pair
    have firstChosen := List.mem_filter.mp (pair.subset (by simp : first ∈ [first, second]))
    have secondChosen := List.mem_filter.mp (pair.subset (by simp : second ∈ [first, second]))
    exact tied first second firstChosen.2 secondChosen.2
  have kept : (items.filter chosen).Sublist (items.mergeSort le) :=
    List.sublist_mergeSort trans total sorted List.filter_sublist
  have filtered : (items.filter chosen).Sublist ((items.mergeSort le).filter chosen) := by
    simpa using kept.filter chosen
  have sameLength := ((List.mergeSort_perm items le).filter chosen).length_eq
  exact (filtered.eq_of_length sameLength.symm).symm

/-- Two lists in the order of a key are equal when they agree on the elements of
every value of the key. -/
theorem eq_of_filter_eq {α : Type} {key : α → Nat} {left right : List α}
    (leftSorted : left.Pairwise fun first second => key first ≤ key second)
    (rightSorted : right.Pairwise fun first second => key first ≤ key second)
    (agree : ∀ value, left.filter (fun item => key item == value) =
      right.filter fun item => key item == value) :
    left = right := by
  induction left generalizing right with
  | nil =>
      cases right with
      | nil => rfl
      | cons first rest =>
          have := agree (key first)
          simp at this
  | cons head tail ih =>
      have headMember : head ∈ right.filter fun item => key item == key head := by
        rw [← agree (key head)]
        simp
      cases right with
      | nil => simp at headMember
      | cons first rest =>
          have firstMember : first ∈ head :: tail := by
            have : first ∈ (head :: tail).filter fun item => key item == key first := by
              rw [agree (key first)]
              simp
            exact (List.mem_filter.mp this).1
          have headKey : key head ≤ key first := by
            rcases List.mem_cons.mp firstMember with equal | later
            · exact Nat.le_of_eq (congrArg key equal.symm)
            · exact (List.pairwise_cons.mp leftSorted).1 first later
          have firstKey : key first ≤ key head := by
            rcases List.mem_cons.mp (List.mem_filter.mp headMember).1 with equal | later
            · exact Nat.le_of_eq (congrArg key equal.symm)
            · exact (List.pairwise_cons.mp rightSorted).1 head later
          have sameKey : key first = key head := Nat.le_antisymm firstKey headKey
          have sameHead : head = first := by
            have := agree (key head)
            simp only [List.filter_cons, beq_self_eq_true, ↓reduceIte, sameKey,
              List.cons.injEq] at this
            exact this.1
          subst sameHead
          congr 1
          apply ih (List.pairwise_cons.mp leftSorted).2 (List.pairwise_cons.mp rightSorted).2
          intro value
          have := agree value
          simp only [List.filter_cons] at this
          split at this
          · exact (List.cons.inj this).2
          · exact this

theorem pairwise_inSourceOrder (edits : List Edit) :
    (inSourceOrder edits).Pairwise fun left right => left.start ≤ right.start := by
  have sorted := @List.pairwise_mergeSort Edit
    (fun left right => decide (left.start ≤ right.start))
    (by simp only [decide_eq_true_eq]; omega)
    (by simp only [Bool.or_eq_true, decide_eq_true_eq]; omega) edits.reverse
  simpa [inSourceOrder] using sorted

theorem pairwise_fromTheEnd (edits : List Edit) :
    (fromTheEnd edits).Pairwise fun left right => right.start ≤ left.start := by
  have sorted := @List.pairwise_mergeSort Edit
    (fun left right => decide (right.start ≤ left.start))
    (by simp only [decide_eq_true_eq]; omega)
    (by simp only [Bool.or_eq_true, decide_eq_true_eq]; omega) edits
  simpa [fromTheEnd] using sorted

/-- One more edit at the front is carried out after the edits that start behind
it, and before all others. -/
theorem fromTheEnd_cons (edit : Edit) (rest : List Edit) :
    ∃ after before, fromTheEnd (edit :: rest) = after ++ edit :: before ∧
      fromTheEnd rest = after ++ before ∧ ∀ other ∈ after, edit.start < other.start := by
  obtain ⟨after, before, inserted, sorted, behind⟩ := @List.mergeSort_cons Edit
    (fun left right => decide (right.start ≤ left.start))
    (by simp only [decide_eq_true_eq]; omega)
    (by simp only [Bool.or_eq_true, decide_eq_true_eq]; omega) edit rest
  refine ⟨after, before, inserted, sorted, ?_⟩
  intro other member
  simpa using behind other member

/-- From the end of the source to its start is source order reversed. -/
theorem fromTheEnd_eq_reverse (edits : List Edit) :
    fromTheEnd edits = (inSourceOrder edits).reverse := by
  rw [← List.reverse_eq_iff]
  apply @eq_of_filter_eq Edit Edit.start
  · rw [List.pairwise_reverse]
    exact pairwise_fromTheEnd edits
  · exact pairwise_inSourceOrder edits
  · intro start
    rw [List.filter_reverse, fromTheEnd, inSourceOrder]
    rw [filter_mergeSort, filter_mergeSort, List.filter_reverse]
    all_goals simp only [decide_eq_true_eq, beq_iff_eq, Bool.or_eq_true]
    all_goals omega

/-- Edits made in the order of their starts are in source order. -/
theorem inSourceOrder_eq_self {edits : List Edit}
    (ascending : edits.Pairwise fun left right => left.start < right.start) :
    inSourceOrder edits = edits := by
  have sameEdits : (inSourceOrder edits).Perm edits :=
    (List.mergeSort_perm _ _).trans edits.reverse_perm
  apply sameEdits.eq_of_pairwise _ (pairwise_inSourceOrder edits) (ascending.imp Nat.le_of_lt)
  -- Two edits with one start are the same, as starts never repeat.
  intro left right leftMember rightMember leftFirst rightFirst
  have distinct : edits.Pairwise fun left right => left.start ≠ right.start :=
    ascending.imp Nat.ne_of_lt
  by_contra different
  have : Std.Symm fun left right : Edit => left.start ≠ right.start := ⟨fun _ _ => Ne.symm⟩
  exact distinct.forall (sameEdits.subset leftMember) rightMember different
    (Nat.le_antisymm leftFirst rightFirst)

/-- Edits that pass the check, with insertions after longer edits of the same
start, are separated in source order. -/
theorem separated_inSourceOrder {source : List Char} {edits : List Edit}
    (fits : ∀ edit ∈ edits, edit.Fits source)
    (disjoint : edits.Pairwise fun left right => left.overlaps right = false)
    (insertsLast : InsertsLast edits) :
    Separated (inSourceOrder edits) := by
  rw [Separated, ← List.pairwise_reverse, ← fromTheEnd_eq_reverse]
  induction edits with
  | nil => simp [fromTheEnd]
  | cons edit rest ih =>
      rcases List.forall_mem_cons.mp fits with ⟨fitsHere, fitsRest⟩
      rcases List.pairwise_cons.mp disjoint with ⟨apart, disjointRest⟩
      rcases List.pairwise_cons.mp insertsLast with ⟨insertsHere, insertsRest⟩
      rcases fromTheEnd_cons edit rest with ⟨after, before, inserted, sorted, later⟩
      have ordered := pairwise_fromTheEnd (edit :: rest)
      rw [inserted, List.pairwise_append, List.pairwise_cons] at ordered
      have members : ∀ other ∈ after ++ before, other ∈ rest := by
        intro other member
        rw [← sorted] at member
        exact List.mem_mergeSort.mp member
      have separatedRest := ih fitsRest disjointRest insertsRest
      rw [sorted, List.pairwise_append] at separatedRest
      rw [inserted, List.pairwise_append, List.pairwise_cons]
      refine ⟨separatedRest.1, ⟨?_, separatedRest.2.1⟩, ?_⟩
      · intro other member
        have otherRest := members other (List.mem_append_right _ member)
        have startsBelow := ordered.2.1.1 other member
        have := overlaps_eq_false_iff.mp (apart other otherRest)
        have := insertsHere other otherRest
        have := (fitsRest other otherRest).ordered
        have := fitsHere.ordered
        omega
      · intro other member
        rw [List.forall_mem_cons]
        constructor
        · have startsAbove := later other member
          have otherRest := members other (List.mem_append_left _ member)
          have := overlaps_eq_false_iff.mp (apart other otherRest)
          have := (fitsRest other otherRest).ordered
          omega
        · exact separatedRest.2.2 other member

/-! ## Two directions, one result -/

theorem splice_append (source : List Char) (first second : List Edit) :
    splice source (first ++ second) =
      (splice source first).bind fun edited => splice edited second := by
  induction first generalizing source with
  | nil => rfl
  | cons edit rest ih =>
      simp only [List.cons_append, splice]
      cases Text.replaceRange? source edit.start edit.stop edit.replacement.toList with
      | none => rfl
      | some edited => exact ih edited

/-- Separated edits behind an initial piece of the source leave that piece as it
is, and give behind it what one pass gives. -/
theorem splice_reverse_eq_weave {source : List Char} {edits : List Edit}
    (fits : ∀ edit ∈ edits, edit.Fits source) (separated : Separated edits)
    {passed rest : List Char} (pieces : source = passed ++ rest)
    (behind : ∀ edit ∈ edits, Text.byteLength passed ≤ edit.start) :
    ∃ woven, weave? source (Text.byteLength passed) edits = some woven ∧
      splice source edits.reverse = .ok (passed ++ woven) := by
  induction edits generalizing passed rest with
  | nil =>
      refine ⟨rest, ?_, by rw [pieces]; rfl⟩
      exact Text.slice?_eq_some_iff.mpr ⟨passed, [], by simp [pieces], rfl, by simp [pieces]⟩
  | cons edit later ih =>
      rcases List.forall_mem_cons.mp fits with ⟨fitsHere, fitsLater⟩
      rcases List.pairwise_cons.mp separated with ⟨endsBefore, separatedLater⟩
      rcases List.forall_mem_cons.mp behind with ⟨startsBehind, -⟩
      -- The source falls into what is passed, what is kept, the range of the edit
      -- and what follows it.
      obtain ⟨toStart, fromStart, startCut, startEq⟩ :=
        Text.isBoundary_iff.mp fitsHere.startBoundary
      obtain ⟨toStop, fromStop, stopCut, stopEq⟩ :=
        Text.isBoundary_iff.mp fitsHere.stopBoundary
      obtain ⟨kept, rfl, -⟩ := Text.exists_middle_of_byteLength_le
        (pieces.symm.trans startCut) (by omega)
      obtain ⟨removed, rfl, -⟩ := Text.exists_middle_of_byteLength_le
        (startCut.symm.trans stopCut) (by have := fitsHere.ordered; omega)
      obtain ⟨woven, wovenEq, spliced⟩ := ih fitsLater separatedLater stopCut (by
        intro other member
        rw [stopEq]
        exact endsBefore other member)
      refine ⟨kept ++ edit.replacement.toList ++ woven, ?_, ?_⟩
      · have keptEq : Text.slice? source (Text.byteLength passed) edit.start = some kept :=
          Text.slice?_eq_some_iff.mpr
            ⟨passed, fromStart, startCut, rfl, by rw [← startEq, Text.byteLength_append]⟩
        rw [stopEq] at wovenEq
        simp [weave?, keptEq, wovenEq]
      · have replaced : Text.replaceRange? (passed ++ kept ++ removed ++ woven) edit.start
            edit.stop edit.replacement.toList =
              some (passed ++ (kept ++ edit.replacement.toList ++ woven)) :=
          Text.replaceRange?_eq_some_iff.mpr
            ⟨passed ++ kept, removed, woven, rfl, startEq,
              by rw [← stopEq, ← startEq]; exact (Text.byteLength_append _ _).symm, by simp⟩
        rw [List.reverse_cons, splice_append, spliced]
        simp only [Except.bind, splice, replaced]

/-- At a cut of the source that no edit crosses, one pass falls into that over the
front with the edits before the cut, and that from the cut on. -/
theorem exists_weave?_of_cut {before after : List Char} {earlier later : List Edit}
    {offset : Nat} {text : List Char}
    (woven : weave? (before ++ after) offset (earlier ++ later) = some text)
    (starts : offset ≤ Text.byteLength before)
    (behind : ∀ edit ∈ earlier, edit.start ≤ edit.stop ∧ edit.stop ≤ Text.byteLength before)
    (ahead : ∀ edit ∈ later, Text.byteLength before ≤ edit.start) :
    ∃ placed rest, text = placed ++ rest ∧ weave? before offset earlier = some placed ∧
      weave? (before ++ after) (Text.byteLength before) later = some rest := by
  induction earlier generalizing offset text with
  | nil =>
      cases later with
      | nil =>
          rcases Text.exists_slices_of_cut woven starts
            (by rw [Text.byteLength_append]; omega) with ⟨first, second, rfl, front, rest⟩
          exact ⟨first, second, rfl, front, rest⟩
      | cons edit later =>
          simp only [List.nil_append, weave?, Option.bind_eq_bind, Option.bind_eq_some_iff] at woven
          rcases woven with ⟨kept, keptEq, others, othersEq, assembled⟩
          cases assembled
          rcases Text.exists_slices_of_cut keptEq starts (ahead edit List.mem_cons_self) with
            ⟨first, second, rfl, front, rest⟩
          refine ⟨first, second ++ edit.replacement.toList ++ others, by simp, front, ?_⟩
          simp [weave?, rest, othersEq]
  | cons edit earlier ih =>
      rcases List.forall_mem_cons.mp behind with ⟨⟨ordered, inside⟩, behindRest⟩
      simp only [List.cons_append, weave?, Option.bind_eq_bind, Option.bind_eq_some_iff] at woven
      rcases woven with ⟨kept, keptEq, others, othersEq, assembled⟩
      cases assembled
      rcases ih othersEq inside behindRest with ⟨placed, rest, rfl, front, back⟩
      rw [Text.slice?_append_left (Nat.le_trans ordered inside)] at keptEq
      refine ⟨kept ++ edit.replacement.toList ++ placed, rest, by simp, ?_, back⟩
      simp [weave?, keptEq, front]

/-- When a whole list of edits can be carried out, each edit meets a text in
which its range denotes a piece. -/
theorem fits_of_splice_eq_ok {source result : List Char} {performed later : List Edit}
    {edit : Edit} (spliced : splice source (performed ++ edit :: later) = .ok result) :
    ∃ current, splice source performed = .ok current ∧ edit.Fits current := by
  rw [splice_append] at spliced
  cases reached : splice source performed with
  | error error => simp [reached, Except.bind] at spliced
  | ok current =>
      refine ⟨current, rfl, ?_⟩
      simp only [reached, Except.bind, splice] at spliced
      split at spliced
      · rename_i edited replaced
        obtain ⟨before, removed, after, rfl, startEq, stopEq, -⟩ :=
          Text.replaceRange?_eq_some_iff.mp replaced
        refine ⟨by omega, ?_, ?_, ?_⟩
        · simp only [Text.byteLength_append]
          omega
        · exact Text.isBoundary_iff.mpr ⟨before, removed ++ after, by simp, startEq⟩
        · exact Text.isBoundary_iff.mpr
            ⟨before ++ removed, after, rfl, by rw [Text.byteLength_append]; omega⟩
      · cases spliced

/-- Edits that pass the check can be carried out, and give what one pass over the
source gives. -/
theorem splice_fromTheEnd {source : List Char} {edits : List Edit}
    (valid : validate source edits = .ok ()) (insertsLast : InsertsLast edits) :
    ∃ woven, weave? source 0 (inSourceOrder edits) = some woven ∧
      splice source (fromTheEnd edits) = .ok woven := by
  rcases validate_eq_ok_iff.mp valid with ⟨fits, disjoint⟩
  have fitsOrdered : ∀ edit ∈ inSourceOrder edits, edit.Fits source := by
    intro edit member
    apply fits
    simpa [inSourceOrder] using member
  have separated := separated_inSourceOrder fits disjoint insertsLast
  rcases splice_reverse_eq_weave fitsOrdered separated (List.nil_append source).symm
    (by simp) with ⟨woven, wovenEq, spliced⟩
  rw [← fromTheEnd_eq_reverse] at spliced
  exact ⟨woven, wovenEq, spliced⟩

/-- Edits are applied when they pass the check and can be carried out. -/
theorem apply_of_splice {source : String} {edits : List Edit} {edited : List Char}
    (valid : validate source.toList edits = .ok ())
    (spliced : splice source.toList (fromTheEnd edits) = .ok edited) :
    apply source edits = .ok (String.ofList edited) := by
  rw [apply, valid, spliced]
  rfl

theorem validate_of_apply {source text : String} {edits : List Edit}
    (applied : apply source edits = .ok text) : validate source.toList edits = .ok () := by
  rw [apply] at applied
  cases checked : validate source.toList edits with
  | error error => simp [checked, bind, Except.bind] at applied
  | ok => rfl

/-- Edits that pass the check are spliced in at once: the result is one pass over
the source with the edits in source order, and each single exchange on the way
meets a text in which its range denotes a piece. An insertion made before a
longer edit at the same place is left out, since it would move that edit. -/
theorem apply_eq_weave (source : String) (edits : List Edit)
    (valid : validate source.toList edits = .ok ()) (insertsLast : InsertsLast edits) :
    (∃ woven, weave? source.toList 0 (inSourceOrder edits) = some woven ∧
      apply source edits = .ok (String.ofList woven)) ∧
    ∀ performed edit later, fromTheEnd edits = performed ++ edit :: later →
      ∃ current, splice source.toList performed = .ok current ∧ edit.Fits current := by
  rcases splice_fromTheEnd valid insertsLast with ⟨woven, wovenEq, spliced⟩
  constructor
  · exact ⟨woven, wovenEq, apply_of_splice valid spliced⟩
  · intro performed edit later order
    rw [order] at spliced
    exact fits_of_splice_eq_ok spliced

/-- Edits at a two-byte character: a replacement and two insertions at its start,
a deletion right behind it, and a longer text at the start of the source. -/
def mixedEdits : List Edit :=
  [⟨2, 4, "xyz", none⟩, ⟨2, 2, "é", none⟩, ⟨2, 2, "+", none⟩, ⟨4, 6, "", none⟩, ⟨0, 1, "AA", none⟩]

theorem apply_eq_weave_mixedEdits :
    validate "abécd".toList mixedEdits = .ok () ∧ InsertsLast mixedEdits ∧
    (∃ woven, weave? "abécd".toList 0 (inSourceOrder mixedEdits) = some woven ∧
      apply "abécd" mixedEdits = .ok (String.ofList woven)) ∧
    ∀ performed edit later, fromTheEnd mixedEdits = performed ++ edit :: later →
      ∃ current, splice "abécd".toList performed = .ok current ∧ edit.Fits current :=
  have valid : validate "abécd".toList mixedEdits = .ok () :=
    validate_eq_ok_iff.mpr (by decide)
  have insertsLast : InsertsLast mixedEdits := by decide
  ⟨valid, insertsLast, apply_eq_weave "abécd" mixedEdits valid insertsLast⟩

end LoopLift.Edit
