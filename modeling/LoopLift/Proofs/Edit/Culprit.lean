import LoopLift.Proofs.Edit.Splicing
import Mathlib.Data.Prod.Lex
import Mathlib.Order.Bounds.Basic

/-!
# Chains of edits, and what is wrong with all others

The check compares every two edits. Sorted by their ranges, the edits that it accepts form a
chain of bounds from the start of the source to its end. Of all other edits it names the
least culprit: the first edit that does not denote a piece of the source, or the least two
edits that overlap.
-/

namespace LoopLift.Edit

/-- The edits by their starts, and those with one start by their stops. -/
def byRange (edits : List Edit) : List Edit :=
  edits.mergeSort fun left right =>
    decide (left.start < right.start) ||
      (left.start == right.start && decide (left.stop ≤ right.stop))

/-- The start and the stop of each edit, one edit after the other. -/
def bounds (edits : List Edit) : List Nat :=
  edits.flatMap fun edit => [edit.start, edit.stop]

/-- By their ranges, the edits form a chain in the source: no bound is smaller than the one
before it, the last one lies in the source, and all of them are character boundaries. -/
structure Chained (source : List Char) (edits : List Edit) : Prop where
  ascending : (0 :: (bounds (byRange edits) ++ [Text.byteLength source])).IsChain (· ≤ ·)
  boundaries : ∀ bound ∈ bounds (byRange edits), Text.isBoundary source bound = true

/-- An edit ends past the source, or before it starts. -/
def OutOfBounds (source : List Char) (edit : Edit) : Prop :=
  Text.byteLength source < edit.stop ∨ edit.stop < edit.start

/-- An edit starts or ends where no character boundary of the source is. -/
def SplitsCharacter (source : List Char) (edit : Edit) : Prop :=
  Text.isBoundary source edit.start = false ∨ Text.isBoundary source edit.stop = false

/-- The edit at an index is out of bounds or splits a character. -/
def FaultyAt (source : List Char) (edits : List Edit) (index : Nat) : Prop :=
  ∃ edit, edits[index]? = some edit ∧ (edit.OutOfBounds source ∨ edit.SplitsCharacter source)

/-- The edits at two indices, the smaller one first, overlap. -/
def ClashAt (edits : List Edit) (first second : Nat) : Prop :=
  first < second ∧ ∃ left right, edits[first]? = some left ∧ edits[second]? = some right ∧
    left.overlaps right = true

/-- What is wrong with a list of edits. The error names the first edit that is at fault,
first for its bounds and then for its characters. Without such an edit it names the least
pair of edits that overlap, by the first index and then by the second. -/
inductive Culprit (source : List Char) (edits : List Edit) : EditError → Prop where
  | outOfBounds {index : Nat} {edit : Edit}
      (least : IsLeast { index | FaultyAt source edits index } index)
      (found : edits[index]? = some edit) (outside : edit.OutOfBounds source) :
      Culprit source edits (.outOfBounds index edit.stop (Text.byteLength source))
  | splitsCharacter {index : Nat} {edit : Edit}
      (least : IsLeast { index | FaultyAt source edits index } index)
      (found : edits[index]? = some edit) (inside : ¬edit.OutOfBounds source) :
      Culprit source edits (.splitsCharacter index)
  | overlapping {first second : Nat} (sound : ∀ index, ¬FaultyAt source edits index)
      (least : IsLeast { pair : Nat ×ₗ Nat | ClashAt edits (ofLex pair).1 (ofLex pair).2 }
        (toLex (first, second))) :
      Culprit source edits (.overlapping first second)

/-! ## Chains -/

theorem byRange_perm (edits : List Edit) : (byRange edits).Perm edits :=
  List.mergeSort_perm _ _

theorem pairwise_byRange (edits : List Edit) :
    (byRange edits).Pairwise fun left right =>
      left.start < right.start ∨ left.start = right.start ∧ left.stop ≤ right.stop := by
  have sorted := @List.pairwise_mergeSort Edit
    (fun left right => decide (left.start < right.start) ||
      (left.start == right.start && decide (left.stop ≤ right.stop)))
    (by simp only [Bool.or_eq_true, Bool.and_eq_true, decide_eq_true_eq, beq_iff_eq]; omega)
    (by simp only [Bool.or_eq_true, Bool.and_eq_true, decide_eq_true_eq, beq_iff_eq]; omega) edits
  simpa [byRange] using sorted

/-- Sorted edits that do not overlap lie one behind the other. An insertion at the start of
another edit is sorted before it, so that the stops decide this case too. -/
theorem separated_byRange_iff {edits : List Edit}
    (ordered : ∀ edit ∈ edits, edit.start ≤ edit.stop) :
    Separated (byRange edits) ↔
      edits.Pairwise fun left right => left.overlaps right = false := by
  have symmetric : ∀ {left right : Edit}, left.overlaps right = false →
      right.overlaps left = false := by
    intro left right apart
    exact overlaps_eq_false_iff.mpr (overlaps_eq_false_iff.mp apart).symm
  rw [← (byRange_perm edits).pairwise_iff symmetric, Separated]
  constructor
  · intro separated
    exact separated.imp fun apart => overlaps_eq_false_iff.mpr (.inr apart)
  · intro disjoint
    refine ((pairwise_byRange edits).and disjoint).imp_of_mem ?_
    intro left right leftMember rightMember both
    have leftOrdered := ordered left ((byRange_perm edits).subset leftMember)
    have rightOrdered := ordered right ((byRange_perm edits).subset rightMember)
    have apart := overlaps_eq_false_iff.mp both.2
    omega

/-- The bounds of edits ascend when the edits are ordered and lie one behind the other. -/
theorem pairwise_bounds_iff {edits : List Edit} :
    (bounds edits).Pairwise (· ≤ ·) ↔
      (∀ edit ∈ edits, edit.start ≤ edit.stop) ∧ Separated edits := by
  rw [bounds, List.pairwise_flatMap]
  simp only [List.pairwise_pair, List.mem_cons, List.not_mem_nil, or_false, forall_eq_or_imp,
    forall_eq]
  refine and_congr_right fun ordered => ?_
  constructor
  · intro ascending
    exact ascending.imp fun all => all.2.1
  · intro separated
    refine separated.imp_of_mem ?_
    intro left right leftMember rightMember apart
    have leftOrdered := ordered left leftMember
    have rightOrdered := ordered right rightMember
    omega

/-- The chains are the edits that fit the source and lie one behind the other. -/
theorem chained_iff {source : List Char} {edits : List Edit} :
    Chained source edits ↔
      (∀ edit ∈ edits, edit.Fits source) ∧ Separated (byRange edits) := by
  have ascending_iff :
      (0 :: (bounds (byRange edits) ++ [Text.byteLength source])).IsChain (· ≤ ·) ↔
        (bounds (byRange edits)).Pairwise (· ≤ ·) ∧
          ∀ bound ∈ bounds (byRange edits), bound ≤ Text.byteLength source := by
    rw [List.isChain_iff_pairwise, List.pairwise_cons, List.pairwise_append]
    simp
  have mem_bounds_iff : ∀ bound, bound ∈ bounds (byRange edits) ↔
      ∃ edit ∈ edits, bound = edit.start ∨ bound = edit.stop := by
    intro bound
    simp [bounds, (byRange_perm edits).mem_iff]
  constructor
  · intro chained
    rcases ascending_iff.mp chained.ascending with ⟨sorted, below⟩
    rcases pairwise_bounds_iff.mp sorted with ⟨ordered, separated⟩
    refine ⟨?_, separated⟩
    intro edit member
    have startBound := (mem_bounds_iff edit.start).mpr ⟨edit, member, .inl rfl⟩
    have stopBound := (mem_bounds_iff edit.stop).mpr ⟨edit, member, .inr rfl⟩
    exact ⟨ordered edit ((byRange_perm edits).symm.subset member), below _ stopBound,
      chained.boundaries _ startBound, chained.boundaries _ stopBound⟩
  · intro fitting
    rcases fitting with ⟨fits, separated⟩
    have ordered : ∀ edit ∈ byRange edits, edit.start ≤ edit.stop := by
      intro edit member
      exact (fits edit ((byRange_perm edits).subset member)).ordered
    refine ⟨ascending_iff.mpr ⟨pairwise_bounds_iff.mpr ⟨ordered, separated⟩, ?_⟩, ?_⟩
    · intro bound member
      rcases (mem_bounds_iff bound).mp member with ⟨edit, inEdits, rfl | rfl⟩
      · exact Nat.le_trans (fits edit inEdits).ordered (fits edit inEdits).inside
      · exact (fits edit inEdits).inside
    · intro bound member
      rcases (mem_bounds_iff bound).mp member with ⟨edit, inEdits, rfl | rfl⟩
      · exact (fits edit inEdits).startBoundary
      · exact (fits edit inEdits).stopBoundary

theorem validate_eq_ok_iff_chained {source : List Char} {edits : List Edit} :
    validate source edits = .ok () ↔ Chained source edits := by
  rw [validate_eq_ok_iff, chained_iff]
  refine and_congr_right fun fits => ?_
  exact (separated_byRange_iff fun edit member => (fits edit member).ordered).symm

/-! ## Single edits at fault -/

theorem fault?_eq_some_iff {source : List Char} {index : Nat} {edit : Edit} {error : EditError} :
    edit.fault? source index = some error ↔
      (edit.OutOfBounds source ∧
        error = .outOfBounds index edit.stop (Text.byteLength source)) ∨
      (¬edit.OutOfBounds source ∧ edit.SplitsCharacter source ∧
        error = .splitsCharacter index) := by
  rw [fault?, OutOfBounds, SplitsCharacter]
  split
  · rename_i outside
    simp [outside, @eq_comm _ error]
  · rename_i inside
    cases starts : Text.isBoundary source edit.start <;>
      cases stops : Text.isBoundary source edit.stop <;>
      simp [inside, @eq_comm _ error]

theorem fits_iff {source : List Char} {edit : Edit} :
    edit.Fits source ↔ ¬(edit.OutOfBounds source ∨ edit.SplitsCharacter source) := by
  rw [← @fault?_eq_none_iff source 0 edit, Option.eq_none_iff_forall_ne_some]
  simp only [ne_eq, fault?_eq_some_iff]
  by_cases outside : edit.OutOfBounds source <;>
    by_cases splits : edit.SplitsCharacter source <;>
    simp [outside, splits]

theorem forall_fits_iff {source : List Char} {edits : List Edit} :
    (∀ edit ∈ edits, edit.Fits source) ↔ ∀ index, ¬FaultyAt source edits index := by
  constructor
  · intro fits index faulty
    rcases faulty with ⟨edit, found, fault⟩
    exact fits_iff.mp (fits edit (List.mem_of_getElem? found)) fault
  · intro sound edit member
    rcases List.mem_iff_getElem?.mp member with ⟨index, found⟩
    rw [fits_iff]
    intro fault
    exact sound index ⟨edit, found, fault⟩

/-- The first fault is that of an edit before which all edits fit. -/
theorem exists_of_firstFault? {source : List Char} {index : Nat} {edits : List Edit}
    {error : EditError} (first : firstFault? source index edits = some error) :
    ∃ earlier edit later, edits = earlier ++ edit :: later ∧
      (∀ other ∈ earlier, other.Fits source) ∧
      edit.fault? source (index + earlier.length) = some error := by
  induction edits generalizing index with
  | nil => cases first
  | cons edit rest ih =>
      rw [firstFault?] at first
      cases fault : edit.fault? source index with
      | some own =>
          rw [fault] at first
          cases first
          exact ⟨[], edit, rest, rfl, by simp, fault⟩
      | none =>
          rw [fault] at first
          rcases ih first with ⟨earlier, found, later, rfl, fits, laterFault⟩
          refine ⟨edit :: earlier, found, later, rfl, ?_, ?_⟩
          · exact List.forall_mem_cons.mpr ⟨fault?_eq_none_iff.mp fault, fits⟩
          · rw [List.length_cons, Nat.add_comm earlier.length 1, ← Nat.add_assoc]
            exact laterFault

/-- The first fault names the least index of an edit at fault. -/
theorem culprit_of_firstFault? {source : List Char} {edits : List Edit} {error : EditError}
    (first : firstFault? source 0 edits = some error) : Culprit source edits error := by
  rcases exists_of_firstFault? first with ⟨earlier, edit, later, split, fits, fault⟩
  rw [Nat.zero_add] at fault
  have found : edits[earlier.length]? = some edit := by simp [split]
  have below : earlier.length ∈ lowerBounds { index | FaultyAt source edits index } := by
    intro index faulty
    rcases faulty with ⟨other, otherFound, otherFault⟩
    by_contra smaller
    rw [split, List.getElem?_append_left (Nat.lt_of_not_le smaller)] at otherFound
    exact fits_iff.mp (fits other (List.mem_of_getElem? otherFound)) otherFault
  rcases fault?_eq_some_iff.mp fault with ⟨outside, rfl⟩ | ⟨inside, splits, rfl⟩
  · exact .outOfBounds ⟨⟨edit, found, .inl outside⟩, below⟩ found outside
  · exact .splitsCharacter ⟨⟨edit, found, .inr splits⟩, below⟩ found inside

/-! ## Edits that overlap -/

theorem firstClash?_eq (edit : Edit) (index : Nat) (others : List Edit) :
    edit.firstClash? index others = (others.findIdx? edit.overlaps).map (index + ·) := by
  induction others generalizing index with
  | nil => rfl
  | cons other rest ih =>
      rw [firstClash?, List.findIdx?_cons]
      split
      · rfl
      · rw [ih, Option.map_map]
        congr 1
        funext offset
        exact Nat.add_assoc index 1 offset ▸ congrArg (index + ·) (Nat.add_comm 1 offset)

theorem clashAt_cons_zero_iff {edit : Edit} {rest : List Edit} {second : Nat} :
    ClashAt (edit :: rest) 0 (second + 1) ↔
      ∃ other, rest[second]? = some other ∧ edit.overlaps other = true := by
  simp [ClashAt]

theorem clashAt_cons_succ_iff {edit : Edit} {rest : List Edit} {first second : Nat} :
    ClashAt (edit :: rest) (first + 1) (second + 1) ↔ ClashAt rest first second := by
  simp [ClashAt]

/-- The pair that is found first is the least one: the first edit of all with the first one
that overlaps it, or else the least pair behind the first edit. -/
theorem exists_of_firstOverlap? {index : Nat} {edits : List Edit} {pair : Nat × Nat}
    (found : firstOverlap? index edits = some pair) :
    ∃ first second, pair = (index + first, index + second) ∧ ClashAt edits first second ∧
      ∀ left right, ClashAt edits left right → first < left ∨ first = left ∧ second ≤ right := by
  induction edits generalizing index with
  | nil => cases found
  | cons edit rest ih =>
      rw [firstOverlap?, firstClash?_eq] at found
      cases clash : rest.findIdx? edit.overlaps with
      | some offset =>
          rw [clash] at found
          cases found
          rcases List.findIdx?_eq_some_iff_getElem.mp clash with ⟨inRest, overlapping, before⟩
          refine ⟨0, offset + 1, by simp only [Nat.add_zero, Prod.mk.injEq, true_and]; omega,
            clashAt_cons_zero_iff.mpr ⟨rest[offset], by simp, overlapping⟩, ?_⟩
          intro left right other
          cases left with
          | succ left => exact .inl (Nat.succ_pos left)
          | zero =>
              refine .inr ⟨rfl, ?_⟩
              rcases Nat.exists_eq_add_of_lt other.1 with ⟨second, rfl⟩
              rw [Nat.zero_add] at other ⊢
              rcases clashAt_cons_zero_iff.mp other with ⟨later, laterFound, laterOverlaps⟩
              by_contra smaller
              have earlier : second < offset := by omega
              rcases List.getElem?_eq_some_iff.mp laterFound with ⟨inBounds, rfl⟩
              exact before second earlier laterOverlaps
      | none =>
          rw [clash] at found
          rcases ih found with ⟨first, second, rfl, behind, least⟩
          refine ⟨first + 1, second + 1, by simp only [Prod.mk.injEq]; omega,
            clashAt_cons_succ_iff.mpr behind, ?_⟩
          intro left right other
          rcases Nat.exists_eq_add_of_lt (Nat.lt_of_le_of_lt (Nat.zero_le left) other.1) with
            ⟨last, rfl⟩
          rw [Nat.zero_add] at other ⊢
          cases left with
          | zero =>
              rcases clashAt_cons_zero_iff.mp other with ⟨later, laterFound, laterOverlaps⟩
              have apart := List.findIdx?_eq_none_iff.mp clash later
                (List.mem_of_getElem? laterFound)
              rw [apart] at laterOverlaps
              cases laterOverlaps
          | succ left =>
              have := least left last (clashAt_cons_succ_iff.mp other)
              omega

theorem culprit_of_firstOverlap? {source : List Char} {edits : List Edit} {pair : Nat × Nat}
    (fits : ∀ edit ∈ edits, edit.Fits source) (found : firstOverlap? 0 edits = some pair) :
    Culprit source edits (.overlapping pair.1 pair.2) := by
  rcases exists_of_firstOverlap? found with ⟨first, second, rfl, clash, least⟩
  simp only [Nat.zero_add]
  refine .overlapping (forall_fits_iff.mp fits) ⟨clash, ?_⟩
  intro other otherClash
  rw [Prod.Lex.le_iff]
  exact least _ _ otherClash

/-! ## The verdict -/

theorem culprit_of_validate {source : List Char} {edits : List Edit} {error : EditError}
    (refused : validate source edits = .error error) : Culprit source edits error := by
  rw [validate] at refused
  cases fault : firstFault? source 0 edits with
  | some own =>
      rw [fault] at refused
      cases refused
      exact culprit_of_firstFault? fault
  | none =>
      rw [fault] at refused
      cases clash : firstOverlap? 0 edits with
      | none =>
          rw [clash] at refused
          cases refused
      | some pair =>
          rw [clash] at refused
          cases refused
          exact culprit_of_firstOverlap? (firstFault?_eq_none_iff.mp fault) clash

/-- There is no culprit in a chain. -/
theorem Culprit.not_chained {source : List Char} {edits : List Edit} {error : EditError}
    (culprit : Culprit source edits error) : ¬Chained source edits := by
  intro chained
  rcases validate_eq_ok_iff.mp (validate_eq_ok_iff_chained.mpr chained) with ⟨fits, disjoint⟩
  cases culprit with
  | outOfBounds least => exact forall_fits_iff.mp fits _ least.1
  | splitsCharacter least => exact forall_fits_iff.mp fits _ least.1
  | overlapping sound least =>
      rcases least.1 with ⟨order, left, right, leftFound, rightFound, overlapping⟩
      rcases List.getElem?_eq_some_iff.mp leftFound with ⟨leftBound, rfl⟩
      rcases List.getElem?_eq_some_iff.mp rightFound with ⟨rightBound, rfl⟩
      have apart := List.pairwise_iff_getElem.mp disjoint _ _ leftBound rightBound order
      rw [apart] at overlapping
      cases overlapping

/-- A list of edits has one culprit at most. -/
theorem Culprit.unique {source : List Char} {edits : List Edit} {left right : EditError}
    (leftCulprit : Culprit source edits left) (rightCulprit : Culprit source edits right) :
    left = right := by
  cases leftCulprit with
  | outOfBounds least found outside =>
      cases rightCulprit with
      | outOfBounds otherLeast otherFound =>
          cases least.unique otherLeast
          cases found.symm.trans otherFound
          rfl
      | splitsCharacter otherLeast otherFound inside =>
          cases least.unique otherLeast
          cases found.symm.trans otherFound
          exact absurd outside inside
      | overlapping sound => exact absurd least.1 (sound _)
  | splitsCharacter least found inside =>
      cases rightCulprit with
      | outOfBounds otherLeast otherFound outside =>
          cases least.unique otherLeast
          cases found.symm.trans otherFound
          exact absurd outside inside
      | splitsCharacter otherLeast =>
          cases least.unique otherLeast
          rfl
      | overlapping sound => exact absurd least.1 (sound _)
  | overlapping sound least =>
      cases rightCulprit with
      | outOfBounds otherLeast => exact absurd otherLeast.1 (sound _)
      | splitsCharacter otherLeast => exact absurd otherLeast.1 (sound _)
      | overlapping otherSound otherLeast =>
          cases toLex.injective (least.unique otherLeast)
          rfl

/-- Edits pass the check exactly when they form a chain in the source. An error of the check
names the least culprit, and the least culprit is always named. -/
theorem validate_names_least_culprit (source : List Char) (edits : List Edit) :
    (validate source edits = .ok () ↔ Chained source edits) ∧
      ∀ error, validate source edits = .error error ↔ Culprit source edits error := by
  refine ⟨validate_eq_ok_iff_chained, ?_⟩
  intro error
  constructor
  · exact culprit_of_validate
  · intro culprit
    cases verdict : validate source edits with
    | ok => exact absurd (validate_eq_ok_iff_chained.mp verdict) culprit.not_chained
    | error named => rw [(culprit_of_validate verdict).unique culprit]

end LoopLift.Edit
