import LoopLift.Edit.Basic
import LoopLift.Proofs.Text.Cutting

/-!
# Validated edits

A list of edits passes the check exactly when each edit denotes a piece of the
source and no two of them share a byte. This is the form in which later results
use the check.
-/

namespace LoopLift.Edit

/-- An edit denotes a piece of a source: its range is ordered, lies in the source
and starts and ends on character boundaries. -/
structure Fits (source : List Char) (edit : Edit) : Prop where
  ordered : edit.start ≤ edit.stop
  inside : edit.stop ≤ Text.byteLength source
  startBoundary : Text.isBoundary source edit.start = true
  stopBoundary : Text.isBoundary source edit.stop = true

instance (source : List Char) (edit : Edit) : Decidable (edit.Fits source) :=
  decidable_of_iff
    (edit.start ≤ edit.stop ∧ edit.stop ≤ Text.byteLength source ∧
      Text.isBoundary source edit.start = true ∧ Text.isBoundary source edit.stop = true)
    ⟨fun ⟨ordered, inside, startBoundary, stopBoundary⟩ =>
        ⟨ordered, inside, startBoundary, stopBoundary⟩,
      fun fits => ⟨fits.ordered, fits.inside, fits.startBoundary, fits.stopBoundary⟩⟩

theorem overlaps_eq_false_iff {left right : Edit} :
    left.overlaps right = false ↔ right.stop ≤ left.start ∨ left.stop ≤ right.start := by
  simp only [overlaps, Bool.and_eq_false_iff, decide_eq_false_iff_not, Nat.not_lt]

theorem fault?_eq_none_iff {source : List Char} {index : Nat} {edit : Edit} :
    edit.fault? source index = none ↔ edit.Fits source := by
  simp only [fault?]
  constructor
  · intro clean
    split at clean
    · cases clean
    · rename_i bounds
      split at clean
      · rename_i boundaries
        rw [Bool.and_eq_true] at boundaries
        exact ⟨by omega, by omega, boundaries.1, boundaries.2⟩
      · cases clean
  · intro fits
    have bounds : ¬(Text.byteLength source < edit.stop ∨ edit.stop < edit.start) := by
      have := fits.ordered
      have := fits.inside
      omega
    rw [if_neg bounds, if_pos]
    rw [fits.startBoundary, fits.stopBoundary]
    rfl

theorem firstFault?_eq_none_iff {source : List Char} {index : Nat} {edits : List Edit} :
    firstFault? source index edits = none ↔ ∀ edit ∈ edits, edit.Fits source := by
  induction edits generalizing index with
  | nil => simp [firstFault?]
  | cons edit rest ih =>
      simp only [firstFault?, List.forall_mem_cons]
      cases fault : edit.fault? source index with
      | some error =>
          have misfit : ¬edit.Fits source := by
            intro fits
            rw [fault?_eq_none_iff.mpr fits] at fault
            cases fault
          simp [misfit]
      | none => simp [fault?_eq_none_iff.mp fault, ih]

theorem firstClash?_eq_none_iff {edit : Edit} {index : Nat} {others : List Edit} :
    edit.firstClash? index others = none ↔
      ∀ other ∈ others, edit.overlaps other = false := by
  induction others generalizing index with
  | nil => simp [firstClash?]
  | cons other rest ih =>
      simp only [firstClash?, List.forall_mem_cons]
      cases edit.overlaps other <;> simp [ih]

theorem firstOverlap?_eq_none_iff {index : Nat} {edits : List Edit} :
    firstOverlap? index edits = none ↔
      edits.Pairwise fun left right => left.overlaps right = false := by
  induction edits generalizing index with
  | nil => simp [firstOverlap?]
  | cons edit rest ih =>
      simp only [firstOverlap?, List.pairwise_cons]
      cases clash : edit.firstClash? (index + 1) rest with
      | some other =>
          have overlapping : ¬∀ later ∈ rest, edit.overlaps later = false := by
            intro disjoint
            rw [firstClash?_eq_none_iff.mpr disjoint] at clash
            cases clash
          simp [overlapping]
      | none =>
          have disjoint := firstClash?_eq_none_iff.mp clash
          simp only [ih]
          exact ⟨fun later => ⟨disjoint, later⟩, And.right⟩

/-- The check accepts exactly the lists of edits that fit the source and do not
overlap. -/
theorem validate_eq_ok_iff {source : List Char} {edits : List Edit} :
    validate source edits = .ok () ↔
      (∀ edit ∈ edits, edit.Fits source) ∧
        edits.Pairwise fun left right => left.overlaps right = false := by
  rw [← @firstFault?_eq_none_iff source 0 edits, ← @firstOverlap?_eq_none_iff 0 edits]
  simp only [validate]
  cases firstFault? source 0 edits with
  | some error => simp
  | none => cases firstOverlap? 0 edits <;> simp

end LoopLift.Edit
