import LoopLift.Php.Parser
import LoopLift.Proofs.Loop.Alike
import LoopLift.Proofs.Syntax.Nesting
import LoopLift.Proofs.Text.Cutting

/-!
# A loop is judged by its own text

Nodes say where they stand by offsets into the whole source. Still, what is made of a loop
depends only on the text that the loop covers: a loop that is moved as a whole, to any place
in any other source with the same text there, is offered and rewritten just the same. This is
why a loop that is carried over by the rewriting of an outer one can be fixed in a later run.
-/

namespace LoopLift

open Syntax

namespace Syntax.Node

mutual

/-- Whether a subtree is another one moved by a distance: all ranges are moved, and all else
is the same but for rows and columns. -/
def isMovedBy (distance : Int) : Node → Node → Bool
  | ⟨kind, start, stop, _, _, named, error, children⟩, moved =>
      moved.kind == kind && moved.named == named && moved.error == error &&
        decide ((moved.start : Int) = start + distance) &&
        decide ((moved.stop : Int) = stop + distance) &&
        areMovedBy distance children moved.children

/-- Whether siblings are others moved by a distance, one by one. -/
def areMovedBy (distance : Int) : List Node → List Node → Bool
  | [], [] => true
  | node :: rest, moved :: others =>
      isMovedBy distance node moved && areMovedBy distance rest others
  | _, _ => false

end

variable {distance : Int}

theorem areMovedBy_iff {nodes others : List Node} :
    areMovedBy distance nodes others = true ↔
      List.Forall₂ (fun node moved => node.isMovedBy distance moved = true) nodes others := by
  induction nodes generalizing others with
  | nil => cases others <;> simp [areMovedBy]
  | cons node rest ih => cases others <;> simp [areMovedBy, ih]

theorem isMovedBy_iff {node moved : Node} :
    node.isMovedBy distance moved = true ↔
      moved.kind = node.kind ∧ moved.named = node.named ∧ moved.error = node.error ∧
        (moved.start : Int) = node.start + distance ∧
        (moved.stop : Int) = node.stop + distance ∧
        List.Forall₂ (fun child movedChild => child.isMovedBy distance movedChild = true)
          node.children moved.children := by
  rw [← areMovedBy_iff]
  cases node
  simp only [isMovedBy, Bool.and_eq_true, beq_iff_eq, decide_eq_true_eq, and_assoc]

/-- A moved subtree reads alike when all slices of the two sources within its range agree. -/
theorem alike_of_isMovedBy {source other : String} {outer node moved : Node}
    (agree : ∀ inner innerMoved : Node, inner.Within outer →
      (innerMoved.start : Int) = inner.start + distance →
      (innerMoved.stop : Int) = inner.stop + distance →
      innerMoved.text other = inner.text source)
    (inside : ∀ inner ∈ node.preorder, inner.Within outer)
    (moves : node.isMovedBy distance moved = true) :
    Alike source other distance node moved := by
  induction node using inductionOnChildren generalizing moved with
  | step node ih =>
      rcases isMovedBy_iff.mp moves with ⟨kind, named, -, start, stop, children⟩
      refine .intro kind named (agree node moved (inside node (mem_preorder_self node)) start stop)
        start ?_
      have pairs := (List.forall₂_and_left _ _).mpr ⟨fun _ member => member, children⟩
      refine pairs.imp ?_
      intro child movedChild same
      refine ih child same.1 ?_ same.2
      intro inner below
      exact inside inner (mem_preorder_of_child same.1 below)

end Syntax.Node

/-- Within a range that starts and ends on character boundaries, two sources with the same
text there have the same slices. A range that ends before it starts has no text in either. -/
theorem Syntax.Node.text_eq_of_moved {source other : String} {distance : Int}
    {outer outerMoved inner innerMoved : Node}
    (starts : Text.isBoundary source.toList outer.start = true)
    (stops : Text.isBoundary source.toList outer.stop = true)
    (outerStart : (outerMoved.start : Int) = outer.start + distance)
    (outerStop : (outerMoved.stop : Int) = outer.stop + distance)
    (same : Text.slice? other.toList outerMoved.start outerMoved.stop =
      Text.slice? source.toList outer.start outer.stop)
    (within : inner.Within outer) (start : (innerMoved.start : Int) = inner.start + distance)
    (stop : (innerMoved.stop : Int) = inner.stop + distance) :
    innerMoved.text other = inner.text source := by
  rw [text, text]
  congr 2
  by_cases ordered : inner.start ≤ inner.stop
  · rcases within with ⟨behind, before⟩
    rcases Text.exists_slice?_of_boundaries (by omega) starts stops with ⟨piece, sliced⟩
    rw [Text.slice?_of_slice? sliced behind ordered before,
      Text.slice?_of_slice? (same.trans sliced) (by omega) (by omega) (by omega)]
    congr 1 <;> omega
  · rw [Text.slice?, Text.slice?, if_neg ordered, if_neg (by omega)]

/-- Take a loop whose nodes lie in its range, in a source that has character boundaries at
both ends of the loop. When the loop is moved by a distance to a place with the same text in
another source, it is offered there if it was before, and it has the same replacement. -/
theorem loop_is_judged_by_its_text (source other : String) (distance : Int) (loop moved : Node)
    (inside : ∀ inner ∈ loop.preorder, inner.Within loop)
    (starts : Text.isBoundary source.toList loop.start = true)
    (stops : Text.isBoundary source.toList loop.stop = true)
    (moves : loop.isMovedBy distance moved = true)
    (same : Text.slice? other.toList moved.start moved.stop =
      Text.slice? source.toList loop.start loop.stop) :
    Inspection.isOffered other moved = Inspection.isOffered source loop ∧
      replacementText? other moved = replacementText? source loop := by
  rcases Node.isMovedBy_iff.mp moves with ⟨-, -, -, start, stop, children⟩
  have errors : moved.children.any Node.error = loop.children.any Node.error := by
    refine any_eq_of_forall₂ children ?_
    intro child movedChild childMoves
    exact (Node.isMovedBy_iff.mp childMoves).2.2.1
  have alike : Node.Alike source other distance loop moved := by
    refine Node.alike_of_isMovedBy ?_ inside moves
    intro inner innerMoved within innerStart innerStop
    exact Node.text_eq_of_moved starts stops start stop same within innerStart innerStop
  exact ⟨Inspection.isOffered_alike alike errors, replacementText?_alike alike errors⟩

/-- A loop that reads a variable before `::` and not the one behind it. -/
def looseLoop : String := "<?php foreach([]as$b)f($ü::$c);"

/-- The same loop on another line, inside a condition and behind a longer text. -/
def enclosedLoop : String := "<?php /*é*/\nif(1)\x7bforeach([]as$b)f($ü::$c);\x7d"

set_option maxRecDepth 100000 in
theorem loop_is_judged_by_its_text_looseLoop :
    ∃ loop ∈ (Php.parse looseLoop).loops, ∃ moved ∈ (Php.parse enclosedLoop).loops,
      (∀ inner ∈ loop.preorder, inner.Within loop) ∧
      Text.isBoundary looseLoop.toList loop.start = true ∧
      Text.isBoundary looseLoop.toList loop.stop = true ∧
      loop.isMovedBy 13 moved = true ∧
      Text.slice? enclosedLoop.toList moved.start moved.stop =
        Text.slice? looseLoop.toList loop.start loop.stop ∧
      replacementText? looseLoop loop =
        some "collect([])->each(function($b) use ($ü) \x7bf($ü::$c);\x7d);" ∧
      Inspection.isOffered enclosedLoop moved = Inspection.isOffered looseLoop loop ∧
      replacementText? enclosedLoop moved = replacementText? looseLoop loop := by
  have given : ∃ loop ∈ (Php.parse looseLoop).loops, ∃ moved ∈ (Php.parse enclosedLoop).loops,
      (∀ inner ∈ loop.preorder, inner.Within loop) ∧
      Text.isBoundary looseLoop.toList loop.start = true ∧
      Text.isBoundary looseLoop.toList loop.stop = true ∧
      loop.isMovedBy 13 moved = true ∧
      Text.slice? enclosedLoop.toList moved.start moved.stop =
        Text.slice? looseLoop.toList loop.start loop.stop ∧
      replacementText? looseLoop loop =
        some "collect([])->each(function($b) use ($ü) \x7bf($ü::$c);\x7d);" := by
    decide +kernel
  rcases given with ⟨loop, member, moved, movedMember, inside, starts, stops, moves, same, replaced⟩
  exact ⟨loop, member, moved, movedMember, inside, starts, stops, moves, same, replaced,
    loop_is_judged_by_its_text looseLoop enclosedLoop 13 loop moved inside starts stops moves same⟩

end LoopLift
