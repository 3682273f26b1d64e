import LoopLift.Proofs.Syntax.Preorder
import Mathlib.Data.List.Pairwise

/-!
# Nested ranges

In the trees that a parser builds, a child lies in its parent and siblings stand
one behind the other. Then the ranges of any two nodes are nested or disjoint,
and the nodes with one range that is not empty form a single chain from the
outside in, which the search by range finds and the descent follows.
-/

namespace LoopLift.Syntax

namespace Node

/-- A node lies in another one. -/
def Within (inner outer : Node) : Prop :=
  outer.start ≤ inner.start ∧ inner.stop ≤ outer.stop

instance (inner outer : Node) : Decidable (inner.Within outer) :=
  inferInstanceAs (Decidable (_ ∧ _))

/-- Every child lies in its parent, and siblings stand one behind the other. -/
structure Nested (root : Node) : Prop where
  within : ∀ node ∈ root.preorder, ∀ child ∈ node.children, child.Within node
  siblings : ∀ node ∈ root.preorder,
    node.children.Pairwise fun left right => left.stop ≤ right.start

instance (root : Node) : Decidable root.Nested :=
  decidable_of_iff
    ((∀ node ∈ root.preorder, ∀ child ∈ node.children, child.Within node) ∧
      ∀ node ∈ root.preorder,
        node.children.Pairwise fun left right => left.stop ≤ right.start)
    ⟨fun ⟨within, siblings⟩ => ⟨within, siblings⟩,
      fun nested => ⟨nested.within, nested.siblings⟩⟩

namespace Nested

theorem of_mem {root node : Node} (nested : root.Nested) (inside : node ∈ root.preorder) :
    node.Nested where
  within inner below := nested.within inner (mem_preorder_trans below inside)
  siblings inner below := nested.siblings inner (mem_preorder_trans below inside)

theorem child {root child : Node} (nested : root.Nested) (member : child ∈ root.children) :
    child.Nested :=
  nested.of_mem (mem_preorder_of_child member (mem_preorder_self child))

theorem within_root {root inner : Node} (nested : root.Nested)
    (inside : inner ∈ root.preorder) : inner.Within root := by
  induction root using inductionOnChildren with
  | step root ih =>
      rcases mem_preorder_iff.mp inside with rfl | ⟨child, member, insideChild⟩
      · exact ⟨Nat.le_refl _, Nat.le_refl _⟩
      · have inChild := ih child member (nested.child member) insideChild
        have inRoot := nested.within root (mem_preorder_self root) child member
        exact ⟨Nat.le_trans inRoot.1 inChild.1, Nat.le_trans inChild.2 inRoot.2⟩

private theorem siblings_apart {siblings : List Node} {left right : Node}
    (ordered : siblings.Pairwise fun left right => left.stop ≤ right.start)
    (leftMember : left ∈ siblings) (rightMember : right ∈ siblings) (different : left ≠ right) :
    left.stop ≤ right.start ∨ right.stop ≤ left.start := by
  have apart : siblings.Pairwise fun left right =>
      left.stop ≤ right.start ∨ right.stop ≤ left.start :=
    ordered.imp Or.inl
  have : Std.Symm fun left right : Node =>
      left.stop ≤ right.start ∨ right.stop ≤ left.start :=
    ⟨fun _ _ => Or.symm⟩
  exact apart.forall leftMember rightMember different

/-- Of two nodes one stands below the other, or one stands behind the other. -/
theorem below_or_apart {root left right : Node} (nested : root.Nested)
    (leftInside : left ∈ root.preorder) (rightInside : right ∈ root.preorder) :
    left ∈ right.preorder ∨ right ∈ left.preorder ∨ left.stop ≤ right.start ∨
      right.stop ≤ left.start := by
  induction root using inductionOnChildren with
  | step root ih =>
      rcases mem_preorder_iff.mp leftInside with rfl | ⟨leftChild, leftMember, leftBelow⟩
      · exact .inr (.inl rightInside)
      rcases mem_preorder_iff.mp rightInside with rfl | ⟨rightChild, rightMember, rightBelow⟩
      · exact .inl leftInside
      by_cases same : leftChild = rightChild
      · subst same
        exact ih leftChild leftMember (nested.child leftMember) leftBelow rightBelow
      · have leftWithin := (nested.child leftMember).within_root leftBelow
        have rightWithin := (nested.child rightMember).within_root rightBelow
        have apart := siblings_apart (nested.siblings root (mem_preorder_self root))
          leftMember rightMember same
        rcases apart with before | behind
        · exact .inr (.inr (.inl
            (Nat.le_trans leftWithin.2 (Nat.le_trans before rightWithin.1))))
        · exact .inr (.inr (.inr
            (Nat.le_trans rightWithin.2 (Nat.le_trans behind leftWithin.1))))

/-- The ranges of two nodes are nested or disjoint. -/
theorem laminar {root left right : Node} (nested : root.Nested)
    (leftInside : left ∈ root.preorder) (rightInside : right ∈ root.preorder) :
    left.Within right ∨ right.Within left ∨ left.stop ≤ right.start ∨
      right.stop ≤ left.start := by
  rcases nested.below_or_apart leftInside rightInside with below | above | apart
  · exact .inl ((nested.of_mem rightInside).within_root below)
  · exact .inr (.inl ((nested.of_mem leftInside).within_root above))
  · exact .inr (.inr apart)

/-- In pre-order, a node has all that comes behind it inside of it or starting behind its
end. -/
theorem pairwise_preorder {root : Node} (nested : root.Nested) :
    root.preorder.Pairwise fun earlier later =>
      later.Within earlier ∨ earlier.stop ≤ later.start := by
  induction root using inductionOnChildren with
  | step root ih =>
      rw [preorder_eq, List.pairwise_cons]
      refine ⟨?_, List.pairwise_flatMap.mpr ⟨?_, ?_⟩⟩
      · intro inner below
        rcases List.mem_flatMap.mp below with ⟨child, member, insideChild⟩
        exact .inl (nested.within_root (mem_preorder_of_child member insideChild))
      · intro child member
        exact ih child member (nested.child member)
      · refine (nested.siblings root (mem_preorder_self root)).imp_of_mem ?_
        intro left right leftMember rightMember before earlier inLeft later inRight
        have leftWithin := (nested.child leftMember).within_root inLeft
        have rightWithin := (nested.child rightMember).within_root inRight
        exact .inr (Nat.le_trans leftWithin.2 (Nat.le_trans before rightWithin.1))

/-- A node with a range that is not empty stands below a node with a wider range. -/
theorem exists_child_of_within {root inner outer : Node} (nested : root.Nested)
    (innerInside : inner ∈ root.preorder) (outerInside : outer ∈ root.preorder)
    (nonempty : inner.start < inner.stop) (within : inner.Within outer)
    (wider : ¬outer.Within inner) : ∃ child ∈ outer.children, inner ∈ child.preorder := by
  rcases nested.below_or_apart innerInside outerInside with below | above | before | behind
  · rcases mem_preorder_iff.mp below with rfl | inChild
    · exact absurd within wider
    · exact inChild
  · exact absurd ((nested.of_mem innerInside).within_root above) wider
  · have := within.1
    omega
  · have := within.2
    omega

/-- Among siblings, a range that is not empty is covered by one at most. -/
theorem filter_eq_singleton {siblings : List Node} {child : Node} {start stop : Nat}
    {chosen : Node → Bool}
    (ordered : siblings.Pairwise fun left right => left.stop ≤ right.start)
    (nonempty : start < stop) (covering : ∀ node, chosen node → node.covers start stop)
    (member : child ∈ siblings) (childChosen : chosen child) :
    siblings.filter chosen = [child] := by
  induction siblings with
  | nil => cases member
  | cons first rest ih =>
      rcases List.pairwise_cons.mp ordered with ⟨firstBefore, orderedRest⟩
      by_cases firstChosen : chosen first
      · have firstCovers := covers_iff.mp (covering first firstChosen)
        have noneLeft : rest.filter chosen = [] := by
          rw [List.filter_eq_nil_iff]
          intro other otherMember otherChosen
          have otherCovers := covers_iff.mp (covering other otherChosen)
          have := firstBefore other otherMember
          omega
        rw [List.filter_cons_of_pos firstChosen, noneLeft]
        rcases List.mem_cons.mp member with rfl | later
        · rfl
        · have : child ∈ rest.filter chosen := List.mem_filter.mpr ⟨later, childChosen⟩
          rw [noneLeft] at this
          cases this
      · rw [List.filter_cons_of_neg firstChosen]
        rcases List.mem_cons.mp member with rfl | later
        · exact absurd childChosen firstChosen
        · exact ih orderedRest later

/-- The search for the range of a node finds the node or one around it. -/
theorem findExact?_of_mem {root target : Node} (nested : root.Nested)
    (inside : target ∈ root.preorder) (nonempty : target.start < target.stop) :
    ∃ outermost, root.findExact? target.start target.stop = some outermost ∧
      target ∈ outermost.preorder := by
  induction root using inductionOnChildren with
  | step root ih =>
      rw [findExact?_eq]
      split
      · exact ⟨root, rfl, inside⟩
      · rename_i narrower
        rcases mem_preorder_iff.mp inside with rfl | ⟨child, member, insideChild⟩
        · exact absurd (spans_iff.mpr ⟨rfl, rfl⟩) narrower
        · have childCovers : child.covers target.start target.stop :=
            covers_iff.mpr ((nested.child member).within_root insideChild)
          rw [filter_eq_singleton (nested.siblings root (mem_preorder_self root)) nonempty
            (fun _ covers => covers) member childCovers]
          rcases ih child member (nested.child member) insideChild with ⟨outermost, found, below⟩
          exact ⟨outermost, by simp [found], below⟩

/-- Of the children of a node, the one around a node with the same range has this range
too, and it is the first one that has it. -/
theorem find?_spans_of_mem {root child target : Node} {start stop : Nat} (nested : root.Nested)
    (nonempty : start < stop) (rootRange : root.spans start stop = true)
    (targetRange : target.spans start stop = true) (member : child ∈ root.children)
    (insideChild : target ∈ child.preorder) :
    root.children.find? (fun node => node.spans start stop) = some child ∧
      child.spans start stop = true := by
  rw [spans_iff] at rootRange targetRange
  have outer := nested.within root (mem_preorder_self root) child member
  have inner := (nested.child member).within_root insideChild
  have childRange : child.spans start stop = true := by
    rw [spans_iff]
    exact ⟨Nat.le_antisymm (targetRange.1 ▸ inner.1) (rootRange.1 ▸ outer.1),
      Nat.le_antisymm (rootRange.2 ▸ outer.2) (targetRange.2 ▸ inner.2)⟩
  have only := @filter_eq_singleton _ _ _ _ (fun node => node.spans start stop)
    (nested.siblings root (mem_preorder_self root)) nonempty
    (by
      intro node spanning
      rcases spans_iff.mp spanning with ⟨startEq, stopEq⟩
      exact covers_iff.mpr ⟨Nat.le_of_eq startEq, Nat.le_of_eq stopEq.symm⟩)
    member childRange
  exact ⟨by rw [← List.head?_filter, only]; rfl, childRange⟩

/-- The descent from a node with the range of a target reaches the target, when
no other node below has its range and its kind. -/
theorem descendTo?_of_mem {root target : Node} (nested : root.Nested)
    (inside : target ∈ root.preorder) (nonempty : target.start < target.stop)
    (range : root.start = target.start ∧ root.stop = target.stop)
    (unique : ∀ node ∈ root.preorder, node.kind = target.kind → node.start = target.start →
      node.stop = target.stop → node = target) :
    root.descendTo? target.kind target.start target.stop = some target := by
  induction root using inductionOnChildren with
  | step root ih =>
      rw [descendTo?_eq]
      split
      · rename_i ofKind
        rw [unique root (mem_preorder_self root) (beq_iff_eq.mp ofKind) range.1 range.2]
      · rename_i otherKind
        rcases mem_preorder_iff.mp inside with rfl | ⟨child, member, insideChild⟩
        · exact absurd (beq_iff_eq.mpr rfl) otherKind
        · rcases nested.find?_spans_of_mem nonempty (spans_iff.mpr range)
            (spans_iff.mpr ⟨rfl, rfl⟩) member insideChild with ⟨first, childRange⟩
          rw [first]
          exact ih child member (nested.child member) insideChild (spans_iff.mp childRange)
            fun node below => unique node (mem_preorder_of_child member below)

end Nested

end Node

/-- A tree whose ranges are nested, ordered, and denote pieces of its source. -/
structure Tree.WellFormed (tree : Tree) : Prop where
  nested : tree.root.Nested
  ordered : ∀ node ∈ tree.root.preorder, node.start ≤ node.stop
  inside : ∀ node ∈ tree.root.preorder, node.stop ≤ Text.byteLength tree.source.toList
  boundaries : ∀ node ∈ tree.root.preorder,
    Text.isBoundary tree.source.toList node.start = true ∧
      Text.isBoundary tree.source.toList node.stop = true

instance (tree : Tree) : Decidable tree.WellFormed :=
  decidable_of_iff
    (tree.root.Nested ∧ (∀ node ∈ tree.root.preorder, node.start ≤ node.stop) ∧
      (∀ node ∈ tree.root.preorder, node.stop ≤ Text.byteLength tree.source.toList) ∧
      ∀ node ∈ tree.root.preorder,
        Text.isBoundary tree.source.toList node.start = true ∧
          Text.isBoundary tree.source.toList node.stop = true)
    ⟨fun ⟨nested, ordered, inside, boundaries⟩ => ⟨nested, ordered, inside, boundaries⟩,
      fun formed => ⟨formed.nested, formed.ordered, formed.inside, formed.boundaries⟩⟩

end LoopLift.Syntax
