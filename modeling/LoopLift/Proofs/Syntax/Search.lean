import LoopLift.Proofs.Syntax.Nesting
import Mathlib.Logic.Relation

/-!
# Search by range

The search for a range passes over every child that does not hold the range. Where a
child always lies in its parent, nothing below such a child has the range, so the search
gives the node that a look at all nodes in pre-order comes to first. Siblings may share
a range or be empty: a sibling that holds the range without a match below it is left
again for the next one.
-/

namespace LoopLift.Syntax.Node

/-- Every child in a tree lies in its parent. -/
def HoldsChildren (root : Node) : Prop :=
  ∀ node ∈ root.preorder, ∀ child ∈ node.children, child.Within node

instance (root : Node) : Decidable root.HoldsChildren :=
  inferInstanceAs (Decidable (∀ node ∈ root.preorder, ∀ child ∈ node.children, _))

/-- One step of the search for a range goes down from a node that does not have it. -/
def SearchesDown (start stop : Nat) (above below : Node) : Prop :=
  above.spans start stop = false ∧ below ∈ above.children

namespace HoldsChildren

theorem child {root child : Node} (holds : root.HoldsChildren) (member : child ∈ root.children) :
    child.HoldsChildren :=
  fun node below => holds node (mem_preorder_of_child member below)

/-- A node with a range stands below nodes that hold this range. -/
theorem covers_of_spans {root node : Node} {start stop : Nat} (holds : root.HoldsChildren)
    (inside : node ∈ root.preorder) (spanning : node.spans start stop = true) :
    root.covers start stop = true := by
  induction root using inductionOnChildren with
  | step root ih =>
      rcases mem_preorder_iff.mp inside with rfl | ⟨child, member, insideChild⟩
      · rcases spans_iff.mp spanning with ⟨rfl, rfl⟩
        exact covers_iff.mpr ⟨Nat.le_refl _, Nat.le_refl _⟩
      · have childCovers := covers_iff.mp (ih child member (holds.child member) insideChild)
        have within := holds root (mem_preorder_self root) child member
        exact covers_iff.mpr
          ⟨Nat.le_trans within.1 childCovers.1, Nat.le_trans childCovers.2 within.2⟩

/-- Nothing is lost with a node that does not hold the range. -/
theorem find?_preorder_eq_none {root : Node} {start stop : Nat} (holds : root.HoldsChildren)
    (narrow : root.covers start stop = false) :
    (root.preorder.find? fun node => node.spans start stop) = none := by
  rw [List.find?_eq_none]
  intro node inside spanning
  rw [holds.covers_of_spans inside spanning] at narrow
  cases narrow

/-- Among siblings, those that do not hold the range can be passed over. -/
theorem findSome?_filter_covers {siblings : List Node} {start stop : Nat}
    (holds : ∀ node ∈ siblings, node.HoldsChildren)
    (found : ∀ node ∈ siblings,
      node.findExact? start stop = node.preorder.find? fun inner => inner.spans start stop) :
    (siblings.filter fun node => node.covers start stop).findSome? (findExact? start stop) =
      siblings.findSome? fun node => node.preorder.find? fun inner => inner.spans start stop := by
  induction siblings with
  | nil => rfl
  | cons first rest ih =>
      rcases List.forall_mem_cons.mp holds with ⟨firstHolds, restHolds⟩
      rcases List.forall_mem_cons.mp found with ⟨firstFound, restFound⟩
      rw [List.filter_cons, List.findSome?_cons, ← ih restHolds restFound]
      cases covering : first.covers start stop with
      | true => rw [if_pos rfl, List.findSome?_cons, firstFound]
      | false => rw [if_neg Bool.false_ne_true, firstHolds.find?_preorder_eq_none covering]

/-- The search gives the first node in pre-order that has the range. -/
theorem findExact?_eq {root : Node} (holds : root.HoldsChildren) (start stop : Nat) :
    root.findExact? start stop = root.preorder.find? fun node => node.spans start stop := by
  induction root using inductionOnChildren with
  | step root ih =>
      rw [Node.findExact?_eq, preorder_eq, List.find?_cons, List.find?_flatMap]
      cases root.spans start stop with
      | true => rfl
      | false =>
          rw [if_neg Bool.false_ne_true]
          exact findSome?_filter_covers (fun child => holds.child)
            fun child member => ih child member (holds.child member)

end HoldsChildren

/-- On its way down to the node that it finds, the search passes no node with the
range. -/
theorem searchesDown_of_findExact? {root found : Node} {start stop : Nat}
    (result : root.findExact? start stop = some found) :
    Relation.ReflTransGen (SearchesDown start stop) root found := by
  induction root using inductionOnChildren with
  | step root ih =>
      rw [findExact?_eq] at result
      cases spanning : root.spans start stop with
      | true =>
          rw [spanning, if_pos rfl, Option.some_inj] at result
          rw [result]
      | false =>
          rw [spanning, if_neg Bool.false_ne_true] at result
          rcases List.exists_of_findSome?_eq_some result with ⟨child, covering, below⟩
          have member := (List.mem_filter.mp covering).1
          exact (ih child member below).head ⟨spanning, member⟩

/-- In a tree where every child lies in its parent, the search for a range gives the first
node in pre-order with exactly this range, and gives none only if no node has it. What it
gives is reached from the root through nodes that all have another range, so it never
stands below a node with the same one. -/
theorem findExact?_is_first_in_preorder (root : Node) (start stop : Nat)
    (holds : root.HoldsChildren) :
    (root.findExact? start stop = root.preorder.find? fun node => node.spans start stop) ∧
    (root.findExact? start stop = none ↔
      ∀ node ∈ root.preorder, ¬(node.start = start ∧ node.stop = stop)) ∧
    (∀ found, root.findExact? start stop = some found ↔
      ∃ before after, root.preorder = before ++ found :: after ∧
        (found.start = start ∧ found.stop = stop) ∧
        ∀ node ∈ before, ¬(node.start = start ∧ node.stop = stop)) ∧
    ∀ found, root.findExact? start stop = some found →
      Relation.ReflTransGen (SearchesDown start stop) root found := by
  have first := holds.findExact?_eq start stop
  refine ⟨first, ?_, ?_, fun found => searchesDown_of_findExact?⟩
  · rw [first, List.find?_eq_none]
    simp only [spans_iff]
  · intro found
    rw [first, List.find?_eq_some_iff_append]
    simp only [Bool.not_eq_eq_eq_not, Bool.not_true, ← Bool.not_eq_true, spans_iff]
    constructor
    · rintro ⟨range, before, after, split, others⟩
      exact ⟨before, after, split, range, others⟩
    · rintro ⟨before, after, split, range, others⟩
      exact ⟨range, before, after, split, others⟩

/-- A node between two statements, with nothing in it. -/
def emptyNode : Node := { kind := "empty_statement", start := 5, stop := 5 }

/-- A block with empty nodes between its statements. The first statement holds the empty
range at its end without a node of this range in it, and the last one holds it at its
start with such a node. -/
def gapBlock : Node :=
  { kind := "compound_statement", start := 0, stop := 9
    children :=
      [{ kind := "echo_statement", start := 1, stop := 5
         children := [{ kind := "variable_name", start := 2, stop := 4 }] },
        emptyNode,
        { kind := "text", start := 5, stop := 5 },
        { kind := "expression_statement", start := 5, stop := 8
          children := [{ kind := "name", start := 5, stop := 5 }] }] }

theorem findExact?_is_first_in_preorder_gapBlock :
    gapBlock.HoldsChildren ∧ gapBlock.findExact? 5 5 = some emptyNode ∧
      Relation.ReflTransGen (SearchesDown 5 5) gapBlock emptyNode := by
  have holds : gapBlock.HoldsChildren := by decide +kernel
  rcases findExact?_is_first_in_preorder gapBlock 5 5 holds with ⟨first, -, -, way⟩
  have found : gapBlock.findExact? 5 5 = some emptyNode := by
    rw [first]
    cbv
  exact ⟨holds, found, way emptyNode found⟩

end LoopLift.Syntax.Node
