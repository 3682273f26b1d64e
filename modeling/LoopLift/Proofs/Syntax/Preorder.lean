import LoopLift.Syntax.Tree

/-!
# Recursion over syntax nodes

The functions on nodes recurse through lists of children. This module gives each
of them one equation in terms of the library's list functions, and one induction
principle that goes from the children of a node to the node. Proofs about nodes
use these and not the recursion itself.
-/

namespace LoopLift.Syntax.Node

theorem sizeOf_lt_of_mem_children {child node : Node} (member : child ∈ node.children) :
    sizeOf child < sizeOf node := by
  cases node with
  | mk kind start stop row column named error children =>
      have smaller : sizeOf child < sizeOf children := List.sizeOf_lt_of_mem member
      simp only [mk.sizeOf_spec]
      omega

/-- Induction from the children of a node to the node. -/
@[elab_as_elim]
theorem inductionOnChildren {motive : Node → Prop}
    (step : ∀ node, (∀ child ∈ node.children, motive child) → motive node) (node : Node) :
    motive node :=
  step node fun child _ => inductionOnChildren step child
termination_by sizeOf node
decreasing_by
  rename_i member
  exact sizeOf_lt_of_mem_children member

/-! ## Pre-order -/

theorem walkFrom_eq (parent : Option Node) (node : Node) :
    walkFrom parent node = (node, parent) :: walkEach (some node) node.children := by
  cases node
  rw [walkFrom]

theorem walkEach_eq (parent : Option Node) (nodes : List Node) :
    walkEach parent nodes = nodes.flatMap (walkFrom parent) := by
  induction nodes with
  | nil => rw [walkEach, List.flatMap_nil]
  | cons node rest ih => rw [walkEach, List.flatMap_cons, ih]

/-- The nodes of a walk do not depend on the parent that its root is given. -/
theorem map_fst_walkFrom (parent : Option Node) (node : Node) :
    (walkFrom parent node).map Prod.fst = node.preorder := by
  rw [preorder, walk, walkFrom_eq parent, walkFrom_eq none]
  rfl

/-- A node comes before its children, and these come one after the other. -/
theorem preorder_eq (node : Node) :
    node.preorder = node :: node.children.flatMap preorder := by
  rw [← map_fst_walkFrom none, walkFrom_eq, walkEach_eq]
  simp only [List.map_cons, List.map_flatMap, map_fst_walkFrom]

theorem mem_preorder_iff {inner node : Node} :
    inner ∈ node.preorder ↔
      inner = node ∨ ∃ child ∈ node.children, inner ∈ child.preorder := by
  rw [preorder_eq, List.mem_cons, List.mem_flatMap]

theorem mem_preorder_self (node : Node) : node ∈ node.preorder :=
  mem_preorder_iff.mpr (.inl rfl)

theorem mem_preorder_of_child {inner child node : Node} (member : child ∈ node.children)
    (below : inner ∈ child.preorder) : inner ∈ node.preorder :=
  mem_preorder_iff.mpr (.inr ⟨child, member, below⟩)

theorem mem_preorder_trans {inner middle node : Node} (below : inner ∈ middle.preorder)
    (inside : middle ∈ node.preorder) : inner ∈ node.preorder := by
  induction node using inductionOnChildren with
  | step node ih =>
      rcases mem_preorder_iff.mp inside with rfl | ⟨child, member, insideChild⟩
      · exact below
      · exact mem_preorder_of_child member (ih child member insideChild)

/-! ## Search by range -/

theorem spans_iff {node : Node} {start stop : Nat} :
    node.spans start stop = true ↔ node.start = start ∧ node.stop = stop := by
  simp only [spans, Bool.and_eq_true, beq_iff_eq]

theorem covers_iff {node : Node} {start stop : Nat} :
    node.covers start stop = true ↔ node.start ≤ start ∧ stop ≤ node.stop := by
  simp only [covers, Bool.and_eq_true, decide_eq_true_eq]

theorem findExactIn?_eq (start stop : Nat) (nodes : List Node) :
    findExactIn? start stop nodes =
      (nodes.filter fun node => node.covers start stop).findSome? (findExact? start stop) := by
  induction nodes with
  | nil => rw [findExactIn?]; rfl
  | cons node rest ih =>
      rw [findExactIn?, List.filter_cons]
      split
      · rw [List.findSome?_cons]
        cases findExact? start stop node <;> simp [ih]
      · exact ih

theorem findExact?_eq (start stop : Nat) (node : Node) :
    node.findExact? start stop =
      if node.spans start stop then some node
      else (node.children.filter fun child => child.covers start stop).findSome?
        (findExact? start stop) := by
  rw [← findExactIn?_eq]
  cases node
  rw [findExact?]
  rfl

theorem descendIn?_eq (kind : String) (start stop : Nat) (nodes : List Node) :
    descendIn? kind start stop nodes =
      (nodes.find? fun node => node.spans start stop).bind (descendTo? kind start stop) := by
  induction nodes with
  | nil => rw [descendIn?]; rfl
  | cons node rest ih =>
      rw [descendIn?, List.find?_cons]
      split
      · rename_i spanning
        simp only [spanning, Option.bind_some]
      · rename_i other
        simp only [other, ih]

theorem descendTo?_eq (kind : String) (start stop : Nat) (node : Node) :
    node.descendTo? kind start stop =
      if node.kind == kind then some node
      else (node.children.find? fun child => child.spans start stop).bind
        (descendTo? kind start stop) := by
  rw [← descendIn?_eq]
  cases node
  rw [descendTo?]

/-- What the search for a range finds is a node of the tree with that range. -/
theorem findExact?_sound {start stop : Nat} {node found : Node}
    (result : node.findExact? start stop = some found) :
    found ∈ node.preorder ∧ found.start = start ∧ found.stop = stop := by
  induction node using inductionOnChildren with
  | step node ih =>
      rw [findExact?_eq] at result
      split at result
      · rename_i spanning
        cases result
        exact ⟨mem_preorder_self _, spans_iff.mp spanning⟩
      · rcases List.exists_of_findSome?_eq_some result with ⟨child, member, below⟩
        have childMember := (List.mem_filter.mp member).1
        rcases ih child childMember below with ⟨inside, range⟩
        exact ⟨mem_preorder_of_child childMember inside, range⟩

/-- What the descent finds is a node of the tree of the given kind, and it has the
given range if the node where the descent starts has it. -/
theorem descendTo?_sound {kind : String} {start stop : Nat} {node found : Node}
    (range : node.start = start ∧ node.stop = stop)
    (result : node.descendTo? kind start stop = some found) :
    found ∈ node.preorder ∧ found.kind = kind ∧ found.start = start ∧ found.stop = stop := by
  induction node using inductionOnChildren with
  | step node ih =>
      rw [descendTo?_eq] at result
      split at result
      · rename_i ofKind
        cases result
        exact ⟨mem_preorder_self _, beq_iff_eq.mp ofKind, range⟩
      · rcases Option.bind_eq_some_iff.mp result with ⟨child, first, below⟩
        have childMember := List.mem_of_find?_eq_some first
        have childRange := spans_iff.mp
          (List.find?_some (p := fun child : Node => child.spans start stop) first)
        rcases ih child childMember childRange below with ⟨inside, rest⟩
        exact ⟨mem_preorder_of_child childMember inside, rest⟩

end LoopLift.Syntax.Node
