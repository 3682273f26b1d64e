import LoopLift.Proofs.Loop.Rewriting
import Mathlib.Data.List.Perm.Basic

/-!
# The loops that are carried over

The replacement of a loop carries over the iterated expression and the statements of the
body. In the trees of the grammar, loops stand nowhere else inside a loop: not in comments
and tokens, not in what the loop binds, and not behind its end keyword. So the loops of a
loop are the loop itself and those of the carried pieces. When some loops of a tree are
exchanged for their pieces, and none of them lies inside another one, just these loops
are gone.
-/

namespace LoopLift

open Syntax

/-! ## The loops of a subtree -/

namespace Syntax.Node

/-- The loops of a subtree, outer ones before those inside. -/
def loops (node : Node) : List Node :=
  node.findByKind Tree.loopKind

theorem loops_eq (node : Node) :
    node.loops =
      (if node.kind == Tree.loopKind then [node] else []) ++ node.children.flatMap loops := by
  rw [loops, findByKind, preorder_eq, List.filter_cons, List.filter_flatMap]
  split <;> rfl

theorem loops_of_kind_ne {node : Node} (other : node.kind ≠ Tree.loopKind) :
    node.loops = node.children.flatMap loops := by
  rw [loops_eq, beq_eq_false_iff_ne.mpr other]
  rfl

theorem mem_loops_iff {inner node : Node} :
    inner ∈ node.loops ↔ inner ∈ node.preorder ∧ inner.kind = Tree.loopKind := by
  rw [loops, findByKind, List.mem_filter, beq_iff_eq]

/-- The nodes of a subtree stand together in the order of the tree. -/
theorem preorder_sublist {inner node : Node} (inside : inner ∈ node.preorder) :
    inner.preorder.Sublist node.preorder := by
  induction node using inductionOnChildren with
  | step node ih =>
      rcases mem_preorder_iff.mp inside with rfl | ⟨child, member, insideChild⟩
      · exact List.Sublist.refl _
      · have ofChildren : child.preorder.Sublist (node.children.flatMap preorder) := by
          rw [List.flatMap_def]
          exact List.sublist_flatten_of_mem (List.mem_map_of_mem member)
        rw [preorder_eq node]
        exact ((ih child member insideChild).trans ofChildren).cons node

theorem loops_sublist {inner node : Node} (inside : inner ∈ node.preorder) :
    inner.loops.Sublist node.loops :=
  (preorder_sublist inside).filter _

end Syntax.Node

/-- A tree of the grammar, as far as its loops matter. Ranges are nested, and loops have
ranges of their own that are not empty. No loop stands in a comment, a tag or a token, nor
in what a loop binds. The end keyword of a loop is a token, and no part of the loop stands
behind it. -/
structure Syntax.Tree.Grammatical (tree : Tree) : Prop where
  nested : tree.root.Nested
  nonempty : ∀ loop ∈ tree.loops, loop.start < loop.stop
  distinct : tree.loops.Pairwise fun left right =>
    (left.start, left.stop) ≠ (right.start, right.stop)
  silent : ∀ node ∈ tree.root.preorder, LoopShape.isPart node = false → node.loops = []
  bindings : ∀ loop ∈ tree.loops, ∀ binding ∈ (LoopShape.parts loop)[1]?, binding.loops = []
  endings : ∀ loop ∈ tree.loops,
    ∀ child ∈ loop.children.dropWhile fun child => !LoopShape.endsLoop child,
      LoopShape.isPart child = false

instance (tree : Tree) : Decidable tree.Grammatical :=
  decidable_of_iff
    (tree.root.Nested ∧ (∀ loop ∈ tree.loops, loop.start < loop.stop) ∧
      (tree.loops.Pairwise fun left right =>
        (left.start, left.stop) ≠ (right.start, right.stop)) ∧
      (∀ node ∈ tree.root.preorder, LoopShape.isPart node = false → node.loops = []) ∧
      (∀ loop ∈ tree.loops, ∀ binding ∈ (LoopShape.parts loop)[1]?, binding.loops = []) ∧
      ∀ loop ∈ tree.loops,
        ∀ child ∈ loop.children.dropWhile fun child => !LoopShape.endsLoop child,
          LoopShape.isPart child = false)
    ⟨fun ⟨nested, nonempty, distinct, silent, bindings, endings⟩ =>
        ⟨nested, nonempty, distinct, silent, bindings, endings⟩,
      fun grammatical => ⟨grammatical.nested, grammatical.nonempty, grammatical.distinct,
        grammatical.silent, grammatical.bindings, grammatical.endings⟩⟩

/-- Inside a loop, loops stand only in the parts of it that are iterated or executed: not in
a comment, a tag or a token, not in what the loop binds, and not from its end keyword on. -/
structure Syntax.Tree.LoopsInParts (tree : Tree) : Prop where
  silent : ∀ node ∈ tree.root.preorder, LoopShape.isPart node = false → node.loops = []
  bindings : ∀ loop ∈ tree.loops, ∀ binding ∈ (LoopShape.parts loop)[1]?, binding.loops = []
  endings : ∀ loop ∈ tree.loops,
    ∀ child ∈ loop.children.dropWhile fun child => !LoopShape.endsLoop child, child.loops = []

instance (tree : Tree) : Decidable tree.LoopsInParts :=
  decidable_of_iff
    ((∀ node ∈ tree.root.preorder, LoopShape.isPart node = false → node.loops = []) ∧
      (∀ loop ∈ tree.loops, ∀ binding ∈ (LoopShape.parts loop)[1]?, binding.loops = []) ∧
      ∀ loop ∈ tree.loops,
        ∀ child ∈ loop.children.dropWhile fun child => !LoopShape.endsLoop child,
          child.loops = [])
    ⟨fun ⟨silent, bindings, endings⟩ => ⟨silent, bindings, endings⟩,
      fun placed => ⟨placed.silent, placed.bindings, placed.endings⟩⟩

/-- No loop stands in a child that is no part. -/
theorem Syntax.Tree.LoopsInParts.loops_eq_nil {tree : Tree} (placed : tree.LoopsInParts)
    {node child : Node} (inside : node ∈ tree.root.preorder) (member : child ∈ node.children)
    (hidden : LoopShape.isPart child = false) : child.loops = [] := by
  have below := Node.mem_preorder_of_child member (Node.mem_preorder_self child)
  exact placed.silent child (Node.mem_preorder_trans below inside) hidden

theorem Syntax.Tree.Grammatical.loopsInParts {tree : Tree} (grammatical : tree.Grammatical) :
    tree.LoopsInParts where
  silent := grammatical.silent
  bindings := grammatical.bindings
  endings := by
    intro loop member child behind
    have inLoop := (List.dropWhile_sublist _).mem behind
    have below := Node.mem_preorder_of_child inLoop (Node.mem_preorder_self child)
    have inTree := Node.mem_preorder_trans below (Tree.mem_loops_iff.mp member).1
    exact grammatical.silent child inTree (grammatical.endings loop member child behind)

/-! ## The loops of a loop -/

/-- Elements that give nothing can be left out. -/
theorem flatMap_eq_flatMap_filter {α β : Type} {items : List α} {image : α → List β}
    {chosen : α → Bool} (idle : ∀ item ∈ items, chosen item = false → image item = []) :
    items.flatMap image = (items.filter chosen).flatMap image := by
  induction items with
  | nil => rfl
  | cons item rest ih =>
      rcases List.forall_mem_cons.mp idle with ⟨here, later⟩
      cases selected : chosen item with
      | true =>
          rw [List.filter_cons_of_pos selected, List.flatMap_cons, List.flatMap_cons, ih later]
      | false =>
          rw [List.filter_cons_of_neg (by simp [selected]), List.flatMap_cons, here selected,
            List.nil_append, ih later]

namespace LoopShape

/-- The pieces of a loop that its replacement carries over. -/
def pieces (loop : Node) (shape : LoopShape) : List Node :=
  shape.iterable :: shape.statements loop

/-- The loops that the replacement of a loop carries over. -/
def carriedLoops (source : String) (loop : Node) : List Node :=
  match ofNode? source loop with
  | none => []
  | some shape => (shape.pieces loop).flatMap Node.loops

variable {tree : Tree}

/-- Below a node, loops stand only in its named children. -/
theorem flatMap_loops_namedChildren (placed : tree.LoopsInParts) {node : Node}
    (inside : node ∈ tree.root.preorder) :
    node.children.flatMap Node.loops = node.namedChildren.flatMap Node.loops := by
  apply flatMap_eq_flatMap_filter
  intro child member
  exact placed.loops_eq_nil inside member

/-- Below a loop, loops stand only in its parts. -/
theorem flatMap_loops_parts (placed : tree.LoopsInParts) {loop : Node}
    (member : loop ∈ tree.loops) :
    loop.children.flatMap Node.loops = (parts loop).flatMap Node.loops := by
  have inside := (Tree.mem_loops_iff.mp member).1
  have split := @List.takeWhile_append_dropWhile _ (fun child => !endsLoop child) loop.children
  have behind : (loop.children.dropWhile fun child => !endsLoop child).flatMap Node.loops = [] := by
    rw [List.flatMap_eq_nil_iff]
    exact placed.endings loop member
  have before : (loop.children.takeWhile fun child => !endsLoop child).flatMap Node.loops =
      (parts loop).flatMap Node.loops := by
    apply flatMap_eq_flatMap_filter
    intro child childMember
    exact placed.loops_eq_nil inside ((List.takeWhile_sublist _).mem childMember)
  rw [← before, ← split, List.flatMap_append, split, behind, List.append_nil]

/-- In a block, loops stand only in its statements. -/
theorem loops_eq_flatMap_block (placed : tree.LoopsInParts) {node : Node}
    (inside : node ∈ tree.root.preorder) :
    node.loops =
      (if blockKinds.contains node.kind then node.namedChildren else [node]).flatMap
        Node.loops := by
  split
  · rename_i block
    have notLoop : node.kind ≠ Tree.loopKind := by
      intro isLoop
      rw [isLoop] at block
      exact absurd block (by decide)
    rw [Node.loops_of_kind_ne notLoop, flatMap_loops_namedChildren placed inside]
  · rw [List.flatMap_singleton]

/-- In a supported body, loops stand only in its statements. -/
theorem flatMap_loops_statements (placed : tree.LoopsInParts) {loop : Node}
    {shape : LoopShape} (member : loop ∈ tree.loops)
    (shaped : ofNode? tree.source loop = some shape) (supported : shape.body ≠ .unsupported) :
    shape.bodyNodes.flatMap Node.loops = (shape.statements loop).flatMap Node.loops := by
  rw [(of_ofNode? shaped).2, classify] at supported
  split at supported
  · exact absurd rfl supported
  · rw [statements]
    split at supported
    · rename_i alternative
      rw [if_pos alternative]
    · rename_i braced
      rcases bodyOf_ne_unsupported_iff.mp supported with ⟨node, single, -⟩
      have inLoop : node ∈ loop.children :=
        mem_children_of_mem_bodyNodes shaped (by simp [single])
      have inside := Node.mem_preorder_trans
        (Node.mem_preorder_of_child inLoop (Node.mem_preorder_self node))
        (Tree.mem_loops_iff.mp member).1
      rw [if_neg braced, single, List.flatMap_singleton]
      exact loops_eq_flatMap_block placed inside

/-- The loops of a loop are the loop itself and those of the carried pieces. -/
theorem loops_eq_cons_carriedLoops (placed : tree.LoopsInParts) {loop : Node}
    {shape : LoopShape} (member : loop ∈ tree.loops)
    (shaped : ofNode? tree.source loop = some shape) (supported : shape.body ≠ .unsupported) :
    loop.loops = loop :: carriedLoops tree.source loop := by
  have isLoop : (loop.kind == Tree.loopKind) = true := by
    rw [beq_iff_eq]
    exact (Tree.mem_loops_iff.mp member).2
  rcases (of_ofNode? shaped).1 with ⟨binding, partsEq⟩
  have bound : binding.loops = [] := by
    apply placed.bindings loop member binding
    rw [partsEq]
    rfl
  rw [Node.loops_eq, isLoop, flatMap_loops_parts placed member, partsEq]
  simp only [List.flatMap_cons, bound, List.nil_append, carriedLoops, shaped, pieces,
    flatMap_loops_statements placed member shaped supported]
  rfl

end LoopShape

/-! ## Exchanging loops of a tree -/

namespace Syntax.Node

mutual

/-- The loops of a subtree after some of its nodes were exchanged: in the place of each of
these stand the loops of its carried pieces. -/
def loopsAfter (source : String) (exchanged : Node → Bool) : Node → List Node
  | ⟨kind, start, stop, row, column, named, error, children⟩ =>
      if exchanged ⟨kind, start, stop, row, column, named, error, children⟩ then
        LoopShape.carriedLoops source ⟨kind, start, stop, row, column, named, error, children⟩
      else
        (if kind == Tree.loopKind then
          [⟨kind, start, stop, row, column, named, error, children⟩] else []) ++
          loopsAfterEach source exchanged children

/-- The loops of several siblings after the exchange. -/
def loopsAfterEach (source : String) (exchanged : Node → Bool) : List Node → List Node
  | [] => []
  | node :: rest => loopsAfter source exchanged node ++ loopsAfterEach source exchanged rest

end

theorem loopsAfterEach_eq (source : String) (exchanged : Node → Bool) (nodes : List Node) :
    loopsAfterEach source exchanged nodes = nodes.flatMap (loopsAfter source exchanged) := by
  induction nodes with
  | nil => rw [loopsAfterEach, List.flatMap_nil]
  | cons node rest ih => rw [loopsAfterEach, List.flatMap_cons, ih]

theorem loopsAfter_eq (source : String) (exchanged : Node → Bool) (node : Node) :
    node.loopsAfter source exchanged =
      if exchanged node then LoopShape.carriedLoops source node
      else (if node.kind == Tree.loopKind then [node] else []) ++
        node.children.flatMap (loopsAfter source exchanged) := by
  rw [← loopsAfterEach_eq]
  cases node
  rw [loopsAfter]

/-- When the exchanged nodes are loops that carry over all their inner loops, and none of
these is exchanged too, the loops before are those after the exchange and the exchanged
ones. -/
theorem loops_perm_loopsAfter {source : String} {exchanged : Node → Bool} {root : Node}
    (carried : ∀ node ∈ root.preorder, exchanged node = true →
      node.loops = node :: LoopShape.carriedLoops source node ∧
        ∀ inner ∈ LoopShape.carriedLoops source node, exchanged inner = false) :
    root.loops.Perm (root.loopsAfter source exchanged ++ root.loops.filter exchanged) := by
  induction root using inductionOnChildren with
  | step root ih =>
      rw [loopsAfter_eq]
      cases here : exchanged root with
      | true =>
          rcases carried root (mem_preorder_self root) here with ⟨loopsEq, kept⟩
          have alone : (LoopShape.carriedLoops source root).filter exchanged = [] := by
            rw [List.filter_eq_nil_iff]
            intro inner member
            rw [kept inner member]
            exact Bool.false_ne_true
          rw [loopsEq, List.filter_cons_of_pos here, alone]
          exact (List.perm_append_singleton root _).symm
      | false =>
          have below : ∀ child ∈ root.children, child.loops.Perm
              (child.loopsAfter source exchanged ++ child.loops.filter exchanged) := by
            intro child member
            apply ih child member
            intro node inside
            exact carried node (mem_preorder_of_child member inside)
          have own : (if root.kind == Tree.loopKind then [root] else []).filter exchanged = [] := by
            split <;> simp [here]
          have children : (root.children.flatMap loops).Perm
              (root.children.flatMap (loopsAfter source exchanged) ++
                root.children.flatMap fun child => child.loops.filter exchanged) :=
            (List.Perm.flatMap_left _ below).trans (List.flatMap_append_perm _ _ _).symm
          rw [loops_eq root, List.filter_append, own, List.nil_append, List.filter_flatMap]
          simp only [Bool.false_eq_true, ↓reduceIte, List.append_assoc]
          exact children.append_left _

end Syntax.Node

end LoopLift
