import LoopLift.Proofs.Loop.Carrying
import LoopLift.Proofs.Text.Cutting

/-!
# Nested loops in the replacement

The replacement of a loop moves pieces of the source: the iterated expression and the
statements of the body. They keep their order, and nothing inside of them is touched. A loop
inside of the loop lies in one of these pieces, so its text stands in the replacement, and
loops that lie one behind the other in the source do so in the replacement.
-/

namespace LoopLift

open Syntax

/-! ## Pieces in a text -/

/-- Pieces stand in a text one behind the other, at places that are disjoint. -/
inductive StandInOrder {α : Type} : List (List α) → List α → Prop where
  | nil (text : List α) : StandInOrder [] text
  | cons {first rest : List α} {others : List (List α)} (gap : List α)
      (later : StandInOrder others rest) : StandInOrder (first :: others) (gap ++ first ++ rest)

namespace StandInOrder

variable {α : Type} {pieces others : List (List α)} {text rest : List α}

theorem prepend (standing : StandInOrder pieces text) (front : List α) :
    StandInOrder pieces (front ++ text) := by
  cases standing with
  | nil => exact .nil _
  | @cons first rest others gap later =>
      rw [List.append_assoc, ← List.append_assoc, ← List.append_assoc]
      exact .cons (front ++ gap) later

theorem append (standing : StandInOrder pieces text) (behind : StandInOrder others rest) :
    StandInOrder (pieces ++ others) (text ++ rest) := by
  induction standing with
  | nil text => exact behind.prepend text
  | @cons first remainder pieces gap later ih =>
      rw [List.append_assoc]
      exact .cons gap ih

theorem extend (standing : StandInOrder pieces text) (back : List α) :
    StandInOrder pieces (text ++ back) := by
  simpa using standing.append (.nil back)

theorem singleton_iff {piece : List α} : StandInOrder [piece] text ↔ piece <:+: text := by
  constructor
  · intro standing
    cases standing with
    | @cons _ rest _ gap later => exact ⟨gap, rest, rfl⟩
  · intro part
    rcases part with ⟨gap, rest, rfl⟩
    exact .cons gap (.nil rest)

/-- Joined pieces stand in the joined text. -/
theorem intercalate (separator : List α) (pieces : List (List α)) :
    StandInOrder pieces (separator.intercalate pieces) := by
  induction pieces with
  | nil => exact .nil _
  | cons piece others ih =>
      cases others with
      | nil => simpa using StandInOrder.cons [] (.nil [])
      | cons next others =>
          rw [List.intercalate_cons_cons, List.append_assoc]
          exact .cons [] (ih.prepend separator)

end StandInOrder

/-! ## Nodes in a text -/

/-- Nodes that stand one behind the other in the source. -/
def InSourceOrder (nodes : List Node) : Prop :=
  nodes.Pairwise fun left right => left.stop ≤ right.start

/-- Nodes in their order are cut in two where they end behind an offset. -/
theorem InSourceOrder.exists_cut {nodes : List Node} (ordered : InSourceOrder nodes)
    (proper : ∀ node ∈ nodes, node.start ≤ node.stop) (offset : Nat) :
    ∃ upTo behind, nodes = upTo ++ behind ∧ (∀ node ∈ upTo, node.stop ≤ offset) ∧
      ∀ node ∈ behind, offset < node.stop := by
  induction nodes with
  | nil => exact ⟨[], [], rfl, by simp, by simp⟩
  | cons node others ih =>
      rcases List.pairwise_cons.mp ordered with ⟨before, othersOrdered⟩
      rcases List.forall_mem_cons.mp proper with ⟨-, othersProper⟩
      by_cases ends : node.stop ≤ offset
      · rcases ih othersOrdered othersProper with ⟨upTo, behind, rfl, ended, beyond⟩
        exact ⟨node :: upTo, behind, rfl, List.forall_mem_cons.mpr ⟨ends, ended⟩, beyond⟩
      · refine ⟨[], node :: others, rfl, by simp, List.forall_mem_cons.mpr ⟨by omega, ?_⟩⟩
        intro other member
        have behind := before other member
        have otherProper := othersProper other member
        omega

/-- The texts of nodes stand in a text, in the order of the nodes. -/
def TextsStand (source : String) (nodes : List Node) (text : List Char) : Prop :=
  StandInOrder (nodes.map fun node => (node.text source).toList) text

namespace Syntax.Tree.WellFormed

variable {tree : Tree}

/-- The text of a node is the slice of the source at its range. -/
theorem slice?_eq (formed : tree.WellFormed) {node : Node} (inside : node ∈ tree.root.preorder) :
    Text.slice? tree.source.toList node.start node.stop =
      some (node.text tree.source).toList := by
  rcases formed.boundaries node inside with ⟨starts, stops⟩
  rcases Text.exists_slice?_of_boundaries (formed.ordered node inside) starts stops with
    ⟨piece, sliced⟩
  rw [Node.text, sliced, Option.map_some, Option.getD_some, String.toList_ofList]

/-- Nodes in a slice of the source stand in it. -/
theorem textsStand_slice (formed : tree.WellFormed) {nodes : List Node}
    (inTree : ∀ node ∈ nodes, node ∈ tree.root.preorder) (ordered : InSourceOrder nodes)
    {start stop : Nat} {piece : List Char}
    (sliced : Text.slice? tree.source.toList start stop = some piece)
    (inside : ∀ node ∈ nodes, start ≤ node.start ∧ node.stop ≤ stop) :
    TextsStand tree.source nodes piece := by
  induction nodes generalizing start piece with
  | nil => exact .nil piece
  | cons node others ih =>
      rcases List.forall_mem_cons.mp inTree with ⟨nodeInTree, othersInTree⟩
      rcases List.forall_mem_cons.mp inside with ⟨nodeInside, othersInside⟩
      rcases List.pairwise_cons.mp ordered with ⟨before, othersOrdered⟩
      rcases Text.exists_gap_of_slice? sliced (formed.slice?_eq nodeInTree) nodeInside.1
        (formed.ordered node nodeInTree) nodeInside.2 with ⟨gap, behind, rfl, slicedBehind⟩
      apply StandInOrder.cons gap
      apply ih othersInTree othersOrdered slicedBehind
      intro other member
      exact ⟨before other member, (othersInside other member).2⟩

/-- Nodes that lie in other nodes stand wherever these stand. -/
theorem textsStand_within (formed : tree.WellFormed) {outers inners : List Node}
    {text : List Char} (standing : TextsStand tree.source outers text)
    (outersInTree : ∀ outer ∈ outers, outer ∈ tree.root.preorder)
    (innersInTree : ∀ inner ∈ inners, inner ∈ tree.root.preorder)
    (outersOrdered : InSourceOrder outers) (innersOrdered : InSourceOrder inners)
    (within : ∀ inner ∈ inners, ∃ outer ∈ outers, inner.Within outer) :
    TextsStand tree.source inners text := by
  induction outers generalizing inners text with
  | nil =>
      cases inners with
      | nil => exact .nil text
      | cons inner inners =>
          rcases within inner List.mem_cons_self with ⟨outer, member, -⟩
          cases member
  | cons outer others ih =>
      rcases List.forall_mem_cons.mp outersInTree with ⟨outerInTree, othersInTree⟩
      rcases List.pairwise_cons.mp outersOrdered with ⟨before, othersOrdered⟩
      have proper : ∀ inner ∈ inners, inner.start ≤ inner.stop := by
        intro inner member
        exact formed.ordered inner (innersInTree inner member)
      -- The inner nodes up to the end of the first outer one lie in it, those behind lie in
      -- the others.
      rcases innersOrdered.exists_cut proper outer.stop with ⟨upTo, behind, rfl, ended, beyond⟩
      rcases List.pairwise_append.mp innersOrdered with ⟨upToOrdered, behindOrdered, -⟩
      rw [List.forall_mem_append] at innersInTree within
      have lie : ∀ inner ∈ upTo, outer.start ≤ inner.start ∧ inner.stop ≤ outer.stop := by
        intro inner member
        rcases within.1 inner member with ⟨around, aroundMember, lies⟩
        rcases List.mem_cons.mp aroundMember with rfl | later
        · exact lies
        · -- An inner node of a later one has no bytes here, and stands at the border.
          have border := Nat.le_trans (before around later) lies.1
          exact ⟨Nat.le_trans (formed.ordered outer outerInTree) border, ended inner member⟩
      have lieBehind : ∀ inner ∈ behind, ∃ other ∈ others, inner.Within other := by
        intro inner member
        rcases within.2 inner member with ⟨around, aroundMember, lies⟩
        rcases List.mem_cons.mp aroundMember with rfl | later
        · exact absurd lies.2 (Nat.not_le.mpr (beyond inner member))
        · exact ⟨around, later, lies⟩
      rw [TextsStand, List.map_cons] at standing
      cases standing with
      | @cons _ rest _ gap standingRest =>
          have here := formed.textsStand_slice innersInTree.1 upToOrdered
            (formed.slice?_eq outerInTree) lie
          have later := ih standingRest othersInTree innersInTree.2 othersOrdered behindOrdered
            lieBehind
          rw [TextsStand, List.map_append]
          exact (here.prepend gap).append later

end Syntax.Tree.WellFormed

/-! ## Loops in the replacement of a loop -/

namespace LoopShape

variable {source : String} {loop : Node} {shape : LoopShape}

theorem mem_preorder_of_mem_pieces (shaped : ofNode? source loop = some shape) {piece : Node}
    (member : piece ∈ shape.pieces loop) : piece ∈ loop.preorder := by
  rcases List.mem_cons.mp member with rfl | inStatements
  · exact (Carries.iterable shaped).mem_preorder
  · exact mem_preorder_of_mem_statements shaped inStatements

/-- The pieces of a loop stand one behind the other in the source. -/
theorem inSourceOrder_pieces (nested : loop.Nested) (shaped : ofNode? source loop = some shape) :
    InSourceOrder (shape.pieces loop) := by
  have siblings := nested.siblings loop (Node.mem_preorder_self loop)
  rcases (of_ofNode? shaped).1 with ⟨binding, partsEq⟩
  have ordered : InSourceOrder (parts loop) :=
    (siblings.sublist (List.takeWhile_sublist _)).sublist List.filter_sublist
  rw [partsEq] at ordered
  have withoutBinding : InSourceOrder (shape.iterable :: shape.bodyNodes) :=
    List.Pairwise.sublist ((List.sublist_cons_self _ _).cons_cons _) ordered
  rw [pieces, statements]
  split
  · exact withoutBinding
  · split
    · rename_i node single
      rw [single] at withoutBinding
      split
      · have inLoop : node ∈ loop.children :=
          mem_children_of_mem_bodyNodes shaped (by simp [single])
        have before : shape.iterable.stop ≤ node.start :=
          (List.pairwise_cons.mp withoutBinding).1 node List.mem_cons_self
        have nestedNode := nested.child inLoop
        apply List.pairwise_cons.mpr
        constructor
        · intro statement member
          have within := nestedNode.within node (Node.mem_preorder_self node) statement
            (List.mem_filter.mp member).1
          exact Nat.le_trans before within.1
        · exact (nestedNode.siblings node (Node.mem_preorder_self node)).sublist
            List.filter_sublist
      · exact withoutBinding
    · exact List.pairwise_singleton _ _

/-- The pieces of a loop stand in its replacement. -/
theorem textsStand_pieces (shaped : ofNode? source loop = some shape) {text : String}
    (replaced : replacementText? source loop = some text) :
    TextsStand source (shape.pieces loop) text.toList := by
  have joined := StandInOrder.intercalate "\n".toList
    ((shape.statements loop).map fun statement => (statement.text source).toList)
  rw [replacementText?_eq shaped replaced, opening, TextsStand, pieces, List.map_cons]
  simp only [String.toList_append, String.toList_intercalate, List.map_map, List.append_assoc]
  rw [← List.append_assoc]
  apply StandInOrder.cons
  iterate 5 apply StandInOrder.prepend
  exact joined.extend _

end LoopShape

open LoopShape

/-- The loops below a loop are those of its pieces. -/
theorem Syntax.Tree.LoopsInParts.flatMap_loops_children {tree : Tree}
    (placed : tree.LoopsInParts) {loop : Node} {shape : LoopShape} (member : loop ∈ tree.loops)
    (shaped : ofNode? tree.source loop = some shape) (supported : shape.body ≠ .unsupported) :
    loop.children.flatMap Node.loops = (shape.pieces loop).flatMap Node.loops := by
  have loopsEq := loops_eq_cons_carriedLoops placed member shaped supported
  rw [Node.loops_eq, if_pos (beq_iff_eq.mpr (Tree.mem_loops_iff.mp member).2), carriedLoops,
    shaped, List.singleton_append] at loopsEq
  exact (List.cons.inj loopsEq).2

/-- Loops below a loop that stand one behind the other in the source stand so in the
replacement of the loop. -/
theorem Syntax.Tree.WellFormed.textsStand_loops {tree : Tree} (formed : tree.WellFormed)
    (placed : tree.LoopsInParts) {loop : Node} {text : String} (member : loop ∈ tree.loops)
    (replaced : replacementText? tree.source loop = some text) {inners : List Node}
    (below : ∀ inner ∈ inners, inner ∈ loop.children.flatMap Node.loops)
    (ordered : InSourceOrder inners) : TextsStand tree.source inners text.toList := by
  rcases exists_replacementText?_iff.mp ⟨text, replaced⟩ with ⟨shape, shaped, supported⟩
  have loopInTree := (Tree.mem_loops_iff.mp member).1
  have inPieces : ∀ inner ∈ inners, ∃ piece ∈ shape.pieces loop, inner ∈ piece.preorder := by
    intro inner innerMember
    have belowLoop := below inner innerMember
    rw [placed.flatMap_loops_children member shaped supported] at belowLoop
    rcases List.mem_flatMap.mp belowLoop with ⟨piece, ofLoop, inPiece⟩
    exact ⟨piece, ofLoop, (Node.mem_loops_iff.mp inPiece).1⟩
  have piecesInTree : ∀ piece ∈ shape.pieces loop, piece ∈ tree.root.preorder := by
    intro piece ofLoop
    exact Node.mem_preorder_trans (mem_preorder_of_mem_pieces shaped ofLoop) loopInTree
  apply formed.textsStand_within (textsStand_pieces shaped replaced) piecesInTree _
    (inSourceOrder_pieces (formed.nested.of_mem loopInTree) shaped) ordered
  · intro inner innerMember
    rcases inPieces inner innerMember with ⟨piece, ofLoop, inPiece⟩
    exact ⟨piece, ofLoop,
      (formed.nested.of_mem (piecesInTree piece ofLoop)).within_root inPiece⟩
  · intro inner innerMember
    rcases inPieces inner innerMember with ⟨piece, ofLoop, inPiece⟩
    exact Node.mem_preorder_trans inPiece (piecesInTree piece ofLoop)

/-- The text of a loop below another one stands in the replacement of that one. -/
theorem Syntax.Tree.WellFormed.infix_of_mem_loops {tree : Tree} (formed : tree.WellFormed)
    (placed : tree.LoopsInParts) {loop inner : Node} {text : String} (member : loop ∈ tree.loops)
    (replaced : replacementText? tree.source loop = some text)
    (below : inner ∈ loop.children.flatMap Node.loops) :
    (inner.text tree.source).toList <:+: text.toList := by
  have single : ∀ node ∈ [inner], node ∈ loop.children.flatMap Node.loops := by
    intro node only
    rw [List.mem_singleton.mp only]
    exact below
  exact StandInOrder.singleton_iff.mp
    (formed.textsStand_loops placed member replaced single (List.pairwise_singleton _ _))

end LoopLift
