import LoopLift.Loop.Fix
import LoopLift.Proofs.Syntax.Nesting

/-!
# Fixing one problem

What a session can do with one problem, and what it does with the problem of a
reported loop. A problem says only a range and a kind. In a tree with nested
ranges, in which loops have ranges of their own, this is enough to find the loop
again.
-/

namespace LoopLift

open Syntax

/-- The problems of a tree are those of the loops that are offered and not
suppressed. -/
theorem Inspection.mem_inspect_iff {tree : Tree} {problem : Problem} :
    problem ∈ inspect tree ↔
      ∃ loop ∈ tree.loops, isOffered tree.source loop = true ∧
        Suppression.isSuppressed (Text.lines tree.source.toList) loop = false ∧
        problem = Problem.ofNode loop := by
  simp only [inspect, List.mem_map, List.mem_filter, Bool.and_eq_true, Bool.not_eq_true']
  constructor
  · rintro ⟨loop, ⟨member, offered, unmarked⟩, rfl⟩
    exact ⟨loop, member, offered, unmarked, rfl⟩
  · rintro ⟨loop, member, offered, unmarked, rfl⟩
    exact ⟨loop, ⟨member, offered, unmarked⟩, rfl⟩

/-- The loops that are offered are those with a shape, a supported body, and no jump that
leaves the body. -/
theorem Inspection.isOffered_iff {source : String} {node : Node} :
    isOffered source node = true ↔
      ∃ shape, LoopShape.ofNode? source node = some shape ∧ shape.body ≠ .unsupported ∧
        ∀ body ∈ shape.bodyNodes, Jump.escapes source 0 false body = false := by
  rw [isOffered]
  cases LoopShape.ofNode? source node with
  | none => simp
  | some shape => simp

/-- The loops with a replacement are those with a shape and a supported body. -/
theorem exists_replacementText?_iff {source : String} {node : Node} :
    (∃ text, replacementText? source node = some text) ↔
      ∃ shape, LoopShape.ofNode? source node = some shape ∧ shape.body ≠ .unsupported := by
  rw [replacementText?]
  cases LoopShape.ofNode? source node with
  | none => simp
  | some shape =>
      cases bodyEq : shape.body with
      | block statements => simp [bodyEq, LoopBody.text?]
      | single statement => simp [bodyEq, LoopBody.text?]
      | unsupported => simp [bodyEq, LoopBody.text?]

theorem Syntax.Tree.mem_loops_iff {tree : Tree} {node : Node} :
    node ∈ tree.loops ↔ node ∈ tree.root.preorder ∧ node.kind = Tree.loopKind := by
  simp only [Tree.loops, Node.findByKind, List.mem_filter, beq_iff_eq]

/-- When the loops of a tree have ranges of their own, a loop is the only node
with its range and its kind. -/
theorem Syntax.Tree.eq_loop_of_range_eq {tree : Tree} {loop other : Node}
    (distinct : tree.loops.Pairwise fun left right =>
      (left.start, left.stop) ≠ (right.start, right.stop))
    (member : loop ∈ tree.loops) (inside : other ∈ tree.root.preorder)
    (sameKind : other.kind = loop.kind) (sameStart : other.start = loop.start)
    (sameStop : other.stop = loop.stop) : other = loop := by
  have otherMember : other ∈ tree.loops :=
    Tree.mem_loops_iff.mpr ⟨inside, sameKind.trans (Tree.mem_loops_iff.mp member).2⟩
  have : Std.Symm fun left right : Node =>
      (left.start, left.stop) ≠ (right.start, right.stop) :=
    ⟨fun _ _ => Ne.symm⟩
  by_contra different
  exact distinct.forall otherMember member different (by rw [sameStart, sameStop])

namespace FixSession

/-- The node that a problem denotes is a node of the tree with the range of the
problem. -/
theorem element?_sound {session : FixSession} {problem : Problem} {node : Node}
    (found : session.element? problem = some node) :
    node ∈ session.tree.root.preorder ∧ node.start = problem.start ∧
      node.stop = problem.stop := by
  simp only [element?, Option.map_eq_some_iff] at found
  rcases found with ⟨outermost, search, rfl⟩
  rcases Node.findExact?_sound search with ⟨inside, range⟩
  cases descent : outermost.descendTo? problem.kind problem.start problem.stop with
  | none => exact ⟨inside, range⟩
  | some inner =>
      rcases Node.descendTo?_sound range descent with ⟨below, -, innerRange⟩
      exact ⟨Node.mem_preorder_trans below inside, innerRange⟩

/-- The problem of a node denotes that node, when its range is not empty and no
other node has its range and its kind. -/
theorem element?_ofNode {session : FixSession} {node : Node}
    (nested : session.tree.root.Nested) (inside : node ∈ session.tree.root.preorder)
    (nonempty : node.start < node.stop)
    (unique : ∀ other ∈ session.tree.root.preorder, other.kind = node.kind →
      other.start = node.start → other.stop = node.stop → other = node) :
    session.element? (Problem.ofNode node) = some node := by
  rcases nested.findExact?_of_mem inside nonempty with ⟨outermost, search, below⟩
  rcases Node.findExact?_sound search with ⟨outermostInside, range⟩
  have descent := (nested.of_mem outermostInside).descendTo?_of_mem below nonempty range
    fun other otherBelow => unique other (Node.mem_preorder_trans otherBelow outermostInside)
  simp only [element?, Problem.ofNode, search, descent, Option.map_some, Option.getD_some]

/-- A verified text is that of the recorded edits. -/
theorem apply_of_applyVerified {session : FixSession} {parse : Parser} {text : String}
    (verified : session.applyVerified parse = .ok text) :
    Edit.apply session.tree.source session.edits = .ok text := by
  rw [applyVerified, Edit.applyVerified] at verified
  cases applied : Edit.apply session.tree.source session.edits with
  | error error =>
      rw [applied] at verified
      cases verified
  | ok edited =>
      simp only [applied, bind, Except.bind] at verified
      split at verified
      · cases verified
      · cases verified
        rfl

/-- The edit that puts a statement in the place of a loop. -/
def loopEdit (loop : Node) (statement : Statement) : Edit where
  start := loop.start
  stop := loop.stop
  replacement := statement.text
  description := some Problem.loopFixName

/-- What a session can do with a problem: nothing, because the problem denotes no
loop that can be rewritten, or it builds the replacement of the node that the
problem denotes, and then fails or records exactly one edit of that node. -/
theorem fix_cases (parse : Parser) (session : FixSession) (problem : Problem) :
    (session.fix parse problem = .ok session ∧
      ∀ node, session.element? problem = some node →
        replacementText? session.tree.source node = none) ∨
    ∃ node text, session.element? problem = some node ∧
      replacementText? session.tree.source node = some text ∧
      ((∃ error, Statement.ofText parse text = .error error ∧
          session.fix parse problem = .error error) ∨
        ∃ statement, Statement.ofText parse text = .ok statement ∧
          session.fix parse problem =
            .ok { session with edits := session.edits ++ [loopEdit node statement] }) := by
  simp only [fix]
  cases found : session.element? problem with
  | none => exact .inl ⟨rfl, by simp⟩
  | some node =>
      cases textEq : replacementText? session.tree.source node with
      | none =>
          refine .inl ⟨by simp only [textEq], ?_⟩
          intro other same
          cases same
          exact textEq
      | some text =>
          refine .inr ⟨node, text, rfl, textEq, ?_⟩
          simp only [textEq]
          cases built : Statement.ofText parse text with
          | error error => exact .inl ⟨error, rfl, rfl⟩
          | ok statement => exact .inr ⟨statement, rfl, rfl⟩

end FixSession

end LoopLift
