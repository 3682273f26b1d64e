import LoopLift.Proofs.Loop.Fix
import Mathlib.Logic.Relation

/-!
# The node that a problem denotes

A problem says a range and a kind. In a tree with nested ranges, the nodes with one range
that is not empty stand one inside the other, so there is always an outermost one. Of the
nodes with the range of a problem, the problem denotes the outermost one of its kind, or,
without a node of its kind, the outermost one of all. It is found by a search from the root
and a descent from the node where the search has ended.
-/

namespace LoopLift

open Syntax

namespace Syntax.Node

/-! ## Outermost nodes -/

/-- The outermost node of a tree with a property: it has the property, and all nodes of the
tree that have it stand at this node or below it. -/
structure Outermost (root : Node) (holds : Node → Prop) (node : Node) : Prop where
  inside : node ∈ root.preorder
  own : holds node
  around : ∀ other ∈ root.preorder, holds other → other ∈ node.preorder

theorem sizeOf_le_of_mem_preorder {inner node : Node} (inside : inner ∈ node.preorder) :
    sizeOf inner ≤ sizeOf node := by
  induction node using inductionOnChildren with
  | step node ih =>
      rcases mem_preorder_iff.mp inside with rfl | ⟨child, member, insideChild⟩
      · exact Nat.le_refl _
      · exact Nat.le_of_lt (Nat.lt_of_le_of_lt (ih child member insideChild)
          (sizeOf_lt_of_mem_children member))

/-- Two nodes that stand in each other are the same. -/
theorem eq_of_mem_preorder {left right : Node} (leftInside : left ∈ right.preorder)
    (rightInside : right ∈ left.preorder) : left = right := by
  rcases mem_preorder_iff.mp leftInside with same | ⟨child, member, insideChild⟩
  · exact same
  · have smaller := sizeOf_lt_of_mem_children member
    have leftSize := sizeOf_le_of_mem_preorder insideChild
    have rightSize := sizeOf_le_of_mem_preorder rightInside
    omega

theorem Outermost.unique {root left right : Node} {holds : Node → Prop}
    (leftOutermost : root.Outermost holds left) (rightOutermost : root.Outermost holds right) :
    left = right :=
  eq_of_mem_preorder (rightOutermost.around left leftOutermost.inside leftOutermost.own)
    (leftOutermost.around right rightOutermost.inside rightOutermost.own)

/-! ## The search and the descent -/

/-- One step of a descent: a node of another kind gives way to the first of its children
with the range. -/
def StepsDown (kind : String) (start stop : Nat) (above below : Node) : Prop :=
  above.kind ≠ kind ∧
    above.children.find? (fun child => child.spans start stop) = some below

/-- No descent goes on forever, in whatever tree. -/
theorem wellFounded_stepsDown (kind : String) (start stop : Nat) :
    WellFounded fun below above => StepsDown kind start stop above below := by
  constructor
  intro node
  induction node using inductionOnChildren with
  | step node ih =>
      constructor
      intro below step
      exact ih below (List.mem_of_find?_eq_some step.2)

/-- The descent follows its steps to the end, and gives the last node if it is of the
kind. -/
theorem exists_last_of_descendTo? (kind : String) (start stop : Nat) (node : Node) :
    ∃ last, Relation.ReflTransGen (StepsDown kind start stop) node last ∧
      (∀ below, ¬StepsDown kind start stop last below) ∧
      node.descendTo? kind start stop = if last.kind = kind then some last else none := by
  induction node using inductionOnChildren with
  | step node ih =>
      rw [descendTo?_eq]
      by_cases ofKind : node.kind = kind
      · refine ⟨node, .refl, ?_, by simp [ofKind]⟩
        intro below step
        exact step.1 ofKind
      · rw [if_neg (by simpa using ofKind)]
        cases first : node.children.find? (fun child => child.spans start stop) with
        | none =>
            refine ⟨node, .refl, ?_, by simp [ofKind]⟩
            intro below step
            cases first.symm.trans step.2
        | some child =>
            rcases ih child (List.mem_of_find?_eq_some first) with ⟨last, steps, ends, found⟩
            exact ⟨last, steps.head ⟨ofKind, first⟩, ends, found⟩

namespace Nested

/-- The search for a range finds the outermost node with this range. -/
theorem outermost_of_findExact? {root node : Node} {start stop : Nat} (nested : root.Nested)
    (nonempty : start < stop) (found : root.findExact? start stop = some node) :
    root.Outermost (fun inner => inner.spans start stop = true) node := by
  rcases findExact?_sound found with ⟨inside, range⟩
  refine ⟨inside, spans_iff.mpr range, ?_⟩
  intro other otherInside spanning
  rcases spans_iff.mp spanning with ⟨rfl, rfl⟩
  rcases nested.findExact?_of_mem otherInside nonempty with ⟨outermost, search, below⟩
  cases search.symm.trans found
  exact below

/-- The search for a range fails only if no node has it. -/
theorem findExact?_eq_none_iff {root : Node} {start stop : Nat} (nested : root.Nested)
    (nonempty : start < stop) :
    root.findExact? start stop = none ↔
      ∀ node ∈ root.preorder, node.spans start stop = false := by
  constructor
  · intro missing node inside
    rw [Bool.eq_false_iff]
    intro spanning
    rcases spans_iff.mp spanning with ⟨rfl, rfl⟩
    rcases nested.findExact?_of_mem inside nonempty with ⟨outermost, search, -⟩
    cases search.symm.trans missing
  · intro absent
    cases search : root.findExact? start stop with
    | none => rfl
    | some found =>
        rcases findExact?_sound search with ⟨inside, range⟩
        have spanning := spans_iff.mpr range
        rw [absent found inside] at spanning
        cases spanning

/-- From a node with the range, the descent finds the outermost node of the kind with this
range, if there is any. -/
theorem exists_outermost_of_descendTo? {root target : Node} {kind : String} {start stop : Nat}
    (nested : root.Nested) (nonempty : start < stop) (range : root.spans start stop = true)
    (inside : target ∈ root.preorder) (targetRange : target.spans start stop = true)
    (targetKind : target.kind = kind) :
    ∃ node, root.descendTo? kind start stop = some node ∧
      root.Outermost (fun inner => inner.spans start stop = true ∧ inner.kind = kind) node := by
  induction root using inductionOnChildren with
  | step root ih =>
      rw [descendTo?_eq]
      by_cases ofKind : root.kind = kind
      · refine ⟨root, by simp [ofKind], mem_preorder_self root, ⟨range, ofKind⟩, ?_⟩
        intro other otherInside matching
        exact otherInside
      · -- All nodes that match stand below the one child with the range.
        have below : ∀ other ∈ root.preorder, other.spans start stop = true ∧ other.kind = kind →
            ∃ child ∈ root.children, other ∈ child.preorder ∧
              root.children.find? (fun node => node.spans start stop) = some child ∧
              child.spans start stop = true := by
          intro other otherInside matching
          rcases mem_preorder_iff.mp otherInside with rfl | ⟨child, member, insideChild⟩
          · exact absurd matching.2 ofKind
          · exact ⟨child, member, insideChild,
              nested.find?_spans_of_mem nonempty range matching.1 member insideChild⟩
        rcases below target inside ⟨targetRange, targetKind⟩ with
          ⟨child, member, insideChild, first, childRange⟩
        rcases ih child member (nested.child member) childRange insideChild with
          ⟨node, found, outermost⟩
        rw [if_neg (by simpa using ofKind), first]
        refine ⟨node, found, mem_preorder_of_child member outermost.inside, outermost.own, ?_⟩
        intro other otherInside matching
        rcases below other otherInside matching with ⟨same, -, insideSame, firstSame, -⟩
        cases first.symm.trans firstSame
        exact outermost.around other insideSame matching

end Nested

end Syntax.Node

namespace Problem

/-- A node has the range of a problem. -/
def HasRange (problem : Problem) (node : Node) : Prop :=
  node.spans problem.start problem.stop = true

/-- A node has the range and the kind of a problem. -/
def Matches (problem : Problem) (node : Node) : Prop :=
  problem.HasRange node ∧ node.kind = problem.kind

end Problem

namespace FixSession

/-- The node that a problem denotes is the outermost one of its range and kind or, when no
node has both, the outermost one of its range. -/
theorem outermost_of_element? {session : FixSession} {problem : Problem} {node : Node}
    (nested : session.tree.root.Nested) (nonempty : problem.start < problem.stop)
    (denoted : session.element? problem = some node) :
    session.tree.root.Outermost problem.Matches node ∨
      (∀ other ∈ session.tree.root.preorder, ¬problem.Matches other) ∧
        session.tree.root.Outermost problem.HasRange node := by
  rcases Option.map_eq_some_iff.mp denoted with ⟨outer, search, rfl⟩
  have outermost := nested.outermost_of_findExact? nonempty search
  have nestedOuter := nested.of_mem outermost.inside
  by_cases matched : ∃ target ∈ session.tree.root.preorder, problem.Matches target
  · rcases matched with ⟨target, targetInside, targetRange, targetKind⟩
    have targetBelow := outermost.around target targetInside targetRange
    rcases nestedOuter.exists_outermost_of_descendTo? nonempty outermost.own targetBelow
      targetRange targetKind with ⟨inner, descent, innermost⟩
    rw [descent, Option.getD_some]
    refine .inl ⟨Node.mem_preorder_trans innermost.inside outermost.inside, innermost.own, ?_⟩
    intro other otherInside matching
    exact innermost.around other (outermost.around other otherInside matching.1) matching
  · have unmatched : ∀ other ∈ session.tree.root.preorder, ¬problem.Matches other := by
      intro other otherInside matching
      exact matched ⟨other, otherInside, matching⟩
    cases descent : outer.descendTo? problem.kind problem.start problem.stop with
    | none => exact .inr ⟨unmatched, outermost⟩
    | some inner =>
        rcases Node.descendTo?_sound (Node.spans_iff.mp outermost.own) descent with
          ⟨below, ofKind, range⟩
        exact absurd ⟨Node.spans_iff.mpr range, ofKind⟩
          (unmatched inner (Node.mem_preorder_trans below outermost.inside))

/-- A problem denotes nothing exactly if no node has its range. -/
theorem element?_eq_none_iff {session : FixSession} {problem : Problem}
    (nested : session.tree.root.Nested) (nonempty : problem.start < problem.stop) :
    session.element? problem = none ↔
      ∀ node ∈ session.tree.root.preorder, ¬problem.HasRange node := by
  rw [element?, Option.map_eq_none_iff, nested.findExact?_eq_none_iff nonempty]
  simp only [Problem.HasRange, Bool.not_eq_true]

theorem exists_element?_of_hasRange {session : FixSession} {problem : Problem} {node : Node}
    (nested : session.tree.root.Nested) (nonempty : problem.start < problem.stop)
    (inside : node ∈ session.tree.root.preorder) (range : problem.HasRange node) :
    ∃ found, session.element? problem = some found := by
  rw [← Option.ne_none_iff_exists', ne_eq, element?_eq_none_iff nested nonempty]
  intro absent
  exact absent node inside range

/-- What is denoted is reached by the descent from the outermost node with the range. -/
theorem exists_last_of_outermost {session : FixSession} {problem : Problem} {outermost : Node}
    (nested : session.tree.root.Nested) (nonempty : problem.start < problem.stop)
    (ranged : session.tree.root.Outermost problem.HasRange outermost) :
    ∃ last, Relation.ReflTransGen (Node.StepsDown problem.kind problem.start problem.stop)
        outermost last ∧
      (∀ below, ¬Node.StepsDown problem.kind problem.start problem.stop last below) ∧
      session.element? problem = some (if last.kind = problem.kind then last else outermost) := by
  rcases exists_element?_of_hasRange nested nonempty ranged.inside ranged.own with
    ⟨found, denoted⟩
  rcases Option.map_eq_some_iff.mp denoted with ⟨outer, search, -⟩
  rw [(nested.outermost_of_findExact? nonempty search).unique ranged] at search
  rcases Node.exists_last_of_descendTo? problem.kind problem.start problem.stop outermost with
    ⟨last, steps, ends, descent⟩
  refine ⟨last, steps, ends, ?_⟩
  rw [element?, search, Option.map_some, descent]
  split <;> rfl

/-- What a problem denotes in a tree with nested ranges, when its range is not empty. It
denotes nothing exactly if no node has its range. Otherwise it denotes the outermost node
with its range and its kind or, when no node has both, the outermost node with its range.
The descent to that node takes a finite number of steps, in whatever tree: it starts at the
outermost node with the range, and where it ends at a node of another kind, it is that
outermost node that is denoted. -/
theorem element?_is_outermost (session : FixSession) (problem : Problem)
    (nested : session.tree.root.Nested) (nonempty : problem.start < problem.stop) :
    (session.element? problem = none ↔
      ∀ node ∈ session.tree.root.preorder, ¬problem.HasRange node) ∧
    (∀ node, session.element? problem = some node ↔
      session.tree.root.Outermost problem.Matches node ∨
        (∀ other ∈ session.tree.root.preorder, ¬problem.Matches other) ∧
          session.tree.root.Outermost problem.HasRange node) ∧
    (WellFounded fun below above =>
      Node.StepsDown problem.kind problem.start problem.stop above below) ∧
    ∀ outermost, session.tree.root.Outermost problem.HasRange outermost →
      ∃ last, Relation.ReflTransGen (Node.StepsDown problem.kind problem.start problem.stop)
          outermost last ∧
        (∀ below, ¬Node.StepsDown problem.kind problem.start problem.stop last below) ∧
        session.element? problem = some (if last.kind = problem.kind then last else outermost) := by
  refine ⟨element?_eq_none_iff nested nonempty, ?_, Node.wellFounded_stepsDown _ _ _, ?_⟩
  · intro node
    refine ⟨outermost_of_element? nested nonempty, ?_⟩
    intro denotation
    have inTree : node ∈ session.tree.root.preorder ∧ problem.HasRange node := by
      rcases denotation with matched | ⟨-, ranged⟩
      · exact ⟨matched.inside, matched.own.1⟩
      · exact ⟨ranged.inside, ranged.own⟩
    rcases exists_element?_of_hasRange nested nonempty inTree.1 inTree.2 with ⟨found, denoted⟩
    -- What is denoted is outermost in the same sense, and there is only one such node.
    rcases outermost_of_element? nested nonempty denoted, denotation with
      ⟨foundMatched | ⟨noMatch, foundRanged⟩, matched | ⟨unmatched, ranged⟩⟩
    · rw [denoted, foundMatched.unique matched]
    · exact absurd foundMatched.own (unmatched found foundMatched.inside)
    · exact absurd matched.own (noMatch node matched.inside)
    · rw [denoted, foundRanged.unique ranged]
  · intro outermost ranged
    exact exists_last_of_outermost nested nonempty ranged

/-- A loop around a loop with the same range. -/
def loopChain : Node :=
  { kind := "foreach_statement", start := 6, stop := 38, row := 1
    children := [{ kind := "foreach_statement", start := 6, stop := 38 }] }

/-- The tree of a file in which a statement has the same range as the two loops in it. -/
def chainTree : Tree where
  root :=
    { kind := "program", start := 0, stop := 40
      children :=
        [{ kind := "php_tag", start := 0, stop := 6 },
          { kind := "statement", start := 6, stop := 38, children := [loopChain] }] }
  source := ""

theorem element?_is_outermost_chainTree :
    chainTree.root.Nested ∧ (Problem.ofNode loopChain).start < (Problem.ofNode loopChain).stop ∧
    FixSession.element? ⟨chainTree, []⟩ (Problem.ofNode loopChain) = some loopChain ∧
    chainTree.root.Outermost (Problem.ofNode loopChain).Matches loopChain := by
  have nested : chainTree.root.Nested := by decide +kernel
  have nonempty : (Problem.ofNode loopChain).start < (Problem.ofNode loopChain).stop := by decide
  have denoted : FixSession.element? ⟨chainTree, []⟩ (Problem.ofNode loopChain) =
      some loopChain := by cbv
  have inside : loopChain ∈ chainTree.root.preorder := (element?_sound denoted).1
  refine ⟨nested, nonempty, denoted, ?_⟩
  rcases ((element?_is_outermost ⟨chainTree, []⟩ _ nested nonempty).2.1 loopChain).mp denoted with
    matched | ⟨unmatched, -⟩
  · exact matched
  · exact absurd ⟨rfl, rfl⟩ (unmatched loopChain inside)

end FixSession

end LoopLift
