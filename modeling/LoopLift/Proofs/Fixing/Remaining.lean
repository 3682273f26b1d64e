import LoopLift.Proofs.Fixing.Stale
import LoopLift.Proofs.Loop.Verbatim

/-!
# Problems that remain

A plan counts a problem as remaining when it lies inside a fixed one. Its loop is then not
lost: the replacement of a loop carries the loops inside over as they are, so the text of
the remaining loop stands in the edit of the loop around it, where a later run finds it.
-/

namespace LoopLift

open Syntax

/-- Statements that are built from replacements of loops span the whole replacement. -/
def Syntax.Tree.RewrittenWhole (parse : Parser) (tree : Tree) : Prop :=
  ∀ loop ∈ tree.loops, ∀ replacement ∈ replacementText? tree.source loop,
    ∀ statement ∈ (Statement.ofText parse replacement).toOption, statement.text = replacement

instance (parse : Parser) (tree : Tree) : Decidable (tree.RewrittenWhole parse) :=
  inferInstanceAs (Decidable (∀ loop ∈ tree.loops, _))

/-- A loop below another one is kept when that one is rewritten. -/
structure Syntax.Tree.NestedLoopsKept (parse : Parser) (tree : Tree) : Prop where
  /-- The text of a loop below another one stands in the replacement of that one. -/
  verbatim : ∀ loop ∈ tree.loops, ∀ text, replacementText? tree.source loop = some text →
    ∀ inner ∈ loop.children.flatMap Node.loops,
      (inner.text tree.source).toList <:+: text.toList
  /-- Loops below another one that stand one behind the other in the source stand at
  disjoint places of its replacement, in the same order. -/
  inOrder : ∀ loop ∈ tree.loops, ∀ text, replacementText? tree.source loop = some text →
    ∀ inners : List Node, (∀ inner ∈ inners, inner ∈ loop.children.flatMap Node.loops) →
      InSourceOrder inners → TextsStand tree.source inners text.toList
  /-- A problem that is counted as remaining at its turn lies inside a fixed one. The text of
  its loop stands in the edit of every fixed problem around it. -/
  remaining : tree.RewrittenWhole parse → ∀ earlier problem later,
    (FixPlan.ofProblems parse tree (earlier ++ [problem])).remaining =
      (FixPlan.ofProblems parse tree earlier).remaining + 1 →
    let plan := FixPlan.ofProblems parse tree (earlier ++ problem :: later)
    (∃ outer ∈ plan.rewritten, problem.isNestedIn outer = true) ∧
    ∀ outer ∈ plan.rewritten, problem.isNestedIn outer = true →
      ∃ edit ∈ plan.session.edits, Renders parse tree outer edit ∧
        ∀ loop ∈ tree.loops, loop.start = problem.start → loop.stop = problem.stop →
          (loop.text tree.source).toList <:+: edit.replacement.toList

/-- Just the problems inside fixed ones are counted as remaining. -/
theorem FixPlan.remaining_take_iff {parse : Parser} {plan : FixPlan} {problem : Problem} :
    (plan.take parse problem).remaining = plan.remaining + 1 ↔
      plan.rewritten.any problem.isNestedIn = true := by
  constructor
  · intro counted
    have move := plan.move_take parse problem
    generalize plan.take parse problem = next at move counted
    cases move with
    | nested inside => exact inside
    | failed => exact absurd counted (Nat.ne_of_lt (Nat.lt_succ_self _))
    | declined => exact absurd counted (Nat.ne_of_lt (Nat.lt_succ_self _))
    | rewritten => exact absurd counted (Nat.ne_of_lt (Nat.lt_succ_self _))
  · intro inside
    rw [take, if_pos inside]

/-- What is fixed after some problems stays fixed when more of them are taken. -/
theorem FixPlan.mem_rewritten_append {parse : Parser} {tree : Tree} {earlier later : List Problem}
    {fixed : Problem} (member : fixed ∈ (ofProblems parse tree earlier).rewritten) :
    fixed ∈ (ofProblems parse tree (earlier ++ later)).rewritten := by
  rcases exists_rewritten_foldl parse later (ofProblems parse tree earlier) with
    ⟨added, -, rewritten⟩
  rw [ofProblems, List.foldl_append, ← ofProblems, rewritten]
  exact List.mem_append_left added member

namespace Syntax.Tree.WellFormed

variable {tree : Tree}

/-- A node without bytes has no text. -/
theorem text_eq_nil (formed : tree.WellFormed) {node : Node} (inside : node ∈ tree.root.preorder)
    (empty : node.stop ≤ node.start) : (node.text tree.source).toList = [] := by
  rcases Text.slice?_eq_some_iff.mp (formed.slice?_eq inside) with ⟨before, after, -, -, stopEq⟩
  exact Text.eq_nil_of_byteLength_eq_zero (by omega)

/-- The text of a loop with the range of a problem stands in the replacement of the loop of
every problem around it. -/
theorem infix_replacement (formed : tree.WellFormed) (placed : tree.LoopsInParts)
    {problem outer : Problem} {around loop : Node} {text : String}
    (inside : problem.isNestedIn outer = true)
    (found : FixSession.element? { tree } outer = some around)
    (replaced : replacementText? tree.source around = some text) (member : loop ∈ tree.loops)
    (starts : loop.start = problem.start) (stops : loop.stop = problem.stop) :
    (loop.text tree.source).toList <:+: text.toList := by
  rcases Problem.Denotes.of_replacementText? found replaced with ⟨shape, denotes⟩
  have loopInTree := (Tree.mem_loops_iff.mp member).1
  have aroundInTree := (Tree.mem_loops_iff.mp denotes.inTree).1
  by_cases nonempty : loop.start < loop.stop
  · rcases Problem.isNestedIn_iff.mp inside with ⟨startLe, stopLe, different⟩
    rcases denotes.range with ⟨aroundStart, aroundStop⟩
    have within : loop.Within around := ⟨by omega, by omega⟩
    have wider : ¬around.Within loop := by
      intro covered
      rcases covered with ⟨startGe, stopGe⟩
      apply different
      rw [Problem.range, Problem.range, Prod.mk.injEq]
      omega
    rcases formed.nested.exists_child_of_within loopInTree aroundInTree nonempty within wider with
      ⟨child, ofAround, inChild⟩
    have below : loop ∈ around.children.flatMap Node.loops :=
      List.mem_flatMap.mpr
        ⟨child, ofAround, Node.mem_loops_iff.mpr ⟨inChild, (Tree.mem_loops_iff.mp member).2⟩⟩
    exact formed.infix_of_mem_loops placed denotes.inTree replaced below
  · rw [formed.text_eq_nil loopInTree (Nat.not_lt.mp nonempty)]
    exact List.nil_infix

end Syntax.Tree.WellFormed

/-- In a tree whose loops stand in the parts of loops that are carried over, rewriting a loop
keeps the loops below it. -/
theorem nested_loops_are_kept (parse : Parser) (tree : Tree) (formed : tree.WellFormed)
    (placed : tree.LoopsInParts) : tree.NestedLoopsKept parse where
  verbatim := by
    intro loop member text replaced inner below
    exact formed.infix_of_mem_loops placed member replaced below
  inOrder := by
    intro loop member text replaced inners below ordered
    exact formed.textsStand_loops placed member replaced below ordered
  remaining := by
    intro whole earlier problem later counted
    rw [FixPlan.ofProblems_concat, FixPlan.remaining_take_iff, List.any_eq_true] at counted
    constructor
    · rcases counted with ⟨outer, fixed, inside⟩
      exact ⟨outer, FixPlan.mem_rewritten_append fixed, inside⟩
    · intro outer fixed inside
      rcases (FixPlan.Traced.ofProblems parse tree _).edit outer fixed with
        ⟨edit, recorded, renders⟩
      refine ⟨edit, recorded, renders, ?_⟩
      intro loop member starts stops
      rcases renders with ⟨around, text, statement, found, replaced, built, rfl⟩
      rcases Problem.Denotes.of_replacementText? found replaced with ⟨shape, denotes⟩
      have spansAll : statement.text = text :=
        whole around denotes.inTree text replaced statement (by rw [built]; rfl)
      rw [FixSession.loopEdit, spansAll]
      exact formed.infix_replacement placed inside found replaced member starts stops

open FixPlan (loopAt)

/-- Two loops in the block of a loop. The second one is not offered, as it has no body. -/
def loopsInBlock : String :=
  "<?php foreach(1as$b)\x7bforeach(1as$b)1;foreach(1as$b);\x7d"

set_option maxRecDepth 100000 in
/-- What is evaluated of the text, at once so that it is parsed once. -/
theorem loopsInBlock_plan :
    (Php.parse loopsInBlock).WellFormed ∧ (Php.parse loopsInBlock).LoopsInParts ∧
    (Php.parse loopsInBlock).RewrittenWhole Php.parse ∧
    (Php.parse loopsInBlock).loops.length = 3 ∧
    Inspection.inspect (Php.parse loopsInBlock) = [loopAt 6 53 7, loopAt 21 37 22] ∧
    (FixPlan.ofProblems Php.parse (Php.parse loopsInBlock) [loopAt 6 53 7]).rewritten =
      [loopAt 6 53 7] := by
  decide +kernel

theorem nested_loops_are_kept_loopsInBlock :
    (Php.parse loopsInBlock).WellFormed ∧ (Php.parse loopsInBlock).LoopsInParts ∧
    (Php.parse loopsInBlock).RewrittenWhole Php.parse ∧
    (Php.parse loopsInBlock).loops.length = 3 ∧
    Inspection.inspect (Php.parse loopsInBlock) = [loopAt 6 53 7, loopAt 21 37 22] ∧
    (Php.parse loopsInBlock).NestedLoopsKept Php.parse ∧
    ∃ outer ∈ (FixPlan.ofProblems Php.parse (Php.parse loopsInBlock)
        [loopAt 6 53 7, loopAt 21 37 22]).rewritten,
      (loopAt 21 37 22).isNestedIn outer = true := by
  rcases loopsInBlock_plan with ⟨formed, placed, whole, three, inspected, fixed⟩
  have kept := nested_loops_are_kept Php.parse (Php.parse loopsInBlock) formed placed
  have nested : [loopAt 6 53 7].any (loopAt 21 37 22).isNestedIn = true := by decide
  rw [← fixed, ← FixPlan.remaining_take_iff, ← FixPlan.ofProblems_concat] at nested
  have remains := kept.remaining whole [loopAt 6 53 7] (loopAt 21 37 22) [] nested
  exact ⟨formed, placed, whole, three, inspected, kept, remains.1⟩

end LoopLift
