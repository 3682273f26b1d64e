import LoopLift.Php.Parser
import LoopLift.Proofs.Loop.Alike

/-!
# Errors inside a loop

A loop with an error among its children has no shape. Errors further below are not looked
for: such a loop is taken for the same loop without any error, so that it can be reported
although part of it could not be read.
-/

namespace LoopLift

open Syntax

namespace Syntax.Node

mutual

/-- A subtree in which no node is marked as an error any more. -/
def withoutErrors : Node → Node
  | ⟨kind, start, stop, row, column, named, _, children⟩ =>
      ⟨kind, start, stop, row, column, named, false, eachWithoutErrors children⟩

/-- Siblings in which no node is marked as an error any more. -/
def eachWithoutErrors : List Node → List Node
  | [] => []
  | node :: rest => withoutErrors node :: eachWithoutErrors rest

end

theorem children_withoutErrors (node : Node) :
    node.withoutErrors.children = node.children.map withoutErrors := by
  have each : ∀ nodes : List Node, eachWithoutErrors nodes = nodes.map withoutErrors := by
    intro nodes
    induction nodes with
    | nil => rw [eachWithoutErrors, List.map_nil]
    | cons node rest ih => rw [eachWithoutErrors, List.map_cons, ih]
  cases node
  rw [withoutErrors, each]

@[simp] theorem error_withoutErrors (node : Node) : node.withoutErrors.error = false := by
  cases node
  rw [withoutErrors]

theorem error_eq_false_of_mem_preorder {node inner : Node}
    (inside : inner ∈ node.withoutErrors.preorder) : inner.error = false := by
  induction node using inductionOnChildren with
  | step node ih =>
      rcases mem_preorder_iff.mp inside with rfl | ⟨child, member, below⟩
      · exact error_withoutErrors node
      · rw [children_withoutErrors] at member
        rcases List.mem_map.mp member with ⟨own, ownMember, rfl⟩
        exact ih own ownMember below

/-- Without its errors a subtree reads as before. -/
theorem alike_withoutErrors (source : String) (node : Node) :
    Alike source source 0 node node.withoutErrors := by
  induction node using inductionOnChildren with
  | step node ih =>
      have children : List.Forall₂ (Alike source source 0) node.children
          node.withoutErrors.children := by
        rw [children_withoutErrors, List.forall₂_map_right_iff, List.forall₂_same]
        exact ih
      cases node
      rw [withoutErrors] at children ⊢
      exact .intro rfl rfl rfl (Int.add_zero _).symm children

theorem any_error_withoutErrors (node : Node) :
    node.withoutErrors.children.any error = false := by
  rw [children_withoutErrors, List.any_map, List.any_eq_false]
  intro child _
  simp

end Syntax.Node

namespace LoopShape

/-- A loop without a shape has an error among its children, or it would have none without
its errors either. -/
theorem ofNode?_eq_none_iff_withoutErrors {source : String} {loop : Node} :
    ofNode? source loop = none ↔
      (∃ child ∈ loop.children, child.error = true) ∨
        ofNode? source loop.withoutErrors = none := by
  cases errors : loop.children.any Node.error with
  | true =>
      have refused : ofNode? source loop = none := by
        rw [ofNode?, errors, Bool.or_true, if_pos rfl]
      simp [refused, List.any_eq_true.mp errors]
  | false =>
      have sound : ¬∃ child ∈ loop.children, child.error = true := by simpa using errors
      have shapes := ofNode?_alike (loop.alike_withoutErrors source)
        (loop.any_error_withoutErrors.trans errors.symm)
      rw [or_iff_right sound]
      generalize ofNode? source loop = own at shapes ⊢
      generalize ofNode? source loop.withoutErrors = others at shapes ⊢
      cases shapes with
      | none => exact Iff.rfl
      | some same => simp

end LoopShape

/-- A loop is offered when it has no error among its children and would be offered without
its errors. -/
theorem Inspection.isOffered_iff_withoutErrors {source : String} {loop : Node} :
    isOffered source loop = true ↔
      (∀ child ∈ loop.children, child.error = false) ∧
        isOffered source loop.withoutErrors = true := by
  cases errors : loop.children.any Node.error with
  | true =>
      rcases List.any_eq_true.mp errors with ⟨child, member, broken⟩
      have shapeless : LoopShape.ofNode? source loop = none :=
        LoopShape.ofNode?_eq_none_iff_withoutErrors.mpr (.inl ⟨child, member, broken⟩)
      have refused : isOffered source loop = false := by rw [isOffered, shapeless]
      rw [refused]
      constructor
      · intro offered
        cases offered
      · intro offered
        rw [offered.1 child member] at broken
        cases broken
  | false =>
      have sound : ∀ child ∈ loop.children, child.error = false := by simpa using errors
      rw [isOffered_alike (loop.alike_withoutErrors source)
        (loop.any_error_withoutErrors.trans errors.symm)]
      exact (and_iff_right sound).symm

/-- An error keeps a loop from having a shape, and so from being reported, exactly when it
stands among the children of the loop. All other errors of the loop go unseen: it has a
shape, and is reported, as the loop without errors is. -/
theorem errors_count_among_children_alone (tree : Tree) :
    (∀ loop, LoopShape.ofNode? tree.source loop = none ↔
      (∃ child ∈ loop.children, child.error = true) ∨
        LoopShape.ofNode? tree.source loop.withoutErrors = none) ∧
    (∀ loop : Node, ∀ inner ∈ loop.withoutErrors.preorder, inner.error = false) ∧
    ∀ problem, problem ∈ Inspection.inspect tree ↔
      ∃ loop ∈ tree.loops, (∀ child ∈ loop.children, child.error = false) ∧
        Inspection.isOffered tree.source loop.withoutErrors = true ∧
        Suppression.isSuppressed (Text.lines tree.source.toList) loop = false ∧
        problem = Problem.ofNode loop := by
  refine ⟨fun _ => LoopShape.ofNode?_eq_none_iff_withoutErrors,
    fun _ _ => Node.error_eq_false_of_mem_preorder, ?_⟩
  intro problem
  rw [Inspection.mem_inspect_iff]
  refine exists_congr fun loop => and_congr_right fun _ => ?_
  rw [@Inspection.isOffered_iff_withoutErrors tree.source loop, and_assoc]

/-- A loop with an unfinished call in its block. -/
def brokenCall : String := "<?php foreach ($a as $b) \x7b foo(; \x7d"

set_option maxRecDepth 100000 in
/-- A loop can be reported with an error inside of it: the unfinished call is an error below
the block of the loop, and the loop has a shape all the same. -/
theorem loop_with_error_is_reported :
    ∃ loop ∈ (Php.parse brokenCall).loops, (∃ inner ∈ loop.preorder, inner.error = true) ∧
      (LoopShape.ofNode? (Php.parse brokenCall).source loop).isSome = true ∧
      Problem.ofNode loop ∈ Inspection.inspect (Php.parse brokenCall) := by
  decide +kernel

end LoopLift
