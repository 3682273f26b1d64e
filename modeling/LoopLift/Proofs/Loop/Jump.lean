import LoopLift.Loop.Jump
import LoopLift.Proofs.Syntax.Preorder

/-!
# Jumps that leave a loop body

The search for a jump goes down a subtree and carries along how many loops it has
entered and whether it has entered a function. Here the same is said of a single jump
and the nodes on the way down to it: no function stands on the way, and the jump leaves
the function, or more loops than stand on the way.
-/

namespace LoopLift

open Syntax

namespace Syntax.Node

/-- The way down from a node to one in its subtree. It passes the nodes above the
target, the outermost one first. -/
inductive Leads : Node → List Node → Node → Prop where
  | here (node : Node) : Leads node [] node
  | down {node child target : Node} {above : List Node} (member : child ∈ node.children)
      (way : Leads child above target) : Leads node (node :: above) target

/-- A way down ends at the node where it starts, or goes on from one of the children. -/
theorem leads_iff {node target : Node} {above : List Node} :
    node.Leads above target ↔
      (above = [] ∧ target = node) ∨
        ∃ child ∈ node.children, ∃ rest, above = node :: rest ∧ child.Leads rest target := by
  constructor
  · intro way
    cases way with
    | here => exact .inl ⟨rfl, rfl⟩
    | down member rest => exact .inr ⟨_, member, _, rfl, rest⟩
  · rintro (⟨rfl, rfl⟩ | ⟨child, member, rest, rfl, way⟩)
    · exact .here _
    · exact .down member way

end Syntax.Node

namespace Jump

/-- Number of loops among the nodes on the way down to a jump. -/
def loopsAmong (above : List Node) : Nat :=
  above.countP fun outer => loopKinds.contains outer.kind

/-- A node in a subtree is a jump that leaves it, when `depth` loops have been entered
before the subtree: no function stands on the way down to the jump, and the jump leaves
the function, or it leaves more loops than have been entered on the way. -/
structure Escaping (source : String) (depth : Nat) (node : Node) (above : List Node)
    (jump : Node) : Prop where
  way : node.Leads above jump
  outside : ∀ outer ∈ above, outer.kind ∉ scopeKinds
  leaves : jump.kind ∈ leavingKinds ∨
    jump.kind ∈ levelKinds ∧ depth + loopsAmong above < levels source jump

theorem anyEscapes_eq (source : String) (depth : Nat) (inScope : Bool) (nodes : List Node) :
    anyEscapes source depth inScope nodes = nodes.any (escapes source depth inScope) := by
  induction nodes with
  | nil => rw [anyEscapes, List.any_nil]
  | cons node rest ih => rw [anyEscapes, List.any_cons, ih]

/-- A node is looked at by itself, and then its children with the loops and the scope
that it opens. -/
theorem escapes_eq (source : String) (depth : Nat) (inScope : Bool) (node : Node) :
    escapes source depth inScope node =
      ((!inScope && leaves source depth node) ||
        node.children.any (escapes source (depthBelow depth node.kind)
          (inScope || scopeKinds.contains node.kind))) := by
  rw [← anyEscapes_eq]
  cases node
  rw [escapes]

theorem leaves_iff {source : String} {depth : Nat} {node : Node} :
    leaves source depth node = true ↔
      node.kind ∈ leavingKinds ∨ node.kind ∈ levelKinds ∧ depth < levels source node := by
  simp only [leaves, Bool.or_eq_true, Bool.and_eq_true, List.contains_iff_mem,
    decide_eq_true_eq]
  exact or_comm

theorem depthBelow_add (depth : Nat) (node : Node) (above : List Node) :
    depthBelow depth node.kind + loopsAmong above = depth + loopsAmong (node :: above) := by
  simp only [depthBelow, loopsAmong, List.countP_cons]
  split <;> omega

/-- Inside a function nothing leaves. -/
theorem escapes_inScope (source : String) (depth : Nat) (node : Node) :
    escapes source depth true node = false := by
  induction node using Node.inductionOnChildren generalizing depth with
  | step node ih =>
      rw [escapes_eq, Bool.not_true, Bool.false_and, Bool.false_or, Bool.true_or,
        List.any_eq_false]
      intro child member
      rw [ih child member]
      exact Bool.false_ne_true

/-- A jump that leaves a subtree is the root of it, or leaves the subtree of a child of
the root, which is no function. -/
theorem exists_escaping_iff {source : String} {depth : Nat} {node : Node} :
    (∃ above jump, Escaping source depth node above jump) ↔
      leaves source depth node = true ∨
        node.kind ∉ scopeKinds ∧ ∃ child ∈ node.children,
          ∃ above jump, Escaping source (depthBelow depth node.kind) child above jump := by
  constructor
  · rintro ⟨above, jump, way, outside, leaving⟩
    rcases Node.leads_iff.mp way with ⟨rfl, rfl⟩ | ⟨child, member, rest, rfl, wayBelow⟩
    · exact .inl (leaves_iff.mpr leaving)
    · rcases List.forall_mem_cons.mp outside with ⟨unscoped, outsideBelow⟩
      rw [← depthBelow_add] at leaving
      exact .inr ⟨unscoped, child, member, rest, jump, wayBelow, outsideBelow, leaving⟩
  · rintro (itself | ⟨unscoped, child, member, above, jump, way, outside, leaving⟩)
    · exact ⟨[], node, .here node, by simp, leaves_iff.mp itself⟩
    · rw [depthBelow_add] at leaving
      exact ⟨node :: above, jump, .down member way,
        List.forall_mem_cons.mpr ⟨unscoped, outside⟩, leaving⟩

/-- The search outside of functions finds a jump exactly when one leaves the subtree. The
search inside of a function finds none. -/
theorem escapes_iff_exists_escaping (source : String) (depth : Nat) (node : Node) :
    (escapes source depth false node = true ↔
      ∃ above jump, Escaping source depth node above jump) ∧
    escapes source depth true node = false := by
  refine ⟨?_, escapes_inScope source depth node⟩
  induction node using Node.inductionOnChildren generalizing depth with
  | step node ih =>
      rw [escapes_eq, exists_escaping_iff, Bool.or_eq_true, Bool.not_false, Bool.true_and,
        Bool.false_or]
      refine or_congr_right ?_
      by_cases scope : node.kind ∈ scopeKinds
      · -- A function hides all jumps below it.
        rw [List.contains_iff_mem.mpr scope]
        simp [escapes_inScope, scope]
      · rw [List.contains_eq_mem, decide_eq_false scope, List.any_eq_true]
        constructor
        · rintro ⟨child, member, found⟩
          exact ⟨scope, child, member, (ih child member _).mp found⟩
        · rintro ⟨-, child, member, escaping⟩
          exact ⟨child, member, (ih child member _).mpr escaping⟩

end Jump

end LoopLift
