import LoopLift.Fixing.Plan
import LoopLift.Php.Parser
import LoopLift.Proofs.Loop.Fix

/-!
# Taking problems into a plan

A plan takes problems one after the other. `PlanMove` says all that one problem
can do to a plan, and what is true of the problem in each case. Statements about
plans go through these four cases.
-/

namespace LoopLift

open Syntax

/-- What one problem does to a plan. -/
inductive PlanMove (parse : Parser) (plan : FixPlan) (problem : Problem) : FixPlan → Prop where
  /-- The problem lies inside one that is fixed. -/
  | nested (inside : plan.rewritten.any problem.isNestedIn = true) :
      PlanMove parse plan problem { plan with remaining := plan.remaining + 1 }
  /-- The replacement of the loop is no statement. -/
  | failed {node : Node} {text : String} {error : SynthesisError}
      (outside : plan.rewritten.any problem.isNestedIn = false)
      (found : plan.session.element? problem = some node)
      (replaced : replacementText? plan.session.tree.source node = some text)
      (refused : Statement.ofText parse text = .error error) :
      PlanMove parse plan problem
        { plan with
          declined := plan.declined + 1, steps := plan.steps ++ [.failed problem error] }
  /-- The problem denotes no loop that can be rewritten. -/
  | declined
      (outside : plan.rewritten.any problem.isNestedIn = false)
      (unfit : ∀ node, plan.session.element? problem = some node →
        replacementText? plan.session.tree.source node = none) :
      PlanMove parse plan problem { plan with declined := plan.declined + 1 }
  /-- The loop is rewritten. -/
  | rewritten {node : Node} {text : String} {statement : Statement}
      (outside : plan.rewritten.any problem.isNestedIn = false)
      (found : plan.session.element? problem = some node)
      (replaced : replacementText? plan.session.tree.source node = some text)
      (built : Statement.ofText parse text = .ok statement) :
      PlanMove parse plan problem
        { plan with
          session :=
            { plan.session with
              edits := plan.session.edits ++ [FixSession.loopEdit node statement] }
          rewritten := plan.rewritten ++ [problem]
          steps := plan.steps ++ [.rewritten problem statement.text] }

namespace PlanMove

/-- One problem adds itself to the fixed ones, or leaves them as they are. -/
theorem rewritten_eq {parse : Parser} {plan next : FixPlan} {problem : Problem}
    (move : PlanMove parse plan problem next) :
    next.rewritten = plan.rewritten ∨ next.rewritten = plan.rewritten ++ [problem] := by
  cases move with
  | nested => exact .inl rfl
  | failed => exact .inl rfl
  | declined => exact .inl rfl
  | rewritten => exact .inr rfl

theorem tree_eq {parse : Parser} {plan next : FixPlan} {problem : Problem}
    (move : PlanMove parse plan problem next) : next.session.tree = plan.session.tree := by
  cases move with
  | nested => rfl
  | failed => rfl
  | declined => rfl
  | rewritten => rfl

/-- What is fixed after a problem was fixed before, or it is the problem. -/
theorem mem_rewritten {parse : Parser} {plan next : FixPlan} {problem fixed : Problem}
    (move : PlanMove parse plan problem next) (member : fixed ∈ next.rewritten) :
    fixed ∈ plan.rewritten ∨ fixed = problem := by
  rcases move.rewritten_eq with same | added
  · exact .inl (same ▸ member)
  · rw [added] at member
    rcases List.mem_append.mp member with earlier | last
    · exact .inl earlier
    · exact .inr (List.mem_singleton.mp last)

end PlanMove

namespace FixPlan

/-- Every problem moves a plan in one of the four ways. -/
theorem move_take (parse : Parser) (plan : FixPlan) (problem : Problem) :
    PlanMove parse plan problem (plan.take parse problem) := by
  rw [take]
  cases inside : plan.rewritten.any problem.isNestedIn with
  | true => exact .nested inside
  | false =>
      simp only [Bool.false_eq_true, ↓reduceIte]
      rcases plan.session.fix_cases parse problem with
        ⟨unchanged, unfit⟩ | ⟨node, text, found, replaced, outcome⟩
      · simp only [unchanged, Nat.lt_irrefl, ↓reduceIte]
        exact .declined inside unfit
      · rcases outcome with ⟨error, refused, fixEq⟩ | ⟨statement, built, fixEq⟩
        · simp only [fixEq]
          exact .failed inside found replaced refused
        · simp only [fixEq, List.length_append, List.length_singleton, Nat.lt_succ_self,
            ↓reduceIte, lastReplacement, List.getLast?_concat, Option.map_some, Option.getD_some]
          exact .rewritten inside found replaced built

/-- The problems that a plan fixes are some of those that it took, in their
order. -/
theorem exists_rewritten_foldl (parse : Parser) (problems : List Problem) (plan : FixPlan) :
    ∃ fixed, fixed.Sublist problems ∧
      (problems.foldl (take parse) plan).rewritten = plan.rewritten ++ fixed := by
  induction problems generalizing plan with
  | nil => exact ⟨[], List.Sublist.refl [], by simp⟩
  | cons problem rest ih =>
      rcases ih (plan.take parse problem) with ⟨fixed, part, rewritten⟩
      rcases (plan.move_take parse problem).rewritten_eq with same | added
      · exact ⟨fixed, part.cons problem, by rw [List.foldl_cons, rewritten, same]⟩
      · refine ⟨problem :: fixed, part.cons_cons problem, ?_⟩
        rw [List.foldl_cons, rewritten, added, List.append_assoc]
        rfl

theorem rewritten_sublist (parse : Parser) (tree : Tree) (problems : List Problem) :
    (ofProblems parse tree problems).rewritten.Sublist problems := by
  rcases exists_rewritten_foldl parse problems { session := { tree } } with
    ⟨fixed, part, rewritten⟩
  rw [ofProblems, rewritten]
  exact part

/-- A loop in a loop, without braces, so that both end at the same place. -/
def nestedLoops : String := "<?php foreach ($a as $b) foreach ($b as $c) f();"

/-- A problem with a range of `nestedLoops`. -/
def loopAt (start stop column : Nat) : Problem :=
  ⟨"foreach_statement", start, stop, 1, column, Problem.loopMessage, Problem.loopFixName⟩

end FixPlan

end LoopLift
