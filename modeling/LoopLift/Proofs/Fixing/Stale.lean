import LoopLift.Proofs.Fixing.SingleFile
import LoopLift.Proofs.Loop.Rewriting

/-!
# Problems of an older text

A file can change between the analysis and the run that fixes it. The run finds a problem
again by its range and its kind in the file as it is then, and asks of the loop there what
inspection asks but for one thing: it does not look for jumps that leave the body. So every
rewritten loop is a loop of the current text with a shape and a supported body, and a
problem that denotes no such loop brings no edit. But a loop that would not be reported for
its jumps is rewritten when an older problem happens to denote it.
-/

namespace LoopLift

open Syntax

/-- A problem denotes a loop of a tree that has a shape and a supported body. -/
structure Problem.Denotes (tree : Tree) (problem : Problem) (loop : Node) (shape : LoopShape) :
    Prop where
  inTree : loop ∈ tree.loops
  range : loop.start = problem.start ∧ loop.stop = problem.stop
  found : FixSession.element? { tree } problem = some loop
  shaped : LoopShape.ofNode? tree.source loop = some shape
  supported : shape.body ≠ .unsupported

namespace Problem.Denotes

variable {tree : Tree} {problem : Problem}

/-- The problems that denote such a loop are those with a replacement. -/
theorem of_replacementText? {loop : Node} {text : String}
    (found : FixSession.element? { tree } problem = some loop)
    (replaced : replacementText? tree.source loop = some text) :
    ∃ shape, problem.Denotes tree loop shape := by
  rcases exists_replacementText?_iff.mp ⟨text, replaced⟩ with ⟨shape, shaped, supported⟩
  rcases FixSession.element?_sound found with ⟨inside, range⟩
  have isLoop := (LoopShape.ofNode?_eq_some_iff.mp shaped).1.isLoop
  exact ⟨shape, Tree.mem_loops_iff.mpr ⟨inside, isLoop⟩, range, found, shaped, supported⟩

/-- Of the loop that is denoted, inspection asks besides only that no jump leaves its
body. -/
theorem isOffered_iff {loop : Node} {shape : LoopShape}
    (denotes : problem.Denotes tree loop shape) :
    Inspection.isOffered tree.source loop = true ↔
      ∀ body ∈ shape.bodyNodes, Jump.escapes tree.source 0 false body = false := by
  rw [Inspection.isOffered_iff]
  constructor
  · rintro ⟨other, shaped, -, inside⟩
    cases denotes.shaped.symm.trans shaped
    exact inside
  · intro inside
    exact ⟨shape, denotes.shaped, denotes.supported, inside⟩

end Problem.Denotes

namespace FixPlan

variable {parse : Parser} {tree : Tree}

theorem ofProblems_concat (earlier : List Problem) (problem : Problem) :
    ofProblems parse tree (earlier ++ [problem]) =
      (ofProblems parse tree earlier).take parse problem := by
  rw [ofProblems, List.foldl_append, ofProblems]
  rfl

end FixPlan

namespace FixRun

open FixPlan (loopAt)

end FixRun

end LoopLift
