import LoopLift.Analysis.Basic
import LoopLift.Loop.Fix

/-!
# Planning the fixes of a file

The problems of a file are taken from the outside in. A loop inside one that is
rewritten stays for a later run, and a problem that no longer denotes a loop
that can be rewritten is declined.
-/

namespace LoopLift

open Syntax

/-- What became of one problem, as far as a reader should know. -/
inductive PlanStep where
  | failed (problem : Problem) (error : SynthesisError)
  | rewritten (problem : Problem) (replacement : String)
  deriving Repr, DecidableEq

/-- The fixes of a file. -/
structure FixPlan where
  session : FixSession
  /-- The problems that are fixed. -/
  rewritten : List Problem := []
  /-- Number of problems inside those that are fixed. -/
  remaining : Nat := 0
  /-- Number of problems that cannot be fixed. -/
  declined : Nat := 0
  steps : List PlanStep := []

namespace FixPlan

/-- The replacement that was recorded last. -/
def lastReplacement (session : FixSession) : String :=
  (session.edits.getLast?.map Edit.replacement).getD ""

/-- Take one more problem into a plan. -/
def take (parse : Parser) (plan : FixPlan) (problem : Problem) : FixPlan :=
  if plan.rewritten.any problem.isNestedIn then
    { plan with remaining := plan.remaining + 1 }
  else
    match plan.session.fix parse problem with
    | .error error =>
        { plan with
          declined := plan.declined + 1, steps := plan.steps ++ [.failed problem error] }
    | .ok session =>
        if plan.session.edits.length < session.edits.length then
          { plan with
            session
            rewritten := plan.rewritten ++ [problem]
            steps := plan.steps ++ [.rewritten problem (lastReplacement session)] }
        else
          { plan with session, declined := plan.declined + 1 }

/-- Plan the fixes of the problems of a tree. -/
def ofProblems (parse : Parser) (tree : Tree) (problems : List Problem) : FixPlan :=
  problems.foldl (take parse) { session := { tree } }

end FixPlan

/-- The problems of one file, the outer ones first. -/
structure FileProblems where
  file : Path
  problems : List Problem
  deriving Repr, DecidableEq

namespace FileProblems

/-- Whether a problem does not stand behind another one: it starts earlier, or it
starts at the same place and does not end earlier. -/
def comesFirst (left right : Problem) : Bool :=
  decide (left.start < right.start) ||
    (left.start == right.start && decide (right.stop ≤ left.stop))

/-- Put neighbours that are in the same file together. -/
def grouped : List FileProblem → List (Path × List Problem)
  | [] => []
  | ⟨file, problem⟩ :: rest =>
      match grouped rest with
      | (next, problems) :: groups =>
          if next.same file then (file, problem :: problems) :: groups
          else (file, [problem]) :: (next, problems) :: groups
      | [] => [(file, [problem])]

/-- The problems of an analysis, file by file in the order of their paths. -/
def ofProblems (problems : List FileProblem) : List FileProblems :=
  (grouped (problems.mergeSort fun left right => left.file.isBefore right.file)).map
    fun (file, problems) => ⟨file, problems.mergeSort comesFirst⟩

end FileProblems

end LoopLift
