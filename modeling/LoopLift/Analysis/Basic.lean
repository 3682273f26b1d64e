import LoopLift.Loop.Inspection
import LoopLift.Path.Basic
import LoopLift.Tally

/-!
# Analysis of source files

What an inspection finds in every file is added up to one result. Problems and
failures stand in the order of the files.
-/

namespace LoopLift

open Syntax

/-- A problem and the file that it is in. -/
structure FileProblem where
  file : Path
  problem : Problem
  deriving Repr, DecidableEq

/-- A file that could not be read, or has syntax errors. -/
structure FileFailure where
  file : Path
  error : String
  deriving Repr, DecidableEq

/-- The counts of an analysis. -/
structure Summary where
  files : Nat := 0
  directories : Nat := 0
  lines : Nat := 0
  loops : Nat := 0
  fixable : Nat := 0
  failures : Nat := 0
  deriving Repr, DecidableEq

/-- The result of an analysis. -/
structure Analysis where
  problems : List FileProblem := []
  failures : List FileFailure := []
  summary : Summary := {}
  deriving Repr, DecidableEq

/-- What one file contributes to an analysis. -/
structure FileOutcome where
  problems : List FileProblem := []
  failure : Option FileFailure := none
  lines : Nat := 0
  loops : Nat := 0
  deriving Repr, DecidableEq

namespace FileOutcome

/-- Inspect the source text of a file. -/
def ofSource (parse : Parser) (file : Path) (source : String) : FileOutcome :=
  let tree := parse source
  { problems := (Inspection.inspect tree).map (⟨file, ·⟩)
    failure := if tree.hasError then some ⟨file, "File contains syntax errors"⟩ else none
    lines := Text.countLines source.toList
    loops := tree.loops.length }

/-- The outcome of a file that could not be read. -/
def unreadable (file : Path) (reason : String) : FileOutcome :=
  { failure := some ⟨file, "Failed to read file: " ++ reason⟩ }

end FileOutcome

namespace Analysis

/-- Add up what the files contribute. -/
def ofOutcomes (outcomes : List FileOutcome) (directories : Nat) : Analysis :=
  let problems := outcomes.flatMap FileOutcome.problems
  let failures := outcomes.filterMap FileOutcome.failure
  { problems, failures
    summary :=
      { files := outcomes.length
        directories
        lines := total (outcomes.map FileOutcome.lines)
        loops := total (outcomes.map FileOutcome.loops)
        fixable := problems.length
        failures := failures.length } }

/-- The analysis of a single source text. -/
def ofSource (parse : Parser) (file : Path) (source : String) : Analysis :=
  ofOutcomes [FileOutcome.ofSource parse file source] 0

end Analysis

end LoopLift
