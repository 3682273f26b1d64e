import LoopLift.Loop.Jump
import LoopLift.Loop.Shape
import LoopLift.Loop.Suppression

/-!
# Inspection

Finds the loops of a tree that can be rewritten and describes each as a
problem.
-/

namespace LoopLift

open Syntax

/-- A problem on one node of a tree. Lines and columns count from one, columns
in bytes. -/
structure Problem where
  kind : String
  start : Nat
  stop : Nat
  line : Nat := 1
  column : Nat := 1
  message : String
  fixName : String
  deriving Repr, DecidableEq, Inhabited

namespace Problem

/-- Message of every reported loop. -/
def loopMessage : String := "foreach can be refactored to a collection"

/-- Name of the fix that is offered. -/
def loopFixName : String := "Refactor foreach to collection"

/-- The problem that a loop node has. -/
def ofNode (node : Node) : Problem where
  kind := node.kind
  start := node.start
  stop := node.stop
  line := node.row + 1
  column := node.column + 1
  message := loopMessage
  fixName := loopFixName

/-- Whether a problem lies inside another one with a larger range. -/
def isNestedIn (inner outer : Problem) : Bool :=
  decide (outer.start ≤ inner.start) && decide (inner.stop ≤ outer.stop) &&
    !(outer.start == inner.start && outer.stop == inner.stop)

end Problem

namespace Inspection

/-- Whether a rewriting is offered for a node: it is a loop with a supported
body, and no jump leaves the body. -/
def isOffered (source : String) (node : Node) : Bool :=
  match LoopShape.ofNode? source node with
  | none => false
  | some shape =>
      shape.body != .unsupported && !shape.bodyNodes.any (Jump.escapes source 0 false)

/-- The problems of a tree, outer loops before those inside. -/
def inspect (tree : Tree) : List Problem :=
  let lines := Text.lines tree.source.toList
  (tree.loops.filter fun loop =>
    isOffered tree.source loop && !Suppression.isSuppressed lines loop).map Problem.ofNode

end Inspection

end LoopLift
