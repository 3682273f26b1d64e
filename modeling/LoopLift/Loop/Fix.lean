import LoopLift.Edit.Verified
import LoopLift.Loop.Inspection
import LoopLift.Loop.Replacement

/-!
# Fixing reported loops

A session collects the edits for one tree. A problem is found again in the tree
by its range, and a loop that can be rewritten gives one edit. A problem that
does not denote such a loop gives none.
-/

namespace LoopLift

open Syntax

/-- A statement built from text. -/
structure Statement where
  kind : String
  text : String
  deriving Repr, DecidableEq

/-- A replacement that is not exactly one well-formed statement. -/
structure SynthesisError where
  text : String
  deriving Repr, DecidableEq

/-- The wording of the failure. -/
def SynthesisError.message (failure : SynthesisError) : String :=
  "Synthesized replacement is not a valid PHP statement: " ++ failure.text

/-- Build a statement from text. -/
def Statement.ofText (parse : Parser) (text : String) : Except SynthesisError Statement :=
  match parseStatement parse text with
  | .ok (tree, statement) => .ok ⟨statement.kind, tree.text statement⟩
  | .error failure => .error ⟨failure.text⟩

/-- The edits collected for a tree, in the order in which they were made. -/
structure FixSession where
  tree : Tree
  edits : List Edit := []

namespace FixSession

/-- The node that a problem denotes: the outermost node with its range, or the
first node of its kind below that has the same range. -/
def element? (session : FixSession) (problem : Problem) : Option Node :=
  (session.tree.root.findExact? problem.start problem.stop).map fun outermost =>
    (outermost.descendTo? problem.kind problem.start problem.stop).getD outermost

/-- Record the replacement of a node. -/
def replace (session : FixSession) (node : Node) (statement : Statement)
    (description : String) : FixSession :=
  { session with
    edits := session.edits ++
      [{ start := node.start, stop := node.stop
         replacement := statement.text, description := some description }] }

/-- Record the rewriting of the loop that a problem denotes. Without such a loop
the session stays as it is. -/
def fix (parse : Parser) (session : FixSession) (problem : Problem) :
    Except SynthesisError FixSession :=
  match session.element? problem with
  | none => .ok session
  | some node =>
      match replacementText? session.tree.source node with
      | none => .ok session
      | some text => do
          let statement ← Statement.ofText parse text
          return session.replace node statement Problem.loopFixName

/-- Carry out the recorded edits. -/
def apply (session : FixSession) : Except EditError String :=
  Edit.apply session.tree.source session.edits

/-- Carry out the recorded edits and verify the result. -/
def applyVerified (parse : Parser) (session : FixSession) : Except EditError String :=
  Edit.applyVerified parse session.tree.source session.edits

end FixSession

end LoopLift
