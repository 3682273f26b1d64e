import LoopLift.Loop.Capture

/-!
# The statement that replaces a loop
-/

namespace LoopLift

open Syntax

namespace LoopShape

/-- Names that the closure for a loop captures. -/
def captures (source : String) (shape : LoopShape) : List String :=
  Capture.collect source (shape.ignoredNames source) shape.bodyNodes

end LoopShape

/-- The call that replaces a loop, or none when the loop cannot be rewritten. -/
def replacementText? (source : String) (node : Node) : Option String := do
  let shape ← LoopShape.ofNode? source node
  let body ← shape.body.text?
  let useClause := (Capture.useClause? (shape.captures source)).getD ""
  return "collect(" ++ shape.iterable.text source ++ ")->each(function(" ++
    shape.arguments source ++ ") " ++ useClause ++ " \x7b" ++ body ++ "\x7d);"

end LoopLift
