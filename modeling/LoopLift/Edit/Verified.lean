import LoopLift.Edit.Basic
import LoopLift.Syntax.Tree

/-!
# Edits that keep a source well-formed

A source without syntax errors must have none after editing. A source that has
errors already is not held to more than it was.
-/

namespace LoopLift.Edit

/-- Carry out edits and refuse the result when it has syntax errors that the
source had not. -/
def applyVerified (parse : Syntax.Parser) (source : String) (edits : List Edit) :
    Except EditError String := do
  let edited ← apply source edits
  if !(parse source).hasError && (parse edited).hasError then
    throw .unparsable
  return edited

end LoopLift.Edit
