import LoopLift.Loop.Shape
import LoopLift.Text.Blank

/-!
# Captured variables

The variables that a closure has to capture are those read in the body of the
loop, in the order in which they first occur.
-/

namespace LoopLift.Capture

open Syntax LoopShape

/-- Parents of a variable that declare it instead of reading it. -/
def declaringKinds : List String :=
  ["simple_parameter", "variadic_parameter", "property_promotion_parameter", "property_element"]

/-- Name that a variable reference reads. A variable with a computed name reads
the name between its braces, or none. -/
def referenceName (source : String) (node : Node) : String :=
  if node.kind == dynamicVariableKind then
    ((node.childOfKind? "name").map fun name => name.text source).getD ""
  else
    bareName source node

/-- Whether a node with the given parent reads a variable. Behind `::` stands
the name of a property. -/
def isReference (node : Node) (parent : Option Node) : Bool :=
  if node.kind == dynamicVariableKind then
    true
  else if node.kind != variableKind then
    false
  else
    match parent with
    | none => true
    | some parent =>
        if declaringKinds.contains parent.kind then
          false
        else if parent.kind == "scoped_property_access_expression" then
          match parent.childOfKind? "::" with
          | none => true
          | some separator => decide (node.start < separator.start)
        else
          true

/-- Whether a name can be captured: it is neither blank nor ignored. -/
def isCapturable (ignored : List String) (name : String) : Bool :=
  !(Text.isBlank name.toList) && !ignored.contains name

/-- Names read under the given nodes, with repetitions, in pre-order. -/
def references (source : String) (roots : List Node) : List String :=
  (roots.flatMap Node.walk).filterMap fun (node, parent) =>
    if isReference node parent then some (referenceName source node) else none

/-- Add a name to those captured so far, unless it is one of them. -/
def record (ignored : List String) (captured : List String) (name : String) : List String :=
  if isCapturable ignored name && !captured.contains name then
    captured ++ [name]
  else
    captured

/-- Names to capture from the given nodes, in the order of first occurrence. -/
def collect (source : String) (ignored : List String) (roots : List Node) : List String :=
  (references source roots).foldl (record ignored) []

/-- The `use` clause for captured names, none when there are no names. -/
def useClause? (captures : List String) : Option String :=
  if captures.isEmpty then
    none
  else
    some ("use (" ++ ", ".intercalate (captures.map ("$" ++ ·)) ++ ")")

end LoopLift.Capture
