import LoopLift.Syntax.Node

/-!
# Jumps out of a loop body

A body that moves into a closure must not jump out of it: a `return` or a
`break` would then leave the closure and not the loop.
-/

namespace LoopLift.Jump

open Syntax

/-- Statements that a `break` or `continue` can leave. -/
def loopKinds : List String :=
  ["for_statement", "foreach_statement", "while_statement", "do_statement", "switch_statement"]

/-- Nodes that open a function scope of their own. -/
def scopeKinds : List String :=
  ["anonymous_function", "anonymous_function_creation_expression", "arrow_function",
   "function_definition", "method_declaration", "class_declaration", "anonymous_class"]

/-- Jumps that leave a number of loops. -/
def levelKinds : List String := ["break_statement", "continue_statement"]

/-- Jumps that leave the function. -/
def leavingKinds : List String := ["return_statement", "goto_statement", "yield_expression"]

/-- Largest number of levels that can be told apart. -/
def levelLimit : Nat := Nat.pow 2 64

/-- Value of a row of decimal digits. -/
def digitsValue? (digits : List Char) : Option Nat :=
  if digits.isEmpty || !digits.all Char.isDigit then
    none
  else
    some (digits.foldl (fun value digit => value * 10 + (digit.toNat - '0'.toNat)) 0)

/-- Number of levels written in decimal, with an optional plus sign. Any other
text, and a number that is too large, denotes no level. -/
def levelOfText? (text : String) : Option Nat :=
  let digits := match text.toList with
    | '+' :: digits => digits
    | digits => digits
  (digitsValue? digits).filter fun level => decide (level < levelLimit)

/-- Number of loops that a `break` or `continue` leaves. -/
def levels (source : String) (jump : Node) : Nat :=
  ((jump.namedChildren.find? fun child => child.kind == "integer").bind fun level =>
    levelOfText? (level.text source)).getD 1

/-- Whether a node by itself is a jump out of more than `depth` loops. -/
def leaves (source : String) (depth : Nat) (node : Node) : Bool :=
  (levelKinds.contains node.kind && decide (depth < levels source node)) ||
    leavingKinds.contains node.kind

/-- Loops entered below a node of the given kind. -/
def depthBelow (depth : Nat) (kind : String) : Nat :=
  if loopKinds.contains kind then depth + 1 else depth

mutual

/-- Whether a subtree holds a jump that leaves it, when `depth` loops have been
entered so far. Inside a function scope nothing leaves. -/
def escapes (source : String) (depth : Nat) (inScope : Bool) : Node → Bool
  | ⟨kind, start, stop, row, column, named, error, children⟩ =>
      (!inScope && leaves source depth ⟨kind, start, stop, row, column, named, error, children⟩) ||
        anyEscapes source (depthBelow depth kind) (inScope || scopeKinds.contains kind) children

/-- Whether one of several siblings holds a jump that leaves it. -/
def anyEscapes (source : String) (depth : Nat) (inScope : Bool) : List Node → Bool
  | [] => false
  | node :: rest => escapes source depth inScope node || anyEscapes source depth inScope rest

end

end LoopLift.Jump
