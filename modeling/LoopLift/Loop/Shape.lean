import LoopLift.Syntax.Tree

/-!
# The shape of a loop

The parts of a `foreach` loop that a rewriting needs: what is iterated, the
variables that are bound, and the statements of the body. Only loops that bind
plain variables have a shape.
-/

namespace LoopLift

open Syntax

/-- Body of a loop. -/
inductive LoopBody where
  /-- `{ ... }` or `: ... endforeach;`, with the text of each statement. -/
  | block (statements : List String)
  /-- One statement without braces. -/
  | single (statement : String)
  /-- No body, an empty one, or one that leaves the program text. -/
  | unsupported
  deriving Repr, DecidableEq

/-- Text of a supported body, a line per statement. -/
def LoopBody.text? : LoopBody → Option String
  | .block statements => some ("\n".intercalate statements)
  | .single statement => some statement
  | .unsupported => none

/-- The parts of a loop. `bodyNodes` are the nodes of the body in source
order. -/
structure LoopShape where
  iterable : Node
  key : Option Node
  value : Node
  bodyNodes : List Node
  body : LoopBody

namespace LoopShape

/-- Kind of a plain variable. -/
def variableKind : String := "variable_name"

/-- Kind of a variable whose name is computed. -/
def dynamicVariableKind : String := "dynamic_variable_name"

/-- Kind of text between a closing tag and the next opening tag. -/
def inlineTextKind : String := "text_interpolation"

/-- Kinds of nodes that hold the statements of a body. -/
def blockKinds : List String := ["compound_statement", "colon_block"]

/-- Whether a child ends the loop written with `:`. -/
def endsLoop (child : Node) : Bool :=
  child.kind.map Char.toLower == "endforeach"

/-- Whether a child is part of the loop proper. -/
def isPart (child : Node) : Bool :=
  child.named && !child.isTrivia

/-- The named children of a loop before its end keyword, without comments. -/
def parts (node : Node) : List Node :=
  (node.children.takeWhile fun child => !endsLoop child).filter isPart

/-- Key and value bound by a loop, when both are plain variables. -/
def binding? (binding : Node) : Option (Option Node × Node) :=
  if binding.kind == variableKind then
    some (none, binding)
  else if binding.kind == "pair" then
    match binding.namedChildren with
    | key :: value :: _ =>
        if key.kind == variableKind && value.kind == variableKind then
          some (some key, value)
        else
          none
    | _ => none
  else
    none

/-- Whether a body leaves the program text between its statements. -/
def hasInlineText (bodyNodes : List Node) : Bool :=
  bodyNodes.any fun node =>
    node.kind == inlineTextKind ||
      (blockKinds.contains node.kind &&
        node.children.any fun child => child.kind == inlineTextKind)

/-- Body made of one node: a block gives its statements, and an empty statement
is no body. -/
def bodyOf (source : String) : List Node → LoopBody
  | [node] =>
      if blockKinds.contains node.kind then
        .block (node.namedChildren.map fun statement => statement.text source)
      else if node.kind == "empty_statement" then
        .unsupported
      else
        .single (node.text source)
  | _ => .unsupported

/-- Body of a loop. With `:` as a child of the loop itself, each node is a
statement. -/
def classify (source : String) (alternative : Bool) (bodyNodes : List Node) : LoopBody :=
  if hasInlineText bodyNodes then
    .unsupported
  else if alternative then
    .block (bodyNodes.map fun node => node.text source)
  else
    bodyOf source bodyNodes

/-- The shape of a loop. A node that is no loop, has an error among its children
or binds anything but plain variables has none. -/
def ofNode? (source : String) (node : Node) : Option LoopShape :=
  if node.kind != Tree.loopKind || node.children.any Node.error then
    none
  else
    match parts node with
    | iterable :: binding :: bodyNodes =>
        (binding? binding).map fun (key, value) =>
          { iterable, key, value, bodyNodes
            body := classify source (node.children.any fun child => child.kind == ":") bodyNodes }
    | _ => none

/-- Name of a variable without its sigil. -/
def bareName (source : String) (node : Node) : String :=
  let text := ((node.childOfKind? "name").getD node).text source
  String.ofList (text.toList.dropWhile (· == '$'))

/-- Parameters of the closure: the value, then the key. -/
def arguments (source : String) (shape : LoopShape) : String :=
  match shape.key with
  | some key => shape.value.text source ++ ", " ++ key.text source
  | none => shape.value.text source

/-- Name of the implicit receiver. -/
def receiverName : String := "this"

/-- Names that the closure never captures: the variables of the loop and the
receiver. -/
def ignoredNames (source : String) (shape : LoopShape) : List String :=
  (shape.key.toList ++ [shape.value]).map (bareName source) ++ [receiverName]

end LoopShape

end LoopLift
