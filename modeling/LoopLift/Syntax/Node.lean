import LoopLift.Text.Bytes

/-!
# Syntax nodes

A concrete syntax tree keeps every token of the source: a node has a kind, the
byte range that it covers, the row and column where it starts, and its children
in source order. Tokens such as punctuation are unnamed nodes whose kind is
their own text. Nodes that stand for something the parser had to skip or to
invent are marked as errors.
-/

namespace LoopLift.Syntax

/-- A node of a concrete syntax tree. Rows and columns count from zero, columns
in bytes. -/
structure Node where
  kind : String
  start : Nat
  stop : Nat
  row : Nat := 0
  column : Nat := 0
  named : Bool := true
  error : Bool := false
  children : List Node := []
  deriving Repr, Inhabited

namespace Node

/-- Kinds of nodes that say nothing about the program: comments and opening
tags. -/
def triviaKinds : List String := ["comment", "php_tag"]

/-- Whether a node is a comment or an opening tag. -/
def isTrivia (node : Node) : Bool :=
  triviaKinds.contains node.kind

/-- Whether a node covers exactly the given byte range. -/
def spans (node : Node) (start stop : Nat) : Bool :=
  node.start == start && node.stop == stop

/-- Whether the byte range of a node holds the given byte range. -/
def covers (node : Node) (start stop : Nat) : Bool :=
  decide (node.start ≤ start) && decide (stop ≤ node.stop)

/-- Source text that a node covers, empty when its range does not denote a piece
of the source. -/
def text (source : String) (node : Node) : String :=
  ((Text.slice? source.toList node.start node.stop).map String.ofList).getD ""

/-- The named children of a node, without comments and tags. -/
def namedChildren (node : Node) : List Node :=
  node.children.filter fun child => child.named && !child.isTrivia

/-- First direct child of a kind. -/
def childOfKind? (kind : String) (node : Node) : Option Node :=
  node.children.find? fun child => child.kind == kind

mutual

/-- Every node of a subtree in pre-order, each with its parent. The root of the
subtree gets the given parent. -/
def walkFrom (parent : Option Node) : Node → List (Node × Option Node)
  | ⟨kind, start, stop, row, column, named, error, children⟩ =>
      (⟨kind, start, stop, row, column, named, error, children⟩, parent) ::
        walkEach (some ⟨kind, start, stop, row, column, named, error, children⟩) children

/-- The walks of several siblings one after the other. -/
def walkEach (parent : Option Node) : List Node → List (Node × Option Node)
  | [] => []
  | node :: rest => walkFrom parent node ++ walkEach parent rest

end

/-- Every node of a subtree in pre-order with its parent inside the subtree. -/
def walk (node : Node) : List (Node × Option Node) :=
  walkFrom none node

/-- Every node of a subtree in pre-order. -/
def preorder (node : Node) : List Node :=
  node.walk.map Prod.fst

/-- All nodes of a kind in pre-order. -/
def findByKind (kind : String) (node : Node) : List Node :=
  node.preorder.filter fun inner => inner.kind == kind

mutual

/-- The outermost node with exactly the given byte range. Children that cannot
hold the range are not searched. -/
def findExact? (start stop : Nat) : Node → Option Node
  | ⟨kind, first, last, row, column, named, error, children⟩ =>
      if first == start && last == stop then
        some ⟨kind, first, last, row, column, named, error, children⟩
      else
        findExactIn? start stop children

/-- The result of the first sibling that has one. -/
def findExactIn? (start stop : Nat) : List Node → Option Node
  | [] => none
  | child :: rest =>
      if child.covers start stop then
        match findExact? start stop child with
        | some found => some found
        | none => findExactIn? start stop rest
      else
        findExactIn? start stop rest

end

mutual

/-- From a node down through the first children that cover exactly the given
range, the first node of a kind. -/
def descendTo? (kind : String) (start stop : Nat) : Node → Option Node
  | ⟨own, first, last, row, column, named, error, children⟩ =>
      if own == kind then
        some ⟨own, first, last, row, column, named, error, children⟩
      else
        descendIn? kind start stop children

/-- The descent continued in the first sibling that covers exactly the given
range. -/
def descendIn? (kind : String) (start stop : Nat) : List Node → Option Node
  | [] => none
  | child :: rest =>
      if child.spans start stop then
        descendTo? kind start stop child
      else
        descendIn? kind start stop rest

end

end Node

end LoopLift.Syntax
