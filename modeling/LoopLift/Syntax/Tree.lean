import LoopLift.Syntax.Node

/-!
# Syntax trees

A parsed source file, and the parsing of single statements. The functions of
this library that need a parser take it as an argument, so that what they
promise holds for every parser.
-/

namespace LoopLift.Syntax

/-- A parsed source text. `hasError` says whether the parser had to recover from
a syntax error anywhere. -/
structure Tree where
  root : Node
  source : String
  hasError : Bool := false
  deriving Repr, Inhabited

/-- A parser: every text has a tree. -/
abbrev Parser := String → Tree

namespace Tree

/-- Source text of a node of the tree. -/
def text (tree : Tree) (node : Node) : String :=
  node.text tree.source

/-- Node kind of a `foreach` loop. -/
def loopKind : String := "foreach_statement"

/-- All `foreach` loops of the tree, outer ones before those inside. -/
def loops (tree : Tree) : List Node :=
  tree.root.findByKind loopKind

/-- Top level statements of the tree. -/
def statements (tree : Tree) : List Node :=
  tree.root.namedChildren

/-- The statement of a tree that has exactly one. -/
def statement? (tree : Tree) : Option Node :=
  match tree.statements with
  | [statement] => some statement
  | _ => none

end Tree

/-- What goes before a bare statement to make it a source file. -/
def snippetOpening : String := "<?php\n"

/-- A text that is not exactly one well-formed statement. -/
structure NotAStatement where
  text : String
  deriving Repr, DecidableEq

/-- The wording of the failure. -/
def NotAStatement.message (failure : NotAStatement) : String :=
  "Not a single PHP statement: " ++ failure.text

/-- Parse a bare statement without opening tag. The tree is that of the text
behind an opening tag, and it has exactly one statement and no error. -/
def parseStatement (parse : Parser) (text : String) : Except NotAStatement (Tree × Node) :=
  let tree := parse (snippetOpening ++ text)
  match tree.hasError, tree.statement? with
  | false, some statement => .ok (tree, statement)
  | _, _ => .error ⟨text⟩

end LoopLift.Syntax
