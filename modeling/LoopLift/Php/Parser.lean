import LoopLift.Php.Statement
import LoopLift.Syntax.Tree

/-!
# Parsing source files

The grammar refers to itself through its nonterminals. Here the circle is closed
with a bound on the depth, which the length of the source gives.
-/

namespace LoopLift.Php

open Syntax Rule

/-- The rule for a nonterminal in terms of a grammar for what it refers to. -/
def unfold (grammar : Grammar) : Nonterminal → Rule
  | .statement => statement grammar
  | .expression level => expression grammar (bodies grammar) (classes grammar) level false
  | .element => expression grammar (bodies grammar) (classes grammar) 0 true
  | .expressions => expressions grammar
  | .unary => unary grammar (bodies grammar) (classes grammar)
  | .primary => primary grammar (bodies grammar) (classes grammar)
  | .assignable => assignable grammar (bodies grammar) (classes grammar)
  | .simpleVariable => simpleVariable grammar
  | .listLiteral => listLiteral grammar
  | .parameters => parameters grammar (bodies grammar)
where
  /-- The statements in the body of a function. -/
  bodies (grammar : Grammar) : Rule := innerStatements grammar
  /-- A class without a name. -/
  classes (grammar : Grammar) : Rule := anonymousClass grammar (innerStatements grammar)

/-- Run the rule for a nonterminal, with a bound on the depth of the grammar. -/
def runAtDepth : Nat → Nonterminal → State → Option State
  | 0, _, _ => none
  | depth + 1, nonterminal, state =>
      (unfold (fun inner => ⟨runAtDepth depth inner⟩) nonterminal).run state

/-- The grammar with a bound on its depth. -/
def grammarOfDepth (depth : Nat) : Grammar :=
  fun nonterminal => ⟨runAtDepth depth nonterminal⟩

/-- The optional plain text at the start of a source file. -/
def openingText (state : State) : State :=
  let (text, cursor) := plainText? state.cursor
  let state := { state with cursor }
  match text with
  | some node => state.push .child node
  | none => state

/-- The first opening tag, which blanks may precede. -/
def openingTag : Rule :=
  ⟨fun state =>
    let first := state.cursor.skipWhile isSpacing
    (openingTagEnd? first).map fun stop =>
      { state with cursor := stop }.push .child (leaf "php_tag" true first stop)⟩

/-- The end of the source, after blanks, comments and inline text. -/
def endOfSource : Rule :=
  ⟨fun state =>
    let state := state.skipExtras true
    if state.cursor.atEnd then some state else none⟩

/-- A whole source file. -/
def program (grammar : Grammar) : Rule :=
  ⟨fun state => some (openingText state)⟩ >>
    (openingTag >> statementList grammar true [] <|> accept) >> endOfSource

/-- Read a source file, strictly or while recovering. -/
def readProgram? (recovering : Bool) (source : List Char) : Option State :=
  let length := source.length
  (program (grammarOfDepth (8 * length + 64))).run
    { cursor := Cursor.ofText source, limit := length + 1, recovering }

/-- The root node over the pieces of a source file. It goes up to the end of the
source. -/
def programNode (state : State) : Node :=
  let children := (state.pieces.filter fun piece => piece.role != .hidden).reverse.map Piece.node
  let stop := state.cursor.offset
  match children with
  | [] => { kind := "program", start := stop, stop, row := state.cursor.row
            column := state.cursor.column }
  | first :: _ =>
      { kind := "program", start := first.start, stop, row := first.row, column := first.column
        children }

/-- Parse a source file. A text that does not fit the grammar is read again while
recovering. -/
def parse (source : String) : Tree :=
  let text := source.toList
  match readProgram? false text with
  | some state => { root := programNode state, source }
  | none =>
      match readProgram? true text with
      | some state => { root := programNode state, source, hasError := true }
      | none =>
          let stop := source.utf8ByteSize
          { root := { kind := "ERROR", start := 0, stop, error := true }, source, hasError := true }

@[simp] theorem source_parse (source : String) : (parse source).source = source := by
  simp only [parse]
  split
  · rfl
  · split <;> rfl

end LoopLift.Php
