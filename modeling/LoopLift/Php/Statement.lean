import LoopLift.Php.Declaration

/-!
# Statements

Most statements are told apart by their first word. A text that does not fit the
grammar can be read again while recovering: then a broken statement becomes an
error node, and reading goes on behind it.
-/

namespace LoopLift.Php

open Syntax Rule

/-- Words that end a list of statements inside a larger statement. -/
def closingWords : List String :=
  ["case", "catch", "default", "else", "elseif", "enddeclare", "endfor", "endforeach", "endif",
   "endswitch", "endwhile", "finally"]

/-- Whether nothing more of a list of statements comes, unless it is the
outermost list. -/
def closesList (outermost : Bool) (state : State) : Bool :=
  let ahead := state.ahead
  ahead.atEnd ||
    (!outermost && (symbolAt ahead == "\x7d" || closingWords.contains (wordAt ahead)))

/-- A single character, or a word, as an unnamed node. -/
def readAny (cursor : Cursor) : Option (Node × Cursor) :=
  match wordEnd? cursor with
  | some stop => some (leaf "name" true cursor stop, stop)
  | none =>
      if cursor.atEnd then
        none
      else
        let symbol := symbolAt cursor
        let stop := cursor.advance symbol.length
        some (leaf symbol false cursor stop, stop)

/-- A token of a broken statement. -/
def brokenToken (grammar : Grammar) : Rule :=
  grammar .simpleVariable <|> singleString <|> encapsedString grammar <|> number <|>
    token true .child readAny

/-- Whether a broken statement ends before the next token. -/
def endsBroken (state : State) : Bool :=
  let ahead := state.ahead
  ahead.atEnd || symbolAt ahead == "\x7d" || statementWords.contains (wordAt ahead)

/-- A statement that does not fit the grammar: all tokens up to a semicolon, or
up to where a statement starts or a block ends. -/
def brokenStatement (grammar : Grammar) : Rule :=
  let unfinished := guard fun state =>
    !endsBroken state && (state.last?.map Node.kind) != some ";"
  let rest := many (unfinished >> brokenToken grammar)
  let first := symbol ")" <|> symbol "]" <|> symbol "\x7d" <|> (brokenToken grammar >> rest)
  node "ERROR" first >> relabel fun node => some { node with error := true }

/-- The statements of a list up to one of the words in `stops`. -/
def statementList (grammar : Grammar) (outermost : Bool) (stops : List String) : Rule :=
  let recovered := guard (fun state => state.recovering && !closesList outermost state) >>
    brokenStatement grammar
  let goesOn := guard fun state => !stops.contains (wordAt state.ahead)
  many (goesOn >> grammar .statement <|> recovered)

section

variable (grammar : Grammar)

/-- The statements of a list inside braces. -/
def innerStatements : Rule :=
  statementList grammar false []

/-- The body of a statement that is written with a colon. -/
def colonBlock : Rule :=
  node "colon_block"
    (symbol ":" >>
      statementList grammar false ["else", "elseif", "endforeach", "endif", "endwhile"])

/-- A branch of an `if` with its condition. -/
def elseIfClause (body : Rule) : Rule :=
  node "else_if_clause" (keyword "elseif" >> parenthesized grammar >> body)

/-- The last branch of an `if`. -/
def elseClause (body : Rule) : Rule :=
  node "else_clause" (keyword "else" >> body)

/-- A conditional statement. -/
def ifStatement : Rule :=
  let withColons :=
    colonBlock grammar >> many (elseIfClause grammar (colonBlock grammar)) >>
      optional (elseClause (colonBlock grammar)) >> closingKeyword "endif" >> semicolon
  let plain :=
    grammar .statement >> many (elseIfClause grammar (grammar .statement)) >>
      optional (elseClause (grammar .statement))
  node "if_statement"
    (keyword "if" >> parenthesized grammar >> ((nextIs ":" >> withColons) <|> plain))

/-- A choice between cases. -/
def switchStatement : Rule :=
  let mark := symbol ":" <|> symbol ";"
  let body := statementList grammar false ["case", "default", "endswitch"]
  let arm :=
    node "case_statement" (keyword "case" >> grammar.any >> mark >> body) <|>
    node "default_statement" (keyword "default" >> mark >> body)
  node "switch_statement"
    (keyword "switch" >> parenthesized grammar >>
      node "switch_block"
        ((symbol "\x7b" >> many arm >> closingBrace) <|>
          (symbol ":" >> many arm >> closingKeyword "endswitch" >> semicolon)))

/-- A loop with its condition in front. -/
def whileStatement : Rule :=
  node "while_statement"
    (keyword "while" >> parenthesized grammar >>
      ((nextIs ":" >> colonBlock grammar >> closingKeyword "endwhile" >> semicolon) <|>
        grammar .statement))

/-- A loop with its condition behind. -/
def doStatement : Rule :=
  node "do_statement"
    (keyword "do" >> grammar .statement >> keyword "while" >> parenthesized grammar >> semicolon)

/-- A loop with a counter. -/
def forStatement : Rule :=
  node "for_statement"
    (keyword "for" >> symbol "(" >> optional (grammar .expressions) >> symbol ";" >>
      optional (grammar .expressions) >> symbol ";" >> optional (grammar .expressions) >>
      symbol ")" >>
      ((symbol ":" >> statementList grammar false ["endfor"] >> closingKeyword "endfor" >>
          semicolon) <|>
        strictSemicolon <|> grammar .statement))
where
  /-- A semicolon that is there. -/
  strictSemicolon : Rule := ⟨fun state => semicolon.run { state with recovering := false } |>.map
    fun next => { next with recovering := state.recovering }⟩

/-- What a loop over an array binds: a reference, a pattern or a variable. -/
def loopValue : Rule :=
  let word : Rule := guard fun state => wordAt state.ahead == "list"
  let pattern := relabel fun node =>
    if node.kind == "list_literal" then
      patternOf? node
    else if node.kind == "array_creation_expression" then
      some ((patternOf? node).getD node)
    else
      some node
  byReference grammar <|>
    (word >> listLiteral grammar >> guard fun state => symbolAt state.ahead != "=") <|>
    (grammar .element >> pattern)

/-- A loop over an array. -/
def foreachStatement : Rule :=
  let pair := node "pair" (grammar.any >> symbol "=>" >> loopValue grammar)
  node "foreach_statement"
    (keyword "foreach" >> symbol "(" >> grammar.any >> keyword "as" >>
      (pair <|> loopValue grammar) >> symbol ")" >>
      ((nextIs ":" >> colonBlock grammar >> closingKeyword "endforeach" >> semicolon) <|>
        forStatement.strictSemicolon <|> grammar .statement))

/-- A block whose errors are caught. -/
def tryStatement : Rule :=
  let block := compound (innerStatements grammar)
  let types := node "type_list" (sepBy1 (namedType []) (symbol "|"))
  let catchClause := node "catch_clause"
    (keyword "catch" >> symbol "(" >> types >> optional plainVariable >> symbol ")" >> block)
  let finallyClause := node "finally_clause" (keyword "finally" >> block)
  node "try_statement" (keyword "try" >> block >> many1 (catchClause <|> finallyClause))

/-- Settings for the source file, or for the statements behind them. -/
def declareStatement : Rule :=
  let literal := number <|> singleString <|> encapsedString grammar <|> hereDocument grammar <|>
    wordNode "boolean" ["true", "false"] <|> wordNode "null" ["null"]
  let directive := node "declare_directive"
    ((spelled "ticks" <|> spelled "encoding" <|> spelled "strict_types") >> symbol "=" >> literal)
  node "declare_statement"
    (keyword "declare" >> symbol "(" >> directive >> symbol ")" >>
      ((symbol ":" >> statementList grammar false ["enddeclare"] >> closingKeyword "enddeclare" >>
          semicolon) <|>
        forStatement.strictSemicolon <|> grammar .statement))

/-- A word, an optional expression and a semicolon. -/
def jumpStatement (kind word : String) : Rule :=
  node kind (keyword word >> optional (jumpValue) >> semicolon)
where
  /-- The expression behind the word, on the same side of any closing tag. -/
  jumpValue : Rule := guard (fun state => !closesAhead state) >> grammar.any

/-- The end of the program. -/
def exitStatement : Rule :=
  node "exit_statement"
    (keyword "exit" >> optional (continuing "(" >> optional grammar.any >> symbol ")") >> semicolon)

/-- Variables that cease to exist. -/
def unsetStatement : Rule :=
  node "unset_statement"
    (spelled "unset" >> symbol "(" >> sepBy1 (grammar .assignable) (symbol ",") >>
      optional (symbol ",") >> symbol ")" >> semicolon)

/-- Variables that a function keeps between calls. -/
def staticDeclaration : Rule :=
  let entry := node "static_variable_declaration"
    (plainVariable >> optional (initialValue grammar))
  node "function_static_declaration" (keyword "static" >> sepBy1 entry (symbol ",") >> semicolon)

/-- Variables of the whole program. -/
def globalDeclaration : Rule :=
  node "global_declaration"
    (keyword "global" >> sepBy1 (grammar .simpleVariable) (symbol ",") >> semicolon)

/-- A namespace, up to the next one or with its own block. -/
def namespaceDefinition : Rule :=
  let block := compound (innerStatements grammar)
  node "namespace_definition"
    (keyword "namespace" >> ((namespaceName >> (block <|> semicolon)) <|> block))

/-- Names that are taken over from other namespaces. -/
def useStatement : Rule :=
  let kind := optional (keyword "function" <|> keyword "const")
  let clause := node "namespace_use_clause"
    (kind >> (qualifiedName <|> anyName) >> optional (keyword "as" >> name))
  let group := kind >> namespaceName >> symbol "\\" >>
    node "namespace_use_group"
      (symbol "\x7b" >> sepBy1 clause (symbol ",") >> symbol "\x7d")
  node "namespace_use_declaration"
    (keyword "use" >> ((group >> semicolon) <|> (sepBy1 clause (symbol ",") >> semicolon)))

/-- An expression as a statement. -/
def expressionStatement : Rule :=
  node "expression_statement" (grammar.any >> semicolon)

/-- A label to jump to. -/
def labelStatement : Rule :=
  node "named_label_statement" (nameExcept expressionWords >> symbol ":")

/-- A declaration that attributes or modifiers may precede. -/
def declaration : Rule :=
  let statements := innerStatements grammar
  classDeclaration grammar statements <|> functionDefinition grammar statements <|>
    interfaceDeclaration grammar statements <|> traitDeclaration grammar statements <|>
    enumDeclaration grammar statements <|> constantDeclaration grammar name

/-- A statement that starts with a word. -/
def wordStatement (word : String) : Rule :=
  match word with
  | "if" => ifStatement grammar
  | "switch" => switchStatement grammar
  | "while" => whileStatement grammar
  | "do" => doStatement grammar
  | "for" => forStatement grammar
  | "foreach" => foreachStatement grammar
  | "goto" => node "goto_statement" (keyword "goto" >> name >> semicolon)
  | "continue" => jumpStatement grammar "continue_statement" "continue"
  | "break" => jumpStatement grammar "break_statement" "break"
  | "return" => jumpStatement grammar "return_statement" "return"
  | "try" => tryStatement grammar
  | "declare" => declareStatement grammar
  | "echo" => node "echo_statement" (keyword "echo" >> grammar .expressions >> semicolon)
  | "exit" => exitStatement grammar
  | "unset" =>
      depending fun state =>
        if spelledAt state.ahead == "unset" then
          unsetStatement grammar
        else
          expressionStatement grammar
  | "global" => globalDeclaration grammar
  | "namespace" => namespaceDefinition grammar <|> expressionStatement grammar
  | "use" => useStatement
  | "static" => staticDeclaration grammar <|> expressionStatement grammar
  | "function" =>
      functionDefinition grammar (innerStatements grammar) <|> expressionStatement grammar
  | "class" | "abstract" | "final" | "readonly" | "const" | "var" | "public" | "protected"
  | "private" | "interface" | "trait" | "enum" => declaration grammar
  | _ => labelStatement <|> expressionStatement grammar

/-- Any statement. -/
def statement : Rule :=
  depending fun state =>
    let ahead := state.ahead
    match symbolAt ahead with
    | "\x7b" => compound (innerStatements grammar)
    | ";" => node "empty_statement" (symbol ";")
    | "#[" => declaration grammar <|> expressionStatement grammar
    | _ =>
        match wordAt ahead with
        | "" => if ahead.atEnd then reject else expressionStatement grammar
        | word => wordStatement grammar word

end

end LoopLift.Php
