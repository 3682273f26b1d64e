import LoopLift.Php.Nonterminal

/-!
# Quoted text

Strings in single and double quotes, shell commands in backticks, and the two
kinds of here documents. All but single quoted strings and nowdocs may hold
variables and expressions.
-/

namespace LoopLift.Php

open Syntax Rule

/-- What encloses text with variables in it. -/
inductive Enclosure where
  | quotes
  | backticks
  /-- A here document that ends with a word. -/
  | heredoc (word : String)
  deriving Repr, DecidableEq

/-- Whether a character in quoted text belongs to a name. -/
def continuesQuotedName (char : Char) : Bool :=
  char.isAlphanum || char == '_' || '\u0080' ≤ char

/-- Whether a word stands behind blanks at the start of a text, on its own. -/
def endsDocument (word : String) (text : List Char) : Bool :=
  (text.dropWhile Text.isBlankChar).takeWhile continuesQuotedName == word.toList

/-- Whether a line end in quoted text is the last one before the closing word. -/
def closesAtLine (enclosure : Enclosure) (rest : List Char) : Bool :=
  match enclosure with
  | .heredoc word => endsDocument word rest
  | _ => false

/-- Whether a backslash before this text starts an escape sequence. -/
def isEscape (enclosure : Enclosure) : List Char → Bool
  | 'x' :: digit :: _ => isHexDigit digit
  | '\x60' :: _ => enclosure == .backticks
  | char :: _ =>
      "nrtvef\\$\"u".toList.contains char || ('0' ≤ char && char ≤ '7')
  | [] => false

/-- Whether a dollar sign before this text starts a variable. -/
def startsQuotedVariable : List Char → Bool
  | char :: _ => char == '\x7b' || (continuesQuotedName char && !char.isDigit)
  | [] => false

/-- Whether text right behind a variable accesses a member of it. -/
def accessesMember : List Char → Bool
  | '-' :: '>' :: char :: _ => continuesQuotedName char
  | _ => false

/-- The end of plain text inside an enclosure. `afterVariable` says whether a
variable stands right in front, so that a subscript or a member access would
belong to it. -/
def plainEnd (enclosure : Enclosure) (afterVariable : Bool) : List Char → Cursor → Cursor
  | [], cursor => cursor
  | '\\' :: '\x7b' :: rest, cursor =>
      plainEnd enclosure false rest ((cursor.pass '\\' ('\x7b' :: rest)).pass '\x7b' rest)
  | '\\' :: rest, cursor =>
      if isEscape enclosure rest then
        cursor
      else
        plainEnd enclosure false rest (cursor.pass '\\' rest)
  | char :: rest, cursor =>
      let stops :=
        (char == '"' && enclosure == .quotes) || (char == '\x60' && enclosure == .backticks) ||
        ((char == '\n' || char == '\r') && closesAtLine enclosure rest) ||
        (char == '$' && startsQuotedVariable rest) ||
        (char == '\x7b' && rest.head? == some '$') ||
        (afterVariable && (char == '[' || accessesMember (char :: rest)))
      if stops then cursor else plainEnd enclosure false rest (cursor.pass char rest)

/-- Plain text inside an enclosure. -/
def plainContent (enclosure : Enclosure) (afterVariable : Bool) : Rule :=
  immediate .child fun cursor =>
    let stop := plainEnd enclosure afterVariable cursor.rest cursor
    if cursor.offset < stop.offset then
      some (leaf "string_content" true cursor stop, stop)
    else
      none

/-- Length of the escape sequence behind a backslash. -/
def escapeLength : List Char → Nat
  | 'x' :: rest => 1 + min 2 (countWhile isHexDigit rest)
  | char :: rest =>
      if '0' ≤ char && char ≤ '7' then
        min 3 (countWhile (fun digit => '0' ≤ digit && digit ≤ '7') (char :: rest))
      else
        1
  | [] => 0

/-- The loop of `unicodeEscapeLength`. -/
def unicodeDigits : List Char → Nat → Nat
  | '\x7d' :: _, count => if count = 0 then 0 else count + 4
  | char :: rest, count => if isHexDigit char then unicodeDigits rest (count + 1) else 0
  | [], _ => 0

/-- Length of an escape sequence with a code point, backslash included, or
zero. -/
def unicodeEscapeLength : List Char → Nat
  | '\\' :: 'u' :: '\x7b' :: rest => unicodeDigits rest 0
  | _ => 0

/-- An escape sequence. A `\u` without a code point is plain text. -/
def escapeSequence : Rule :=
  immediate .child fun cursor =>
    match cursor.rest with
    | '\\' :: rest =>
        let unicode := unicodeEscapeLength cursor.rest
        let (kind, length) :=
          if 0 < unicode then ("escape_sequence", unicode)
          else if rest.head? == some 'u' then ("string_content", 2)
          else ("escape_sequence", 1 + escapeLength rest)
        some (leaf kind true cursor (cursor.advance length), cursor.advance length)
    | _ => none

/-- A symbol right at the cursor. -/
def immediateSymbol (text : String) : Rule :=
  immediate .child fun cursor =>
    if cursor.startsWith text then
      some (leaf text false cursor (cursor.advance text.length), cursor.advance text.length)
    else
      none

/-- A name right at the cursor. -/
def immediateName : Rule :=
  immediate .child (readWord "name" true fun _ => true)

/-- A plain variable in quoted text. -/
def quotedVariable : Rule :=
  node "variable_name" (immediateSymbol "$" >> immediateName)

/-- What may stand between the brackets of a subscript in quoted text. -/
def quotedIndex : Rule :=
  (token true .child fun cursor =>
    match cursor.rest with
    | char :: _ => if char.isDigit then readNumber cursor else none
    | [] => none) <|>
  node "unary_op_expression" (symbol "-" >> number) <|>
  node "variable_name" (symbol "$" >> anyName) <|>
  anyName

/-- A plain variable in quoted text with at most one subscript or member access
behind it. -/
def quotedAccess (enclosure : Enclosure) : Rule :=
  grouped (quotedVariable >>
    ((immediateSymbol "[" >> quotedIndex >> symbol "]" >> close "subscript_expression") <|>
     (guard (fun state => accessesMember state.cursor.rest) >>
        immediateSymbol "->" >> immediateName >> close "member_access_expression") <|>
     (guard (fun state => state.cursor.rest.head? != some '[') >>
        optional (plainContent enclosure true))))

/-- One part of text with variables. -/
def quotedPart (grammar : Grammar) (enclosure : Enclosure) : Rule :=
  plainContent enclosure false <|>
  escapeSequence <|>
  quotedAccess enclosure <|>
  node "dynamic_variable_name"
    (immediateSymbol "$\x7b" >> grammar.any >> symbol "\x7d") <|>
  (immediateSymbol "\x7b" >> grammar.any >> symbol "\x7d")

/-- The leaf of an opening quote, which a `b` may precede. -/
def openingQuote (quote : Char) : Rule :=
  token true .child fun cursor =>
    match cursor.rest with
    | first :: second :: _ =>
        let length :=
          if first == quote then 1
          else if (first == 'b' || first == 'B') && second == quote then 2
          else 0
        if length = 0 then
          none
        else
          some (leaf (String.singleton quote) false cursor (cursor.advance length),
            cursor.advance length)
    | [first] =>
        if first == quote then
          some (leaf (String.singleton quote) false cursor (cursor.advance 1), cursor.advance 1)
        else
          none
    | [] => none

/-- A string in double quotes. -/
def encapsedString (grammar : Grammar) : Rule :=
  node "encapsed_string"
    (openingQuote '"' >> many (quotedPart grammar .quotes) >> immediateSymbol "\"")

/-- A shell command. -/
def shellCommand (grammar : Grammar) : Rule :=
  node "shell_command_expression"
    (openingQuote '\x60' >> many (quotedPart grammar .backticks) >> immediateSymbol "`")

/-- The end of plain text in single quotes. -/
def singleEnd : List Char → Cursor → Cursor
  | '\'' :: _, cursor => cursor
  | '\\' :: '\\' :: _, cursor => cursor
  | '\\' :: '\'' :: _, cursor => cursor
  | char :: rest, cursor => singleEnd rest (cursor.pass char rest)
  | [], cursor => cursor

/-- A string in single quotes. -/
def singleString : Rule :=
  let content := immediate .child fun cursor =>
    let stop := singleEnd cursor.rest cursor
    if cursor.offset < stop.offset then
      some (leaf "string_content" true cursor stop, stop)
    else
      none
  let escape := immediate .child fun cursor =>
    if cursor.startsWith "\\" then
      some (leaf "escape_sequence" true cursor (cursor.advance 2), cursor.advance 2)
    else
      none
  node "string" (openingQuote '\'' >> many (content <|> escape) >> immediateSymbol "'")

/-- Whether a character is a space or a tab. -/
def isLineBlank (char : Char) : Bool := char == ' ' || char == '\t'

/-- The word behind `<<<`, possibly quoted, and the quote. -/
def documentWord? (cursor : Cursor) : Option (String × Option Char) :=
  let behind := (cursor.advance 3).skipWhile isLineBlank
  let quote := match behind.rest with
    | '"' :: _ => some '"'
    | '\'' :: _ => some '\''
    | _ => none
  let word := (if quote.isSome then behind.advance 1 else behind).rest.takeWhile continuesQuotedName
  if word.isEmpty then none else some (String.ofList word, quote)

/-- The opening line of a here document. -/
def documentOpening (word : String) (quote : Option Char) : Rule :=
  let mark := match quote with
    | some quote => immediateSymbol (String.singleton quote)
    | none => accept
  let blanks : Rule := ⟨fun state =>
    some { state with cursor := state.cursor.skipWhile isLineBlank }⟩
  symbol "<<<" >> blanks >> mark >>
    immediate .child (fun cursor =>
      some (leaf "heredoc_start" true cursor (cursor.advance word.length),
        cursor.advance word.length)) >>
    mark >>
    guard fun state => state.cursor.rest.head? == some '\n' || state.cursor.rest.head? == some '\r'

/-- The closing word of a here document. -/
def documentClosing (word : String) : Rule :=
  ⟨fun state =>
    let first := state.cursor.skipWhile Text.isBlankChar
    if endsDocument word first.rest then
      let stop := first.advance word.length
      some ({ state with cursor := stop }.push .child (leaf "heredoc_end" true first stop))
    else
      none⟩

/-- The end of the plain text of a nowdoc. -/
def nowdocEnd (word : String) : List Char → Cursor → Cursor
  | [], cursor => cursor
  | char :: rest, cursor =>
      if (char == '\n' || char == '\r') && endsDocument word rest then
        cursor
      else
        nowdocEnd word rest (cursor.pass char rest)

/-- A here document. With a single quoted word it holds no variables. -/
def hereDocument (grammar : Grammar) : Rule :=
  depending fun state =>
    match documentWord? state.ahead with
    | none => reject
    | some (word, some '\'') =>
        let content := immediate .child fun cursor =>
          let stop := nowdocEnd word cursor.rest cursor
          if cursor.offset < stop.offset then
            some (leaf "nowdoc_string" true cursor stop, stop)
          else
            none
        node "nowdoc" (documentOpening word (some '\'') >> node "nowdoc_body" (optional content) >>
          documentClosing word)
    | some (word, quote) =>
        node "heredoc" (documentOpening word quote >>
          node "heredoc_body" (many (quotedPart grammar (.heredoc word))) >>
          documentClosing word)

end LoopLift.Php
