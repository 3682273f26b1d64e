import LoopLift.Php.Rule

/-!
# Tokens

Symbols, words and numbers. Symbols are read as long as possible. Keywords are
words compared without regard to case. Where something is given a name, reserved
words are refused; where a name is only used, every word will do that does not
mean something else at that place.
-/

namespace LoopLift.Php

open Syntax Rule

/-- Symbols of more than one character, longer ones first. -/
def longSymbols : List String :=
  ["<=>", "**=", "===", "!==", "<<=", ">>=", "...", "??=", "?->", "<<<",
   "<<", ">>", "<=", ">=", "==", "!=", "<>", "=>", "->", "::", "&&", "||", "??", "++", "--",
   "+=", "-=", "*=", "/=", ".=", "%=", "&=", "|=", "^=", "**", "|>", "?>", "#["]

/-- The longest symbol at a cursor. -/
def symbolAt (cursor : Cursor) : String :=
  match longSymbols.find? cursor.startsWith with
  | some symbol => symbol
  | none => String.ofList (cursor.rest.take 1)

/-- Read a symbol at a cursor. -/
def readSymbol (symbol : String) (cursor : Cursor) : Option (Node × Cursor) :=
  if symbolAt cursor == symbol then
    let stop := cursor.advance symbol.length
    some (leaf symbol false cursor stop, stop)
  else
    none

/-- A symbol. -/
def symbol (text : String) : Rule :=
  token true .child (readSymbol text)

/-- A symbol that continues what was read before. A closing tag in front of it
would end the statement. -/
def continuing (text : String) : Rule :=
  token false .child (readSymbol text)

/-- Whether a character can start a word. -/
def startsWord (char : Char) : Bool :=
  char == '_' || char.isAlpha ||
    ('\u0080' ≤ char && char ≤ '\uffff' && char != '\u00a0' && char != '\u200b' &&
      char != '\u2060' && char != '\ufeff')

/-- Whether a character can continue a word. -/
def continuesWord (char : Char) : Bool :=
  startsWord char || char.isDigit

/-- The end of the word at a cursor. -/
def wordEnd? (cursor : Cursor) : Option Cursor :=
  match cursor.rest with
  | char :: _ => if startsWord char then some (cursor.skipWhile continuesWord) else none
  | [] => none

/-- The word at a cursor as it is written, or nothing. -/
def spelledAt (cursor : Cursor) : String :=
  match cursor.rest with
  | char :: _ => if startsWord char then String.ofList (cursor.rest.takeWhile continuesWord) else ""
  | [] => ""

/-- The word at a cursor in small letters, or nothing. -/
def wordAt (cursor : Cursor) : String :=
  (spelledAt cursor).map Char.toLower

/-- Words that cannot be given to anything as its name. -/
def reservedWords : List String :=
  ["abstract", "and", "as", "break", "callable", "case", "catch", "class", "clone", "const",
   "continue", "declare", "default", "do", "echo", "else", "elseif", "enddeclare", "endfor",
   "endforeach", "endif", "endswitch", "endwhile", "extends", "final", "finally", "fn", "for",
   "foreach", "function", "global", "goto", "if", "implements", "include", "include_once",
   "instanceof", "insteadof", "interface", "match", "namespace", "new", "or", "print", "private",
   "protected", "public", "readonly", "require", "require_once", "return", "static", "switch",
   "throw", "trait", "try", "use", "var", "while", "xor", "yield"]

/-- Words that cannot be given to a class as its name, besides the reserved
ones. -/
def reservedTypeWords : List String :=
  ["bool", "false", "float", "int", "iterable", "mixed", "never", "null", "object", "string",
   "true", "void"]

/-- Read a word that satisfies a condition on its small letters. -/
def readWord (kind : String) (named : Bool) (accepts : String → Bool) (cursor : Cursor) :
    Option (Node × Cursor) :=
  (wordEnd? cursor).bind fun stop =>
    if accepts (wordAt cursor) then some (leaf kind named cursor stop, stop) else none

/-- A keyword, which leaves an unnamed node. -/
def keyword (word : String) : Rule :=
  token true .child (readWord word false (· == word))

/-- A keyword that continues what was read before. -/
def continuingKeyword (word : String) : Rule :=
  token false .child (readWord word false (· == word))

/-- A named node for one of several words, compared without regard to case. -/
def wordNode (kind : String) (words : List String) : Rule :=
  token true .child (readWord kind true words.contains)

/-- A named node for one of several words spelled exactly as given. -/
def spelledNode (kind : String) (words : List String) : Rule :=
  token true .child fun cursor =>
    if words.contains (spelledAt cursor) then readWord kind true (fun _ => true) cursor else none

/-- A word spelled exactly as given, which leaves an unnamed node. -/
def spelled (word : String) : Rule :=
  token true .child fun cursor =>
    if spelledAt cursor == word then readWord word false (fun _ => true) cursor else none

/-- A name that is none of the given words. -/
def nameExcept (taken : List String) : Rule :=
  token true .child (readWord "name" true fun word => !taken.contains word)

/-- A name where every word will do. -/
def anyName : Rule :=
  nameExcept []

/-- A name that is given to something. -/
def name : Rule :=
  nameExcept reservedWords

/-- A name that is given to a class. -/
def className : Rule :=
  nameExcept (reservedWords ++ reservedTypeWords)

/-- A token that closes what was opened before. While recovering, the end of the
source will do and leaves an error. -/
def closing (kind : String) (read : Rule) : Rule :=
  ⟨fun state =>
    match read.run state with
    | some next => some next
    | none =>
        if state.recovering && state.ahead.atEnd then
          some (state.push .child { leaf kind false state.cursor state.cursor with error := true })
        else
          none⟩

/-- The brace at the end of a block. -/
def closingBrace : Rule :=
  closing "\x7d" (symbol "\x7d")

/-- The word at the end of a statement that is written with colons. -/
def closingKeyword (word : String) : Rule :=
  closing word (keyword word)

/-- Choose a rule by the next word in small letters. -/
def byWord (choose : String → Rule) : Rule :=
  depending fun state => choose (wordAt state.ahead)

/-- Whether a symbol comes next. -/
def nextIs (text : String) : Rule :=
  guard fun state => symbolAt state.ahead == text

/-- How many characters of a list pass a test, from its start on. -/
def countWhile (test : Char → Bool) (chars : List Char) : Nat :=
  (chars.takeWhile test).length

/-- The loop of `digitGroups`. -/
def digitGroupsFrom (isDigit : Char → Bool) : Nat → List Char → Nat → Nat
  | 0, _, count => count
  | fuel + 1, chars, count =>
      match chars with
      | '_' :: rest =>
          let digits := countWhile isDigit rest
          if digits = 0 then
            count
          else
            digitGroupsFrom isDigit fuel (rest.drop digits) (count + 1 + digits)
      | _ => count

/-- Length of digits in groups divided by `_`, the first group possibly
empty. -/
def digitGroups (isDigit : Char → Bool) (chars : List Char) : Nat :=
  let first := countWhile isDigit chars
  let run := countWhile (fun char => isDigit char || char == '_') chars
  digitGroupsFrom isDigit run (chars.drop first) first

/-- Whether a character is a hexadecimal digit. -/
def isHexDigit (char : Char) : Bool :=
  char.isDigit || ('a' ≤ char && char ≤ 'f') || ('A' ≤ char && char ≤ 'F')

/-- Length of the whole number at the start of a text, zero when there is
none. -/
def integerLength (chars : List Char) : Nat :=
  let isOctal (char : Char) := '0' ≤ char && char ≤ '7'
  let isBinary (char : Char) := char == '0' || char == '1'
  match chars with
  | '0' :: mark :: rest =>
      let marked (isDigit : Char → Bool) :=
        if countWhile isDigit rest = 0 then 1 else 2 + digitGroups isDigit rest
      if mark == 'x' || mark == 'X' then marked isHexDigit
      else if mark == 'b' || mark == 'B' then marked isBinary
      else if mark == 'o' || mark == 'O' then 2 + digitGroups isOctal rest
      else 1 + digitGroups isOctal (mark :: rest)
  | char :: _ => if char.isDigit then digitGroups Char.isDigit chars else 0
  | [] => 0

/-- Length of the exponent at the start of a text, zero when there is none. -/
def exponentLength (chars : List Char) : Nat :=
  match chars with
  | mark :: rest =>
      if mark == 'e' || mark == 'E' then
        let sign := match rest with
          | '+' :: _ => 1
          | '-' :: _ => 1
          | _ => 0
        let digits := rest.drop sign
        if countWhile Char.isDigit digits = 0 then 0 else 1 + sign + digitGroups Char.isDigit digits
      else
        0
  | [] => 0

/-- Length of the number with a point or an exponent at the start of a text,
zero when there is none. -/
def floatLength (chars : List Char) : Nat :=
  let whole := digitGroups Char.isDigit chars
  let rest := chars.drop whole
  match rest with
  | '.' :: fraction =>
      let length := whole + 1 + digitGroups Char.isDigit fraction
      length + exponentLength (chars.drop length)
  | _ =>
      let exponent := exponentLength rest
      if exponent = 0 then 0 else whole + exponent

/-- Read the number at a cursor. -/
def readNumber (cursor : Cursor) : Option (Node × Cursor) :=
  let integer := integerLength cursor.rest
  let float := if cursor.startsWith "..." then 0 else floatLength cursor.rest
  let kind := if integer < float then "float" else "integer"
  let length := max integer float
  if length = 0 then
    none
  else
    some (leaf kind true cursor (cursor.advance length), cursor.advance length)

/-- A number. -/
def number : Rule :=
  token true .child readNumber

/-- The loop of `closesAhead`. -/
def closesAheadFrom : Nat → Cursor → Bool
  | 0, _ => false
  | fuel + 1, cursor =>
      let cursor := cursor.skipWhile Text.isBlankChar
      match cursor.rest with
      | '/' :: '/' :: _ => closesAheadFrom fuel (cursor.skipWhile (· != '\n'))
      | '?' :: '>' :: _ => true
      | _ => false

/-- Whether only blanks and line comments stand before a closing tag. -/
def closesAhead (state : State) : Bool :=
  closesAheadFrom state.limit state.cursor

/-- A token without extent at the cursor that stands for a semicolon. -/
def emptySemicolon (state : State) : State :=
  state.push .hidden (leaf ";" false state.cursor state.cursor)

/-- Words that start a statement and can follow a statement whose semicolon is
missing. -/
def statementWords : List String :=
  ["break", "class", "const", "continue", "declare", "do", "echo", "for", "foreach", "function",
   "global", "goto", "if", "interface", "namespace", "return", "switch", "throw", "trait", "try",
   "unset", "use", "while"]

/-- Whether a statement whose semicolon is missing ends at the cursor. -/
def endsWithoutSemicolon (state : State) : Bool :=
  let ahead := state.ahead
  ahead.atEnd || symbolAt ahead == "\x7d" || statementWords.contains (wordAt ahead)

/-- The loop of `semicolon`. -/
def semicolonFrom : Nat → State → Option State
  | 0, _ => none
  | fuel + 1, state =>
      if closesAhead state then
        some (emptySemicolon state)
      else
        let cursor := state.cursor.skipWhile isSpacing
        match commentEnd? cursor with
        | some stop =>
            semicolonFrom fuel
              ({ state with cursor := stop }.push .extra (leaf "comment" true cursor stop))
        | none => (symbol ";").run state

/-- The end of a statement: a semicolon, or a closing tag, which is not read.
While recovering, a missing semicolon leaves an error. -/
def semicolon : Rule :=
  ⟨fun state =>
    match semicolonFrom state.limit state with
    | some next => some next
    | none =>
        if state.recovering && endsWithoutSemicolon state then
          some (state.push .child
            { leaf ";" false state.cursor state.cursor with error := true })
        else
          none⟩

end LoopLift.Php
