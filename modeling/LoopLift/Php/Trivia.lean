import LoopLift.Php.Cursor
import LoopLift.Syntax.Node
import LoopLift.Text.Blank

/-!
# Blanks, comments and inline text

What may stand between any two tokens: blanks, which leave no node, comments,
and the text between a closing tag and the next opening tag.
-/

namespace LoopLift.Php

open Syntax

/-- A node without children between two cursors. -/
def leaf (kind : String) (named : Bool) (first last : Cursor) : Node :=
  { kind, named, start := first.offset, stop := last.offset, row := first.row
    column := first.column }

/-- Whether a character separates tokens. -/
def isSpacing (char : Char) : Bool :=
  char == ' ' || ('\t' ≤ char && char ≤ '\r') ||
    char == '\u00a0' || char == '\u200b' || char == '\u2060' || char == '\ufeff'

/-- The end of a comment that runs to the end of its line. It stops before a
closing tag; a question mark right before the line end takes the line end
along. -/
def lineCommentEnd : List Char → Cursor → Cursor
  | '?' :: '\n' :: _, cursor => cursor.advance 2
  | '?' :: '\r' :: '\n' :: _, cursor => cursor.advance 3
  | '?' :: '\r' :: _, cursor => cursor
  | '?' :: '>' :: _, cursor => cursor
  | '?' :: char :: rest, cursor =>
      lineCommentEnd rest ((cursor.pass '?' (char :: rest)).pass char rest)
  | '?' :: [], cursor => cursor
  | '\n' :: _, cursor => cursor
  | '\r' :: _, cursor => cursor
  | char :: rest, cursor => lineCommentEnd rest (cursor.pass char rest)
  | [], cursor => cursor

/-- The end of a comment between `/*` and `*/`, when it is closed. -/
def blockCommentEnd? : List Char → Cursor → Option Cursor
  | '*' :: '/' :: _, cursor => some (cursor.advance 2)
  | char :: rest, cursor => blockCommentEnd? rest (cursor.pass char rest)
  | [], _ => none

/-- The end of the comment that starts at a cursor. `#[` opens an attribute and
no comment. -/
def commentEnd? (cursor : Cursor) : Option Cursor :=
  match cursor.rest with
  | '/' :: '/' :: rest => some (lineCommentEnd rest (cursor.advance 2))
  | '/' :: '*' :: rest => blockCommentEnd? rest (cursor.advance 2)
  | '#' :: '[' :: _ => none
  | '#' :: char :: rest =>
      if char == '?' || char == '\r' || char == '\n' then
        some (cursor.advance 1)
      else
        some (lineCommentEnd rest (cursor.advance 2))
  | ['#'] => some (cursor.advance 1)
  | _ => none

/-- The loop of `textEnd`: `last` is the end of the text read so far. -/
def textEndFrom (last : Cursor) : List Char → Cursor → Bool → Cursor
  | [], cursor, inside => if inside then cursor else last
  | '<' :: '?' :: _, cursor, inside => if inside then cursor else last
  | '<' :: rest, cursor, _ => textEndFrom (cursor.pass '<' rest) rest (cursor.pass '<' rest) false
  | char :: rest, cursor, inside =>
      textEndFrom last rest (cursor.pass char rest) (inside || !Text.isBlankChar char)

/-- The end of the plain text at a cursor, which goes up to the next opening tag.
Blanks that only follow a `<` do not belong to it. -/
def textEnd (cursor : Cursor) : Cursor :=
  textEndFrom cursor cursor.rest cursor false

/-- The end of the opening tag at a cursor. -/
def openingTagEnd? (cursor : Cursor) : Option Cursor :=
  match cursor.rest with
  | '<' :: '?' :: p :: h :: q :: _ =>
      if p.toLower == 'p' && h.toLower == 'h' && q.toLower == 'p' then
        some (cursor.advance 5)
      else if p == '=' then
        some (cursor.advance 3)
      else
        some (cursor.advance 2)
  | '<' :: '?' :: '=' :: _ => some (cursor.advance 3)
  | '<' :: '?' :: _ => some (cursor.advance 2)
  | _ => none

/-- The plain text at a cursor, when there is any, and where it ends. -/
def plainText? (cursor : Cursor) : Option Node × Cursor :=
  let first := cursor.skipWhile Text.isBlankChar
  let last := textEnd first
  if last.offset == first.offset then
    (none, first)
  else
    (some (leaf "text" true first last), last)

/-- The text from a closing tag at a cursor to the next opening tag, or to the
end of the source. -/
def inlineText? (cursor : Cursor) : Option (Node × Cursor) :=
  if cursor.startsWith "?>" then
    let inside := cursor.advance 2
    let closing := leaf "php_end_tag" true cursor inside
    let (text, textStop) := plainText? inside
    let tagStart := textStop.skipWhile Text.isBlankChar
    let (tag, stop) := match openingTagEnd? tagStart with
      | some tagStop => ([leaf "php_tag" true tagStart tagStop], tagStop)
      | none => ([], if text.isSome then textStop else inside)
    some ({ leaf "text_interpolation" true cursor stop with
            children := closing :: text.toList ++ tag }, stop)
  else
    none

end LoopLift.Php
