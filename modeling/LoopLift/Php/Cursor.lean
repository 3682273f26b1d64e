/-!
# Reading positions

A cursor is a place in a source text: what is left to read, and the byte offset,
row and column reached so far.
-/

namespace LoopLift.Php

/-- A place in a source text. Rows and columns count from zero, columns in
bytes. -/
structure Cursor where
  rest : List Char
  offset : Nat := 0
  row : Nat := 0
  column : Nat := 0
  deriving Repr, Inhabited

namespace Cursor

/-- The cursor at the start of a text. -/
def ofText (text : List Char) : Cursor :=
  { rest := text }

/-- The cursor behind a character, which `rest` follows. -/
def pass (cursor : Cursor) (char : Char) (rest : List Char) : Cursor :=
  if char == '\n' then
    { rest, offset := cursor.offset + 1, row := cursor.row + 1, column := 0 }
  else
    { rest, offset := cursor.offset + char.utf8Size, row := cursor.row
      column := cursor.column + char.utf8Size }

/-- The cursor behind as many characters as there are, up to `count`. -/
def advance : Nat → Cursor → Cursor
  | 0, cursor => cursor
  | count + 1, cursor =>
      match cursor.rest with
      | [] => cursor
      | char :: rest => advance count (cursor.pass char rest)

/-- The loop of `skipWhile`. -/
def skipFrom (skips : Char → Bool) : List Char → Cursor → Cursor
  | [], cursor => cursor
  | char :: rest, cursor =>
      if skips char then skipFrom skips rest (cursor.pass char rest) else cursor

/-- The cursor behind all characters of a class. -/
def skipWhile (skips : Char → Bool) (cursor : Cursor) : Cursor :=
  skipFrom skips cursor.rest cursor

/-- Whether the text at the cursor starts with the given one. -/
def startsWith (expected : String) (cursor : Cursor) : Bool :=
  expected.toList.isPrefixOf cursor.rest

/-- Whether everything has been read. -/
def atEnd (cursor : Cursor) : Bool :=
  cursor.rest.isEmpty

/-- The characters that start in the first bytes of a text. -/
def takeBytes : (size : Nat) → List Char → List Char
  | 0, _ => []
  | _ + 1, [] => []
  | size + 1, char :: rest => char :: takeBytes (size + 1 - char.utf8Size) rest

/-- The text between a cursor and a later one. -/
def textTo (first last : Cursor) : List Char :=
  takeBytes (last.offset - first.offset) first.rest

end Cursor

end LoopLift.Php
