import LoopLift.Text.Blank
import LoopLift.Text.Width

/-!
# Quoted texts

A text between double quotes, in which everything can be seen: characters that
are not shown are written by their code.
-/

namespace LoopLift.Text

/-- Code point ranges of control characters, jamo aside, and of private use. -/
def unseenRanges : List (Nat × Nat) :=
  [(0x00, 0x1f), (0x7f, 0xa0), (0xe000, 0xf8ff), (0xf0000, 0x10ffff)]

/-- Code point ranges of letters that take no column but are shown. -/
def joinedRanges : List (Nat × Nat) :=
  [(0x1160, 0x11ff), (0x3164, 0x3164), (0xd7b0, 0xd7fb), (0xffa0, 0xffa0)]

/-- Whether a character can be seen on its own. -/
def isSeen (char : Char) : Bool :=
  let code := char.toNat
  char == ' ' ||
    !(inRanges unseenRanges code || isBlankChar char ||
      (0xad ≤ code && inRanges hiddenRanges code && !inRanges joinedRanges code))

/-- The digits of a code to the base sixteen. -/
def hexCode (code : Nat) : List Char :=
  Nat.toDigits 16 code

/-- A character of a quoted text. An apostrophe may need an escape as well. -/
def literalChar (escapesApostrophe : Bool) (char : Char) : List Char :=
  match char with
  | '\x00' => ['\\', '0']
  | '\t' => ['\\', 't']
  | '\r' => ['\\', 'r']
  | '\n' => ['\\', 'n']
  | '\\' => ['\\', '\\']
  | '"' => ['\\', '"']
  | '\'' => if escapesApostrophe then ['\\', '\''] else ['\'']
  | _ =>
      if isSeen char then [char]
      else ['\\', 'u', '\x7b'] ++ hexCode char.toNat ++ ['\x7d']

/-- A text between quotes. -/
def literal (escapesApostrophe : Bool) (text : String) : String :=
  "\"" ++ String.ofList (text.toList.flatMap (literalChar escapesApostrophe)) ++ "\""

/-- Texts between quotes in a list. -/
def literals (escapesApostrophe : Bool) (texts : List String) : String :=
  "[" ++ String.intercalate ", " (texts.map (literal escapesApostrophe)) ++ "]"

end LoopLift.Text
