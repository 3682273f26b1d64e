import LoopLift.Syntax.Node
import LoopLift.Text.Blank
import LoopLift.Text.Lines

/-!
# Suppression markers

A loop is not reported when its first line, or the line above, holds
`@noinspection ForeachToCollection` or `collector-ignore`. Letters match without
regard to case, by simple Unicode case folding, and any blanks may stand between
the two words of the first marker.
-/

namespace LoopLift.Suppression

open Syntax

/-- The letter that a character folds to. Beside the capital letters, two
characters outside ASCII fold to a small letter of the alphabet. -/
def fold (char : Char) : Char :=
  if char == '\u017f' then 's'
  else if char == '\u212a' then 'k'
  else char.toLower

/-- What follows a word at the start of a text, letters compared after
folding. -/
def afterWord? : List Char → List Char → Option (List Char)
  | [], rest => some rest
  | _ :: _, [] => none
  | letter :: word, char :: rest =>
      if fold char == letter then afterWord? word rest else none

/-- Whether a text starts with the marker that names the inspection. -/
def startsNamed (text : List Char) : Bool :=
  match afterWord? "@noinspection".toList text with
  | none => false
  | some rest =>
      match rest with
      | blank :: rest =>
          Text.isBlankChar blank &&
            (afterWord? "foreachtocollection".toList
              (rest.dropWhile Text.isBlankChar)).isSome
      | [] => false

/-- Whether a text starts with a marker. -/
def startsMarker (text : List Char) : Bool :=
  startsNamed text || (afterWord? "collector-ignore".toList text).isSome

/-- Whether a line holds a marker. -/
def isMarked : List Char → Bool
  | [] => false
  | char :: rest => startsMarker (char :: rest) || isMarked rest

/-- Whether a loop has a marker on its first line or on the line above. -/
def isSuppressed (lines : List (List Char)) (loop : Node) : Bool :=
  let above := if loop.row = 0 then none else lines[loop.row - 1]?
  (lines[loop.row]?.any isMarked) || (above.any isMarked)

end LoopLift.Suppression
