/-!
# Lines of a text

A line ends at a newline, and one carriage return right before the newline
belongs to the line end. A final newline does not open another line, and a
carriage return on its own is an ordinary character.
-/

namespace LoopLift.Text

/-- A finished line, given backwards, without the carriage return of its line
end. -/
def closeLine : List Char → List Char
  | '\r' :: line => line.reverse
  | line => line.reverse

/-- The lines of a text when `line`, given backwards, has been read of the first
one. -/
def linesFrom (line : List Char) : List Char → List (List Char)
  | [] => if line.isEmpty then [] else [line.reverse]
  | '\n' :: rest => closeLine line :: linesFrom [] rest
  | char :: rest => linesFrom (char :: line) rest

/-- The lines of a text, without their line ends. -/
def lines (text : List Char) : List (List Char) :=
  linesFrom [] text

/-- Number of lines of a text. -/
def countLines (text : List Char) : Nat :=
  (lines text).length

end LoopLift.Text
