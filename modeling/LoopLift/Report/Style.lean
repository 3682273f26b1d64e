/-!
# Styled text

A style is written around a text by terminal codes, and not at all when colours
are off.
-/

namespace LoopLift

/-- Colour of a text. -/
inductive Color where
  | red
  | green
  | yellow
  | cyan
  deriving Repr, DecidableEq

/-- The terminal code of a colour. -/
def Color.code : Color → String
  | .red => "31"
  | .green => "32"
  | .yellow => "33"
  | .cyan => "36"

/-- The look of a text. -/
structure Style where
  bold : Bool := false
  dimmed : Bool := false
  underlined : Bool := false
  color : Option Color := none
  deriving Repr, DecidableEq

namespace Style

/-- The terminal codes of a style, in the order in which they are written. -/
def codes (style : Style) : List String :=
  (if style.bold then ["1"] else []) ++ (if style.dimmed then ["2"] else []) ++
    (if style.underlined then ["4"] else []) ++ style.color.toList.map Color.code

/-- What ends a styled text. -/
def reset : List Char := ['\x1b', '[', '0', 'm']

/-- What starts a styled text. -/
def start (style : Style) : List Char :=
  ['\x1b', '['] ++ (String.intercalate ";" style.codes).toList ++ ['m']

/-- Start a style again after every styled text inside a text. -/
def resume (start : List Char) : List Char → List Char
  | '\x1b' :: '[' :: '0' :: 'm' :: rest => reset ++ start ++ resume start rest
  | char :: rest => char :: resume start rest
  | [] => []

/-- A text in a style, if colours are on. -/
def paint (style : Style) (colors : Bool) (text : String) : String :=
  if colors && !style.codes.isEmpty then
    String.ofList (style.start ++ resume style.start text.toList ++ reset)
  else
    text

end Style

end LoopLift
