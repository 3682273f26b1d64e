import LoopLift.Text.Magnitude
import LoopLift.Toml.Basic

/-!
# Numbers, words and points in time in TOML

These values are written without quotes. Each kind has its own form, and a text
that has none of them is no value.
-/

namespace LoopLift.Toml

/-- Digits with single underscores between them: what follows the digit or
underscore that was read last. -/
def groupedFrom (isDigit : Char → Bool) (afterDigit : Bool) : List Char → Bool
  | [] => afterDigit
  | char :: rest =>
      if isDigit char then groupedFrom isDigit true rest
      else char == '_' && afterDigit && groupedFrom isDigit false rest

/-- Whether a text consists of digits with single underscores between them. -/
def isGrouped (isDigit : Char → Bool) (text : List Char) : Bool :=
  groupedFrom isDigit false text

/-- A text without its sign. -/
def unsigned (text : List Char) : List Char :=
  match text with
  | '+' :: rest => rest
  | '-' :: rest => rest
  | _ => text

/-- Whether a text is the whole part of a decimal number. -/
def isWhole (text : List Char) : Bool :=
  isGrouped Char.isDigit text && (text == ['0'] || text.head? != some '0')

/-- The digits of a base that a text may consist of. -/
def isDigitOf (base : Nat) (char : Char) : Bool :=
  let value :=
    if char.isDigit then char.toNat - 48
    else if 'a' ≤ char && char ≤ 'f' then char.toNat - 87
    else if 'A' ≤ char && char ≤ 'F' then char.toNat - 55
    else base
  value < base

/-- The value of digits to a base, underscores left out. -/
def valueOf (base : Nat) (text : List Char) : Nat :=
  (text.filter (· != '_')).foldl (fun value char =>
    value * base +
      (if char.isDigit then char.toNat - 48
       else if 'a' ≤ char then char.toNat - 87
       else char.toNat - 55)) 0

/-- Whether a text is an integer of at most 128 bits. -/
def isInteger (text : List Char) : Bool :=
  let based (base : Nat) (digits : List Char) :=
    isGrouped (isDigitOf base) digits && valueOf base digits < Nat.pow 2 128
  match text with
  | '0' :: 'x' :: digits => based 16 digits
  | '0' :: 'o' :: digits => based 8 digits
  | '0' :: 'b' :: digits => based 2 digits
  | _ =>
      let digits := unsigned text
      let limit := if text.head? == some '-' then Nat.pow 2 127 + 1 else Nat.pow 2 128
      isWhole digits && valueOf 10 digits < limit

/-- Whether a text is an exponent, or empty. -/
def isExponent (text : List Char) : Bool :=
  match text with
  | [] => true
  | mark :: power => (mark == 'e' || mark == 'E') && isGrouped Char.isDigit (unsigned power)

/-- Whether a text is a number with a fraction or an exponent, or one of the
numbers that have names. -/
def isFloat (text : List Char) : Bool :=
  let text := unsigned text
  let (mantissa, exponent) := text.span fun char => char != 'e' && char != 'E'
  let (whole, fraction) := mantissa.span (· != '.')
  text == ['i', 'n', 'f'] || text == ['n', 'a', 'n'] ||
    (isWhole whole && (fraction.isEmpty || isGrouped Char.isDigit fraction.tail) &&
      isExponent exponent && (!fraction.isEmpty || !exponent.isEmpty) &&
      Text.isFiniteDecimal text)

/-- The number that a fixed count of digits stands for. -/
def fixedDigits? (size : Nat) (text : List Char) : Option (Nat × List Char) :=
  let digits := text.take size
  if digits.length = size ∧ digits.all Char.isDigit then
    some (Text.natOfDigits digits, text.drop size)
  else
    none

/-- Take one character. -/
def one? (char : Char) (text : List Char) : Option (List Char) :=
  if text.head? == some char then some text.tail else none

/-- Number of days of a month. -/
def daysIn (year month : Nat) : Nat :=
  if month = 2 then
    if year % 4 = 0 ∧ (year % 100 ≠ 0 ∨ year % 400 = 0) then 29 else 28
  else if month = 4 ∨ month = 6 ∨ month = 9 ∨ month = 11 then 30
  else 31

/-- Take a date. -/
def date? (text : List Char) : Option (List Char) := do
  let (year, rest) ← fixedDigits? 4 text
  let (month, rest) ← fixedDigits? 2 (← one? '-' rest)
  let (day, rest) ← fixedDigits? 2 (← one? '-' rest)
  guard (1 ≤ month ∧ month ≤ 12 ∧ 1 ≤ day ∧ day ≤ daysIn year month)
  return rest

/-- Take a part of a second, if there is one. -/
def fraction? (text : List Char) : Option (List Char) :=
  match text with
  | '.' :: rest =>
      if rest.head?.any Char.isDigit then some (rest.dropWhile Char.isDigit) else none
  | _ => some text

/-- Take a time of day. The seconds may be left out. -/
def time? (text : List Char) : Option (List Char) := do
  let (hour, rest) ← fixedDigits? 2 text
  let (minute, rest) ← fixedDigits? 2 (← one? ':' rest)
  guard (hour ≤ 23 ∧ minute ≤ 59)
  match rest with
  | ':' :: rest =>
      let (second, rest) ← fixedDigits? 2 rest
      guard (second ≤ 60)
      fraction? rest
  | _ => return rest

/-- Take the distance to universal time, if there is one. -/
def offset? (text : List Char) : Option (List Char) :=
  match text with
  | 'Z' :: rest | 'z' :: rest => some rest
  | '+' :: rest | '-' :: rest => do
      let (hour, rest) ← fixedDigits? 2 rest
      let (minute, rest) ← fixedDigits? 2 (← one? ':' rest)
      guard (hour ≤ 23 ∧ minute ≤ 59)
      return rest
  | _ => some text

/-- Whether a text is a date, a time of day, or both. -/
def isMoment (text : List Char) : Bool :=
  match date? text with
  | some [] => true
  | some (mark :: rest) =>
      (mark == 'T' || mark == 't' || mark == ' ') && (time? rest).bind offset? == some []
  | none => time? text == some []

/-- The value that a text without quotes stands for. -/
def scalar? (text : List Char) : Option Toml :=
  if text = ['t', 'r', 'u', 'e'] then some (.boolean true)
  else if text = ['f', 'a', 'l', 's', 'e'] then some (.boolean false)
  else if isInteger text || isFloat text then some (.number (String.ofList text))
  else if isMoment text then some (.moment (String.ofList text))
  else none

/-- The characters of values without quotes. -/
def isScalarChar (char : Char) : Bool :=
  char.isAlphanum || char == '_' || char == '+' || char == '-' || char == '.' || char == ':'

/-- Read a value without quotes. A date may be divided from a time by a blank. -/
def readScalar (text : List Char) : Option (Toml × List Char) := do
  let (first, rest) := text.span isScalarChar
  let (written, rest) :=
    match rest with
    | ' ' :: next :: after =>
        if next.isDigit && date? first == some [] then
          let (second, rest) := (next :: after).span isScalarChar
          (first ++ ' ' :: second, rest)
        else (first, rest)
    | _ => (first, rest)
  return (← scalar? written, rest)

end LoopLift.Toml
