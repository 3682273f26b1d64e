import LoopLift.Toml.Basic

/-!
# Texts in TOML

A text stands between double quotes, where a backslash starts an escape, or
between single quotes, where it does not. Three quotes allow line ends inside.
-/

namespace LoopLift.Toml

/-- Whether a character may stand in a text as it is. -/
def isTextChar (char : Char) : Bool :=
  char == '\t' || (32 ≤ char.toNat && char.toNat != 127)

/-- The value of a digit to the base sixteen. -/
def hexValue? (char : Char) : Option Nat :=
  if char.isDigit then some (char.toNat - 48)
  else if 'a' ≤ char && char ≤ 'f' then some (char.toNat - 87)
  else if 'A' ≤ char && char ≤ 'F' then some (char.toNat - 55)
  else none

/-- The character with a code of a fixed count of digits. -/
def coded? (size : Nat) (text : List Char) : Option (Char × List Char) := do
  let digits ← (text.take size).mapM hexValue?
  guard (digits.length = size)
  let code := digits.foldl (fun value digit => value * 16 + digit) 0
  guard (code.isValidChar)
  return (Char.ofNat code, text.drop size)

/-- The character that an escape stands for. -/
def escaped? (text : List Char) : Option (Char × List Char) :=
  match text with
  | 'b' :: rest => some ('\x08', rest)
  | 't' :: rest => some ('\t', rest)
  | 'n' :: rest => some ('\n', rest)
  | 'f' :: rest => some ('\x0c', rest)
  | 'r' :: rest => some ('\r', rest)
  | 'e' :: rest => some ('\x1b', rest)
  | '"' :: rest => some ('"', rest)
  | '\\' :: rest => some ('\\', rest)
  | 'x' :: rest => coded? 2 rest
  | 'u' :: rest => coded? 4 rest
  | 'U' :: rest => coded? 8 rest
  | _ => none

/-- Leave out a line end. -/
def lineEnd? (text : List Char) : Option (List Char) :=
  match text with
  | '\n' :: rest => some rest
  | '\r' :: '\n' :: rest => some rest
  | _ => none

/-- Leave out blanks and line ends behind a backslash at the end of a line. -/
def continued? (text : List Char) : Option (List Char) :=
  let isBlank (char : Char) := char == ' ' || char == '\t'
  match lineEnd? (text.dropWhile isBlank) with
  | some rest => some (rest.dropWhile fun char => isBlank char || char == '\n' || char == '\r')
  | none => none

/-- How a text is quoted. -/
structure Quoting where
  quote : Char
  /-- Whether a backslash starts an escape. -/
  escapes : Bool
  /-- Whether the text may hold line ends, and ends at three quotes. -/
  long : Bool

/-- What the quotes at the front of a text close. At three quotes and more, up
to two belong to the text. -/
def closed? (quoting : Quoting) (text : List Char) : Option (List Char × List Char) :=
  let quotes := (text.takeWhile (· == quoting.quote)).length
  if quoting.long then
    if quotes < 3 then none
    else
      let kept := min (quotes - 3) 2
      some (List.replicate kept quoting.quote, text.drop (kept + 3))
  else if quotes = 0 then none
  else some ([], text.drop 1)

/-- Read a text up to its closing quotes. `read` holds what was read, given
backwards. -/
def readQuoted (quoting : Quoting) : (fuel : Nat) → (read : List Char) → List Char →
    Option (List Char × List Char)
  | 0, _, _ => none
  | fuel + 1, read, text =>
      match closed? quoting text with
      | some (kept, rest) => some (read.reverse ++ kept, rest)
      | none =>
          match text with
          | [] => none
          | char :: rest =>
              if char == '\\' && quoting.escapes then
                match (if quoting.long then continued? rest else none) with
                | some rest => readQuoted quoting fuel read rest
                | none => do
                    let (char, rest) ← escaped? rest
                    readQuoted quoting fuel (char :: read) rest
              else if isTextChar char then readQuoted quoting fuel (char :: read) rest
              else if quoting.long then
                match lineEnd? text with
                | some rest => readQuoted quoting fuel ('\n' :: read) rest
                | none => none
              else none

/-- Read a text with its quotes. A line end right behind three quotes does not
count. -/
def readText (allowLong : Bool) (text : List Char) : Option (String × List Char) := do
  let quote ← text.head?
  guard (quote = '"' ∨ quote = '\'')
  let long := allowLong && [quote, quote, quote].isPrefixOf text
  let body := text.drop (if long then 3 else 1)
  let body := if long then (lineEnd? body).getD body else body
  let (read, rest) ← readQuoted ⟨quote, quote = '"', long⟩ (body.length + 1) [] body
  return (String.ofList read, rest)

end LoopLift.Toml
