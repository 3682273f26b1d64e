import LoopLift.Json.Basic
import LoopLift.Text.Magnitude

/-!
# Reading JSON

A reader takes a value from the front of a text and leaves the rest. Texts are
checked for the form of their escapes only, so a document can hold half of a
surrogate pair as long as nobody asks for that text.
-/

namespace LoopLift.Json

/-- The blanks between the parts of a document. -/
def isSpace (char : Char) : Bool :=
  char == ' ' || char == '\t' || char == '\n' || char == '\r'

/-- Leave out leading blanks. -/
def skipSpace (text : List Char) : List Char :=
  text.dropWhile isSpace

/-- Whether a character is a digit to the base sixteen. -/
def isHexDigit (char : Char) : Bool :=
  char.isDigit || ('a' ≤ char && char ≤ 'f') || ('A' ≤ char && char ≤ 'F')

/-- Read a text up to its closing quote. `read` holds what was read, given
backwards. -/
def readString (read : List Char) : List Char → Option (List Char × List Char)
  | [] => none
  | '"' :: rest => some (read.reverse, rest)
  | '\\' :: 'u' :: a :: b :: c :: d :: rest =>
      if [a, b, c, d].all isHexDigit then readString (d :: c :: b :: a :: 'u' :: '\\' :: read) rest
      else none
  | '\\' :: escaped :: rest =>
      if ['"', '\\', '/', 'b', 'f', 'n', 'r', 't'].contains escaped then
        readString (escaped :: '\\' :: read) rest
      else none
  | char :: rest =>
      if char == '\\' || char.toNat < 32 then none else readString (char :: read) rest

/-- The digits at the front of a text. -/
def digits (text : List Char) : List Char × List Char :=
  text.span Char.isDigit

/-- The whole part of a number: a zero, or digits that do not start with one. -/
def readWhole (text : List Char) : Option (List Char × List Char) :=
  match text with
  | '0' :: rest => if rest.head?.any Char.isDigit then none else some (['0'], rest)
  | _ =>
      match digits text with
      | ([], _) => none
      | found => some found

/-- The part of a number behind its point, if there is one. -/
def readFraction (text : List Char) : Option (List Char × List Char) :=
  match text with
  | '.' :: rest =>
      match digits rest with
      | ([], _) => none
      | (found, rest) => some ('.' :: found, rest)
  | _ => some ([], text)

/-- The exponent of a number, if there is one. -/
def readExponent (text : List Char) : Option (List Char × List Char) :=
  match text with
  | mark :: rest =>
      if mark == 'e' || mark == 'E' then
        let (sign, rest) := match rest with
          | '+' :: rest => (['+'], rest)
          | '-' :: rest => (['-'], rest)
          | _ => ([], rest)
        match digits rest with
        | ([], _) => none
        | (found, rest) => some (mark :: sign ++ found, rest)
      else some ([], text)
  | [] => some ([], text)

/-- Read a number. -/
def readNumber (text : List Char) : Option (Json × List Char) := do
  let (sign, rest) := match text with
    | '-' :: rest => (['-'], rest)
    | _ => ([], text)
  let (whole, rest) ← readWhole rest
  let (fraction, rest) ← readFraction rest
  let (exponent, rest) ← readExponent rest
  return (.number (String.ofList (sign ++ whole ++ fraction ++ exponent)), rest)

/-- A value that is under construction around the place that was reached. -/
inductive Frame where
  /-- An array with the items read so far, the last one first. -/
  | items (read : List Json)
  /-- An object with the members read so far and the name of the next one. -/
  | members (read : List (List Char × Json)) (name : List Char)

/-- What a reader waits for. -/
inductive Expectation where
  | value
  /-- A value, or the end of an array that was just opened. -/
  | valueOrEnd
  /-- What may follow a value that was read. -/
  | after (value : Json)
  /-- The name of a member of the object whose members are given. -/
  | name (read : List (List Char × Json))

/-- The name of a member and the colon behind it. -/
def readName (text : List Char) : Option (List Char × List Char) := do
  let (name, rest) ← match text with
    | '"' :: rest => readString [] rest
    | _ => none
  match skipSpace rest with
  | ':' :: rest => some (name, rest)
  | _ => none

/-- Read a word that stands for a value. -/
def readWord (text : List Char) : Option (Json × List Char) :=
  match text with
  | 'n' :: 'u' :: 'l' :: 'l' :: rest => some (.null, rest)
  | 't' :: 'r' :: 'u' :: 'e' :: rest => some (.boolean true, rest)
  | 'f' :: 'a' :: 'l' :: 's' :: 'e' :: rest => some (.boolean false, rest)
  | _ => none

/-- Read a document. `frames` holds the open values, the innermost first, and
every step takes a character or closes a value. -/
def readFrom : (fuel : Nat) → List Frame → Expectation → List Char → Option Json
  | 0, _, _, _ => none
  | fuel + 1, frames, expectation, text =>
      let text := skipSpace text
      match expectation with
      | .after value =>
          match frames, text with
          | [], [] => some value
          | .items read :: outer, ']' :: rest =>
              readFrom fuel outer (.after (.array (value :: read).reverse)) rest
          | .items read :: outer, ',' :: rest =>
              readFrom fuel (.items (value :: read) :: outer) .value rest
          | .members read name :: outer, '\x7d' :: rest =>
              readFrom fuel outer (.after (.object ((name, value) :: read).reverse)) rest
          | .members read name :: outer, ',' :: rest =>
              readFrom fuel outer (.name ((name, value) :: read)) rest
          | _, _ => none
      | .name read => do
          let (name, rest) ← readName text
          readFrom fuel (.members read name :: frames) .value rest
      | .valueOrEnd =>
          match frames, text with
          | .items [] :: outer, ']' :: rest => readFrom fuel outer (.after (.array [])) rest
          | _, _ => readFrom fuel frames .value text
      | .value =>
          match text with
          | '[' :: rest => readFrom fuel (.items [] :: frames) .valueOrEnd rest
          | '\x7b' :: rest =>
              match skipSpace rest with
              | '\x7d' :: rest => readFrom fuel frames (.after (.object [])) rest
              | rest => readFrom fuel frames (.name []) rest
          | '"' :: rest => do
              let (written, rest) ← readString [] rest
              readFrom fuel frames (.after (.string written)) rest
          | _ => do
              let (value, rest) ← (readWord text).or (readNumber text)
              readFrom fuel frames (.after value) rest

/-- The document that a text holds. -/
def read? (text : String) : Option Json :=
  readFrom (3 * text.length + 3) [] .value text.toList

/-! ## What a document means -/

/-- The value of a digit to the base sixteen. -/
def hexValue (char : Char) : Nat :=
  if char.isDigit then char.toNat - 48
  else if 'a' ≤ char then char.toNat - 87
  else char.toNat - 55

/-- The value of four digits to the base sixteen. -/
def unitValue (a b c d : Char) : Nat :=
  ((hexValue a * 16 + hexValue b) * 16 + hexValue c) * 16 + hexValue d

/-- The character that an escape letter stands for. -/
def escapedChar (letter : Char) : Char :=
  match letter with
  | 'b' => '\x08'
  | 'f' => '\x0c'
  | 'n' => '\n'
  | 'r' => '\r'
  | 't' => '\t'
  | other => other

/-- Resolve the escapes of a text. Half of a surrogate pair stands for no
character. -/
def unescape : List Char → Option (List Char)
  | '\\' :: 'u' :: a :: b :: c :: d :: '\\' :: 'u' :: e :: f :: g :: h :: rest =>
      let first := unitValue a b c d
      let second := unitValue e f g h
      if 0xd800 ≤ first && first < 0xdc00 then
        if 0xdc00 ≤ second && second < 0xe000 then
          (unescape rest).map
            (Char.ofNat (0x10000 + (first - 0xd800) * 0x400 + (second - 0xdc00)) :: ·)
        else none
      else if 0xdc00 ≤ first && first < 0xe000 then none
      else (unescape ('\\' :: 'u' :: e :: f :: g :: h :: rest)).map (Char.ofNat first :: ·)
  | '\\' :: 'u' :: a :: b :: c :: d :: rest =>
      let unit := unitValue a b c d
      if 0xd800 ≤ unit && unit < 0xe000 then none
      else (unescape rest).map (Char.ofNat unit :: ·)
  | '\\' :: letter :: rest => (unescape rest).map (escapedChar letter :: ·)
  | char :: rest => (unescape rest).map (char :: ·)
  | [] => some []

/-- The text that a written text stands for. -/
def plain? (written : List Char) : Option String :=
  (unescape written).map String.ofList

mutual

/-- Whether a value nests at most `depth` deep, and all its texts and numbers
have a meaning. -/
def isSound (depth : Nat) : Json → Bool
  | .null | .boolean _ => true
  | .number digits => Text.isFiniteDecimal digits.toList
  | .string written => (plain? written).isSome
  | .array items => depth != 0 && allSound (depth - 1) items
  | .object members => depth != 0 && allMembersSound (depth - 1) members

/-- Whether all of several values are sound. -/
def allSound (depth : Nat) : List Json → Bool
  | [] => true
  | item :: rest => item.isSound depth && allSound depth rest

/-- Whether all of several members are sound. -/
def allMembersSound (depth : Nat) : List (List Char × Json) → Bool
  | [] => true
  | (name, value) :: rest =>
      (plain? name).isSome && value.isSound depth && allMembersSound depth rest

end

/-- The value of the last member with a name. -/
def member? (name : String) : Json → Option Json
  | .object members =>
      (members.reverse.find? fun (written, _) => plain? written == some name).map Prod.snd
  | _ => none

end LoopLift.Json
