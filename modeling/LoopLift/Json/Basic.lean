/-!
# JSON documents

A document as it is written: texts keep their escapes, numbers their digits, and
objects all their members in order. What a text or a number stands for is asked
for when it is needed.
-/

namespace LoopLift

/-- A JSON value as it is written. -/
inductive Json where
  | null
  | boolean (value : Bool)
  | number (digits : String)
  /-- A text with its escapes, without the quotes around it. -/
  | string (written : List Char)
  | array (items : List Json)
  | object (members : List (List Char × Json))
  deriving Inhabited

namespace Json

/-- The letter that stands for a digit to the base sixteen. -/
def hexDigit (value : Nat) : Char :=
  if value < 10 then Char.ofNat (48 + value) else Char.ofNat (87 + value)

/-- A character as it is written in a text. -/
def escapeChar (char : Char) : List Char :=
  match char with
  | '"' => ['\\', '"']
  | '\\' => ['\\', '\\']
  | '\x08' => ['\\', 'b']
  | '\x0c' => ['\\', 'f']
  | '\n' => ['\\', 'n']
  | '\r' => ['\\', 'r']
  | '\t' => ['\\', 't']
  | _ =>
      if char.toNat < 32 then
        ['\\', 'u', '0', '0', hexDigit (char.toNat / 16), hexDigit (char.toNat % 16)]
      else [char]

/-- A text as it is written. -/
def escape (text : String) : List Char :=
  text.toList.flatMap escapeChar

/-- The value of a text. -/
def text (value : String) : Json := .string (escape value)

/-- The value of a natural number. -/
def count (value : Nat) : Json := .number (toString value)

/-- An object with the given members. -/
def record (members : List (String × Json)) : Json :=
  .object (members.map fun (name, value) => (escape name, value))

/-- A line break and the blanks that the next line starts with. -/
def lineBreak (depth : Nat) : String :=
  "\n" ++ String.ofList (List.replicate (2 * depth) ' ')

mutual

/-- A value on indented lines, at a depth. -/
def pretty (depth : Nat) : Json → String
  | .null => "null"
  | .boolean value => if value then "true" else "false"
  | .number digits => digits
  | .string written => "\"" ++ String.ofList written ++ "\""
  | .array [] => "[]"
  | .array (first :: rest) =>
      "[" ++ lineBreak (depth + 1) ++ first.pretty (depth + 1) ++ prettyItems (depth + 1) rest ++
        lineBreak depth ++ "]"
  | .object [] => "\x7b\x7d"
  | .object ((name, first) :: rest) =>
      "\x7b" ++ lineBreak (depth + 1) ++ "\"" ++ String.ofList name ++ "\": " ++
        first.pretty (depth + 1) ++ prettyMembers (depth + 1) rest ++ lineBreak depth ++ "\x7d"

/-- Items behind the first one. -/
def prettyItems (depth : Nat) : List Json → String
  | [] => ""
  | item :: rest => "," ++ lineBreak depth ++ item.pretty depth ++ prettyItems depth rest

/-- Members behind the first one. -/
def prettyMembers (depth : Nat) : List (List Char × Json) → String
  | [] => ""
  | (name, value) :: rest =>
      "," ++ lineBreak depth ++ "\"" ++ String.ofList name ++ "\": " ++ value.pretty depth ++
        prettyMembers depth rest

end

end Json

end LoopLift
