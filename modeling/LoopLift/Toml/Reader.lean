import LoopLift.Toml.Quoted
import LoopLift.Toml.Scalar

/-!
# Reading TOML

A document is read line by line: headers, keys with values, and comments.
-/

namespace LoopLift.Toml

/-- Leave out blanks. -/
def skipBlanks (text : List Char) : List Char :=
  text.dropWhile fun char => char == ' ' || char == '\t'

/-- Leave out a comment, if there is one. It ends before the end of its line. -/
def skipComment (text : List Char) : List Char :=
  match text with
  | '#' :: rest => rest.dropWhile isTextChar
  | _ => text

/-- Leave out blanks, comments and line ends. -/
def skipLines : (fuel : Nat) → List Char → List Char
  | 0, text => text
  | fuel + 1, text =>
      let text := skipComment (skipBlanks text)
      match lineEnd? text with
      | some rest => skipLines fuel rest
      | none => text

/-- The characters of keys without quotes. -/
def isKeyChar (char : Char) : Bool :=
  char.isAlphanum || char == '_' || char == '-'

/-- Read one part of a key. -/
def readPart (text : List Char) : Option (String × List Char) :=
  match text.span isKeyChar with
  | ([], _) => readText false text
  | (part, rest) => some (String.ofList part, rest)

/-- Read the parts of a key and the blanks behind it. -/
def readKey : (fuel : Nat) → List Char → Option (List String × List Char)
  | 0, _ => none
  | fuel + 1, text => do
      let (part, rest) ← readPart (skipBlanks text)
      match skipBlanks rest with
      | '.' :: rest =>
          let (parts, rest) ← readKey fuel rest
          return (part :: parts, rest)
      | rest => return ([part], rest)

/-- The path of a key and its last part. -/
def splitKey (parts : List String) : List String × String :=
  (parts.dropLast, parts.getLastD "")

/-- How deep values may nest. -/
def depthLimit : Nat := 80

mutual

/-- Read a value. -/
def readValue : (fuel depth : Nat) → List Char → Option (Toml × List Char)
  | 0, _, _ => none
  | fuel + 1, depth, text =>
      match text with
      | '[' :: rest =>
          match depth with
          | 0 => none
          | depth + 1 => readItems fuel depth [] rest
      | '\x7b' :: rest =>
          match depth with
          | 0 => none
          | depth + 1 => readMembers fuel depth [] rest
      | '"' :: _ | '\'' :: _ =>
          (readText true text).map fun (value, rest) => (.string value, rest)
      | _ => readScalar text

/-- Read the items of an array, when some were read, up to its end. -/
def readItems : (fuel depth : Nat) → List Toml → List Char → Option (Toml × List Char)
  | 0, _, _, _ => none
  | fuel + 1, depth, items, text =>
      let skip (text : List Char) := skipLines (text.length + 1) text
      match skip text with
      | ']' :: rest => some (.array false items, rest)
      | text => do
          let (item, rest) ← readValue fuel depth text
          match skip rest with
          | ',' :: rest => readItems fuel depth (items ++ [item]) rest
          | ']' :: rest => some (.array false (items ++ [item]), rest)
          | _ => none

/-- Read the members of a table in braces, when some were read, up to its end. -/
def readMembers : (fuel depth : Nat) → Members → List Char → Option (Toml × List Char)
  | 0, _, _, _ => none
  | fuel + 1, depth, members, text =>
      let skip (text : List Char) := skipLines (text.length + 1) text
      match skip text with
      | '\x7d' :: rest => some (.table .inline members, rest)
      | text => do
          let (parts, rest) ← readKey (text.length + 1) text
          let rest ← one? '=' rest
          let (value, rest) ← readValue fuel depth (skipBlanks rest)
          let (path, key) := splitKey parts
          let members ← add path key value members
          match skip rest with
          | ',' :: rest => readMembers fuel depth members rest
          | '\x7d' :: rest => some (.table .inline members, rest)
          | _ => none

end

/-- A document as far as it was read. -/
structure State where
  members : Members := []
  /-- Path of the table that keys are added to. -/
  header : List String := []

/-- Read a header behind its opening bracket. -/
def readHeader (state : State) (text : List Char) : Option (State × List Char) := do
  let (ofArray, text) := match text with
    | '[' :: rest => (true, rest)
    | _ => (false, text)
  let (parts, rest) ← readKey (text.length + 1) text
  let rest ← one? ']' rest
  let rest ← if ofArray then one? ']' rest else some rest
  let (path, key) := splitKey parts
  let define := if ofArray then appendTable key else defineTable key
  let members ← within define path state.members
  return ({ members, header := parts }, rest)

/-- Read a key and its value. -/
def readPair (state : State) (text : List Char) : Option (State × List Char) := do
  let (parts, rest) ← readKey (text.length + 1) text
  let rest ← one? '=' rest
  let rest := skipBlanks rest
  let (value, rest) ← readValue (2 * rest.length + 2) depthLimit rest
  let (path, key) := splitKey parts
  let members ← within (add path key value) state.header state.members
  return ({ state with members }, rest)

/-- Read the lines of a document. -/
def readDocument : (fuel : Nat) → State → List Char → Option Members
  | 0, _, _ => none
  | fuel + 1, state, text => do
      let text := skipBlanks text
      let (state, rest) ← match text with
        | [] | '#' :: _ | '\n' :: _ | '\r' :: _ => some (state, text)
        | '[' :: rest => readHeader state rest
        | _ => readPair state text
      match skipComment (skipBlanks rest) with
      | [] => return state.members
      | rest => readDocument fuel state (← lineEnd? rest)

/-- The document that a text holds. A mark at its start does not count. -/
def read? (text : String) : Option Members :=
  let text := match text.toList with
    | '\uFEFF' :: rest => rest
    | text => text
  readDocument (text.length + 1) {} text

end LoopLift.Toml
