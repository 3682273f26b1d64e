/-!
# Glob patterns

A glob is a list of tokens that is matched against the bytes of a path. A star
and a question mark stay inside one name, and a double star between slashes
stands for any number of directories.
-/

namespace LoopLift.Ignore

/-- One token of a glob. -/
inductive Token where
  | byte (value : UInt8)
  /-- Any byte but a slash. -/
  | any
  /-- Any number of bytes other than slashes. -/
  | star
  /-- Any number of leading directories. -/
  | leading
  /-- All that is below a directory. -/
  | trailing
  /-- Any number of directories between two slashes. -/
  | between
  /-- A byte in one of the ranges, or in none of them. -/
  | oneOf (negated : Bool) (ranges : List (UInt8 × UInt8))
  | choice (branches : List (List Token))
  deriving Inhabited

/-- Why a text is no glob. -/
inductive GlobError where
  | invalidRange (first last : Char)
  | unopenedChoice
  | unclosedChoice
  | danglingEscape
  deriving Repr, DecidableEq

/-- The wording of an error. -/
def GlobError.message : GlobError → String
  | .invalidRange first last =>
      "invalid range; '" ++ first.toString ++ "' > '" ++ last.toString ++ "'"
  | .unopenedChoice =>
      "unopened alternate group; missing '\x7b' (maybe escape '\x7d' with '[\x7d]'?)"
  | .unclosedChoice =>
      "unclosed alternate group; missing '\x7d' (maybe escape '\x7b' with '[\x7b]'?)"
  | .danglingEscape => "dangling '\\'"

/-! ## Matching -/

/-- The slash between two names. -/
def slash : UInt8 := 47

/-- What can remain of a text after any number of bytes other than slashes. -/
def afterName : List UInt8 → List (List UInt8)
  | [] => [[]]
  | head :: rest => (head :: rest) :: if head = slash then [] else afterName rest

/-- What can remain of a text right after one of its slashes. -/
def afterSlashes : List UInt8 → List (List UInt8)
  | [] => []
  | head :: rest => if head = slash then rest :: afterSlashes rest else afterSlashes rest

/-- Every end of a text. -/
def ends : List UInt8 → List (List UInt8)
  | [] => [[]]
  | head :: rest => (head :: rest) :: ends rest

mutual

/-- What can remain of a text behind a token. -/
def Token.rests : Token → List UInt8 → List (List UInt8)
  | .byte value, text => if text.head? == some value then [text.tail] else []
  | .any, text =>
      match text with
      | head :: rest => if head = slash then [] else [rest]
      | [] => []
  | .star, text => afterName text
  | .leading, text => text :: afterSlashes text
  | .trailing, text => if text.head? == some slash then ends text.tail else []
  | .between, text =>
      if text.head? == some slash then text.tail :: afterSlashes text.tail else []
  | .oneOf negated ranges, text =>
      match text with
      | head :: rest =>
          if ranges.any (fun (first, last) => first ≤ head && head ≤ last) != negated then [rest]
          else []
      | [] => []
  | .choice branches, text =>
      if branches.all List.isEmpty then [text] else branchRests branches text

/-- What can remain of a text behind a sequence of tokens. -/
def sequenceRests : List Token → List UInt8 → List (List UInt8)
  | [], text => [text]
  | token :: rest, text =>
      ((token.rests text).eraseDups.flatMap (sequenceRests rest)).eraseDups

/-- What can remain of a text behind one of several sequences, empty ones left
out. -/
def branchRests : List (List Token) → List UInt8 → List (List UInt8)
  | [], _ => []
  | [] :: rest, text => branchRests rest text
  | (token :: branch) :: rest, text =>
      sequenceRests (token :: branch) text ++ branchRests rest text

end

/-- Whether a glob matches a whole path. A lone double star matches all. -/
def matchesPath (glob : List Token) (path : String) : Bool :=
  match glob with
  | [.leading] => true
  | _ => (sequenceRests glob path.toUTF8.toList).any List.isEmpty

/-! ## Reading -/

/-- The bytes of a character. -/
def bytesOf (char : Char) : List UInt8 :=
  char.toString.toUTF8.toList

/-- The byte ranges of a range of characters. Bytes of a character that takes
several of them stand for themselves. -/
def byteRanges (first last : Char) : List (UInt8 × UInt8) :=
  let self := fun byte : UInt8 => (byte, byte)
  if first = last then (bytesOf first).map self
  else
    match (bytesOf first).getLast?, (bytesOf last).head? with
    | some low, some high =>
        (bytesOf first).dropLast.map self ++ [(low, high)] ++ (bytesOf last).tail.map self
    | _, _ => []

/-- A bracketed class as far as it was read, last range first. -/
structure ClassState where
  ranges : List (Char × Char) := []
  inRange : Bool := false
  first : Bool := true

/-- Read a class up to its closing bracket. A class without one is none. -/
def readClass (state : ClassState) : List Char →
    Except GlobError (Option (List (Char × Char) × List Char))
  | [] => .ok none
  | char :: rest =>
      if char = ']' && !state.first then
        .ok (some ((if state.inRange then ('-', '-') :: state.ranges else state.ranges).reverse,
          rest))
      else if state.inRange then
        match state.ranges with
        | (low, _) :: others =>
            if char < low then .error (.invalidRange low char)
            else readClass ⟨(low, char) :: others, false, false⟩ rest
        | [] => readClass ⟨[(char, char)], false, false⟩ rest
      else if char = '-' && !state.first then
        readClass ⟨state.ranges, true, false⟩ rest
      else
        readClass ⟨(char, char) :: state.ranges, false, false⟩ rest

/-- The bracketed class that follows an opening bracket. -/
def classToken? (rest : List Char) : Except GlobError (Option (Token × List Char)) := do
  let (negated, body) := match rest with
    | '!' :: body | '^' :: body => (true, body)
    | _ => (false, rest)
  let result ← readClass {} body
  return result.map fun (ranges, after) =>
    (.oneOf negated (ranges.flatMap fun (first, last) => byteRanges first last), after)

/-- A glob as far as it was read. Tokens stand last first, and every open choice
holds its finished branches and the tokens before it. -/
structure GlobState where
  tokens : List Token := []
  pending : List (List (List Token) × List Token) := []
  previous : Option Char := none

namespace GlobState

/-- Append tokens. -/
def push (state : GlobState) (new : List Token) : GlobState :=
  { state with tokens := new.reverse ++ state.tokens }

/-- Start a choice. -/
def openChoice (state : GlobState) : GlobState :=
  { state with tokens := [], pending := ([], state.tokens) :: state.pending }

/-- Start the next branch of the innermost choice. A comma outside of every
choice stands for itself. -/
def nextBranch (state : GlobState) : GlobState :=
  match state.pending with
  | [] => state.push [.byte 44]
  | (branches, before) :: outer =>
      { state with
        tokens := [], pending := (state.tokens.reverse :: branches, before) :: outer }

/-- Finish the innermost choice. -/
def closeChoice (state : GlobState) : Except GlobError GlobState :=
  match state.pending with
  | [] => .error .unopenedChoice
  | (branches, before) :: outer =>
      let choice := Token.choice (state.tokens.reverse :: branches).reverse
      .ok { state with tokens := choice :: before, pending := outer }

/-- Two stars in a row and what follows them. A slash behind them is part of
what they stand for. -/
def doubleStar (state : GlobState) (rest : List Char) : GlobState × List Char :=
  let before (char : Char) (state : GlobState) := { state with previous := some char }
  let plain := (before '*' (state.push [.star, .star]), rest)
  match state.tokens with
  | [] =>
      match rest with
      | [] => (before '*' (state.push [.leading]), [])
      | '/' :: after => (before '/' (state.push [.leading]), after)
      | _ => plain
  | last :: earlier =>
      let opening := !state.pending.isEmpty &&
        (state.previous == some ',' || state.previous == some '\x7b')
      if state.previous != some '/' && !opening then plain
      else
        let replaced (token : Token) : GlobState :=
          match last with
          | .leading | .trailing => state
          | _ => { state with tokens := token :: earlier }
        match rest with
        | [] => (before '*' (replaced .trailing), [])
        | '/' :: after => (before '/' (replaced .between), after)
        | next :: _ =>
            if !state.pending.isEmpty && (next = ',' || next = '\x7d') then
              (before '*' (replaced .trailing), rest)
            else plain

end GlobState

/-- Read a glob from characters, at most `fuel` tokens of it. -/
def readGlob : (fuel : Nat) → GlobState → List Char → Except GlobError (List Token)
  | 0, state, _ => .ok state.tokens.reverse
  | _ + 1, state, [] =>
      if state.pending.isEmpty then .ok state.tokens.reverse else .error .unclosedChoice
  | fuel + 1, state, char :: rest => do
      let next := fun (state : GlobState) => { state with previous := some char }
      match char, rest with
      | '?', _ => readGlob fuel (next (state.push [.any])) rest
      | '*', '*' :: after =>
          let (state, after) := state.doubleStar after
          readGlob fuel state after
      | '*', _ => readGlob fuel (next (state.push [.star])) rest
      | '[', _ =>
          match ← classToken? rest with
          | some (token, after) =>
              readGlob fuel { state.push [token] with previous := some ']' } after
          | none => readGlob fuel (next (state.push [.byte 91])) rest
      | '\x7b', _ => readGlob fuel (next state.openChoice) rest
      | '\x7d', _ => readGlob fuel (next (← state.closeChoice)) rest
      | ',', _ => readGlob fuel (next state.nextBranch) rest
      | '\\', [] => throw .danglingEscape
      | '\\', escaped :: after =>
          readGlob fuel
            { state.push ((bytesOf escaped).map .byte) with previous := some escaped } after
      | _, _ => readGlob fuel (next (state.push ((bytesOf char).map .byte))) rest

/-- The glob that a text stands for. -/
def parseGlob (text : String) : Except GlobError (List Token) :=
  readGlob (text.length + 1) {} text.toList

end LoopLift.Ignore
