import LoopLift.Php.Trivia

/-!
# Grammar rules

A rule reads a piece of source and adds syntax nodes to a state. Rules are put
together with `>>` (one after the other) and `<|>` (the second when the first
does not match). A rule that does not match leaves no trace, so a comment ends
up in the smallest node that has tokens on both sides of it.
-/

namespace LoopLift.Php

open Syntax

/-- What a node is to the node that will hold it. -/
inductive PieceRole where
  /-- A child. -/
  | child
  /-- A comment or inline text, which is a child only between two others. -/
  | extra
  /-- A token that counts for the extent of its parent and leaves no child. -/
  | hidden
  deriving Repr, DecidableEq

/-- A node that has been read and waits for its parent. -/
structure Piece where
  role : PieceRole
  node : Node
  deriving Repr

/-- What may follow the expression that has just been read. -/
structure Reach where
  /-- A subscript or a member access. -/
  deref : Bool := false
  /-- A list of arguments. -/
  call : Bool := false
  /-- An assignment or a change by one. -/
  assign : Bool := false
  /-- A `::`. -/
  scope : Bool := false
  deriving Repr, Inhabited

/-- The state of reading. `pieces` are the nodes read for the parent in work, the
last one first. `limit` bounds every repetition by the length of the source.
With `recovering`, broken statements become error nodes. -/
structure State where
  cursor : Cursor
  pieces : List Piece := []
  reach : Reach := {}
  limit : Nat
  recovering : Bool := false

/-- A grammar rule. -/
structure Rule where
  run : State → Option State

instance : AndThen Rule where
  andThen first second := ⟨fun state => (first.run state).bind (second ()).run⟩

instance : OrElse Rule where
  orElse first second := ⟨fun state =>
    match first.run state with
    | some next => some next
    | none => (second ()).run state⟩

namespace State

/-- Add a node to the parent in work. -/
def push (state : State) (role : PieceRole) (node : Node) : State :=
  { state with pieces := ⟨role, node⟩ :: state.pieces }

/-- The loop of `skipExtras`. -/
def skipExtrasFrom (crossTags : Bool) : Nat → State → State
  | 0, state => state
  | fuel + 1, state =>
      let cursor := state.cursor.skipWhile isSpacing
      match commentEnd? cursor with
      | some stop =>
          skipExtrasFrom crossTags fuel
            ({ state with cursor := stop }.push .extra (leaf "comment" true cursor stop))
      | none =>
          match if crossTags then inlineText? cursor else none with
          | some (node, stop) =>
              skipExtrasFrom crossTags fuel ({ state with cursor := stop }.push .extra node)
          | none => { state with cursor }

/-- Read blanks and comments, and inline text when `crossTags` is set. -/
def skipExtras (crossTags : Bool) (state : State) : State :=
  skipExtrasFrom crossTags state.limit state

/-- The place of the next token. -/
def ahead (state : State) : Cursor :=
  (state.skipExtras true).cursor

/-- The place of the next token when it comes before any closing tag. -/
def aheadInside (state : State) : Cursor :=
  (state.skipExtras false).cursor

/-- The node that was read last for the parent in work. -/
def last? (state : State) : Option Node :=
  state.pieces.head?.map Piece.node

end State

/-- A node over pieces in source order. -/
def nodeOver (kind : String) (first : Piece) (pieces : List Piece) : Node :=
  { kind
    start := first.node.start
    stop := (pieces.map fun piece => piece.node.stop).foldl Nat.max first.node.stop
    row := first.node.row
    column := first.node.column
    children := ((first :: pieces).filter fun piece => piece.role != .hidden).map Piece.node }

/-- Put pieces, the last one first, under one node. Extras in front stay in
front of it. -/
def closePieces (kind : String) (pieces : List Piece) : List Piece :=
  let ordered := pieces.reverse
  let front := ordered.takeWhile fun piece => piece.role == .extra
  match ordered.dropWhile fun piece => piece.role == .extra with
  | [] => pieces
  | first :: rest => ⟨.child, nodeOver kind first rest⟩ :: front.reverse

namespace Rule

/-- The rule that matches nothing at all, everywhere. -/
def accept : Rule := ⟨some⟩

/-- The rule that never matches. -/
def reject : Rule := ⟨fun _ => none⟩

/-- Matches without reading when the state satisfies a condition. -/
def guard (condition : State → Bool) : Rule :=
  ⟨fun state => if condition state then some state else none⟩

/-- A rule that depends on the state. -/
def depending (choose : State → Rule) : Rule :=
  ⟨fun state => (choose state).run state⟩

/-- A rule or nothing. -/
def optional (rule : Rule) : Rule :=
  rule <|> accept

/-- Put everything read for the parent in work under one node. -/
def close (kind : String) : Rule :=
  ⟨fun state => some { state with pieces := closePieces kind state.pieces }⟩

/-- Run a rule as the parent in work, then hand what it leaves to the parent
outside. -/
def grouped (rule : Rule) : Rule :=
  ⟨fun state => (rule.run { state with pieces := [] }).map fun inner =>
    { inner with pieces := inner.pieces ++ state.pieces }⟩

/-- A node of a kind around what a rule reads. -/
def node (kind : String) (rule : Rule) : Rule :=
  grouped (rule >> close kind)

/-- The loop of `many`. It stops when a repetition reads nothing. -/
def manyFrom (rule : Rule) : Nat → State → State
  | 0, state => state
  | fuel + 1, state =>
      match rule.run state with
      | none => state
      | some next =>
          if state.cursor.offset < next.cursor.offset then manyFrom rule fuel next else state

/-- A rule as often as it matches. -/
def many (rule : Rule) : Rule :=
  ⟨fun state => some (manyFrom rule state.limit state)⟩

/-- A rule at least once. -/
def many1 (rule : Rule) : Rule :=
  rule >> many rule

/-- A rule one or more times with separators between. -/
def sepBy1 (rule separator : Rule) : Rule :=
  rule >> many (separator >> rule)

/-- A rule, then as many steps as match, each of which puts all read so far under
one node. -/
def extended (base step : Rule) : Rule :=
  grouped (base >> many step)

/-- State what may follow the expression just read. -/
def reaching (reach : Reach) : Rule :=
  ⟨fun state => some { state with reach }⟩

/-- Exchange the node that was read last. There is no match when the exchange
fails. -/
def relabel (change : Node → Option Node) : Rule :=
  ⟨fun state =>
    match state.pieces with
    | piece :: rest =>
        (change piece.node).map fun node => { state with pieces := { piece with node } :: rest }
    | [] => none⟩

/-- Read one token with the given function, after blanks, comments and, when
`crossTags` is set, inline text. -/
def token (crossTags : Bool) (role : PieceRole) (read : Cursor → Option (Node × Cursor)) : Rule :=
  ⟨fun state =>
    let state := state.skipExtras crossTags
    (read state.cursor).map fun (node, cursor) => { state with cursor }.push role node⟩

/-- Read one token right at the cursor. -/
def immediate (role : PieceRole) (read : Cursor → Option (Node × Cursor)) : Rule :=
  ⟨fun state =>
    (read state.cursor).map fun (node, cursor) => { state with cursor }.push role node⟩

end Rule

end LoopLift.Php
