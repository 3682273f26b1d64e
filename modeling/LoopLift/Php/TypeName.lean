import LoopLift.Php.Nonterminal

/-!
# Names of classes and types
-/

namespace LoopLift.Php

open Syntax Rule

/-- The loop of `wordPath`. -/
def wordPathFrom : Nat → Cursor → List (Cursor × Cursor)
  | 0, _ => []
  | fuel + 1, cursor =>
      match wordEnd? cursor with
      | none => []
      | some stop =>
          match stop.rest with
          | '\\' :: next :: _ =>
              if startsWord next then
                (cursor, stop) :: wordPathFrom fuel (stop.advance 1)
              else
                [(cursor, stop)]
          | _ => [(cursor, stop)]

/-- Start and end of each of the words at a cursor that single backslashes tie
together. -/
def wordPath (cursor : Cursor) : List (Cursor × Cursor) :=
  let run := cursor.rest.takeWhile fun char => continuesWord char || char == '\\'
  wordPathFrom (run.length + 1) cursor

/-- The node of a word between two cursors. -/
def wordLeaf (word : Cursor × Cursor) : Node :=
  leaf "name" true word.1 word.2

/-- The node of the backslash in front of a word. -/
def backslashBefore (word : Cursor × Cursor) : Node :=
  { kind := "\\", named := false, start := word.1.offset - 1, stop := word.1.offset
    row := word.1.row, column := word.1.column - 1 }

/-- Words with the backslashes between them. -/
def wordsWithBackslashes : List (Cursor × Cursor) → List Node
  | [] => []
  | first :: rest =>
      wordLeaf first :: rest.flatMap fun word => [backslashBefore word, wordLeaf word]

/-- The node over the words of a namespace. -/
def namespaceNode (words : List (Cursor × Cursor)) : List Node :=
  match words, words.getLast? with
  | first :: _, some last =>
      [{ leaf "namespace_name" true first.1 last.2 with children := wordsWithBackslashes words }]
  | _, _ => []

/-- Read the words of a namespace. -/
def readNamespace (cursor : Cursor) : Option (Node × Cursor) :=
  let words := wordPath cursor
  match namespaceNode words, words.getLast? with
  | [node], some last => some (node, last.2)
  | _, _ => none

/-- The words of a namespace. -/
def namespaceName : Rule :=
  token true .child readNamespace

/-- The last word of a qualified name and what stands in front of it. -/
def splitPath (words : List (Cursor × Cursor)) :
    Option (List Node × (Cursor × Cursor)) :=
  words.getLast?.map fun last =>
    (namespaceNode words.dropLast ++
      (if words.length ≤ 1 then [] else [backslashBefore last]), last)

/-- Read a name with backslashes in it. -/
def readQualified (cursor : Cursor) : Option (Node × Cursor) :=
  match cursor.rest with
  | '\\' :: _ =>
      let inside := cursor.advance 1
      (splitPath (wordPath inside)).map fun (front, last) =>
        ({ leaf "qualified_name" true cursor last.2 with
           children := leaf "\\" false cursor inside :: front ++ [wordLeaf last] }, last.2)
  | _ =>
      let words := wordPath cursor
      if words.length ≤ 1 || wordAt cursor == "namespace" then
        none
      else
        (splitPath words).map fun (front, last) =>
          ({ leaf "qualified_name" true cursor last.2 with
             children := front ++ [wordLeaf last] }, last.2)

/-- A name with backslashes in it. -/
def qualifiedName : Rule :=
  token true .child readQualified

/-- Read a name that starts in the current namespace. -/
def readRelative (cursor : Cursor) : Option (Node × Cursor) :=
  match wordPath cursor with
  | first :: second :: rest =>
      if wordAt first.1 == "namespace" then
        (splitPath (second :: rest)).map fun (front, last) =>
          ({ leaf "relative_name" true cursor last.2 with
             children := leaf "namespace" false first.1 first.2 :: backslashBefore second ::
               front ++ [wordLeaf last] }, last.2)
      else
        none
  | _ => none

/-- A name that starts in the current namespace. -/
def relativeName : Rule :=
  token true .child readRelative

/-- A name of any form that does not start with one of the given words. -/
def nameReference (taken : List String) : Rule :=
  byWord fun word =>
    if taken.contains word then reject
    else relativeName <|> qualifiedName <|> nameExcept ["namespace"]

/-- Type words that are spelled in one way only. -/
def exactTypeWords : List String :=
  ["array", "bool", "float", "int", "null", "object", "string"]

/-- Type words that are compared without regard to case. -/
def looseTypeWords : List String :=
  ["callable", "false", "iterable", "mixed", "true", "void"]

/-- A type that is part of the language. -/
def primitiveType : Rule :=
  spelledNode "primitive_type" exactTypeWords <|> wordNode "primitive_type" looseTypeWords

/-- A type by the name of its class. -/
def namedType (taken : List String) : Rule :=
  node "named_type" (nameReference taken)

/-- A type that is neither a union nor an intersection. At its start the words in
`taken` mean something else. -/
def simpleType (taken : List String) : Rule :=
  primitiveType <|> namedType taken <|>
    node "optional_type" (symbol "?" >> (primitiveType <|> namedType []))

/-- The `&` between two types. In front of a variable it marks a reference. -/
def typeAmpersand : Rule :=
  symbol "&" >> guard fun state =>
    let ahead := state.ahead
    match ahead.rest with
    | '\\' :: _ => true
    | '?' :: _ => true
    | _ => wordAt ahead != ""

/-- An intersection of types in parentheses. -/
def groupedIntersection : Rule :=
  symbol "(" >> node "intersection_type" (sepBy1 (simpleType []) typeAmpersand) >> symbol ")"

/-- A union of types of which some are intersections in parentheses. -/
def normalFormType (taken : List String) : Rule :=
  let member := groupedIntersection <|> simpleType []
  node "disjunctive_normal_form_type"
    ((groupedIntersection <|> simpleType taken) >> many (symbol "|" >> member))

/-- Any type. At its start the words in `taken` mean something else. -/
def typeRule (taken : List String) : Rule :=
  let union :=
    many1 (symbol "|" >> simpleType []) >> guard (fun state => symbolAt state.ahead != "|") >>
      close "union_type"
  let intersection := many1 (typeAmpersand >> simpleType []) >> close "intersection_type"
  let alone := guard fun state => symbolAt state.ahead != "|"
  grouped (simpleType taken >> (union <|> intersection <|> alone)) <|> normalFormType taken

/-- The type of what a function returns. -/
def returnType : Rule :=
  symbol ":" >> (wordNode "bottom_type" ["never"] <|> typeRule ["never"])

end LoopLift.Php
