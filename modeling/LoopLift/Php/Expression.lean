import LoopLift.Php.Quoted
import LoopLift.Php.TypeName

/-!
# Expressions

Expressions are read by precedence: an operand, then the operators that bind
tightly enough. An operand is a primary expression with everything that hangs on
it, and an assignment belongs to the variable on its left wherever that
stands.
-/

namespace LoopLift.Php

open Syntax Rule

/-- Binary operators with their precedence; a larger number binds more
tightly. -/
def binaryLevels : List (String × Nat) :=
  [("or", 1), ("xor", 2), ("and", 3), ("??", 6), ("||", 7), ("&&", 8), ("|", 9), ("^", 10),
   ("&", 11), ("==", 12), ("!=", 12), ("<>", 12), ("===", 12), ("!==", 12), ("<=>", 12), ("<", 13),
   (">", 13), ("<=", 13), (">=", 13), ("|>", 14), (".", 15), ("<<", 16), (">>", 16), ("+", 17),
   ("-", 17), ("*", 18), ("/", 18), ("%", 18), ("**", 19)]

/-- Binary operators that group to the right. -/
def rightOperators : List String := ["??", "**"]

/-- Words that can stand behind a whole expression. -/
def followingWords : List String := ["and", "as", "or", "xor"]

/-- Precedence of an assignment. -/
def assignmentLevel : Nat := 4

/-- Precedence of a conditional expression. -/
def conditionalLevel : Nat := 5

/-- Precedence of a sign or a negation. -/
def signLevel : Nat := 20

/-- Precedence of the suppression of errors. -/
def suppressionLevel : Nat := 22

/-- Operators that assign and compute. -/
def compoundAssignments : List String :=
  ["**=", "*=", "/=", "%=", "+=", "-=", ".=", "<<=", ">>=", "&=", "^=", "|=", "??="]

/-- Words that name a type in a cast. -/
def castWords : List String :=
  ["array", "binary", "bool", "boolean", "double", "float", "int", "integer", "object", "real",
   "string", "unset"]

/-- Words that start an expression and are no names there. -/
def expressionWords : List String :=
  ["array", "clone", "false", "fn", "function", "include", "include_once", "list", "match",
   "namespace", "new", "null", "parent", "print", "require", "require_once", "self", "static",
   "throw", "true", "yield"]

/-- Words that start an expression and can still name an argument. -/
def argumentWords : List String :=
  ["array", "false", "fn", "function", "match", "namespace", "null", "parent", "self", "static",
   "throw", "true"]

/-- Words that say something about a class that is declared. -/
def classWords : List String :=
  ["abstract", "class", "final", "private", "protected", "public", "readonly", "var"]

/-- Everything may follow. -/
def Reach.variable : Reach := { deref := true, call := true, assign := true, scope := true }

/-- All but an assignment may follow. -/
def Reach.value : Reach := { deref := true, call := true, scope := true }

/-- All but arguments may follow. -/
def Reach.access : Reach := { deref := true, assign := true, scope := true }

/-- Only a further access may follow. -/
def Reach.constant : Reach := { deref := true, scope := true }

/-- Kinds of what can be assigned to. -/
def assignableKinds : List String :=
  ["variable_name", "dynamic_variable_name", "subscript_expression", "member_access_expression",
   "nullsafe_member_access_expression", "scoped_property_access_expression",
   "function_call_expression", "member_call_expression", "nullsafe_member_call_expression",
   "scoped_call_expression", "cast_expression", "by_ref"]

mutual

/-- An array read as a pattern that takes an array apart, when each of its
elements can be assigned to. -/
def patternOf? : Node → Option Node
  | ⟨kind, start, stop, row, column, named, error, children⟩ =>
      if kind == "array_creation_expression" || kind == "list_literal" then
        (patternParts? children).map fun children =>
          ⟨"list_literal", start, stop, row, column, named, error, children⟩
      else if assignableKinds.contains kind then
        some ⟨kind, start, stop, row, column, named, error, children⟩
      else
        none

/-- The children of a pattern. Elements lose their own nodes. -/
def patternParts? : List Node → Option (List Node)
  | [] => some []
  | ⟨kind, start, stop, row, column, named, error, children⟩ :: rest =>
      if kind == "array_element_initializer" then do
        let element ← elementParts? children
        return element ++ (← patternParts? rest)
      else if kind == "array" then
        none
      else do
        return ⟨kind, start, stop, row, column, named, error, children⟩ :: (← patternParts? rest)

/-- The parts of an element: a target, or a key and a target. -/
def elementParts? : List Node → Option (List Node)
  | [] => some []
  | [target] => (patternOf? target).map fun target => [target]
  | key :: rest => (elementParts? rest).map (key :: ·)

end

/-- Whether an array can only be a pattern: it has a gap, or an element that can
only be a pattern. -/
def isOnlyPattern (node : Node) : Bool :=
  let parts := node.children.filter fun child => !child.isTrivia
  let gap := (parts.zip (parts.drop 1)).any fun (left, right) =>
    (left.kind == "[" || left.kind == ",") && right.kind == ","
  let lone := match parts with
    | [_, comma, _] => comma.kind == ","
    | _ => false
  (gap && !lone) || parts.any fun child =>
    child.kind == "array_element_initializer" &&
      child.children.any fun inner => inner.kind == "list_literal"

/-- Call an array that can only be a pattern by its name. -/
def markPattern (node : Node) : Node :=
  if isOnlyPattern node then { node with kind := "list_literal" } else node

section

variable (grammar : Grammar)

/-- An expression in parentheses. -/
def parenthesized : Rule :=
  node "parenthesized_expression" (symbol "(" >> grammar.any >> symbol ")")

/-- A variable taken by reference. -/
def byReference : Rule :=
  node "by_ref" (symbol "&" >> grammar .assignable)

/-- A variable by its name, `$x`, `$$x` or `$` with an expression in braces. -/
def simpleVariable : Rule :=
  let plain := node "variable_name" (symbol "$" >> anyName)
  let computed := node "dynamic_variable_name"
    (symbol "$" >>
      ((nextIs "$" >> grammar .simpleVariable) <|>
        (symbol "\x7b" >> grammar.any >> symbol "\x7d")))
  plain <|> computed

/-- An element of an array: a value, a key and a value, a reference or an
unpacked array. -/
def arrayElement : Rule :=
  node "array_element_initializer"
    (node "variadic_unpacking" (symbol "..." >> grammar.any) <|>
     byReference grammar <|>
     (grammar .element >> optional (symbol "=>" >> (byReference grammar <|> grammar .element))))

/-- Elements between two symbols, with gaps allowed. -/
def elements (opening closing : String) : Rule :=
  symbol opening >> optional (arrayElement grammar) >>
    many (symbol "," >> optional (arrayElement grammar)) >> symbol closing

/-- An array in brackets, or a pattern. -/
def bracketArray : Rule :=
  node "array_creation_expression" (elements grammar "[" "]") >>
    relabel fun node => some (markPattern node)

/-- An array written with a word. -/
def wordArray : Rule :=
  node "array_creation_expression"
    (keyword "array" >> elements grammar "(" ")") >>
    relabel fun node => if isOnlyPattern node then none else some node

/-- A target inside `list(...)`. -/
def listTarget : Rule :=
  byReference grammar <|> (nextWord "list" >> grammar .listLiteral) <|> grammar .assignable
where
  /-- Whether a word comes next. -/
  nextWord (word : String) : Rule := guard fun state => wordAt state.ahead == word

/-- One entry of `list(...)`. -/
def listEntry : Rule :=
  let keyed := grammar.any >> symbol "=>" >> listTarget grammar
  let plain := listTarget grammar >> guard fun state =>
    symbolAt state.ahead == "," || symbolAt state.ahead == ")"
  plain <|> keyed

/-- A pattern written `list(...)`. -/
def listLiteral : Rule :=
  node "list_literal"
    (keyword "list" >> symbol "(" >> optional (listEntry grammar) >>
      many (symbol "," >> optional (listEntry grammar)) >> symbol ")")

/-- A word that names an argument, and its colon. -/
def argumentName : Rule :=
  nameExcept (expressionWords.filter fun word => !argumentWords.contains word) >> symbol ":"

/-- A word that stands for a class as an argument of its own. -/
def scopeArgument : Rule :=
  wordNode "name" ["self", "parent", "static"] >> guard fun state =>
    symbolAt state.ahead == "," || symbolAt state.ahead == ")"

/-- One argument of a call. -/
def argument : Rule :=
  node "argument"
    (optional (argumentName) >>
      optional (node "reference_modifier" (symbol "&")) >>
      (node "variadic_unpacking" (symbol "..." >> grammar.any) <|> scopeArgument <|> grammar.any))

/-- The arguments of a call. -/
def arguments : Rule :=
  let placeholder := node "variadic_placeholder" (symbol "...") >> nextIs ")"
  let list := sepBy1 (argument grammar) (symbol ",") >> optional (symbol ",")
  node "arguments" (continuing "(" >> optional (placeholder <|> list) >> symbol ")")

/-- One group of attributes. -/
def attributeGroup : Rule :=
  let entry := node "attribute" (nameReference [] >> optional (arguments grammar))
  node "attribute_group"
    (symbol "#[" >> sepBy1 entry (symbol ",") >> optional (symbol ",") >> symbol "]")

/-- Attributes, when there are any. -/
def attributes : Rule :=
  optional (node "attribute_list" (many1 (attributeGroup grammar)))

/-- Statements in braces. -/
def compound (statements : Rule) : Rule :=
  node "compound_statement" (symbol "\x7b" >> statements >> closingBrace)

/-- Variables that a closure takes from outside. -/
def useClause : Rule :=
  let captured := node "by_ref" (symbol "&" >> node "variable_name" (symbol "$" >> anyName)) <|>
    node "variable_name" (symbol "$" >> anyName)
  node "anonymous_function_use_clause"
    (keyword "use" >> symbol "(" >> sepBy1 captured (symbol ",") >> optional (symbol ",") >>
      symbol ")")

/-- What precedes the keyword of a closure. -/
def closureFront : Rule :=
  attributes grammar >> optional (node "static_modifier" (keyword "static"))

/-- A closure with a body of statements. -/
def anonymousFunction (statements : Rule) : Rule :=
  node "anonymous_function"
    (closureFront grammar >> keyword "function" >>
      optional (node "reference_modifier" (symbol "&")) >> grammar .parameters >>
      optional (useClause) >> optional returnType >> compound statements)

/-- A closure whose body is an expression. -/
def arrowFunction : Rule :=
  node "arrow_function"
    (closureFront grammar >> keyword "fn" >>
      optional (node "reference_modifier" (symbol "&")) >> grammar .parameters >>
      optional returnType >> symbol "=>" >> grammar.any)

/-- The name of a member. -/
def memberName : Rule :=
  anyName <|> grammar .simpleVariable <|> (symbol "\x7b" >> grammar.any >> symbol "\x7d")

/-- An access to a member, or a call of it. -/
def memberStep (arrow access call : String) : Rule :=
  continuing arrow >> memberName grammar >>
    ((arguments grammar >> close call >> reaching Reach.variable) <|>
      (close access >> reaching Reach.access))

/-- What `::` leads to: a property, a constant, or a call. -/
def scopeStep : Rule :=
  let call := arguments grammar >> close "scoped_call_expression" >> reaching Reach.variable
  let constant := close "class_constant_access_expression" >> reaching Reach.constant
  continuing "::" >>
    ((nextIs "$" >> grammar .simpleVariable >>
        (call <|> (close "scoped_property_access_expression" >> reaching Reach.access))) <|>
     (anyName >> (call <|> constant)) <|>
     (symbol "\x7b" >> node "name" grammar.any >> symbol "\x7d" >> (call <|> constant)))

/-- One more access or call on what has been read. -/
def accessStep : Rule :=
  let subscript :=
    continuing "[" >> optional grammar.any >> symbol "]" >> close "subscript_expression" >>
      reaching Reach.variable
  let call := arguments grammar >> close "function_call_expression" >> reaching Reach.variable
  depending fun state =>
    match symbolAt state.aheadInside with
    | "[" => if state.reach.deref then subscript else reject
    | "->" =>
        if state.reach.deref then
          memberStep grammar "->" "member_access_expression" "member_call_expression"
        else
          reject
    | "?->" =>
        if state.reach.deref then
          memberStep grammar "?->" "nullsafe_member_access_expression"
            "nullsafe_member_call_expression"
        else
          reject
    | "::" => if state.reach.scope then scopeStep grammar else reject
    | "(" => if state.reach.call then call else reject
    | _ => reject

/-- One more access in the name of a class that is computed. -/
def classAccessStep : Rule :=
  (continuing "[" >> optional grammar.any >> symbol "]" >> close "subscript_expression") <|>
  (continuing "->" >> memberName grammar >> close "member_access_expression") <|>
  (continuing "?->" >> memberName grammar >> close "nullsafe_member_access_expression") <|>
  (continuing "::" >> nextIs "$" >> grammar .simpleVariable >>
    close "scoped_property_access_expression")

/-- What names the class of an object. At its start the words in `taken` mean
something else. -/
def classReference (taken : List String) : Rule :=
  extended (grammar .simpleVariable) (classAccessStep grammar) <|>
  parenthesized grammar <|>
  extended (nameReference taken)
    (continuing "::" >> nextIs "$" >> grammar .simpleVariable >>
      close "scoped_property_access_expression" >> many (classAccessStep grammar))

/-- A new object. `anonymousClass` reads a class without a name. -/
def newObject (anonymousClass : Rule) : Rule :=
  grouped (keyword "new" >>
    ((anonymousClass >> close "object_creation_expression" >> reaching Reach.value) <|>
     (classReference grammar classWords >>
       ((arguments grammar >> close "object_creation_expression" >> reaching Reach.value) <|>
        (close "object_creation_expression" >> reaching {})))))

/-- The arms of a `match`. -/
def matchExpression : Rule :=
  let default :=
    node "match_default_expression" (keyword "default" >> symbol "=>" >> grammar.any)
  let conditions :=
    node "match_condition_list" (sepBy1 grammar.any (symbol ",") >> optional (symbol ","))
  let arm := node "match_conditional_expression" (conditions >> symbol "=>" >> grammar.any)
  let either := byWord fun word => if word == "default" then default else arm
  let arms := sepBy1 either (symbol ",")
  node "match_expression"
    (keyword "match" >> parenthesized grammar >>
      node "match_block" (symbol "\x7b" >> optional arms >> optional (symbol ",") >> symbol "\x7d"))

/-- Whether the values of a generator are yielded at a cursor. -/
def delegates (cursor : Cursor) : Bool :=
  String.ofList ((cursor.rest.take 10).map Char.toLower) == "yield from"

/-- A yielded value, with or without a key, or all values of a generator. -/
def yieldExpression : Rule :=
  let delegating : Rule := token true .child fun cursor =>
    some (leaf "yield from" false cursor (cursor.advance 10), cursor.advance 10)
  let value := node "array_element_initializer"
    (node "variadic_unpacking" (symbol "..." >> grammar.any) <|> byReference grammar <|>
     (grammar.any >> optional (symbol "=>" >> (byReference grammar <|> grammar.any))))
  let given := guard fun state => !followingWords.contains (wordAt state.ahead)
  node "yield_expression" (depending fun state =>
    if delegates state.ahead then delegating >> grammar.any
    else keyword "yield" >> optional (given >> value))

/-- A word that takes the whole expression behind it. -/
def wordExpression (kind word : String) : Rule :=
  node kind (keyword word >> grammar.any)

/-- A type in parentheses in front of a value. -/
def isCast (state : State) : Bool :=
  let ahead := state.ahead
  symbolAt ahead == "(" &&
    (let inside := { state with cursor := ahead.advance 1 }.ahead
     let word := wordAt inside
     castWords.contains word &&
       (word != "array" ||
         match wordEnd? inside with
         | some stop => symbolAt { state with cursor := stop }.ahead == ")"
         | none => false))

/-- The part of a cast in front of its value. -/
def castFront : Rule :=
  symbol "(" >> wordNode "cast_type" castWords >> symbol ")"

/-- What an assignment on the left of which a variable has been read goes on
with. -/
def assignmentTail : Rule :=
  let value := grammar (.expression assignmentLevel)
  depending fun state =>
    let operator := symbolAt state.aheadInside
    if operator == "=" then
      continuing "=" >>
        ((symbol "&" >> value >> close "reference_assignment_expression") <|>
          (value >> close "assignment_expression"))
    else if compoundAssignments.contains operator then
      continuing operator >> value >> close "augmented_assignment_expression"
    else
      reject

/-- A change by one behind a variable. -/
def updateTail : Rule :=
  (continuing "++" <|> continuing "--") >> close "update_expression" >> reaching {}

/-- The first part of a primary expression that starts with a word. -/
def wordPrimary (statements anonymousClass : Rule) (word : String) : Rule :=
  match word with
  | "function" => anonymousFunction grammar statements >> reaching {}
  | "fn" => arrowFunction grammar >> reaching {}
  | "static" =>
      (anonymousFunction grammar statements >> reaching {}) <|>
      (arrowFunction grammar >> reaching {}) <|>
      (node "relative_scope" (keyword "static") >> nextIs "::" >> reaching { scope := true }) <|>
      (wordNode "name" ["static"] >> nextIs "(" >> reaching Reach.value)
  | "self" | "parent" =>
      node "relative_scope" (keyword word) >> nextIs "::" >> reaching { scope := true }
  | "new" => newObject grammar anonymousClass
  | "array" => wordArray grammar >> reaching Reach.value
  | "true" | "false" => wordNode "boolean" [word] >> reaching {}
  | "null" => wordNode "null" [word] >> reaching {}
  | "print" => wordExpression grammar "print_intrinsic" "print" >> reaching {}
  | "throw" => wordExpression grammar "throw_expression" "throw" >> reaching {}
  | "namespace" => relativeName >> reaching Reach.value
  | "list" => listLiteral grammar >> reaching {}
  | _ => (qualifiedName <|> nameExcept expressionWords) >> reaching Reach.value

/-- The first part of a primary expression. -/
def primaryBase (statements anonymousClass : Rule) : Rule :=
  depending fun state =>
    let ahead := state.ahead
    match ahead.rest with
    | '$' :: _ => grammar .simpleVariable >> reaching Reach.variable
    | '(' :: _ => parenthesized grammar >> reaching Reach.value
    | '[' :: _ => bracketArray grammar >> reaching Reach.value
    | '"' :: _ => encapsedString grammar >> reaching Reach.value
    | '\'' :: _ => singleString >> reaching Reach.value
    | '\x60' :: _ => shellCommand grammar >> reaching {}
    | '\\' :: _ => qualifiedName >> reaching Reach.value
    | '#' :: '[' :: _ =>
        (anonymousFunction grammar statements <|> arrowFunction grammar) >> reaching {}
    | '<' :: '<' :: '<' :: _ => hereDocument grammar >> reaching Reach.value
    | '+' :: '+' :: _ =>
        node "update_expression" (symbol "++" >> grammar .assignable) >> reaching {}
    | '-' :: '-' :: _ =>
        node "update_expression" (symbol "--" >> grammar .assignable) >> reaching {}
    | 'b' :: '"' :: _ => encapsedString grammar >> reaching Reach.value
    | 'B' :: '"' :: _ => encapsedString grammar >> reaching Reach.value
    | 'b' :: '\'' :: _ => singleString >> reaching Reach.value
    | 'B' :: '\'' :: _ => singleString >> reaching Reach.value
    | char :: _ =>
        if char.isDigit || char == '.' then
          number >> reaching {}
        else
          wordPrimary grammar statements anonymousClass (wordAt ahead)
    | [] => reject

/-- A primary expression with all accesses and calls on it. -/
def accessChain (statements anonymousClass : Rule) : Rule :=
  extended (primaryBase grammar statements anonymousClass) (accessStep grammar)

/-- A primary expression, with a change by one. A pattern is none. -/
def primary (statements anonymousClass : Rule) : Rule :=
  grouped (accessChain grammar statements anonymousClass >>
    guard (fun state => state.last?.any fun node => node.kind != "list_literal") >>
    optional (guard (fun state => state.reach.assign) >> updateTail))

/-- What can stand on the left of an assignment. -/
def assignable (statements anonymousClass : Rule) : Rule :=
  depending fun state =>
    if isCast state then
      node "cast_expression" (castFront >> grammar .assignable)
    else
      accessChain grammar statements anonymousClass >> guard fun state => state.reach.assign

/-- A copy of an object. -/
def cloneExpression : Rule :=
  node "clone_expression" (keyword "clone" >> grammar .primary)

/-- A sign or a negation. -/
def signExpression (operator : String) : Rule :=
  node "unary_op_expression" (symbol operator >> grammar (.expression (signLevel + 1)))

/-- The suppression of errors. -/
def suppressionExpression : Rule :=
  node "error_suppression_expression"
    (symbol "@" >> grammar (.expression (suppressionLevel + 1)))

/-- A value of a type it is cast to. Only a cast variable can be assigned to. -/
def castExpression : Rule :=
  let value := depending fun state =>
    match wordAt state.ahead with
    | "include" => wordExpression grammar "include_expression" "include" >> reaching {}
    | "include_once" =>
        wordExpression grammar "include_once_expression" "include_once" >> reaching {}
    | _ =>
        if symbolAt state.ahead == "@" then
          suppressionExpression grammar >> reaching {}
        else
          grammar .unary
  node "cast_expression" (castFront >> value)

/-- An operand without the operators behind it. -/
def unary (statements anonymousClass : Rule) : Rule :=
  depending fun state =>
    let ahead := state.ahead
    match symbolAt ahead with
    | "+" => signExpression grammar "+" >> reaching {}
    | "-" => signExpression grammar "-" >> reaching {}
    | "~" => signExpression grammar "~" >> reaching {}
    | "!" => signExpression grammar "!" >> reaching {}
    | _ =>
        if isCast state then castExpression grammar
        else if wordAt ahead == "clone" then cloneExpression grammar >> reaching {}
        else primary grammar statements anonymousClass

/-- A test for the class of an object, behind the object. -/
def instanceTail : Rule :=
  continuingKeyword "instanceof" >> classReference grammar [] >> close "binary_expression"

/-- A primary expression or an assignment. Where `inElement` is set, a pattern may
stand alone, as part of a larger one. -/
def assignmentOrPrimary (statements anonymousClass : Rule) (inElement : Bool) : Rule :=
  let patternAssignment :=
    relabel patternOf? >> guard (fun state => symbolAt state.aheadInside == "=") >>
      assignmentTail grammar
  let plain := guard fun state => state.last?.any fun node => node.kind != "list_literal"
  let alone := guard fun _ => inElement
  grouped (accessChain grammar statements anonymousClass >>
    depending fun state =>
      let kind := (state.last?.map Node.kind).getD ""
      if kind == "list_literal" then
        patternAssignment <|> alone
      else if kind == "array_creation_expression" && symbolAt state.aheadInside == "=" then
        patternAssignment
      else if state.reach.assign then
        assignmentTail grammar <|> updateTail <|> plain
      else
        plain)

/-- An operand of a binary operator. -/
def operand (statements anonymousClass : Rule) (inElement : Bool) : Rule :=
  depending fun state =>
    let ahead := state.ahead
    let core :=
      match symbolAt ahead with
      | "@" => suppressionExpression grammar
      | "+" | "-" | "~" | "!" => unary grammar statements anonymousClass
      | _ =>
          match wordAt ahead with
          | "yield" => yieldExpression grammar
          | "match" => matchExpression grammar
          | "include" => wordExpression grammar "include_expression" "include"
          | "include_once" => wordExpression grammar "include_once_expression" "include_once"
          | "require" => wordExpression grammar "require_expression" "require"
          | "require_once" => wordExpression grammar "require_once_expression" "require_once"
          | "clone" => cloneExpression grammar
          | _ =>
              if isCast state then
                grouped (castExpression grammar >>
                  optional (guard (fun state => state.reach.assign) >> assignmentTail grammar))
              else
                assignmentOrPrimary grammar statements anonymousClass inElement
    grouped (core >> optional (instanceTail grammar))

/-- The operator that continues an expression, and its precedence. -/
def operatorAt? (cursor : Cursor) : Option (String × Nat) :=
  let word := wordAt cursor
  binaryLevels.find? fun (operator, _) =>
    operator == (if word == "" then symbolAt cursor else word)

/-- One more operator with its right side, when it binds tightly enough. -/
def operatorStep (level : Nat) : Rule :=
  depending fun state =>
    let ahead := state.aheadInside
    match operatorAt? ahead with
    | some (operator, own) =>
        if level ≤ own then
          (if wordAt ahead == "" then continuing operator else continuingKeyword operator) >>
            grammar (.expression (if rightOperators.contains operator then own else own + 1)) >>
            close "binary_expression"
        else
          reject
    | none =>
        if symbolAt ahead == "?" && level ≤ conditionalLevel then
          continuing "?" >> optional grammar.any >> symbol ":" >>
            grammar (.expression (conditionalLevel + 1)) >> close "conditional_expression"
        else
          reject

/-- An expression whose operators bind at least as tightly as a level. -/
def expression (statements anonymousClass : Rule) (level : Nat) (inElement : Bool) : Rule :=
  extended (operand grammar statements anonymousClass inElement) (operatorStep grammar level)

/-- Expressions with commas between. -/
def expressions : Rule :=
  grouped (grammar.any >>
    optional (continuing "," >> grammar .expressions >> close "sequence_expression"))

end

end LoopLift.Php
