import LoopLift.Php.Expression

/-!
# Declarations

Functions, classes, interfaces, traits and enumerations, and their members. The
rules take the rule for a list of statements, which stands in the bodies of
functions.
-/

namespace LoopLift.Php

open Syntax Rule

/-- A variable by its plain name. -/
def plainVariable : Rule :=
  node "variable_name" (symbol "$" >> anyName)

/-- `public`, `protected` or `private`, possibly for one operation only. -/
def visibilityModifier : Rule :=
  node "visibility_modifier"
    ((keyword "public" <|> keyword "protected" <|> keyword "private") >>
      optional (immediateSymbol "(" >>
        token true .child (readWord "operation" true fun word => !reservedWords.contains word) >>
        immediateSymbol ")"))

/-- A modifier that is one word. -/
def wordModifier (word : String) : Rule :=
  node (word ++ "_modifier") (keyword word)

/-- Any modifier of a class or of one of its members. -/
def modifier : Rule :=
  wordNode "var_modifier" ["var"] <|> visibilityModifier <|> wordModifier "static" <|>
    wordModifier "final" <|> wordModifier "abstract" <|> wordModifier "readonly"

/-- Classes or interfaces that a declaration builds on. -/
def nameList (kind word : String) : Rule :=
  node kind (keyword word >> sepBy1 (nameReference []) (symbol ","))

section

variable (grammar : Grammar) (statements : Rule)

/-- The value behind an equals sign. -/
def initialValue : Rule :=
  symbol "=" >> grammar.any

/-- The body of a property hook. -/
def hookBody : Rule :=
  (symbol "=>" >> grammar.any >> semicolon) <|> compound statements <|> semicolon

/-- Hooks that read and write a property. -/
def hookList : Rule :=
  let hook := node "property_hook"
    (attributes grammar >> optional (wordModifier "final") >>
      optional (node "reference_modifier" (symbol "&")) >> name >>
      optional (grammar .parameters) >> hookBody grammar statements)
  node "property_hook_list" (symbol "\x7b" >> many hook >> symbol "\x7d")

/-- One parameter of a function. -/
def parameter : Rule :=
  let visibilities := ["private", "protected", "public"]
  let reference := optional (node "reference_modifier" (symbol "&"))
  let promoted := node "property_promotion_parameter"
    (attributes grammar >> visibilityModifier >> optional (wordModifier "readonly") >>
      optional (typeRule ["readonly"]) >>
      (node "by_ref" (symbol "&" >> plainVariable) <|> plainVariable) >>
      optional (initialValue grammar) >> optional (hookList grammar statements))
  let variadic := node "variadic_parameter"
    (attributes grammar >> optional (typeRule visibilities) >> reference >> symbol "..." >>
      plainVariable)
  let simple := node "simple_parameter"
    (attributes grammar >> optional (typeRule visibilities) >> reference >> plainVariable >>
      optional (initialValue grammar))
  promoted <|> variadic <|> simple

/-- The parameters of a function. -/
def parameters : Rule :=
  node "formal_parameters"
    (symbol "(" >> optional (sepBy1 (parameter grammar statements) (symbol ",")) >>
      optional (symbol ",") >> symbol ")")

/-- What a function has in common with a method behind its name. -/
def signature : Rule :=
  grammar .parameters >> optional returnType

/-- A function with a name. -/
def functionDefinition : Rule :=
  node "function_definition"
    (attributes grammar >> keyword "function" >>
      optional (node "reference_modifier" (symbol "&")) >> name >> signature grammar >>
      compound statements)

/-- A method of a class. -/
def methodDeclaration : Rule :=
  node "method_declaration"
    (attributes grammar >> many modifier >> keyword "function" >>
      optional (node "reference_modifier" (symbol "&")) >> anyName >> signature grammar >>
      (compound statements <|> semicolon))

/-- Properties of a class. -/
def propertyDeclaration : Rule :=
  let element := node "property_element" (plainVariable >> optional (initialValue grammar))
  node "property_declaration"
    (attributes grammar >> many1 modifier >>
      optional (typeRule ("const" :: "function" :: classWords)) >> sepBy1 element (symbol ",") >>
      (semicolon <|> hookList grammar statements))

/-- Constants with the rule for their names. A type may precede the first name,
which without a type is any word but that of a type. -/
def constantDeclaration (constantName : Rule) : Rule :=
  let element (own : Rule) := node "const_element" (own >> symbol "=" >> grammar.any)
  let untyped := guard (fun state => !startsPrimitive state.ahead) >> element anyName
  let typed := typeRule [] >> element constantName
  node "const_declaration"
    (attributes grammar >> many modifier >> keyword "const" >> (untyped <|> typed) >>
      many (symbol "," >> element constantName) >> semicolon)
where
  /-- Whether a word for a type stands at a cursor. -/
  startsPrimitive (cursor : Cursor) : Bool :=
    exactTypeWords.contains (spelledAt cursor) || looseTypeWords.contains (wordAt cursor)

/-- A constant of a class by the name of the class. -/
def classConstant : Rule :=
  extended (nameReference expressionWords <|>
      node "relative_scope" (keyword "self" <|> keyword "parent" <|> keyword "static"))
    (continuing "::" >> anyName >> close "class_constant_access_expression")

/-- Traits that a class uses. -/
def useDeclaration : Rule :=
  let insteadOf := node "use_instead_of_clause"
    (classConstant >> keyword "insteadof" >> name)
  let renamed := (optional visibilityModifier >> name) <|> visibilityModifier
  let aliased := node "use_as_clause"
    ((classConstant <|> nameExcept expressionWords) >> keyword "as" >> renamed)
  let list := node "use_list"
    (symbol "\x7b" >> many ((insteadOf <|> aliased) >> semicolon) >> symbol "\x7d")
  node "use_declaration"
    (keyword "use" >> sepBy1 (nameReference []) (symbol ",") >> (list <|> semicolon))

/-- The members of a class, an interface or a trait. -/
def declarationList : Rule :=
  let member :=
    useDeclaration <|> methodDeclaration grammar statements <|>
      constantDeclaration grammar anyName <|> propertyDeclaration grammar statements
  node "declaration_list" (symbol "\x7b" >> many member >> closingBrace)

/-- The parts of a class behind its name. -/
def classTail : Rule :=
  optional (nameList "base_clause" "extends") >>
    optional (nameList "class_interface_clause" "implements") >>
    declarationList grammar statements

/-- A class with a name. -/
def classDeclaration : Rule :=
  node "class_declaration"
    (attributes grammar >> many modifier >> keyword "class" >> className >>
      classTail grammar statements)

/-- A class without a name, behind `new`. -/
def anonymousClass : Rule :=
  node "anonymous_class"
    (attributes grammar >> many modifier >> keyword "class" >> optional (arguments grammar) >>
      classTail grammar statements)

/-- An interface. -/
def interfaceDeclaration : Rule :=
  node "interface_declaration"
    (attributes grammar >> keyword "interface" >> className >>
      optional (nameList "base_clause" "extends") >> declarationList grammar statements)

/-- A trait. -/
def traitDeclaration : Rule :=
  node "trait_declaration"
    (attributes grammar >> keyword "trait" >> className >> declarationList grammar statements)

/-- An enumeration. -/
def enumDeclaration : Rule :=
  let caseRule := node "enum_case"
    (attributes grammar >> keyword "case" >> anyName >> optional (initialValue grammar) >>
      semicolon)
  let member :=
    caseRule <|> useDeclaration <|> methodDeclaration grammar statements <|>
      constantDeclaration grammar anyName
  node "enum_declaration"
    (attributes grammar >> keyword "enum" >> className >>
      optional (symbol ":" >> spelledNode "primitive_type" ["string", "int"]) >>
      optional (nameList "class_interface_clause" "implements") >>
      node "enum_declaration_list" (symbol "\x7b" >> many member >> closingBrace))

end

end LoopLift.Php
