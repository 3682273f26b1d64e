import LoopLift.Php.Token

/-!
# Nonterminals

The rules that the grammar is recursive in. Every other rule is an ordinary
definition that takes a grammar, that is, a rule for each of these.
-/

namespace LoopLift.Php

/-- The rules that the grammar is recursive in. -/
inductive Nonterminal where
  | statement
  /-- An expression whose binary operators bind at least as tightly as a
  level. -/
  | expression (level : Nat)
  /-- An expression that may also be a pattern to destructure an array. -/
  | element
  /-- Expressions with commas between. -/
  | expressions
  /-- An operand without the operators that follow it. -/
  | unary
  | primary
  /-- What can stand on the left of an assignment. -/
  | assignable
  /-- A variable by its name, possibly a computed one. -/
  | simpleVariable
  | listLiteral
  | parameters
  deriving Repr, DecidableEq

/-- A rule for every nonterminal. -/
abbrev Grammar := Nonterminal → Rule

/-- Any expression. -/
def Grammar.any (grammar : Grammar) : Rule :=
  grammar (.expression 0)

end LoopLift.Php
