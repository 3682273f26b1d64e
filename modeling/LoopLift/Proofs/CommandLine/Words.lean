import LoopLift.CommandLine.Invocation

/-!
# What words give

Options are complete late, and positional words are held together as long as they stand in
a row. The values that were found do not show this: they are those that the words give one
after the other, where a word depends on the one before it alone, if that is an option that
awaits its value, and on whether a `--` has been passed.
-/

namespace LoopLift.CommandLine

namespace Reading

/-- The values that were found, each with its option as it is shown. Values that were given
in a row are not told from values that were given apart. -/
def contents (reading : Reading) : List (String × String) :=
  (reading.found ++ reading.pending.toList).flatMap fun occurrence =>
    occurrence.values.map fun value => (occurrence.option.shown, value)

/-- A reading whose waiting option is complete. -/
def settled (reading : Reading) : Reading :=
  { reading with found := reading.found ++ reading.pending.toList, pending := none }

end Reading

/-! ## What a word gives -/

/-- The option with a long name. -/
def Grammar.long? (grammar : Grammar) (name : String) : Option Argument :=
  grammar.options.find? fun option => option.names.contains name

/-- The values that a word gives, when the word before it awaits a value or not. -/
def gives (grammar : Grammar) (awaited : Option Argument) (word : String) :
    List (String × String) :=
  match word.toList with
  | '-' :: '-' :: text =>
      match grammar.long? (Reading.splitLong text).1, (Reading.splitLong text).2 with
      | some option, some value => [(option.shown, value)]
      | _, _ => []
  | '-' :: _ :: _ => []
  | _ => (awaited.or grammar.positional).toList.map fun option => (option.shown, word)

/-- The option whose value is awaited behind a word. -/
def awaits (grammar : Grammar) (word : String) : Option Argument :=
  match word.toList with
  | '-' :: '-' :: text =>
      match (Reading.splitLong text).2 with
      | none => (grammar.long? (Reading.splitLong text).1).filter Argument.takesValue
      | some _ => none
  | _ => none

section

variable {grammar : Grammar} {awaited : Option Argument} {word : String}

end

/-- The values that words give. Behind a `--` every word is positional. -/
def given (grammar : Grammar) (awaited : Option Argument) : List String → List (String × String)
  | [] => []
  | word :: rest =>
      if word = "--" then
        rest.flatMap fun word => grammar.positional.toList.map fun option => (option.shown, word)
      else gives grammar awaited word ++ given grammar (awaits grammar word) rest

/-! ## One word -/

namespace Reading

variable {grammar : Grammar} {reading next : Reading} {awaited : Option Argument}

end Reading

end LoopLift.CommandLine
