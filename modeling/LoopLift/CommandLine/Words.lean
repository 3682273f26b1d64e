/-!
# Words of a command line

Reads the words behind the name of a program against the options that a command
declares. A value belongs to the option before it, and an option is complete only
when the next word is known or the line ends.
-/

namespace LoopLift.CommandLine

/-- Why a command line cannot be understood. Options stand as they are shown. -/
inductive UsageError where
  | unexpectedArgument (word : String)
  /-- An option is there without another one that it needs. -/
  | missingRequired
  | conflict (first second : String)
  | missingValue (option : String)
  | unexpectedValue (value option : String)
  | repeated (option : String)
  | unknownSubcommand (word : String)
  deriving Repr, DecidableEq

/-- The wording of an error. -/
def UsageError.message : UsageError → String
  | .unexpectedArgument word => s!"error: unexpected argument '{word}' found"
  | .missingRequired => "error: the following required arguments were not provided:"
  | .conflict first second => s!"error: the argument '{first}' cannot be used with '{second}'"
  | .missingValue option => s!"error: a value is required for '{option}' but none was supplied"
  | .unexpectedValue value option =>
      s!"error: unexpected value '{value}' for '{option}' found; no more were expected"
  | .repeated option => s!"error: the argument '{option}' cannot be used multiple times"
  | .unknownSubcommand word => s!"error: unrecognized subcommand '{word}'"

/-- Why the reading of a command line ended early. -/
inductive Interruption where
  | help
  | version
  | error (cause : UsageError)
  deriving Repr, DecidableEq

/-- What an option does. -/
inductive Effect where
  /-- It is on. -/
  | flag
  /-- It takes one value, which may be empty or not. -/
  | value (allowsEmpty : Bool)
  /-- It takes one value each time that it is there. -/
  | values (allowsEmpty : Bool)
  /-- It ends the reading. -/
  | interrupt (reason : Interruption)
  deriving Repr, DecidableEq

/-- An argument of a command. Positional words belong to an option without a
name. -/
structure Argument where
  /-- How the option is shown. -/
  shown : String
  /-- Long names, the first of which is shown. -/
  names : List String := []
  letter : Option Char := none
  effect : Effect
  deriving Repr, DecidableEq

namespace Argument

/-- Whether an option takes a value. -/
def takesValue (option : Argument) : Bool :=
  match option.effect with
  | .value _ | .values _ => true
  | _ => false

/-- Whether an option may be there more than once. -/
def mayRepeat (option : Argument) : Bool :=
  match option.effect with
  | .values _ => true
  | _ => false

/-- Whether a value of an option may be empty. -/
def allowsEmpty (option : Argument) : Bool :=
  match option.effect with
  | .value allowed | .values allowed => allowed
  | _ => true

end Argument

/-- What a command understands. -/
structure Grammar where
  options : List Argument
  /-- The option that positional words belong to. -/
  positional : Option Argument := none
  subcommands : List String := []

/-- An option that was found and its values. -/
structure Occurrence where
  option : Argument
  values : List String
  deriving Repr, DecidableEq

/-- What the next word can be. -/
inductive Mode where
  /-- Anything. -/
  | free
  /-- The value of the last option. -/
  | value
  /-- Anything but a subcommand. -/
  | positional
  /-- A positional word only. -/
  | trailing
  deriving Repr, DecidableEq

/-- A command line as far as it was read. -/
structure Reading where
  /-- Complete options in the order in which they were completed. -/
  found : List Occurrence := []
  pending : Option Occurrence := none
  mode : Mode := .free

namespace Reading

/-- Add a complete option. -/
def add (reading : Reading) (occurrence : Occurrence) : Except Interruption Reading :=
  let option := occurrence.option
  let seen := reading.found.any fun other => other.option.shown == option.shown
  if option.takesValue && occurrence.values.isEmpty then
    .error (.error (.missingValue option.shown))
  else if !option.mayRepeat && seen then
    .error (.error (.repeated option.shown))
  else if !option.allowsEmpty && occurrence.values.contains "" then
    .error (.error (.missingValue option.shown))
  else
    .ok { reading with found := reading.found ++ [occurrence] }

/-- Complete the option that is waiting. -/
def complete (reading : Reading) : Except Interruption Reading :=
  match reading.pending with
  | none => .ok reading
  | some occurrence => { reading with pending := none }.add occurrence

/-- Take an option without a value. -/
def takeFlag (reading : Reading) (option : Argument) : Except Interruption Reading := do
  let reading ← reading.complete
  match option.effect with
  | .interrupt reason => throw reason
  | _ => return { ← reading.add ⟨option, []⟩ with mode := .free }

/-- Take a long option, with the value that is attached to it. -/
def takeLong (grammar : Grammar) (reading : Reading) (name : String) (value : Option String) :
    Except Interruption Reading :=
  match grammar.options.find? fun option => option.names.contains name with
  | none => throw (.error (.unexpectedArgument ("--" ++ name)))
  | some option =>
      match option.takesValue, value with
      | true, some value => do
          let reading ← reading.complete
          return { ← reading.add ⟨option, [value]⟩ with mode := .free }
      | true, none => do
          let reading ← reading.complete
          return { reading with pending := some ⟨option, []⟩, mode := .value }
      | false, some value => throw (.error (.unexpectedValue value option.shown))
      | false, none => reading.takeFlag option

/-- Take a row of options that are given by letters. None of them takes a
value. -/
def takeLetters (grammar : Grammar) (reading : Reading) : List Char → Except Interruption Reading
  | [] => .ok reading
  | letter :: rest =>
      match grammar.options.find? fun option => option.letter == some letter with
      | none => throw (.error (.unexpectedArgument (String.ofList ['-', letter])))
      | some option => do takeLetters grammar (← reading.takeFlag option) rest

/-- Take a positional word. Words in a row belong together. -/
def takePositional (grammar : Grammar) (reading : Reading) (word : String) :
    Except Interruption Reading := do
  match grammar.positional with
  | none => throw (.error (.unexpectedArgument word))
  | some option =>
      let mode := if reading.mode = .trailing then .trailing else .positional
      match reading.pending with
      | some ⟨other, values⟩ =>
          if other.shown == option.shown then
            return { reading with pending := some ⟨option, values ++ [word]⟩, mode }
          else
            return { ← reading.complete with pending := some ⟨option, [word]⟩, mode }
      | none => return { reading with pending := some ⟨option, [word]⟩, mode }

/-- Take the value of the option that is waiting. -/
def takeValue (reading : Reading) (word : String) : Reading :=
  { reading with
    pending := reading.pending.map fun occurrence => { occurrence with values := [word] }
    mode := .free }

/-- A long option and the value that is attached to it. -/
def splitLong (text : List Char) : String × Option String :=
  match text.span (· != '=') with
  | (name, []) => (String.ofList name, none)
  | (name, _ :: value) => (String.ofList name, some (String.ofList value))

/-- Take one word that is no subcommand. -/
def take (grammar : Grammar) (reading : Reading) (word : String) : Except Interruption Reading :=
  if reading.mode = .trailing then reading.takePositional grammar word
  else
    match word.toList with
    | ['-', '-'] => .ok { reading with mode := .trailing }
    | '-' :: '-' :: text =>
        let (name, value) := splitLong text
        reading.takeLong grammar name value
    | '-' :: letter :: rest => reading.takeLetters grammar (letter :: rest)
    | _ =>
        if reading.mode = .value then .ok (reading.takeValue word)
        else reading.takePositional grammar word

/-- Read words up to a subcommand. Its name is given with the words behind it. -/
def words (grammar : Grammar) (reading : Reading) :
    List String → Except Interruption (Reading × Option (String × List String))
  | [] => .ok (reading, none)
  | word :: rest =>
      if reading.mode = .free && grammar.subcommands.contains word then
        .ok (reading, some (word, rest))
      else do
        words grammar (← reading.take grammar word) rest

/-! ## What was found -/

/-- Whether an option was found. -/
def has (reading : Reading) (option : Argument) : Bool :=
  reading.found.any fun occurrence => occurrence.option.shown == option.shown

/-- All values of an option. -/
def valuesOf (reading : Reading) (option : Argument) : List String :=
  (reading.found.filter fun occurrence => occurrence.option.shown == option.shown).flatMap
    Occurrence.values

/-- Two options exclude each other. The error names the one that came first. -/
def exclude (reading : Reading) (first second : Argument) : Except Interruption Unit :=
  if reading.has first && reading.has second then
    let leading := (reading.found.find? fun occurrence =>
      occurrence.option.shown == first.shown || occurrence.option.shown == second.shown).map
        fun occurrence => occurrence.option.shown
    if leading == some second.shown then .error (.error (.conflict second.shown first.shown))
    else .error (.error (.conflict first.shown second.shown))
  else
    .ok ()

/-- An option needs another one. -/
def require (reading : Reading) (option needed : Argument) : Except Interruption Unit :=
  if reading.has option && !reading.has needed then .error (.error .missingRequired) else .ok ()

end Reading

end LoopLift.CommandLine
