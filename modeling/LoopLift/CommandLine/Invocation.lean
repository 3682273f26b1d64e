import LoopLift.CommandLine.Help
import LoopLift.CommandLine.Words
import LoopLift.Path.Basic

/-!
# Invocations

What a command line asks for.
-/

namespace LoopLift.CommandLine

/-- The paths that a command works on. -/
structure Targets where
  paths : List Path := []
  root : Option Path := none
  deriving Repr, DecidableEq

/-- How files are listed. -/
structure ListingArguments where
  targets : Targets := {}
  json : Bool := false
  exclude : List String := []
  deriving Repr, DecidableEq

/-- A command other than the analysis. -/
inductive Command where
  | files (arguments : ListingArguments)
  | init
  deriving Repr, DecidableEq

/-- What a command line asks for. -/
structure Invocation where
  command : Option Command := none
  targets : Targets := {}
  json : Bool := false
  verbose : Bool := false
  quiet : Bool := false
  excludeFolders : List String := []
  includeFolders : List String := []
  fix : Bool := false
  apply : Bool := false
  failOnProblems : Bool := false
  deriving Repr, DecidableEq

/-- A command line that was read. -/
inductive Request where
  | run (invocation : Invocation)
  | help (topic : HelpTopic)
  | version
  | invalid (error : UsageError)
  deriving Repr, DecidableEq

namespace Argument

/-- The paths to work on. -/
def paths : Argument := { shown := "[PATHS]...", effect := .values false }

/-- The root directory. -/
def root : Argument := { shown := "--root <ROOT>", names := ["root"], effect := .value false }

/-- Output for programs. -/
def json : Argument := { shown := "--json", names := ["json"], effect := .flag }

/-- Details on the way. -/
def verbose : Argument :=
  { shown := "--verbose", names := ["verbose"], letter := some 'v', effect := .flag }

/-- A report in one line. -/
def quiet : Argument := { shown := "--quiet", names := ["quiet"], effect := .flag }

/-- Folders that are not entered. -/
def excludeFolders : Argument :=
  { shown := "--exclude-folders <EXCLUDE_FOLDERS>", names := ["exclude-folders", "exclude-folder"]
    effect := .values true }

/-- Folders that are entered in any case. -/
def includeFolders : Argument :=
  { shown := "--include-folders <INCLUDE_FOLDERS>", names := ["include-folders", "include-folder"]
    effect := .values true }

/-- Folders that a listing does not enter. -/
def exclude : Argument :=
  { shown := "--exclude <EXCLUDE>", names := ["exclude", "exclude-folder"]
    effect := .values true }

/-- Rewriting of the loops. -/
def fix : Argument := { shown := "--fix", names := ["fix"], effect := .flag }

/-- Writing of the files. -/
def apply : Argument :=
  { shown := "--apply", names := ["apply"], letter := some 'a', effect := .flag }

/-- Failure if loops are left. -/
def failOnProblems : Argument :=
  { shown := "--fail-on-problems", names := ["fail-on-problems"], effect := .flag }

/-- A help text. -/
def help : Argument :=
  { shown := "--help", names := ["help"], letter := some 'h', effect := .interrupt .help }

/-- The version. -/
def version : Argument :=
  { shown := "--version", names := ["version"], letter := some 'V', effect := .interrupt .version }

end Argument

namespace Grammar

/-- What the program understands. -/
def program : Grammar where
  options := [.root, .json, .verbose, .quiet, .excludeFolders, .includeFolders, .fix, .apply,
    .failOnProblems, .help, .version]
  positional := some .paths
  subcommands := ["files", "init", "help"]

/-- What the listing of files understands. -/
def files : Grammar where
  options := [.root, .json, .exclude, .help]
  positional := some .paths

/-- What the setup of a project understands. -/
def init : Grammar where
  options := [.help]

end Grammar

/-- The paths that were found. -/
def targetsOf (reading : Reading) : Targets where
  paths := (reading.valuesOf .paths).map Path.mk
  root := (reading.valuesOf .root).head?.map Path.mk

/-- What help is asked about, given the words behind the name of the command. -/
def helpTopic : List String → Except UsageError HelpTopic
  | [] => .ok .program
  | [word] =>
      match word with
      | "files" => .ok .files
      | "init" => .ok .init
      | "help" => .ok .help
      | _ => .error (.unknownSubcommand word)
  | word :: next :: _ =>
      if ["files", "init", "help"].contains word then .error (.unknownSubcommand next)
      else .error (.unknownSubcommand word)

/-- Read the words of a listing. -/
def readListing (words : List String) : Except Interruption ListingArguments := do
  let (reading, _) ← ({} : Reading).words .files words
  let reading ← reading.complete
  reading.exclude .paths .root
  return {
    targets := targetsOf reading
    json := reading.has .json
    exclude := reading.valuesOf .exclude }

/-- Read the words of a setup. -/
def readSetup (words : List String) : Except Interruption Unit := do
  let (reading, _) ← ({} : Reading).words .init words
  let _ ← reading.complete
  return

/-- The invocation that complete options stand for. -/
def invocationOf (command : Option Command) (reading : Reading) :
    Except Interruption Invocation := do
  let reading ← reading.complete
  reading.exclude .paths .root
  reading.require .apply .fix
  return {
    command
    targets := targetsOf reading
    json := reading.has .json
    verbose := reading.has .verbose
    quiet := reading.has .quiet
    excludeFolders := reading.valuesOf .excludeFolders
    includeFolders := reading.valuesOf .includeFolders
    fix := reading.has .fix
    apply := reading.has .apply
    failOnProblems := reading.has .failOnProblems }

/-- The request of an early end, help being on a topic. -/
def Request.ofInterruption (topic : HelpTopic) : Interruption → Request
  | .help => .help topic
  | .version => .version
  | .error cause => .invalid cause

/-- The request of a reading that may have ended early. -/
def Request.ofReading (reading : Except Interruption Invocation) : Request :=
  match reading with
  | .ok invocation => .run invocation
  | .error reason => .ofInterruption .program reason

/-- Read the words of a command line. -/
def read (words : List String) : Request :=
  match ({} : Reading).words .program words with
  | .error reason => .ofInterruption .program reason
  | .ok (reading, none) => .ofReading (invocationOf none reading)
  | .ok (reading, some (name, rest)) =>
      match name with
      | "files" =>
          match readListing rest with
          | .error reason => .ofInterruption .files reason
          | .ok arguments => .ofReading (invocationOf (some (.files arguments)) reading)
      | "init" =>
          match readSetup rest with
          | .error reason => .ofInterruption .init reason
          | .ok _ => .ofReading (invocationOf (some .init) reading)
      | _ =>
          match helpTopic rest with
          | .ok topic => .help topic
          | .error error => .invalid error

end LoopLift.CommandLine
