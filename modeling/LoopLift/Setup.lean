import LoopLift.Config.Lookup

/-!
# Setting up a project

Makes a settings file with defaults, unless the project has settings already.
-/

namespace LoopLift.Setup

/-- The settings file of a new project. -/
def defaultFile : String :=
  "[collector]\n" ++
  "# Path filters (vendor, node_modules, storage, ... are always excluded)\n" ++
  "exclude_folders = [\"build\", \"dist\"]\n" ++
  "include_folders = []       # Force-include these folders even if excluded by default\n" ++
  "\n" ++
  "# File extensions to scan\n" ++
  "extensions = [\"php\"]\n" ++
  "\n" ++
  "# CI/CD\n" ++
  "fail_on_problems = false   # Exit 1 if any foreach can be refactored\n"

/-- How a setup ended. -/
inductive Outcome where
  | created
  | fileExists
  | manifestHasSection
  | unreadableManifest (error : IoError)
  | uncreatableFile (error : IoError)
  deriving Repr, DecidableEq

namespace Outcome

/-- What the reader is told. -/
def output (outcome : Outcome) : String :=
  "Initializing Collector configuration...\n" ++
    match outcome with
    | .created =>
        s!"  • Created {Config.fileName} with default configuration.\n" ++
          "Initialization complete!\n"
    | .fileExists => s!"  • {Config.fileName} already exists - skipping.\n"
    | .manifestHasSection =>
        s!"  • {Config.manifestName} already contains extra.collector - skipping.\n"
    | .unreadableManifest _ | .uncreatableFile _ => ""

/-- The wording of a failure. -/
def failure? : Outcome → Option String
  | .unreadableManifest error => some s!"Failed to read {Config.manifestName}: {error.message}"
  | .uncreatableFile error => some s!"Failed to create {Config.fileName}: {error.message}"
  | _ => none

end Outcome

/-- Whether the manifest of a directory leaves the settings to a file of their
own. -/
def checkManifest (files : FileSystem) (manifest : Path) : Except Outcome Unit :=
  if files.pathExists manifest then
    match files.readText manifest with
    | .error error => .error (.unreadableManifest error)
    | .ok text =>
        if Settings.isMentionedIn text then .error .manifestHasSection else .ok ()
  else
    .ok ()

/-- Set up the project in a directory. -/
def run (files : FileSystem) (root : Path) : FileSystem × Outcome :=
  let file := root.child Config.fileName
  if files.pathExists file then (files, .fileExists)
  else
    match checkManifest files (root.child Config.manifestName) with
    | .error outcome => (files, outcome)
    | .ok _ =>
        match files.writeText file defaultFile with
        | .ok files => (files, .created)
        | .error error => (files, .uncreatableFile error)

end LoopLift.Setup
