import LoopLift.Config.Basic
import LoopLift.FileSystem.Basic

/-!
# Looking up the settings of a path

The settings come from the nearest directory that has any, going up from the
path as it is written. In one directory the settings file comes before the
package manifest, and a file that cannot be read counts as absent.
-/

namespace LoopLift

/-- Settings and the file that they came from. -/
structure Config where
  settings : Settings := {}
  file : Option Path := none
  deriving Repr, DecidableEq

namespace Config

/-- Name of the settings file. -/
def fileName : String := ".collector.toml"

/-- Name of the package manifest. -/
def manifestName : String := "composer.json"

variable (files : FileSystem)

/-- The settings in a file, read by `settings?`. -/
def inFile? (settings? : String → Option Settings) (file : Path) : Option Config :=
  match files.readText file with
  | .ok text => (settings? text).map fun settings => { settings, file := some file }
  | .error _ => none

/-- The settings in a directory. -/
def inDirectory? (directory : Path) : Option Config :=
  (inFile? files Settings.ofFile? (directory.child fileName)).or
    (inFile? files Settings.ofManifest? (directory.child manifestName))

/-- The settings in a directory or above it, at most `fuel` directories. -/
def upwards : (fuel : Nat) → Path → Config
  | 0, _ => {}
  | fuel + 1, directory =>
      match inDirectory? files directory with
      | some config => config
      | none =>
          match directory.parent? with
          | some parent => upwards fuel parent
          | none => {}

/-- The settings for a path. -/
def load (path : Path) : Config :=
  let start := if files.isFile path then path.parent?.getD path else path
  upwards files (start.components.length + 1) start

end Config

end LoopLift
