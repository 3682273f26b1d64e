import LoopLift.Json.Reader
import LoopLift.Toml.Reader

/-!
# Settings

The settings of a project, from a file of their own or from a section of the
package manifest. A record can also be written as the list of its values.
-/

namespace LoopLift

/-- The settings of a project. What is not set has a default. -/
structure Settings where
  excludeFolders : Option (List String) := none
  includeFolders : Option (List String) := none
  extensions : Option (List String) := none
  failOnProblems : Option Bool := none
  deriving Repr, DecidableEq

namespace Settings

/-- The extensions that are scanned by default. -/
def defaultExtensions : List String := ["php"]

/-- The extensions that are scanned. -/
def scanned (settings : Settings) : List String :=
  settings.extensions.getD defaultExtensions

/-- The names of the settings, in the order of a record that is written as a
list. -/
def names : List String :=
  ["exclude_folders", "include_folders", "extensions", "fail_on_problems"]

end Settings

namespace Json

/-- The members of an object that a record knows, all names being texts. A known
name may stand only once. -/
def known? (names : List String) : List (List Char × Json) → Option (List (String × Json))
  | [] => some []
  | (written, value) :: rest => do
      let name ← plain? written
      let others ← known? names rest
      if !names.contains name then return others
      else if (others.lookup name).isSome then none
      else return (name, value) :: others

/-- The values of a record in the order of its names. -/
def fields? (names : List String) : Json → Option (List (Option Json))
  | .object members => do
      let found ← known? names members
      return names.map fun name => found.lookup name
  | .array items => if items.length = names.length then some (items.map some) else none
  | _ => none

/-- A value that may be left out or null. -/
def optional? {α : Type} (read : Json → Option α) : Option Json → Option (Option α)
  | none | some .null => some none
  | some value => (read value).map some

/-- A list of texts. -/
def texts? : Json → Option (List String)
  | .array items => items.mapM fun
      | .string written => plain? written
      | _ => none
  | _ => none

/-- A truth value. -/
def boolean? : Json → Option Bool
  | .boolean value => some value
  | _ => none

/-- The settings that a value holds. -/
def settings? (value : Json) : Option Settings := do
  let fields ← value.fields? Settings.names
  match fields with
  | [excluded, included, extensions, failing] =>
      return {
        excludeFolders := ← optional? texts? excluded
        includeFolders := ← optional? texts? included
        extensions := ← optional? texts? extensions
        failOnProblems := ← optional? boolean? failing }
  | _ => none

/-- The section of a manifest with settings, if it has one. The manifest may
leave out what is around the section, but what is there has to have its form. -/
def section? (manifest : Json) : Option Settings := do
  let extra ← match manifest with
    | .array [] => none
    | _ => (← manifest.fields? ["extra"]).head?.join
  let section_ ← (← extra.fields? ["collector"]).head?.join
  match section_ with
  | .null => none
  | value => value.settings?

end Json

namespace Toml

/-- The values of a record in the order of its names. A list may be longer than
the record. -/
def fields? (names : List String) : Toml → Option (List (Option Toml))
  | .table _ members => some (names.map fun name => members.lookup name)
  | .array _ items =>
      if names.length ≤ items.length then some ((items.take names.length).map some) else none
  | _ => none

/-- A value that may be left out. -/
def optional? {α : Type} (read : Toml → Option α) : Option Toml → Option (Option α)
  | none => some none
  | some value => (read value).map some

/-- A list of texts. -/
def texts? : Toml → Option (List String)
  | .array _ items => items.mapM fun
      | .string text => some text
      | _ => none
  | _ => none

/-- A truth value. -/
def boolean? : Toml → Option Bool
  | .boolean value => some value
  | _ => none

/-- The settings that a value holds. -/
def settings? (value : Toml) : Option Settings := do
  let fields ← value.fields? Settings.names
  match fields with
  | [excluded, included, extensions, failing] =>
      return {
        excludeFolders := ← optional? texts? excluded
        includeFolders := ← optional? texts? included
        extensions := ← optional? texts? extensions
        failOnProblems := ← optional? boolean? failing }
  | _ => none

/-- The settings of a document. Without a section all settings have their
defaults. -/
def documentSettings? (document : Members) : Option Settings :=
  match document.lookup "collector" with
  | some value => value.settings?
  | none => some {}

end Toml

namespace Settings

/-- The settings in the text of a settings file. -/
def ofFile? (text : String) : Option Settings :=
  (Toml.read? text).bind Toml.documentSettings?

/-- The settings in the text of a package manifest. -/
def ofManifest? (text : String) : Option Settings :=
  (Json.read? text).bind Json.section?

/-- Whether the text of a package manifest has a section with settings, of
whatever form. A manifest that nests too deep counts as unreadable. -/
def isMentionedIn (text : String) : Bool :=
  match Json.read? text with
  | some manifest =>
      manifest.isSound 127 &&
        ((manifest.member? "extra").bind (Json.member? "collector")).isSome
  | none => false

end Settings

end LoopLift
