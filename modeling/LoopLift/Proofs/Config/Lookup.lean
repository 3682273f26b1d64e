import LoopLift.Config.Lookup
import LoopLift.Proofs.FileSystem.Following
import LoopLift.Proofs.Path.Ancestors

/-!
# Lookup of a configuration

What a directory holds is said by its two files alone: the settings file if it
can be read and has settings, else the package manifest if it can be read and has
a section with settings. The lookup goes up the lineage of the path and stops at
the first directory that holds a configuration, so a file that is of no use is as
good as none.
-/

namespace LoopLift

open Entry

namespace FileSystem

/-! ## The top is no file -/

/-- Empty and `.` segments stay in a directory, and lead nowhere from anything
else. -/
theorem follow_of_blank {root : Entry} {links : Nat} {here : Location} {segments : List String}
    (blank : ∀ segment ∈ segments, segment = "" ∨ segment = ".") (nonempty : segments ≠ []) :
    follow root links here segments =
      if root.kindAt here = some .directory then .ok (.occupied here)
      else .error .notADirectory := by
  induction segments with
  | nil => exact absurd rfl nonempty
  | cons segment rest ih =>
      rcases List.forall_mem_cons.mp blank with ⟨first, others⟩
      rw [follow_cons, if_pos first]
      cases rest with
      | nil => rw [follow_nil]
      | cons next farther =>
          rw [ih others (by simp)]
          split <;> rfl

theorem isFile_of_components_root {files : FileSystem} {path : Path}
    (absolute : path.isAbsolute = true) (top : path.components = [.root]) :
    files.isFile path = false := by
  rw [Path.components_of_isAbsolute absolute, List.cons_eq_cons] at top
  have blank : ∀ segment ∈ path.segments, segment = "" ∨ segment = "." := by
    intro segment member
    exact Component.ofSegment?_eq_none_iff.mp
      (List.filterMap_eq_nil_iff.mp top.2 segment member)
  have nonempty : path.text.isEmpty = false := by
    simpa using Path.text_ne_empty_of_isAbsolute absolute
  rw [isFile, entry?, resolve, locate, nonempty, absolute]
  simp only [Bool.false_eq_true, ↓reduceIte, follow_of_blank blank path.segments_ne_nil]
  cases files.root <;> rfl

end FileSystem

/-! ## The section of a manifest -/

namespace Json

/-- The value of a record with one name. -/
def field? (name : String) (record : Json) : Option Json :=
  (record.fields? [name]).bind fun fields => fields.head?.join

/-- A manifest has settings exactly if its section is there, is not null and has
the form of settings. -/
theorem section?_eq_some_iff {manifest : Json} {settings : Settings} :
    manifest.section? = some settings ↔
      ∃ extra value, manifest.field? "extra" = some extra ∧
        extra.field? "collector" = some value ∧ value ≠ .null ∧
        value.settings? = some settings := by
  by_cases empty : manifest = .array []
  · subst empty
    simp [section?, field?, fields?]
  · rw [section?]
    · simp only [Option.bind_eq_bind, field?, Option.bind_eq_some_iff]
      constructor
      · rintro ⟨fields, record, extra, first, others, inner, value, second, read⟩
        refine ⟨extra, value, ⟨fields, record, first⟩, ⟨others, inner, second⟩, ?_⟩
        cases value with
        | null => cases read
        | _ => exact ⟨by simp, read⟩
      · rintro ⟨extra, value, ⟨fields, record, first⟩, ⟨others, inner, second⟩, present, read⟩
        refine ⟨fields, record, extra, first, others, inner, value, second, ?_⟩
        cases value with
        | null => exact absurd rfl present
        | _ => exact read
    · exact empty

end Json

theorem Settings.ofManifest?_eq_some_iff {text : String} {settings : Settings} :
    ofManifest? text = some settings ↔
      ∃ manifest extra value, Json.read? text = some manifest ∧
        manifest.field? "extra" = some extra ∧ extra.field? "collector" = some value ∧
        value ≠ .null ∧ value.settings? = some settings := by
  simp [ofManifest?, Option.bind_eq_some_iff, Json.section?_eq_some_iff]

namespace Config

variable {files : FileSystem}

/-! ## What a directory holds -/

variable (files) in
/-- The configuration that a directory holds. The settings file goes before the
package manifest, which counts only if there are no settings in the former. A
settings file may leave out its section, so that all settings have their
defaults, but a manifest has to have one. -/
inductive Holds (directory : Path) : Config → Prop where
  | file {text : String} {settings : Settings}
      (read : files.readText (directory.child fileName) = .ok text)
      (valid : Settings.ofFile? text = some settings) :
      Holds directory { settings, file := some (directory.child fileName) }
  | manifest {text : String} {manifest extra value : Json} {settings : Settings}
      (noFile : ∀ other, files.readText (directory.child fileName) = .ok other →
        Settings.ofFile? other = none)
      (read : files.readText (directory.child manifestName) = .ok text)
      (parsed : Json.read? text = some manifest)
      (around : manifest.field? "extra" = some extra)
      (within : extra.field? "collector" = some value)
      (present : value ≠ .null)
      (valid : value.settings? = some settings) :
      Holds directory { settings, file := some (directory.child manifestName) }

theorem inFile?_eq_some_iff {settings? : String → Option Settings} {file : Path} {config : Config} :
    inFile? files settings? file = some config ↔
      ∃ text settings, files.readText file = .ok text ∧ settings? text = some settings ∧
        { settings, file := some file } = config := by
  rw [inFile?]
  cases files.readText file with
  | error error => simp
  | ok text => simp [Option.map_eq_some_iff]

theorem inFile?_eq_none_iff {settings? : String → Option Settings} {file : Path} :
    inFile? files settings? file = none ↔
      ∀ text, files.readText file = .ok text → settings? text = none := by
  rw [inFile?]
  cases files.readText file with
  | error error => simp
  | ok text => simp

theorem inDirectory?_eq_some_iff {directory : Path} {config : Config} :
    inDirectory? files directory = some config ↔ Holds files directory config := by
  rw [inDirectory?, Option.or_eq_some_iff, inFile?_eq_some_iff, inFile?_eq_none_iff,
    inFile?_eq_some_iff]
  constructor
  · rintro (⟨text, settings, read, valid, rfl⟩ | ⟨noFile, text, settings, read, valid, rfl⟩)
    · exact .file read valid
    · rcases Settings.ofManifest?_eq_some_iff.mp valid with
        ⟨manifest, extra, value, parsed, around, within, present, valid⟩
      exact .manifest noFile read parsed around within present valid
  · rintro (⟨read, valid⟩ | ⟨noFile, read, parsed, around, within, present, valid⟩)
    · exact .inl ⟨_, _, read, valid, rfl⟩
    · exact .inr ⟨noFile, _, _, read, Settings.ofManifest?_eq_some_iff.mpr
        ⟨_, _, _, parsed, around, within, present, valid⟩, rfl⟩

theorem inDirectory?_eq_none_iff {directory : Path} :
    inDirectory? files directory = none ↔ ∀ config, ¬ Holds files directory config := by
  simp only [Option.eq_none_iff_forall_ne_some, ne_eq, inDirectory?_eq_some_iff]

/-- A configuration that a directory holds names its file, so it is not the
default. -/
theorem Holds.ne_default {directory : Path} {config : Config}
    (holds : Holds files directory config) : config ≠ {} := by
  rintro rfl
  cases holds

/-! ## The way up -/

/-- With enough steps the lookup finds what the nearest directory holds. -/
theorem upwards_eq {fuel : Nat} {directory : Path} (enough : directory.components.length < fuel) :
    upwards files fuel directory =
      (directory.lineage.findSome? (inDirectory? files)).getD {} := by
  induction fuel generalizing directory with
  | zero => cases enough
  | succ fuel ih =>
      rw [upwards]
      cases above : directory.parent? with
      | none =>
          rw [Path.lineage_of_parent?_none above, List.findSome?_singleton]
          cases inDirectory? files directory <;> rfl
      | some parent =>
          have shorter := Path.length_components_parent? above
          rw [Path.lineage_of_parent? above, List.findSome?_cons]
          cases inDirectory? files directory with
          | some config => rfl
          | none => exact ih (by omega)

/-- The directory where the lookup for a path starts: the path without its last
component if it is a file, and else the path itself. -/
def StartsAt (files : FileSystem) (path start : Path) : Prop :=
  if files.isFile path then
    path.parent? = some start ∧ start.components = path.components.dropLast
  else start = path

variable (files) in
/-- The lookup for an absolute path without `..` starts at such a path. -/
theorem exists_startsAt {path : Path} (absolute : path.isAbsolute = true)
    (plain : .parent ∉ path.components) :
    ∃ (start : Path) (names : List String), StartsAt files path start ∧
      start.components = .root :: names.map .name := by
  rcases Path.exists_names_of_isAbsolute absolute plain with ⟨names, read⟩
  cases isFile : files.isFile path with
  | false => exact ⟨path, names, by simp [StartsAt, isFile], read⟩
  | true =>
      rcases List.eq_nil_or_concat names with rfl | ⟨front, last, rfl⟩
      · rw [FileSystem.isFile_of_components_root absolute read] at isFile
        cases isFile
      · have split : path.components = (.root :: front.map .name) ++ [.name last] := by simp [read]
        rcases Path.exists_parent? split (by simp) with ⟨parent, above, parentRead⟩
        refine ⟨parent, front, ?_, parentRead⟩
        rw [StartsAt, if_pos isFile, parentRead, split, List.dropLast_concat]
        exact ⟨above, rfl⟩

theorem load_eq {path start : Path} (starts : StartsAt files path start) :
    load files path = (start.lineage.findSome? (inDirectory? files)).getD {} := by
  have same : (if files.isFile path then path.parent?.getD path else path) = start := by
    rw [StartsAt] at starts
    split at starts
    · rw [if_pos (by assumption), starts.1, Option.getD_some]
    · rw [if_neg (by assumption), starts]
  rw [load, same]
  exact upwards_eq (Nat.lt_succ_self _)

/-- What is loaded, unless it is the default, is what the lookup finds. -/
theorem load_eq_iff {path start : Path} (starts : StartsAt files path start) (config : Config) :
    load files path = config ∧ config ≠ {} ↔
      start.lineage.findSome? (inDirectory? files) = some config := by
  rw [load_eq starts]
  cases found : start.lineage.findSome? (inDirectory? files) with
  | none => simp [eq_comm]
  | some held =>
      rcases List.exists_of_findSome?_eq_some found with ⟨directory, -, inDirectory⟩
      have named := (inDirectory?_eq_some_iff.mp inDirectory).ne_default
      simp only [Option.getD_some, Option.some_inj]
      constructor
      · exact And.left
      · rintro rfl
        exact ⟨rfl, named⟩

theorem load_eq_default_iff {path start : Path} (starts : StartsAt files path start) :
    load files path = {} ↔ start.lineage.findSome? (inDirectory? files) = none := by
  simp [Option.eq_none_iff_forall_ne_some, ← load_eq_iff starts]

/-- The configuration of an absolute path without `..` is the one that the
deepest directory holds, among the path, or the path above it if it is a file,
and all ancestors up to the top. The default is loaded exactly if none of them
holds any. -/
theorem load_is_of_deepest (files : FileSystem) (path : Path) (absolute : path.isAbsolute = true)
    (plain : .parent ∉ path.components) :
    ∃ (start : Path) (names : List String), StartsAt files path start ∧
      start.components = .root :: names.map .name ∧
      start.lineage.map Path.components =
        names.inits.reverse.map (fun above => .root :: above.map .name) ∧
      (∀ config, load files path = config ∧ config ≠ {} ↔
        ∃ nearer directory farther, start.lineage = nearer ++ directory :: farther ∧
          Holds files directory config ∧
          ∀ closer ∈ nearer, ∀ other, ¬ Holds files closer other) ∧
      (load files path = {} ↔
        ∀ directory ∈ start.lineage, ∀ config, ¬ Holds files directory config) := by
  rcases exists_startsAt files absolute plain with ⟨start, names, starts, read⟩
  refine ⟨start, names, starts, read, Path.components_lineage read, ?_, ?_⟩
  · intro config
    rw [load_eq_iff starts, List.findSome?_eq_some_iff]
    simp only [inDirectory?_eq_some_iff, inDirectory?_eq_none_iff]
  · rw [load_eq_default_iff starts, List.findSome?_eq_none_iff]
    simp only [inDirectory?_eq_none_iff]

/-- A project with a malformed settings file and an empty section, below a
directory with settings. -/
def brokenProject : FileSystem where
  root := .directory [("srv", .directory [
    (".collector.toml", .file "[collector]\nfail_on_problems = true\n".toUTF8),
    ("app", .directory [
      (".collector.toml", .file "[collector\nbroken".toUTF8),
      ("composer.json", .file "\x7b\"extra\": \x7b\"collector\": null\x7d\x7d".toUTF8),
      ("a.php", .file "<?php".toUTF8)])])]

theorem load_is_of_deepest_brokenProject :
    ∃ start nearer directory farther, StartsAt brokenProject ⟨"/srv/app/a.php"⟩ start ∧
      start.lineage = nearer ++ directory :: farther ∧
      Holds brokenProject directory
        { settings := { failOnProblems := some true }, file := some ⟨"/srv/.collector.toml"⟩ } ∧
      ∀ closer ∈ nearer, ∀ other, ¬ Holds brokenProject closer other := by
  have loaded : load brokenProject ⟨"/srv/app/a.php"⟩ =
      { settings := { failOnProblems := some true }, file := some ⟨"/srv/.collector.toml"⟩ } := by
    decide +kernel
  rcases load_is_of_deepest brokenProject ⟨"/srv/app/a.php"⟩ (by decide +kernel)
    (by decide +kernel) with ⟨start, names, starts, -, -, deepest, -⟩
  rcases (deepest _).mp ⟨loaded, by decide⟩ with ⟨nearer, directory, farther, way, holds, none⟩
  exact ⟨start, nearer, directory, farther, starts, way, holds, none⟩

end Config

end LoopLift
