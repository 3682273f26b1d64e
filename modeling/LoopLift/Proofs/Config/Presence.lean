import LoopLift.Proofs.Config.Lookup
import LoopLift.Proofs.FileSystem.Creation
import LoopLift.Proofs.FileSystem.Reaching
import LoopLift.Setup

/-!
# Settings that are there and settings that are used

Setting up a project goes by what is there: a settings file of whatever content,
or a section of the manifest of whatever value. The lookup goes by what can be
used. So a setup that makes the file is followed by a lookup that takes it, but a
setup that finds something leaves the project as it is, and what was found may be
of no use.
-/

namespace LoopLift

/-! ## Members of an object -/

namespace Json

/-- Whether a value is an object. -/
def isObject : Json → Bool
  | .object _ => true
  | _ => false

/-- The first member counts if no later one has its name. -/
theorem member?_cons (name : String) (written : List Char) (value : Json)
    (rest : List (List Char × Json)) :
    (Json.object ((written, value) :: rest)).member? name =
      ((Json.object rest).member? name).or
        (if plain? written = some name then some value else none) := by
  rw [member?, member?, List.reverse_cons, List.find?_append, Option.map_or]
  by_cases same : plain? written = some name <;> simp [same]

/-- What the first member of a record can be: one with a name that is not known, or
the only one with its name. -/
theorem known?_cons {names : List String} {written : List Char} {value : Json}
    {rest : List (List Char × Json)} {found : List (String × Json)}
    (known : known? names ((written, value) :: rest) = some found) :
    ∃ first others, plain? written = some first ∧ known? names rest = some others ∧
      (first ∉ names ∧ found = others ∨
        others.lookup first = none ∧ found = (first, value) :: others) := by
  simp only [known?, Option.bind_eq_bind, Option.bind_eq_some_iff] at known
  rcases known with ⟨first, read, others, later, held⟩
  refine ⟨first, others, read, later, ?_⟩
  split at held
  · rename_i unknown
    cases held
    exact .inl ⟨by simpa using unknown, rfl⟩
  · split at held
    · cases held
    · rename_i only
      cases held
      exact .inr ⟨Option.not_isSome_iff_eq_none.mp only, rfl⟩

/-- A known name stands only once, so what it has is the last member with that
name. -/
theorem lookup_of_known? {names : List String} {members : List (List Char × Json)}
    {found : List (String × Json)} (known : known? names members = some found) {name : String}
    (isKnown : name ∈ names) : found.lookup name = (Json.object members).member? name := by
  induction members generalizing found with
  | nil =>
      cases known
      rfl
  | cons member rest ih =>
      rcases member with ⟨written, value⟩
      rcases known?_cons known with ⟨first, others, read, later, unknown | only⟩
      · rcases unknown with ⟨notKnown, rfl⟩
        have different : first ≠ name := fun same => notKnown (same ▸ isKnown)
        rw [member?_cons, ← ih later, read, if_neg (by simpa using different), Option.or_none]
      · rcases only with ⟨single, rfl⟩
        rw [member?_cons, ← ih later, read, List.lookup_cons]
        by_cases same : name = first
        · subst same
          simp [single]
        · simp [beq_false_of_ne same, Ne.symm same]

/-- A record that is written as an object has its values as members. A list has no
members. -/
theorem member?_of_field? {record value : Json} {name : String}
    (read : record.field? name = some value) :
    record.member? name = if record.isObject then some value else none := by
  rcases Option.bind_eq_some_iff.mp read with ⟨fields, fieldsRead, first⟩
  cases record with
  | object members =>
      rcases Option.bind_eq_some_iff.mp fieldsRead with ⟨found, known, same⟩
      cases same
      rw [← lookup_of_known? known (List.mem_singleton_self name)]
      rw [isObject, if_pos rfl]
      simpa using first
  | _ => rfl

end Json

namespace Settings

theorem isMentionedIn_iff {text : String} :
    isMentionedIn text = true ↔
      ∃ manifest extra value, Json.read? text = some manifest ∧ manifest.isSound 127 = true ∧
        manifest.member? "extra" = some extra ∧ extra.member? "collector" = some value := by
  rw [isMentionedIn]
  cases Json.read? text with
  | none => simp
  | some manifest =>
      simp only [Bool.and_eq_true, Option.isSome_iff_exists, Option.bind_eq_some_iff,
        Option.some_inj]
      constructor
      · rintro ⟨sound, value, extra, around, within⟩
        exact ⟨manifest, extra, value, rfl, sound, around, within⟩
      · rintro ⟨_, extra, value, rfl, sound, around, within⟩
        exact ⟨sound, value, extra, around, within⟩

/-- The section that the lookup reads is also seen by the setup, unless a list
stands for an object or the document nests too deep. -/
theorem isMentionedIn_of_field? {text : String} {manifest extra value : Json}
    (parsed : Json.read? text = some manifest) (around : manifest.field? "extra" = some extra)
    (within : extra.field? "collector" = some value) :
    isMentionedIn text = true ↔
      manifest.isSound 127 = true ∧ manifest.isObject = true ∧ extra.isObject = true := by
  simp only [isMentionedIn, parsed, Json.member?_of_field? around]
  cases manifest.isObject with
  | false => simp
  | true => cases inner : extra.isObject <;> simp [Json.member?_of_field? within, inner]

end Settings

/-! ## What a directory itself holds -/

namespace Config

variable {files : FileSystem} {root : Path}

/-- The lookup for a directory takes what the directory itself holds. -/
def IsConfigured (files : FileSystem) (root : Path) : Prop :=
  Holds files root (load files root)

theorem child_manifestName_ne : root.child manifestName ≠ root.child fileName := by
  intro same
  have components := congrArg Path.components same
  rw [Path.components_child (by decide), Path.components_child (by decide)] at components
  simp [manifestName, fileName] at components

theorem load_of_holds {config : Config} (noFile : files.isFile root = false)
    (holds : Holds files root config) : load files root = config := by
  have starts : StartsAt files root root := by simp [StartsAt, noFile]
  have first : root.lineage.findSome? (inDirectory? files) = some config := by
    rw [Path.lineage, List.findSome?_cons, inDirectory?_eq_some_iff.mpr holds]
  rw [load_eq starts, first, Option.getD_some]

theorem isConfigured_iff (noFile : files.isFile root = false) :
    IsConfigured files root ↔ ∃ config, Holds files root config := by
  constructor
  · intro configured
    exact ⟨_, configured⟩
  · rintro ⟨config, holds⟩
    rw [IsConfigured, load_of_holds noFile holds]
    exact holds

end Config

namespace Setup

variable {files : FileSystem} {root : Path}

/-! ## Ways to end -/

/-- How a setup ends, and what the file system is then. -/
inductive Ends (files : FileSystem) (root : Path) : FileSystem × Outcome → Prop where
  | fileExists (present : files.pathExists (root.child Config.fileName) = true) :
      Ends files root (files, .fileExists)
  | unreadable {error : IoError}
      (absent : files.pathExists (root.child Config.fileName) = false)
      (present : files.pathExists (root.child Config.manifestName) = true)
      (failed : files.readText (root.child Config.manifestName) = .error error) :
      Ends files root (files, .unreadableManifest error)
  | hasSection {text : String}
      (absent : files.pathExists (root.child Config.fileName) = false)
      (read : files.readText (root.child Config.manifestName) = .ok text)
      (mentioned : Settings.isMentionedIn text = true) :
      Ends files root (files, .manifestHasSection)
  | created {written : FileSystem}
      (absent : files.pathExists (root.child Config.fileName) = false)
      (noSection : ∀ text, files.readText (root.child Config.manifestName) = .ok text →
        Settings.isMentionedIn text = false)
      (wrote : files.writeText (root.child Config.fileName) defaultFile = .ok written) :
      Ends files root (written, .created)
  | uncreatable {error : IoError}
      (absent : files.pathExists (root.child Config.fileName) = false)
      (noSection : ∀ text, files.readText (root.child Config.manifestName) = .ok text →
        Settings.isMentionedIn text = false)
      (failed : files.writeText (root.child Config.fileName) defaultFile = .error error) :
      Ends files root (files, .uncreatableFile error)

theorem checkManifest_cases (files : FileSystem) (manifest : Path) :
    (∃ error, files.pathExists manifest = true ∧ files.readText manifest = .error error ∧
      checkManifest files manifest = .error (.unreadableManifest error)) ∨
    (∃ text, files.readText manifest = .ok text ∧ Settings.isMentionedIn text = true ∧
      checkManifest files manifest = .error .manifestHasSection) ∨
    (∀ text, files.readText manifest = .ok text → Settings.isMentionedIn text = false) ∧
      checkManifest files manifest = .ok () := by
  rw [checkManifest]
  cases present : files.pathExists manifest with
  | false =>
      refine .inr (.inr ⟨?_, rfl⟩)
      intro text read
      rw [FileSystem.pathExists_of_readText read] at present
      cases present
  | true =>
      cases read : files.readText manifest with
      | error error => exact .inl ⟨error, rfl, rfl, rfl⟩
      | ok text =>
          cases mentioned : Settings.isMentionedIn text with
          | true => exact .inr (.inl ⟨text, rfl, mentioned, by simp [mentioned]⟩)
          | false =>
              refine .inr (.inr ⟨?_, by simp [mentioned]⟩)
              rintro _ ⟨⟩
              exact mentioned

theorem ends (files : FileSystem) (root : Path) : Ends files root (run files root) := by
  rw [run]
  cases present : files.pathExists (root.child Config.fileName) with
  | true => exact .fileExists present
  | false =>
      rcases checkManifest_cases files (root.child Config.manifestName) with
        ⟨error, there, failed, checked⟩ | ⟨text, read, mentioned, checked⟩ | ⟨noSection, checked⟩
      · simp only [checked]
        exact .unreadable present there failed
      · simp only [checked]
        exact .hasSection present read mentioned
      · simp only [checked]
        cases wrote : files.writeText (root.child Config.fileName) defaultFile with
        | ok written => exact .created present noSection wrote
        | error error => exact .uncreatable present noSection wrote

/-! ## The file that is made -/

/-- The settings of a new project. -/
def defaultSettings : Settings where
  excludeFolders := some ["build", "dist"]
  includeFolders := some []
  extensions := some ["php"]
  failOnProblems := some false

theorem ofFile?_defaultFile : Settings.ofFile? defaultFile = some defaultSettings := by
  -- The lines are read one by one, since joined texts are slow to evaluate.
  unfold defaultFile
  simp only [Settings.ofFile?, Toml.read?, String.toList_append]
  decide +kernel

/-- The file that is made is what the lookup takes from then on. -/
theorem holds_of_created {written : FileSystem} (directory : files.isDirectory root = true)
    (absent : files.pathExists (root.child Config.fileName) = false)
    (wrote : files.writeText (root.child Config.fileName) defaultFile = .ok written) :
    written.isFile root = false ∧
      Config.Holds written root
        { settings := defaultSettings, file := some (root.child Config.fileName) } := by
  rcases FileSystem.exists_vacant_of_writeText absent wrote with ⟨location, vacant⟩
  rcases FileSystem.writeText_of_vacant vacant defaultFile with ⟨_, same, read, kept⟩
  rw [wrote] at same
  cases same
  rcases FileSystem.exists_resolve_of_isDirectory directory with ⟨reached, resolved, stands⟩
  rcases kept root reached _ resolved stands with ⟨still, kind⟩
  refine ⟨?_, .file read ofFile?_defaultFile⟩
  rw [Bool.eq_false_iff, ne_eq, FileSystem.isFile_iff still, kind]
  simp

/-! ## Setting up and looking up -/

section

variable {after : FileSystem} {outcome : Outcome} (ended : Ends files root (after, outcome))

include ended

theorem fileExists_iff :
    outcome = .fileExists ↔ files.pathExists (root.child Config.fileName) = true := by
  cases ended <;> simp [*]

theorem manifestHasSection_iff :
    outcome = .manifestHasSection ↔
      files.pathExists (root.child Config.fileName) = false ∧
      ∃ text, files.readText (root.child Config.manifestName) = .ok text ∧
        Settings.isMentionedIn text = true := by
  have unseen : (∀ text, files.readText (root.child Config.manifestName) = .ok text →
      Settings.isMentionedIn text = false) →
      ¬ ∃ text, files.readText (root.child Config.manifestName) = .ok text ∧
        Settings.isMentionedIn text = true := by
    rintro noSection ⟨text, read, mentioned⟩
    rw [noSection text read] at mentioned
    cases mentioned
  cases ended with
  | fileExists present => simp [present]
  | unreadable absent present failed => simp [failed]
  | hasSection absent read mentioned => simp [absent, read, mentioned]
  | created absent noSection wrote => simp [unseen noSection]
  | uncreatable absent noSection failed => simp [unseen noSection]

theorem eq_of_not_created (notCreated : outcome ≠ .created) : after = files := by
  cases ended with
  | created absent noSection wrote => exact absurd rfl notCreated
  | _ => rfl

theorem holds_of_outcome_created (directory : files.isDirectory root = true)
    (created : outcome = .created) :
    after.isFile root = false ∧
      Config.Holds after root
        { settings := defaultSettings, file := some (root.child Config.fileName) } := by
  cases ended with
  | created absent noSection wrote => exact holds_of_created directory absent wrote
  | _ => cases created

theorem isConfigured_iff_created_or_holds (directory : files.isDirectory root = true) :
    Config.IsConfigured after root ↔
      outcome = .created ∨ ∃ config, Config.Holds files root config := by
  by_cases created : outcome = .created
  · rcases holds_of_outcome_created ended directory created with ⟨noFile, holds⟩
    simp only [created, true_or, iff_true]
    exact (Config.isConfigured_iff noFile).mpr ⟨_, holds⟩
  · rw [eq_of_not_created ended created,
      Config.isConfigured_iff (FileSystem.isFile_of_isDirectory directory)]
    simp [created]

end

theorem fst_run_of_not_created (notCreated : (run files root).2 ≠ .created) :
    (run files root).1 = files :=
  eq_of_not_created (ends files root) notCreated

/-- A setup goes by what is there: it leaves a directory alone if there is a
settings file of any content, or else a readable manifest with a section of any
value. Otherwise, if it succeeds, it makes the settings file, which the lookup then
takes. So after a setup that succeeds, the lookup takes something from the
directory exactly if the setup made the file, or if what was there is of use. A
settings file of use is always seen, and a section of use is seen if it stands in
objects of a document that does not nest too deep. -/
theorem setup_goes_by_presence (files : FileSystem) (root : Path)
    (directory : files.isDirectory root = true) :
    ∃ after outcome, run files root = (after, outcome) ∧
      (outcome = .fileExists ↔ files.pathExists (root.child Config.fileName) = true) ∧
      (outcome = .manifestHasSection ↔
        files.pathExists (root.child Config.fileName) = false ∧
        ∃ text manifest extra value, files.readText (root.child Config.manifestName) = .ok text ∧
          Json.read? text = some manifest ∧ manifest.isSound 127 = true ∧
          manifest.member? "extra" = some extra ∧ extra.member? "collector" = some value) ∧
      (outcome ≠ .created → after = files) ∧
      (outcome = .created → Config.load after root =
        { settings := defaultSettings, file := some (root.child Config.fileName) }) ∧
      (Config.IsConfigured after root ↔
        outcome = .created ∨ ∃ config, Config.Holds files root config) ∧
      (∀ config, Config.Holds files root config →
        config.file = some (root.child Config.fileName) → outcome = .fileExists) ∧
      (∀ text manifest extra value,
        files.pathExists (root.child Config.fileName) = false →
        files.readText (root.child Config.manifestName) = .ok text →
        Json.read? text = some manifest → manifest.field? "extra" = some extra →
        extra.field? "collector" = some value →
        (outcome = .manifestHasSection ↔
          manifest.isSound 127 = true ∧ manifest.isObject = true ∧ extra.isObject = true)) := by
  have ended := ends files root
  rcases result : run files root with ⟨after, outcome⟩
  rw [result] at ended
  refine ⟨after, outcome, rfl, fileExists_iff ended, ?_, eq_of_not_created ended, ?_,
    isConfigured_iff_created_or_holds ended directory, ?_, ?_⟩
  · rw [manifestHasSection_iff ended]
    simp only [Settings.isMentionedIn_iff, exists_and_left]
  · intro created
    rcases holds_of_outcome_created ended directory created with ⟨noFile, holds⟩
    exact Config.load_of_holds noFile holds
  · intro config holds used
    rw [fileExists_iff ended]
    cases holds with
    | file read valid => exact FileSystem.pathExists_of_readText read
    | manifest noFile read parsed around within present valid =>
        exact absurd (Option.some.inj used) Config.child_manifestName_ne
  · intro text manifest extra value absent read parsed around within
    rw [manifestHasSection_iff ended, ← Settings.isMentionedIn_of_field? parsed around within]
    simp [absent, read]

/-- A project whose manifest has the given text. -/
def withManifest (text : String) : FileSystem where
  root := .directory [("app", .directory [(Config.manifestName, .file text.toUTF8)])]

/-- A project whose manifest has no section. -/
def noSection : FileSystem := withManifest "\x7b\"name\": \"acme/app\"\x7d"

theorem setup_goes_by_presence_noSection :
    ∃ after, run noSection ⟨"/app"⟩ = (after, .created) ∧
      Config.load after ⟨"/app"⟩ =
        { settings := defaultSettings, file := some ⟨"/app/.collector.toml"⟩ } ∧
      Config.IsConfigured after ⟨"/app"⟩ := by
  have created : (run noSection ⟨"/app"⟩).2 = .created := by decide +kernel
  rcases setup_goes_by_presence noSection ⟨"/app"⟩ (by decide +kernel) with
    ⟨after, outcome, result, -, -, -, loaded, configured, -, -⟩
  rw [result] at created
  cases created
  exact ⟨after, result, loaded rfl, configured.mpr (.inl rfl)⟩

/-- A project whose manifest has a section without a value. -/
def nullSection : FileSystem :=
  withManifest "\x7b\"extra\": \x7b\"collector\": null\x7d\x7d"

/-- A project whose manifest has a section in lists. -/
def listedSection : FileSystem := withManifest "[[\x7b\x7d]]"

/-- A malformed settings file and a null section are left as they are, and are of
no use to the lookup. A section in lists is of use to the lookup and is not seen by
the setup. -/
theorem setup_and_lookup_disagree :
    ((run Config.brokenProject ⟨"/srv/app"⟩).2 = .fileExists ∧
      ¬ Config.IsConfigured (run Config.brokenProject ⟨"/srv/app"⟩).1 ⟨"/srv/app"⟩) ∧
    ((run nullSection ⟨"/app"⟩).2 = .manifestHasSection ∧
      ¬ Config.IsConfigured (run nullSection ⟨"/app"⟩).1 ⟨"/app"⟩) ∧
    (Config.load listedSection ⟨"/app"⟩).file = some ⟨"/app/composer.json"⟩ ∧
      (run listedSection ⟨"/app"⟩).2 = .created := by
  have broken : (run Config.brokenProject ⟨"/srv/app"⟩).2 = .fileExists := by decide +kernel
  have null : (run nullSection ⟨"/app"⟩).2 = .manifestHasSection := by decide +kernel
  have brokenKept : (run Config.brokenProject ⟨"/srv/app"⟩).1 = Config.brokenProject :=
    fst_run_of_not_created (ne_of_eq_of_ne broken (by decide))
  have nullKept : (run nullSection ⟨"/app"⟩).1 = nullSection :=
    fst_run_of_not_created (ne_of_eq_of_ne null (by decide))
  refine ⟨⟨broken, ?_⟩, ⟨null, ?_⟩, by decide +kernel, by decide +kernel⟩
  · rw [brokenKept]
    exact Config.inDirectory?_eq_none_iff.mp (by decide +kernel) _
  · rw [nullKept]
    exact Config.inDirectory?_eq_none_iff.mp (by decide +kernel) _

end Setup

end LoopLift
