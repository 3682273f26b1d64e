import LoopLift.Proofs.Config.Lookup
import LoopLift.Proofs.FileSystem.Reaching

/-!
# Spellings of a path

The lookup goes up the text of a path. For an absolute path without links these
are the directories above what it denotes. For a relative path the text is used up
at the working directory, so what stands above is not asked, and behind a `..` the
working directory is asked although it is not above the path at all. Here both
lookups are stated on locations, where they can be compared.
-/

namespace LoopLift

namespace Config

variable {files : FileSystem}

/-! ## Settings held at a location -/

/-- The settings that the directory at a location holds. -/
def heldAt? (files : FileSystem) (location : Location) : Option Settings :=
  (inDirectory? files (Location.path location)).map Config.settings

theorem settings_inFile? (files : FileSystem) (settings? : String → Option Settings) (file : Path) :
    (inFile? files settings? file).map Config.settings =
      (files.readText file).toOption.bind settings? := by
  rw [inFile?]
  cases files.readText file with
  | error error => rfl
  | ok text => cases read : settings? text <;> simp [Except.toOption, read]

/-- The settings of a directory are those of the texts of its two files. -/
theorem settings_inDirectory? (files : FileSystem) (directory : Path) :
    (inDirectory? files directory).map Config.settings =
      ((files.readText (directory.child fileName)).toOption.bind Settings.ofFile?).or
        ((files.readText (directory.child manifestName)).toOption.bind Settings.ofManifest?) := by
  rw [inDirectory?, Option.map_or, settings_inFile?, settings_inFile?]

/-- A path that passes directories finds the settings that are held where it
leads. -/
theorem settings_inDirectory?_eq_heldAt? {path : Path}
    (proper : ∀ name ∈ files.workingDirectory, IsEntryName name)
    (passes : files.PassesDirectories path) :
    (inDirectory? files path).map Config.settings = heldAt? files (files.reach path) := by
  have grounded := FileSystem.grounded_reach proper passes
  have same : ∀ name, IsEntryName name →
      files.readText (path.child name) =
        files.readText ((Location.path (files.reach path)).child name) := by
    intro name named
    apply FileSystem.readText_congr rfl
    rw [FileSystem.resolve_child passes named, Path.child,
      FileSystem.resolve_join grounded named.1]
  rw [heldAt?, settings_inDirectory?, settings_inDirectory?, same fileName (by decide),
    same manifestName (by decide)]

/-! ## The lookup on locations -/

theorem findSome?_congr {α β : Type} {left right : α → Option β} {items : List α}
    (same : ∀ item ∈ items, left item = right item) :
    items.findSome? left = items.findSome? right := by
  induction items with
  | nil => rfl
  | cons item rest ih =>
      rcases List.forall_mem_cons.mp same with ⟨first, others⟩
      rw [List.findSome?_cons, List.findSome?_cons, first, ih others]

/-- The settings that are loaded are the first that are held on the way up. -/
theorem settings_load {path start : Path}
    (proper : ∀ name ∈ files.workingDirectory, IsEntryName name)
    (starts : StartsAt files path start) (passes : files.PassesDirectories start) :
    (load files path).settings =
      ((start.lineage.map files.reach).findSome? (heldAt? files)).getD {} := by
  have held : ∀ above ∈ start.lineage,
      (Option.map Config.settings ∘ inDirectory? files) above =
        (heldAt? files ∘ files.reach) above := by
    intro above member
    have passed := passes.of_prefix (Path.prefix_of_mem_lineage member)
    rw [Function.comp_apply, Function.comp_apply, settings_inDirectory?_eq_heldAt? proper passed]
  rw [load_eq starts, List.findSome?_map, ← findSome?_congr held, ← List.map_findSome?]
  cases start.lineage.findSome? (inDirectory? files) <;> rfl

/-- The directory where the lookup for an entry belongs: the one that it stands in
if it is a file, and else its own. -/
def homeOf (files : FileSystem) (location : Location) : Location :=
  if files.root.kindAt location = some .file then location.dropLast else location

theorem kindAt_homeOf {location : Location} (grounded : files.root.Grounded location)
    (top : files.root.kindAt [] = some .directory) :
    files.root.kindAt (homeOf files location) = some .directory := by
  rcases grounded.present with ⟨kind, present, noLink⟩
  rw [homeOf]
  cases kind with
  | directory => rw [present, if_neg (by simp)]; exact present
  | link target => exact absurd rfl (noLink target)
  | file =>
      rw [if_pos present]
      rcases List.eq_nil_or_concat location with rfl | ⟨front, last, rfl⟩
      · exact top
      · rw [List.concat_eq_append, List.dropLast_concat]
        rw [List.concat_eq_append] at present
        exact Entry.kindAt_of_append present

/-! ## Absolute paths -/

/-- The lookup for the path of an entry starts where it belongs. -/
theorem exists_startsAt_path {location : Location} (grounded : files.root.Grounded location)
    (top : files.root.kindAt [] = some .directory) :
    ∃ start, StartsAt files (Location.path location) start ∧
      start.components = .root :: (homeOf files location).map .name := by
  have read := Path.components_path grounded.proper
  have isFile := FileSystem.isFile_iff (FileSystem.resolve_path grounded top)
  rcases exists_startsAt files (Path.isAbsolute_path location) (by simp [read]) with
    ⟨start, names, starts, startRead⟩
  refine ⟨start, starts, ?_⟩
  rw [StartsAt] at starts
  split at starts
  · rename_i file
    rw [homeOf, if_pos (isFile.mp file), starts.2, read]
    cases location with
    | nil => rw [isFile.mp file] at top; cases top
    | cons name rest => simp
  · rename_i noFile
    rw [homeOf, if_neg (isFile.not.mp noFile), starts, read]

/-- The absolute path of an entry has the settings of the nearest directory that
holds any, among all that stand above the entry. -/
theorem settings_load_path {location : Location}
    (proper : ∀ name ∈ files.workingDirectory, IsEntryName name)
    (working : files.root.kindAt files.workingDirectory = some .directory)
    (grounded : files.root.Grounded location) :
    (load files (Location.path location)).settings =
      ((homeOf files location).inits.reverse.findSome? (heldAt? files)).getD {} := by
  have top := Entry.kindAt_directory_of_prefix List.nil_prefix working
  have home := kindAt_homeOf grounded top
  rcases exists_startsAt_path grounded top with ⟨start, starts, read⟩
  have passes : files.PassesDirectories start := by
    intro above inner
    rw [read] at inner
    rcases List.prefix_cons_iff.mp inner with rfl | ⟨behind, rfl, names⟩
    · exact working
    · rcases List.prefix_map_iff.mp names with ⟨front, inHome, rfl⟩
      apply Entry.kindAt_directory_of_prefix _ home
      simpa [Component.step, Location.reach_names] using inHome
  have visited : start.lineage.map files.reach = (homeOf files location).inits.reverse := by
    have reached : files.reach = Location.reach files.workingDirectory ∘ Path.components := rfl
    rw [reached, ← List.map_map, Path.components_lineage read]
    simp [Function.comp_def, Component.step, Location.reach_names]
  rw [settings_load proper starts passes, visited]

/-! ## Relative paths -/

/-- The lookup for a relative path without links starts where its entry belongs. -/
theorem exists_startsAt_of_relative {path : Path} {location : Location}
    (relative : path.isAbsolute = false) (unlinked : files.Unlinked path)
    (resolved : files.resolve path = .ok location) (grounded : files.root.Grounded location) :
    ∃ start, StartsAt files path start ∧ start.components <+: path.components ∧
      files.PassesDirectories start ∧ files.reach start = homeOf files location := by
  have isFile := FileSystem.isFile_iff resolved
  rcases grounded.present with ⟨kind, present, noLink⟩
  cases kind with
  | link target => exact absurd rfl (noLink target)
  | directory =>
      have noFile : files.root.kindAt location ≠ some .file := by simp [present]
      refine ⟨path, ?_, List.prefix_rfl, ?_, ?_⟩
      · rw [StartsAt, if_neg (isFile.not.mpr noFile)]
      · exact FileSystem.passesDirectories_of_resolve relative unlinked resolved present
      · rw [homeOf, if_neg noFile, FileSystem.eq_reach_of_resolve unlinked resolved]
  | file =>
      rcases FileSystem.exists_parent?_of_file relative unlinked resolved present with
        ⟨start, name, above, read, passes, reached⟩
      refine ⟨start, ?_, ?_, passes, ?_⟩
      · rw [StartsAt, if_pos (isFile.mpr present), read, List.dropLast_concat]
        exact ⟨above, rfl⟩
      · rw [read]
        exact List.prefix_append _ _
      · rw [homeOf, if_pos present, reached, List.dropLast_concat]

/-- The directories that are asked on the way up from a relative path. -/
theorem reach_lineage_of_relative (files : FileSystem) {start : Path}
    (relative : .root ∉ start.components) :
    start.lineage.map files.reach =
      start.components.inits.reverse.map (Location.reach files.workingDirectory) := by
  rw [← Path.components_lineage_of_relative relative, List.map_map]
  rfl

theorem inits_concat_reverse {α : Type} (front : List α) (last : α) :
    (front ++ [last]).inits.reverse = (front ++ [last]) :: front.inits.reverse := by
  simp

/-- On the way up, the directory itself is asked before those above it. -/
theorem findSome?_inits (held? : Location → Option Settings) (here : Location) :
    here.inits.reverse.findSome? held? =
      (held? here).or (here.dropLast.inits.reverse.findSome? held?) := by
  rcases List.eq_nil_or_concat here with rfl | ⟨front, last, rfl⟩
  · simp
  · rw [List.concat_eq_append, inits_concat_reverse, List.findSome?_cons, List.dropLast_concat]
    cases held? (front ++ [last]) <;> rfl

theorem inits_lead_concat (lead : List Component) (front : List String) (last : String) :
    (lead ++ (front ++ [last]).map Component.name).inits.reverse =
      (lead ++ (front ++ [last]).map Component.name) ::
        (lead ++ front.map Component.name).inits.reverse := by
  rw [List.map_append, List.map_singleton, ← List.append_assoc, inits_concat_reverse]

/-- A leading `.` and names lead down. -/
theorem reach_lead_names {lead : List Component} (leading : lead = [] ∨ lead = [.current])
    (here : Location) (names : List String) :
    Location.reach here (lead ++ names.map .name) = here ++ names := by
  rcases leading with rfl | rfl <;> simp [Location.reach_names, Component.step]

/-- The way up to the top is the one to the working directory, and then on above
it. -/
theorem findSome?_inits_append (held? : Location → Option Settings) (here : Location)
    {lead : List Component} (leading : lead = [] ∨ lead = [.current]) (names : List String) :
    (here ++ names).inits.reverse.findSome? held? =
      (((lead ++ names.map Component.name).inits.reverse.map
        (Location.reach here)).findSome? held?).or
          (here.dropLast.inits.reverse.findSome? held?) := by
  induction names using List.reverseRecOn with
  | nil =>
      rw [List.append_nil, findSome?_inits]
      -- Behind a leading `.` the working directory is asked twice.
      rcases leading with rfl | rfl
      · simp
      · cases held : held? here <;> simp [Component.step, held]
  | append_singleton front last ih =>
      rw [← List.append_assoc, inits_concat_reverse, List.findSome?_cons, ih,
        inits_lead_concat, List.map_cons, List.findSome?_cons, reach_lead_names leading,
        ← List.append_assoc]
      cases held? (here ++ front ++ [last]) <;> rfl

/-- A relative path without `..` goes up to the working directory. -/
theorem mem_reach_inits_iff {here directory : Location} {lead : List Component}
    (leading : lead = [] ∨ lead = [.current]) {names : List String} :
    directory ∈ (lead ++ names.map Component.name).inits.reverse.map (Location.reach here) ↔
      here <+: directory ∧ directory <+: here ++ names := by
  induction names using List.reverseRecOn with
  | nil =>
      have only : directory ∈ (lead ++ [].map Component.name).inits.reverse.map
          (Location.reach here) ↔ directory = here := by
        rcases leading with rfl | rfl <;> simp [Component.step]
      rw [only, List.append_nil]
      constructor
      · rintro rfl
        exact ⟨List.prefix_rfl, List.prefix_rfl⟩
      · rintro ⟨above, below⟩
        exact below.eq_of_length_le above.length_le
  | append_singleton front last ih =>
      have whole : here <+: here ++ front ++ [last] := by simp
      rw [inits_lead_concat, List.map_cons, List.mem_cons, ih, reach_lead_names leading,
        ← List.append_assoc, List.prefix_concat_iff]
      constructor
      · rintro (rfl | ⟨above, below⟩)
        · exact ⟨whole, .inl rfl⟩
        · exact ⟨above, .inr below⟩
      · rintro ⟨above, rfl | below⟩
        · exact .inl rfl
        · exact .inr ⟨above, below⟩

/-! ## Both lookups -/

/-- The lookup for a relative path without links asks the directories that its
components lead through, the working directory at last, and the lookup for the
absolute path of the same entry asks all directories above the entry. Without a
`..` the former are those from the entry up to the working directory. Both have
the same settings exactly if one of these holds any, or if there are no other than
the defaults above the working directory. -/
theorem relative_lookup_ends_at_workingDirectory (files : FileSystem) (path : Path)
    (location : Location) (proper : ∀ name ∈ files.workingDirectory, IsEntryName name)
    (relative : path.isAbsolute = false) (unlinked : files.Unlinked path)
    (resolved : files.resolve path = .ok location) :
    ∃ start, StartsAt files path start ∧ files.reach start = homeOf files location ∧
      start.lineage.map files.reach =
        start.components.inits.reverse.map (Location.reach files.workingDirectory) ∧
      (start.lineage.map files.reach).getLast? = some files.workingDirectory ∧
      (load files path).settings =
        ((start.lineage.map files.reach).findSome? (heldAt? files)).getD {} ∧
      (load files (Location.path location)).settings =
        ((homeOf files location).inits.reverse.findSome? (heldAt? files)).getD {} ∧
      (.parent ∉ path.components →
        (∀ directory, directory ∈ start.lineage.map files.reach ↔
          files.workingDirectory <+: directory ∧ directory <+: homeOf files location) ∧
        ((load files path).settings = (load files (Location.path location)).settings ↔
          (∃ directory ∈ start.lineage.map files.reach, (heldAt? files directory).isSome) ∨
            (files.workingDirectory.dropLast.inits.reverse.findSome? (heldAt? files)).getD {} =
              {})) := by
  have grounded := FileSystem.grounded_of_resolve proper resolved
  have working := FileSystem.kindAt_workingDirectory relative resolved
  rcases exists_startsAt_of_relative relative unlinked resolved grounded with
    ⟨start, starts, above, passes, reached⟩
  have noRoot : .root ∉ start.components :=
    fun member => Path.root_notMem_components relative (above.subset member)
  have asked := reach_lineage_of_relative files noRoot
  have loaded := settings_load proper starts passes
  have loadedPath := settings_load_path proper working grounded
  refine ⟨start, starts, reached, asked, ?_, loaded, loadedPath, ?_⟩
  · rw [asked, List.getLast?_map, List.getLast?_reverse]
    cases start.components <;> rfl
  · intro plain
    have startRelative : start.isAbsolute = false := by
      rw [Bool.eq_false_iff]
      intro absolute
      exact noRoot (by simp [Path.components_of_isAbsolute absolute])
    rcases Path.exists_names_of_relative startRelative fun up => plain (above.subset up) with
      ⟨lead, names, read, leading⟩
    have home : homeOf files location = files.workingDirectory ++ names := by
      rw [← reached, FileSystem.reach, read, reach_lead_names leading]
    constructor
    · intro directory
      rw [asked, read, home]
      exact mem_reach_inits_iff leading
    · rw [loaded, loadedPath, home, findSome?_inits_append _ _ leading, ← read, ← asked,
        ← List.findSome?_isSome_iff]
      cases (start.lineage.map files.reach).findSome? (heldAt? files) with
      | none => simp [eq_comm]
      | some held => simp

/-- Settings in the directory above the working directory. -/
def settingsAbove : FileSystem where
  root := .directory [("srv", .directory [
    (".collector.toml", .file "[collector]\nfail_on_problems = true\n".toUTF8),
    ("app", .directory [("a.php", .file "<?php".toUTF8)])])]
  workingDirectory := ["srv", "app"]

theorem relative_lookup_ends_at_workingDirectory_settingsAbove :
    ∃ start, StartsAt settingsAbove ⟨"./a.php"⟩ start ∧
      (∀ directory, directory ∈ start.lineage.map settingsAbove.reach ↔
        ["srv", "app"] <+: directory ∧ directory <+: ["srv", "app"]) ∧
      heldAt? settingsAbove ["srv", "app"] = none ∧
      (load settingsAbove ⟨"./a.php"⟩).settings = {} ∧
      (load settingsAbove ⟨"/srv/app/a.php"⟩).settings = { failOnProblems := some true } := by
  have resolved : settingsAbove.resolve ⟨"./a.php"⟩ = .ok ["srv", "app", "a.php"] := by
    decide +kernel
  rcases relative_lookup_ends_at_workingDirectory settingsAbove ⟨"./a.php"⟩
    ["srv", "app", "a.php"] (by decide +kernel) (by decide +kernel)
    (FileSystem.unlinked_of_isPlain (by decide +kernel) _) resolved with
    ⟨start, starts, -, -, -, -, -, plain⟩
  refine ⟨start, starts, (plain (by decide +kernel)).1, ?_, ?_, ?_⟩ <;> decide +kernel

/-- Settings in the working directory, and a directory beside it. -/
def settingsBeside : FileSystem where
  root := .directory [("srv", .directory [
    ("app", .directory [
      (".collector.toml", .file "[collector]\nfail_on_problems = true\n".toUTF8)]),
    ("lib", .directory [("a.php", .file "<?php".toUTF8)])])]
  workingDirectory := ["srv", "app"]

/-- The settings above the working directory are not found from `.`, and those in
it are found from a path that leads elsewhere. -/
theorem relative_lookup_differs_from_absolute :
    (settingsAbove.resolve ⟨"."⟩ = .ok ["srv", "app"] ∧
      (load settingsAbove ⟨"."⟩).settings ≠ (load settingsAbove ⟨"/srv/app"⟩).settings) ∧
    settingsBeside.resolve ⟨"../lib"⟩ = .ok ["srv", "lib"] ∧
      (load settingsBeside ⟨"../lib"⟩).file = some ⟨".collector.toml"⟩ ∧
      settingsBeside.resolve ⟨".collector.toml"⟩ = .ok ["srv", "app", ".collector.toml"] ∧
      (load settingsBeside ⟨"../lib"⟩).settings ≠ (load settingsBeside ⟨"/srv/lib"⟩).settings := by
  decide +kernel

end Config

end LoopLift
