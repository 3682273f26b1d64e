import LoopLift.Proofs.FileSystem.Creation
import LoopLift.Proofs.FileSystem.Reaching

/-!
# Writing to contained paths

A write to a path changes the file system at one location. For a path that passes the
containment check, this location is below the root in all cases but one. The check asks for
what exists, and a link that leads to a free name does not exist in this sense: it is taken
for a free name itself, and so a write through it makes a file wherever the link leads.
-/

namespace LoopLift

open Entry

namespace FileSystem

/-! ## The last step of a way -/

/-- A way that can be gone with some links can be gone with more. -/
theorem follow_succ {root : Entry} {links : Nat} {here : Location} {place : Place} :
    {segments : List String} → follow root links here segments = .ok place →
      follow root (links + 1) here segments = .ok place
  | [], followed => by
      rw [follow_nil] at followed ⊢
      exact followed
  | segment :: rest, followed => by
      rcases follow_cons_eq_ok_iff.mp followed with ⟨directory, step⟩
      refine follow_cons_eq_ok_iff.mpr ⟨directory, ?_⟩
      cases step with
      | stay blank onwards => exact .stay blank (follow_succ onwards)
      | up up onwards => exact .up up (follow_succ onwards)
      | free named absent last ends => exact .free named absent last ends
      | link named linked more onwards =>
          subst more
          exact .link named linked rfl (follow_succ onwards)
      | enter named stands noLink onwards => exact .enter named stands noLink (follow_succ onwards)
termination_by segments => (links, segments.length)

theorem follow_mono {root : Entry} {fewer links : Nat} (more : fewer ≤ links) {here : Location}
    {segments : List String} {place : Place}
    (followed : follow root fewer here segments = .ok place) :
    follow root links here segments = .ok place := by
  induction more with
  | refl => exact followed
  | step more ih => exact follow_succ ih

/-- What the last name of a way to a free name stands for in its directory: it is the free
name, or a link that leads to the free name. -/
inductive EndsFree (root : Entry) (links : Nat) (directory : Location) (name : String)
    (location : Location) : Prop where
  | free (absent : root.kindAt (directory ++ [name]) = none)
      (here : location = directory ++ [name])
  | link {fewer : Nat} {target : Path}
      (linked : root.kindAt (directory ++ [name]) = some (.link target)) (less : fewer < links)
      (onwards : follow root fewer (if target.isAbsolute then [] else directory)
        target.segments = .ok (.vacant location))

theorem EndsFree.mono {root : Entry} {fewer links : Nat} {directory location : Location}
    {name : String} (ends : EndsFree root fewer directory name location) (more : fewer ≤ links) :
    EndsFree root links directory name location := by
  cases ends with
  | free absent here => exact .free absent here
  | link linked less onwards => exact .link linked (Nat.lt_of_lt_of_le less more) onwards

/-- A way to a free name ends with a name in a directory that the way before it leads to. -/
theorem exists_last_of_follow {root : Entry} {links : Nat} {here location : Location} :
    {segments : List String} → follow root links here segments = .ok (.vacant location) →
      ∃ front name directory, segments = front ++ [name] ∧
        (name ≠ "" ∧ name ≠ "." ∧ name ≠ "..") ∧
        follow root links here front = .ok (.occupied directory) ∧
        root.kindAt directory = some .directory ∧ EndsFree root links directory name location
  | [], followed => by
      rw [follow_nil] at followed
      cases followed
  | segment :: rest, followed => by
      rcases follow_cons_eq_ok_iff.mp followed with ⟨isDirectory, step⟩
      cases step with
      | stay blank onwards =>
          rcases exists_last_of_follow onwards with
            ⟨front, name, directory, rfl, named, led, stands, ends⟩
          exact ⟨segment :: front, name, directory, rfl, named,
            follow_cons_eq_ok_iff.mpr ⟨isDirectory, .stay blank led⟩, stands, ends⟩
      | up up onwards =>
          rcases exists_last_of_follow onwards with
            ⟨front, name, directory, rfl, named, led, stands, ends⟩
          exact ⟨segment :: front, name, directory, rfl, named,
            follow_cons_eq_ok_iff.mpr ⟨isDirectory, .up up led⟩, stands, ends⟩
      | free named absent last ends =>
          cases ends
          exact ⟨[], segment, here, by rw [last]; rfl, named, follow_nil _ _ _, isDirectory,
            .free absent rfl⟩
      | @link fewer target named linked more onwards =>
          subst more
          rcases List.eq_nil_or_concat rest with rfl | ⟨middle, final, rfl⟩
          · rw [List.append_nil] at onwards
            exact ⟨[], segment, here, rfl, named, follow_nil _ _ _, isDirectory,
              .link linked (Nat.lt_succ_self fewer) onwards⟩
          · -- The last name comes behind the link, so the way through the link goes on to it.
            rcases exists_last_of_follow onwards with
              ⟨front, name, directory, split, proper, led, stands, ends⟩
            rw [List.concat_eq_append, ← List.append_assoc] at split
            rcases List.append_inj' split rfl with ⟨frontEq, lastEq⟩
            cases lastEq
            rw [← frontEq] at led
            exact ⟨segment :: middle, final, directory, by simp, proper,
              follow_cons_eq_ok_iff.mpr ⟨isDirectory, .link named linked rfl led⟩, stands,
              ends.mono (Nat.le_succ fewer)⟩
      | enter named stands noLink onwards =>
          rcases exists_last_of_follow onwards with
            ⟨front, name, directory, rfl, proper, led, below, ends⟩
          exact ⟨segment :: front, name, directory, rfl, proper,
            follow_cons_eq_ok_iff.mpr ⟨isDirectory, .enter named stands noLink led⟩, below, ends⟩
termination_by segments => (links, segments.length)

/-! ## Ways with the same components -/

/-- Blanks in front of a component are passed in a directory. -/
theorem exists_follow_skip {root : Entry} (links : Nat) {here : Location}
    (directory : root.kindAt here = some .directory) {segments : List String}
    {component : Component} {rest : List Component}
    (read : segments.filterMap Component.ofSegment? = component :: rest) :
    ∃ segment behind, Component.ofSegment? segment = some component ∧
      behind.filterMap Component.ofSegment? = rest ∧
      follow root links here segments = follow root links here (segment :: behind) := by
  induction segments with
  | nil => cases read
  | cons segment segments ih =>
      cases own : Component.ofSegment? segment with
      | some first =>
          rw [List.filterMap_cons_some own] at read
          cases read
          exact ⟨segment, segments, own, rfl, rfl⟩
      | none =>
          rw [List.filterMap_cons_none own] at read
          rcases ih read with ⟨next, behind, ofNext, ofBehind, same⟩
          refine ⟨next, behind, ofNext, ofBehind, ?_⟩
          rw [follow_cons, if_pos directory, if_pos (Component.ofSegment?_eq_none_iff.mp own), same]

theorem follow_of_blanks {root : Entry} {links : Nat} {here : Location}
    (directory : root.kindAt here = some .directory) {segments : List String}
    (blank : segments.filterMap Component.ofSegment? = []) :
    follow root links here segments = .ok (.occupied here) := by
  induction segments with
  | nil => exact follow_nil root links here
  | cons segment segments ih =>
      rw [List.filterMap_eq_nil_iff, List.forall_mem_cons] at blank
      rw [follow_cons, if_pos directory, if_pos (Component.ofSegment?_eq_none_iff.mp blank.1),
        ih (List.filterMap_eq_nil_iff.mpr blank.2)]

theorem ofSegment?_inj {left right : String} {component : Component}
    (ofLeft : Component.ofSegment? left = some component)
    (ofRight : Component.ofSegment? right = some component) : left = right := by
  rw [Component.ofSegment?] at ofLeft ofRight
  grind

/-- Segments that stand for the same components lead from a directory to the same
directory. -/
theorem follow_of_same_components {root : Entry} {links : Nat} {here location : Location}
    {left right : List String} (directory : root.kindAt here = some .directory)
    (stands : root.kindAt location = some .directory)
    (same : left.filterMap Component.ofSegment? = right.filterMap Component.ofSegment?)
    (followed : follow root links here left = .ok (.occupied location)) :
    follow root links here right = .ok (.occupied location) := by
  match left with
  | [] =>
      rw [follow_nil] at followed
      cases followed
      exact follow_of_blanks directory same.symm
  | segment :: rest =>
      rcases follow_cons_eq_ok_iff.mp followed with ⟨-, step⟩
      cases read : Component.ofSegment? segment with
      | none =>
          rw [List.filterMap_cons_none read] at same
          have onwards : follow root links here rest = .ok (.occupied location) := by
            rw [← followed, follow_cons, if_pos directory,
              if_pos (Component.ofSegment?_eq_none_iff.mp read)]
          exact follow_of_same_components directory stands same onwards
      | some component =>
          rw [List.filterMap_cons_some read] at same
          rcases exists_follow_skip links directory same.symm with
            ⟨other, behind, ofOther, ofBehind, skipped⟩
          cases ofSegment?_inj read ofOther
          rw [skipped]
          refine follow_cons_eq_ok_iff.mpr ⟨directory, ?_⟩
          cases step with
          | stay blank onwards =>
              rw [Component.ofSegment?_eq_none_iff.mpr blank] at read
              cases read
          | up up onwards =>
              exact .up up (follow_of_same_components (kindAt_dropLast directory) stands
                ofBehind.symm onwards)
          | free named absent last ends => cases ends
          | @link fewer target named linked more onwards =>
              subst more
              refine .link named linked rfl (follow_of_same_components ?_ stands ?_ onwards)
              · split
                · exact kindAt_directory_of_prefix List.nil_prefix directory
                · exact directory
              · rw [List.filterMap_append, List.filterMap_append, ofBehind]
          | @enter kind named entered noLink onwards =>
              -- Where the way goes on there is a directory, and where it ends as well.
              have below : root.kindAt (here ++ [segment]) = some .directory := by
                cases rest with
                | nil =>
                    rw [follow_nil] at onwards
                    cases onwards
                    exact stands
                | cons next others => exact (follow_cons_eq_ok_iff.mp onwards).1
              exact .enter named entered noLink
                (follow_of_same_components below stands ofBehind.symm onwards)
termination_by (links, left.length)

/-! ## The last step of a path -/

variable {files : FileSystem}

/-- Where the last name of a path to a free name is looked up: the directory that the path
above leads to. -/
structure LastStep (files : FileSystem) (path parent : Path) (directory : Location) (name : String)
    (location : Location) : Prop where
  named : path.fileName? = some name
  above : path.parent? = some parent
  leads : files.resolve parent = .ok directory
  stands : files.root.kindAt directory = some .directory
  proper : ∀ inner ∈ directory ++ [name], IsEntryName inner
  ends : EndsFree files.root linkLimit directory name location
  isLink_iff : files.isLink path = true ↔
    ∃ target, files.root.kindAt (directory ++ [name]) = some (.link target)

theorem kindAt_eq_link_iff {root : Entry} {location : Location} {target : Path} :
    root.kindAt location = some (.link target) ↔ root.at? location = some (.link target) := by
  rw [kindAt]
  cases root.at? location with
  | none => simp
  | some entry => cases entry <;> simp [kind]

/-- Whether a path ends at a link is asked in the directory that the segments before its last
one lead to. -/
theorem isLink_iff_of_follow {path : Path} {front : List String} {name : String}
    {directory : Location} (split : path.segments = front ++ [name])
    (led : follow files.root linkLimit (files.origin path) front = .ok (.occupied directory)) :
    files.isLink path = true ↔
      ∃ target, files.root.kindAt (directory ++ [name]) = some (.link target) := by
  rw [origin] at led
  simp only [isLink, split, List.reverse_append, List.reverse_singleton, List.singleton_append,
    List.reverse_reverse, led, kindAt_eq_link_iff]
  cases files.root.at? (directory ++ [name]) with
  | none => simp
  | some entry => cases entry <;> simp

/-- An absolute path to a free name ends with a name, and the path above leads to the
directory where this name is looked up. -/
theorem exists_lastStep {path : Path} {location : Location} (absolute : path.isAbsolute = true)
    (located : files.locate path = .ok (.vacant location)) :
    ∃ parent directory name, files.LastStep path parent directory name location := by
  rw [locate_eq_follow_origin (Path.text_ne_empty_of_isAbsolute absolute)] at located
  rcases exists_last_of_follow located with
    ⟨front, name, directory, split, named, led, stands, ends⟩
  have start : files.origin path = [] := if_pos absolute
  have slashFree : ∀ segment ∈ front ++ [name], '/' ∉ segment.toList := by
    rw [← split]
    exact fun segment => Path.slash_notMem_of_mem_segments
  have read : path.components =
      (.root :: front.filterMap Component.ofSegment?) ++ [.name name] := by
    rw [Path.components_of_isAbsolute absolute, split, List.filterMap_append,
      List.filterMap_cons_some (Component.ofSegment?_eq_name named), List.filterMap_nil]
    rfl
  rcases Path.exists_parent? read (by simp) with ⟨parent, above, parentRead⟩
  have parentAbsolute : parent.isAbsolute = true := by
    cases relative : parent.isAbsolute with
    | true => rfl
    | false => exact absurd (by simp [parentRead]) (Path.root_notMem_components relative)
  have sameComponents : front.filterMap Component.ofSegment? =
      parent.segments.filterMap Component.ofSegment? := by
    rw [Path.components_of_isAbsolute parentAbsolute] at parentRead
    exact (List.cons_inj_right _).mp parentRead.symm
  have top : files.root.kindAt [] = some .directory :=
    kindAt_directory_of_prefix List.nil_prefix stands
  have leads : files.resolve parent = .ok directory := by
    rw [start] at led
    rw [resolve, locate_eq_follow (Path.text_ne_empty_of_isAbsolute parentAbsolute),
      if_pos parentAbsolute, follow_of_same_components top stands sameComponents led]
  have proper : ∀ inner ∈ directory, IsEntryName inner := by
    rw [start] at led
    apply (grounded_of_follow (by simp) _ (fun _ => .of_directory (by simp) top) led).proper
    exact fun segment member => slashFree segment (List.mem_append_left _ member)
  refine ⟨parent, directory, name, ?_, above, leads, stands, ?_, ends,
    isLink_iff_of_follow split led⟩
  · rw [Path.fileName?, read, List.getLast?_concat]
  · intro inner member
    rcases List.mem_append.mp member with earlier | last
    · exact proper inner earlier
    · rw [List.mem_singleton.mp last]
      exact ⟨named.1, named.2.1, named.2.2, slashFree name (by simp)⟩

/-! ## What a write changes -/

/-- What a write of a text at a location makes of a file system: the location holds the text,
and what stands anywhere else keeps its kind and its content. -/
structure WrittenAt (files written : FileSystem) (location : Location) (text : String) :
    Prop where
  workingDirectory : written.workingDirectory = files.workingDirectory
  holds : written.root.at? location = some (.file text.toUTF8)
  kinds : ∀ other, other ≠ location → written.root.kindAt other = files.root.kindAt other
  contents : ∀ other, other ≠ location → ∀ content,
    written.root.at? other = some (.file content) ↔ files.root.at? other = some (.file content)

/-- A write changes one location: the free name or the file that the path leads to. -/
theorem exists_writtenAt {written : FileSystem} {path : Path} {text : String}
    (wrote : files.writeText path text = .ok written) :
    ∃ location, files.WrittenAt written location text ∧
      (files.locate path = .ok (.vacant location) ∨
        files.resolve path = .ok location ∧ files.pathExists path = true) := by
  rw [writeText] at wrote
  cases located : files.locate path with
  | error error =>
      rw [located] at wrote
      cases wrote
  | ok place =>
      rw [located] at wrote
      cases place with
      | vacant location =>
          cases wrote
          have vacant := vacant_of_locate located
          rcases vacant.inDirectory with ⟨here, name, rfl, directory⟩
          have changed := at?_put_new directory vacant.absent text.toUTF8
          exact ⟨here ++ [name], ⟨rfl, (changed _).1 rfl,
            fun other different => ((changed other).2 different).1,
            fun other different => ((changed other).2 different).2⟩, .inl rfl⟩
      | occupied location =>
          have resolved : files.resolve path = .ok location := by rw [resolve, located]
          cases present : files.root.at? location with
          | none => simp [present] at wrote
          | some entry =>
              cases entry with
              | link target => simp [present] at wrote
              | directory entries => simp [present] at wrote
              | file old =>
                  simp only [present, Except.ok.injEq] at wrote
                  subst wrote
                  have changed := at?_put_file present text.toUTF8
                  refine ⟨location, ⟨rfl, (changed _).1 rfl, fun other _ => (changed other).2.1,
                    fun other different => (changed other).2.2 different⟩, .inr ⟨resolved, ?_⟩⟩
                  rw [pathExists, entry?, resolved]
                  simp [present]

/-! ## Where a write through a contained path goes -/

/-- Whether the last name of a path is that of a link that leads to no entry. -/
def isDangling (files : FileSystem) (path : Path) : Bool :=
  files.isLink path && !files.pathExists path

/-- A path ends at a link in a directory below a base. -/
structure EndsAtLink (files : FileSystem) (path base : Path) (directory : Location)
    (target : Path) : Prop where
  below : (Location.path directory).isUnder base = true
  linked : ∃ name, path.fileName? = some name ∧
    files.root.kindAt (directory ++ [name]) = some (.link target)

theorem isUnder_concat {location : Location} {name : String} {base : Path}
    (proper : ∀ inner ∈ location ++ [name], IsEntryName inner)
    (below : (Location.path location).isUnder base = true) :
    (Location.path (location ++ [name])).isUnder base = true := by
  have properAbove : ∀ inner ∈ location, IsEntryName inner :=
    fun inner member => proper inner (List.mem_append_left _ member)
  rw [Path.isUnder, List.isPrefixOf_iff_prefix] at below ⊢
  rw [Path.components_path properAbove] at below
  rw [Path.components_path proper, List.map_append, ← List.cons_append]
  exact below.trans (List.prefix_append _ _)

/-- Where only the last name of a path is missing, the path above is what exists of it. -/
theorem existingPart_eq_parent {path parent : Path} (absent : files.pathExists path = false)
    (above : path.parent? = some parent) (present : files.pathExists parent = true) :
    files.existingPart (path.components.length + 1) path = parent := by
  rcases Path.components_of_parent? above with ⟨last, whole⟩
  simp [existingPart, whole, absent, above, present]

/-- A link that is followed to a free name leads there from the directory that holds it. -/
theorem locate_standingAt_of_follow {directory location : Location} {links : Nat} {target : Path}
    (fewer : links ≤ linkLimit)
    (onwards : follow files.root links (if target.isAbsolute then [] else directory)
      target.segments = .ok (.vacant location)) :
    (files.standingAt directory).locate target = .ok (.vacant location) := by
  have nonempty : target.text ≠ "" := by
    intro empty
    have blank : target.segments.filterMap Component.ofSegment? = [] := by
      simp [Path.segments, empty, Path.segmentsFrom, Component.ofSegment?]
    rcases exists_last_of_follow onwards with ⟨front, name, -, split, named, -⟩
    rw [split, List.filterMap_append, List.filterMap_cons_some
      (Component.ofSegment?_eq_name named)] at blank
    simp at blank
  rw [locate_eq_follow nonempty]
  exact follow_mono fewer onwards

namespace LastStep

variable {path parent base : Path} {directory location : Location} {name : String}

/-- The check of a path to a free name is made on the directory of the last name, whatever
this name stands for. -/
theorem isUnder_directory (step : files.LastStep path parent directory name location)
    (absent : files.pathExists path = false) {reached : Path}
    (checked : files.canonical (files.existingPart (path.components.length + 1) path) = .ok reached)
    (below : reached.isUnder base = true) : (Location.path directory).isUnder base = true := by
  have present : files.pathExists parent = true := by
    rcases kindAt_directory_iff.mp step.stands with ⟨entries, found⟩
    rw [pathExists, entry?, step.leads]
    simp [found]
  rw [existingPart_eq_parent absent step.above present, canonical, step.leads] at checked
  cases checked
  exact below

/-- The free name is below the directory of the last name, or a dangling link leads to it. -/
theorem isUnder_or_link (step : files.LastStep path parent directory name location)
    (absent : files.pathExists path = false)
    (below : (Location.path directory).isUnder base = true) :
    (files.isDangling path = false → (Location.path location).isUnder base = true) ∧
      (files.isDangling path = true → ∃ directory target,
        files.EndsAtLink path base directory target ∧
        (files.standingAt directory).locate target = .ok (.vacant location)) := by
  have dangling : files.isDangling path = files.isLink path := by simp [isDangling, absent]
  rw [dangling]
  cases step.ends with
  | free vacant here =>
      subst here
      have noLink : files.isLink path = false := by
        rw [Bool.eq_false_iff, ne_eq, step.isLink_iff, vacant]
        simp
      refine ⟨fun _ => isUnder_concat step.proper below, fun link => ?_⟩
      rw [noLink] at link
      cases link
  | @link links target linked fewer onwards =>
      have link : files.isLink path = true := step.isLink_iff.mpr ⟨target, linked⟩
      refine ⟨fun noLink => ?_, fun _ => ⟨directory, target, ⟨below, name, step.named, linked⟩,
        locate_standingAt_of_follow (Nat.le_of_lt fewer) onwards⟩⟩
      rw [link] at noLink
      cases noLink

end LastStep

/-- A write through a path that passed the check stays below the root, unless the path ends at
a dangling link. Then the write goes wherever the link leads from its directory, and only the
directory is below the root. -/
theorem contained_write_leaves_only_by_dangling_link {path full : Path} {root : Option Path}
    (contained : files.contain path root = .ok full) :
    ∃ base, files.canonical (root.getD (Location.path files.workingDirectory)) = .ok base ∧
      ∀ text written, files.writeText full text = .ok written →
        ∃ location, files.WrittenAt written location text ∧
          (files.isDangling full = false → (Location.path location).isUnder base = true) ∧
          (files.isDangling full = true → ∃ directory target,
            files.EndsAtLink full base directory target ∧
            (files.standingAt directory).locate target = .ok (.vacant location)) := by
  rcases exists_part_of_contain contained with
    ⟨base, reached, canonicalRoot, joined, checked, below⟩
  refine ⟨base, canonicalRoot, ?_⟩
  intro text written wrote
  rcases exists_writtenAt wrote with ⟨location, writtenAt, free | ⟨resolved, present⟩⟩
  · have absolute : full.isAbsolute = true := by
      rcases exists_location_of_canonical canonicalRoot with ⟨start, -, rfl⟩
      rw [joined]
      exact Path.isAbsolute_join (Path.isAbsolute_path start) path
    have absent : files.pathExists full = false := by
      rw [pathExists, entry?, resolve, free]
      rfl
    rcases exists_lastStep absolute free with ⟨parent, directory, name, step⟩
    exact ⟨location, writtenAt,
      step.isUnder_or_link absent (step.isUnder_directory absent checked below)⟩
  · -- All of the path exists, so the check was made on the path itself.
    rw [existingPart, if_pos present, canonical, resolved] at checked
    cases checked
    refine ⟨location, writtenAt, fun _ => below, fun dangling => ?_⟩
    simp [isDangling, present] at dangling

/-- A directory that holds a dangling link to a name above it. -/
def linkAbove : FileSystem where
  root := .directory [("app", .directory [("new.php", .link ⟨"../out.php"⟩)])]

theorem contained_write_leaves_only_by_dangling_link_linkAbove :
    linkAbove.contain ⟨"new.php"⟩ (some ⟨"/app"⟩) = .ok ⟨"/app/new.php"⟩ ∧
    ∃ base, linkAbove.canonical ⟨"/app"⟩ = .ok base ∧
      ∀ text written, linkAbove.writeText ⟨"/app/new.php"⟩ text = .ok written →
        ∃ location, linkAbove.WrittenAt written location text ∧
          (linkAbove.isDangling ⟨"/app/new.php"⟩ = false →
            (Location.path location).isUnder base = true) ∧
          (linkAbove.isDangling ⟨"/app/new.php"⟩ = true → ∃ directory target,
            linkAbove.EndsAtLink ⟨"/app/new.php"⟩ base directory target ∧
            (linkAbove.standingAt directory).locate target = .ok (.vacant location)) :=
  have contained : linkAbove.contain ⟨"new.php"⟩ (some ⟨"/app"⟩) = .ok ⟨"/app/new.php"⟩ := by
    decide +kernel
  ⟨contained, contained_write_leaves_only_by_dangling_link contained⟩

/-- A path can pass the check although a write through it makes a file outside of the root. -/
theorem contained_write_leaves_root :
    ¬ ∀ (files written : FileSystem) (path full base : Path) (root : Option Path) (text : String)
        (location : Location), files.contain path root = .ok full →
      files.canonical (root.getD (Location.path files.workingDirectory)) = .ok base →
      files.writeText full text = .ok written → files.WrittenAt written location text →
      (Location.path location).isUnder base = true := by
  intro stays
  have located : linkAbove.locate ⟨"/app/new.php"⟩ = .ok (.vacant ["out.php"]) := by
    decide +kernel
  rcases writeText_of_vacant located "<?php" with ⟨written, wrote, -⟩
  rcases exists_writtenAt wrote with ⟨location, writtenAt, free | ⟨resolved, -⟩⟩
  · cases located.symm.trans free
    have below := stays linkAbove written ⟨"new.php"⟩ ⟨"/app/new.php"⟩ ⟨"/app"⟩ (some ⟨"/app"⟩)
      "<?php" ["out.php"] (by decide +kernel) (by decide +kernel) wrote writtenAt
    exact absurd below (by decide +kernel)
  · cases located.symm.trans (locate_eq_of_resolve resolved)

end FileSystem

end LoopLift
