import LoopLift.Proofs.FileSystem.Containment
import LoopLift.Proofs.Path.Joining

/-!
# Ways without links

Where no link stands in the way, a path leads where its components lead one after
the other: a name goes down, and `..` goes up. All that is passed on the way is a
directory. So a file in a directory is found alike from any path that leads to
the directory without links.
-/

namespace LoopLift

open Entry

/-! ## Trees without links -/

namespace Entry

mutual

/-- Whether a tree has no link, and only names that can stand in directories. -/
def isPlain : Entry → Bool
  | .file _ => true
  | .link _ => false
  | .directory entries => arePlain entries

/-- Whether the entries of a directory have no link, and only names that can stand
in directories. -/
def arePlain : List (String × Entry) → Bool
  | [] => true
  | (name, entry) :: rest => decide (IsEntryName name) && entry.isPlain && arePlain rest

end

theorem arePlain_cons_iff {name : String} {entry : Entry} {rest : List (String × Entry)} :
    arePlain ((name, entry) :: rest) = true ↔
      IsEntryName name ∧ entry.isPlain = true ∧ arePlain rest = true := by
  rw [arePlain, Bool.and_eq_true, Bool.and_eq_true, decide_eq_true_iff, and_assoc]

theorem isPlain_of_lookup {entries : List (String × Entry)} {name : String} {entry : Entry}
    (plain : arePlain entries = true) (found : entries.lookup name = some entry) :
    entry.isPlain = true := by
  induction entries with
  | nil => cases found
  | cons first rest ih =>
      rcases first with ⟨other, below⟩
      rcases arePlain_cons_iff.mp plain with ⟨-, belowPlain, restPlain⟩
      rw [lookup_cons_eq] at found
      split at found
      · cases found
        exact belowPlain
      · exact ih restPlain found

theorem isPlain_of_at? {root entry : Entry} {location : Location} (plain : root.isPlain = true)
    (found : root.at? location = some entry) : entry.isPlain = true := by
  induction location generalizing root with
  | nil =>
      cases found.symm.trans (at?_nil root)
      exact plain
  | cons name rest ih =>
      rw [at?_cons] at found
      rcases Option.bind_eq_some_iff.mp found with ⟨below, child, foundBelow⟩
      cases root with
      | file content => cases child
      | link target => cases child
      | directory entries =>
          rw [isPlain] at plain
          exact ih (isPlain_of_lookup plain child) foundBelow

theorem kindAt_ne_link {root : Entry} (plain : root.isPlain = true) (location : Location)
    (target : Path) : root.kindAt location ≠ some (.link target) := by
  intro linked
  rcases Option.map_eq_some_iff.mp linked with ⟨entry, found, isLink⟩
  have entryPlain := isPlain_of_at? plain found
  cases entry with
  | link other => rw [isPlain] at entryPlain; cases entryPlain
  | file content => cases isLink
  | directory entries => cases isLink

end Entry

/-! ## Components as steps -/

/-- Where a component leads from a location, links aside. -/
def Component.step (here : Location) : Component → Location
  | .root => []
  | .current => here
  | .parent => here.dropLast
  | .name text => here ++ [text]

/-- Where components lead from a location, links aside. -/
def Location.reach (here : Location) (components : List Component) : Location :=
  components.foldl Component.step here

namespace Location

@[simp] theorem reach_nil (here : Location) : reach here [] = here := rfl

@[simp] theorem reach_cons (here : Location) (component : Component) (rest : List Component) :
    reach here (component :: rest) = reach (component.step here) rest := rfl

theorem reach_append (here : Location) (first second : List Component) :
    reach here (first ++ second) = reach (reach here first) second := by
  simp [reach]

/-- Names lead down. -/
theorem reach_names (here : Location) (names : List String) :
    reach here (names.map .name) = here ++ names := by
  induction names generalizing here with
  | nil => simp
  | cons name rest ih => simp [ih, Component.step]

end Location

/-- A segment stands for nothing, for a step up, or for a name. -/
theorem Component.ofSegment?_cases (segment : String) :
    (segment = "" ∨ segment = ".") ∧ ofSegment? segment = none ∨
    segment = ".." ∧ ofSegment? segment = some .parent ∨
    ¬ (segment = "" ∨ segment = ".") ∧ segment ≠ ".." ∧
      ofSegment? segment = some (.name segment) := by
  rw [ofSegment?]
  split
  · rename_i blank
    exact .inl ⟨blank, rfl⟩
  · rename_i proper
    split
    · rename_i up
      exact .inr (.inl ⟨up, rfl⟩)
    · rename_i down
      exact .inr (.inr ⟨proper, down, rfl⟩)

namespace FileSystem

/-! ## Following without links -/

/-- Directories on the way of segments are passed. -/
theorem follow_append_of_directories {root : Entry} {links : Nat} {here : Location}
    {segments : List String} (rest : List String)
    (directories : ∀ above, above <+: segments.filterMap Component.ofSegment? →
      root.kindAt (Location.reach here above) = some .directory) :
    follow root links here (segments ++ rest) =
      follow root links
        (Location.reach here (segments.filterMap Component.ofSegment?)) rest := by
  induction segments generalizing here with
  | nil => rfl
  | cons segment segments ih =>
      have directory : root.kindAt here = some .directory := directories [] List.nil_prefix
      rw [List.cons_append, follow_cons, if_pos directory]
      rcases Component.ofSegment?_cases segment with
        ⟨blank, read⟩ | ⟨up, read⟩ | ⟨proper, down, read⟩
      · rw [List.filterMap_cons_none read] at directories ⊢
        rw [if_pos blank, ih directories]
      · rw [List.filterMap_cons_some read] at directories ⊢
        subst up
        rw [if_neg (by decide), if_pos rfl, ih]
        · rfl
        · intro above start
          exact directories (.parent :: above) (List.prefix_cons_inj _ |>.mpr start)
      · rw [List.filterMap_cons_some read] at directories ⊢
        have below : root.kindAt (here ++ [segment]) = some .directory :=
          directories [.name segment] (List.prefix_cons_inj _ |>.mpr List.nil_prefix)
        rw [if_neg proper, if_neg down, below]
        simp only
        rw [ih]
        · rfl
        · intro above start
          exact directories (.name segment :: above) (List.prefix_cons_inj _ |>.mpr start)

/-- Segments without a link on their way lead where their components lead, and all
before the last one are directories. -/
theorem reach_of_follow {root : Entry} {links : Nat} {here location : Location}
    {segments : List String}
    (unlinked : ∀ above, above <+: segments.filterMap Component.ofSegment? →
      ∀ target, root.kindAt (Location.reach here above) ≠ some (.link target))
    (followed : follow root links here segments = .ok (.occupied location)) :
    location = Location.reach here (segments.filterMap Component.ofSegment?) ∧
      ∀ above, above <+: segments.filterMap Component.ofSegment? →
        above ≠ segments.filterMap Component.ofSegment? →
        root.kindAt (Location.reach here above) = some .directory := by
  induction segments generalizing here with
  | nil =>
      rw [follow_nil] at followed
      cases followed
      refine ⟨rfl, ?_⟩
      intro above start shorter
      exact absurd (List.prefix_nil.mp start) shorter
  | cons segment segments ih =>
      rcases follow_cons_eq_ok_iff.mp followed with ⟨directory, step⟩
      -- A prefix is empty, or goes on behind the first component.
      have behind : ∀ component : Component,
          Component.ofSegment? segment = some component →
          follow root links (component.step here) segments = .ok (.occupied location) →
          location = Location.reach here ((segment :: segments).filterMap Component.ofSegment?) ∧
            ∀ above, above <+: (segment :: segments).filterMap Component.ofSegment? →
              above ≠ (segment :: segments).filterMap Component.ofSegment? →
              root.kindAt (Location.reach here above) = some .directory := by
        intro component read onwards
        rw [List.filterMap_cons_some read] at unlinked ⊢
        have inner := ih (fun above start =>
          unlinked (component :: above) (List.prefix_cons_inj _ |>.mpr start)) onwards
        refine ⟨inner.1, ?_⟩
        intro above start shorter
        rcases List.prefix_cons_iff.mp start with rfl | ⟨later, rfl, rest⟩
        · exact directory
        · exact inner.2 later rest fun same => shorter (congrArg _ same)
      cases step with
      | stay blank onwards =>
          rw [List.filterMap_cons_none (Component.ofSegment?_eq_none_iff.mpr blank)] at unlinked ⊢
          exact ih unlinked onwards
      | up up onwards =>
          subst up
          exact behind .parent (by decide) onwards
      | free named absent last ends => cases ends
      | link named linked more onwards =>
          rw [List.filterMap_cons_some (Component.ofSegment?_eq_name named)] at unlinked
          exact absurd linked
            (unlinked [.name segment] (List.prefix_cons_inj _ |>.mpr List.nil_prefix) _)
      | enter named stands noLink onwards =>
          exact behind (.name segment) (Component.ofSegment?_eq_name named) onwards

/-! ## Paths without links -/

variable {files : FileSystem}

/-- The location that the segments of a path are followed from. -/
def origin (files : FileSystem) (path : Path) : Location :=
  if path.isAbsolute then [] else files.workingDirectory

/-- Where the components of a path lead, links aside. -/
def reach (files : FileSystem) (path : Path) : Location :=
  Location.reach files.workingDirectory path.components

/-- No link stands on the way of a path. -/
def Unlinked (files : FileSystem) (path : Path) : Prop :=
  ∀ above, above <+: path.components →
    ∀ target, files.root.kindAt (Location.reach files.workingDirectory above) ≠ some (.link target)

/-- A path goes through directories and ends at one. -/
def PassesDirectories (files : FileSystem) (path : Path) : Prop :=
  ∀ above, above <+: path.components →
    files.root.kindAt (Location.reach files.workingDirectory above) = some .directory

/-- In a tree without links there is none on the way of any path. -/
theorem unlinked_of_isPlain (plain : files.root.isPlain = true) (path : Path) :
    files.Unlinked path :=
  fun _ _ target => kindAt_ne_link plain _ target

theorem reach_empty (files : FileSystem) : files.reach ⟨""⟩ = files.workingDirectory := by
  rw [reach, Path.components_empty, Location.reach_nil]

theorem PassesDirectories.of_prefix {path above : Path} (passes : files.PassesDirectories path)
    (start : above.components <+: path.components) : files.PassesDirectories above :=
  fun farther inner => passes farther (inner.trans start)

/-- The start of a path leads to the place that its segments are followed from. -/
theorem reach_lead_append (files : FileSystem) (path : Path) (behind : List Component) :
    Location.reach files.workingDirectory ((path.lead?.map Prod.fst).toList ++ behind) =
      Location.reach (files.origin path) behind := by
  rw [Location.reach_append, Path.lead?, origin]
  split
  · rfl
  · split <;> rfl

theorem reach_eq (files : FileSystem) (path : Path) :
    files.reach path =
      Location.reach (files.origin path) (path.segments.filterMap Component.ofSegment?) := by
  rw [reach, Path.components_eq, reach_lead_append]

/-- The first segments of a path lead where its first components lead. -/
theorem exists_prefix_components (files : FileSystem) {path : Path} {above : List Component}
    (start : above <+: path.segments.filterMap Component.ofSegment?) :
    ∃ front, front <+: path.components ∧
      Location.reach files.workingDirectory front = Location.reach (files.origin path) above := by
  refine ⟨(path.lead?.map Prod.fst).toList ++ above, ?_, reach_lead_append files path above⟩
  rw [Path.components_eq]
  exact (List.prefix_append_right_inj _).mpr start

theorem Unlinked.kindAt_ne {path : Path} (unlinked : files.Unlinked path) (above : List Component)
    (start : above <+: path.segments.filterMap Component.ofSegment?) (target : Path) :
    files.root.kindAt (Location.reach (files.origin path) above) ≠ some (.link target) := by
  rcases exists_prefix_components files start with ⟨front, inComponents, same⟩
  rw [← same]
  exact unlinked front inComponents target

theorem PassesDirectories.kindAt_eq {path : Path} (passes : files.PassesDirectories path)
    (above : List Component) (start : above <+: path.segments.filterMap Component.ofSegment?) :
    files.root.kindAt (Location.reach (files.origin path) above) = some .directory := by
  rcases exists_prefix_components files start with ⟨front, inComponents, same⟩
  rw [← same]
  exact passes front inComponents

theorem locate_eq_follow_origin {path : Path} (nonempty : path.text ≠ "") :
    files.locate path = follow files.root linkLimit (files.origin path) path.segments :=
  locate_eq_follow nonempty

theorem resolve_of_passesDirectories {path : Path} (passes : files.PassesDirectories path)
    (nonempty : path.text ≠ "") : files.resolve path = .ok (files.reach path) := by
  have located : files.locate path = .ok (.occupied (files.reach path)) := by
    rw [locate_eq_follow_origin nonempty, ← path.segments.append_nil,
      follow_append_of_directories [] passes.kindAt_eq, follow_nil, reach_eq]
  rw [resolve, located]

/-- A name behind a path that passes directories is looked up where the path
leads. -/
theorem resolve_child {base : Path} {name : String} (passes : files.PassesDirectories base)
    (proper : IsEntryName name) :
    files.resolve (base.child name) = (files.standingAt (files.reach base)).resolve ⟨name⟩ := by
  by_cases empty : base.text = ""
  · have noBase : base = ⟨""⟩ := congrArg Path.mk empty
    rw [noBase, reach_empty, Path.child, Path.join, if_pos (by simp)]
    rfl
  · have relative := Path.isAbsolute_of_slash_notMem proper.2.2.2
    have childText : (base.child name).text ≠ "" := by
      intro noText
      have noChild : base.child name = ⟨""⟩ := congrArg Path.mk noText
      have read : (base.child name).components = base.components ++ [.name name] :=
        Path.components_child proper
      simp [noChild] at read
    have start : files.origin (base.child name) = files.origin base := by
      rw [origin, Path.child, Path.isAbsolute_join_of_relative empty relative, origin]
    rcases Path.exists_segments_join empty relative with ⟨front, -, joined, read⟩
    have located : files.locate (base.child name) =
        (files.standingAt (files.reach base)).locate ⟨name⟩ := by
      rw [locate_eq_follow_origin childText, start, Path.child, joined,
        follow_append_of_directories, ← read, ← reach_eq, locate_eq_follow proper.1, relative]
      · rfl
      · rw [← read]
        exact passes.kindAt_eq
    rw [resolve, resolve, located]

/-- What passes directories ends at a grounded location. -/
theorem grounded_reach {path : Path} (proper : ∀ name ∈ files.workingDirectory, IsEntryName name)
    (passes : files.PassesDirectories path) : files.root.Grounded (files.reach path) := by
  by_cases empty : path.text = ""
  · have noPath : path = ⟨""⟩ := congrArg Path.mk empty
    rw [noPath, reach_empty]
    exact .of_directory proper (passes [] List.nil_prefix)
  · exact grounded_of_resolve proper (resolve_of_passesDirectories passes empty)

/-- The path of a grounded location leads to it. -/
theorem resolve_path {location : Location} (grounded : files.root.Grounded location)
    (top : files.root.kindAt [] = some .directory) :
    files.resolve (Location.path location) = .ok location := by
  have absolute := Path.isAbsolute_path location
  have located : files.locate (Location.path location) = .ok (.occupied location) := by
    rw [locate_eq_follow (Path.text_ne_empty_of_isAbsolute absolute), if_pos absolute]
    cases location with
    | nil =>
        have segments : (Location.path []).segments = ["", ""] := by decide +kernel
        simp [segments, follow_cons, top]
    | cons name names =>
        rw [Path.segments_path grounded.proper (List.cons_ne_nil name names), follow_cons,
          if_pos top, if_pos (.inl rfl), ← (name :: names).append_nil, follow_names [] grounded,
          List.append_nil, List.nil_append, follow_nil]
  rw [resolve, located]

theorem isFile_iff {path : Path} {location : Location}
    (resolved : files.resolve path = .ok location) :
    files.isFile path = true ↔ files.root.kindAt location = some .file := by
  rw [isFile, entry?, resolved, kindAt]
  simp only
  cases files.root.at? location with
  | none => simp
  | some entry => cases entry <;> simp [kind]

theorem exists_resolve_of_isDirectory {path : Path} (directory : files.isDirectory path = true) :
    ∃ location, files.resolve path = .ok location ∧
      files.root.kindAt location = some .directory := by
  rw [isDirectory, entry?] at directory
  cases resolved : files.resolve path with
  | error error => simp [resolved] at directory
  | ok location =>
      refine ⟨location, rfl, ?_⟩
      rw [kindAt]
      cases found : files.root.at? location with
      | none => simp [resolved, found] at directory
      | some entry => cases entry <;> simp_all [kind]

theorem isFile_of_isDirectory {path : Path} (directory : files.isDirectory path = true) :
    files.isFile path = false := by
  rcases exists_resolve_of_isDirectory directory with ⟨location, resolved, stands⟩
  rw [Bool.eq_false_iff, ne_eq, isFile_iff resolved, stands]
  simp

theorem readText_congr {left right : FileSystem} {path other : Path}
    (sameRoot : left.root = right.root) (sameEntry : left.resolve path = right.resolve other) :
    left.readText path = right.readText other := by
  rw [readText, readText, readBytes, readBytes, sameEntry, sameRoot]

theorem text_ne_empty_of_resolve {path : Path} {location : Location}
    (resolved : files.resolve path = .ok location) : path.text ≠ "" := by
  have located := locate_eq_of_resolve resolved
  intro empty
  simp [locate, empty] at located

/-- A path without links leads where its components lead. -/
theorem eq_reach_of_resolve {path : Path} {location : Location} (unlinked : files.Unlinked path)
    (resolved : files.resolve path = .ok location) : location = files.reach path := by
  have located := locate_eq_of_resolve resolved
  rw [locate_eq_follow_origin (text_ne_empty_of_resolve resolved)] at located
  rw [reach_eq]
  exact (reach_of_follow unlinked.kindAt_ne located).1

/-- A relative path that leads somewhere starts at a directory. -/
theorem kindAt_workingDirectory {path : Path} {location : Location}
    (relative : path.isAbsolute = false) (resolved : files.resolve path = .ok location) :
    files.root.kindAt files.workingDirectory = some .directory := by
  have located := locate_eq_of_resolve resolved
  rw [locate_eq_follow_origin (text_ne_empty_of_resolve resolved), origin, relative,
    if_neg Bool.false_ne_true] at located
  cases read : path.segments with
  | nil => exact absurd read path.segments_ne_nil
  | cons segment rest =>
      rw [read] at located
      exact (follow_cons_eq_ok_iff.mp located).1

/-- The start of a list with an optional first item is empty or goes on behind
that item. -/
theorem prefix_toList_append {α : Type} {first : Option α} {above rest : List α}
    (start : above <+: first.toList ++ rest) :
    above = [] ∨ ∃ behind, above = first.toList ++ behind ∧ behind <+: rest := by
  cases first with
  | none => exact .inr ⟨above, rfl, start⟩
  | some item => exact List.prefix_cons_iff.mp start

/-- Before its end, a relative path without links goes through directories. -/
theorem kindAt_of_prefix {path : Path} {location : Location} (relative : path.isAbsolute = false)
    (unlinked : files.Unlinked path) (resolved : files.resolve path = .ok location)
    {above : List Component} (start : above <+: path.components)
    (shorter : above ≠ path.components) :
    files.root.kindAt (Location.reach files.workingDirectory above) = some .directory := by
  have located := locate_eq_of_resolve resolved
  rw [locate_eq_follow_origin (text_ne_empty_of_resolve resolved)] at located
  have passed := (reach_of_follow unlinked.kindAt_ne located).2
  rw [Path.components_eq] at start shorter
  rcases prefix_toList_append start with rfl | ⟨behind, rfl, inner⟩
  · exact kindAt_workingDirectory relative resolved
  · rw [reach_lead_append]
    exact passed behind inner fun whole => shorter (congrArg _ whole)

/-- A relative path without links to a directory goes through directories. -/
theorem passesDirectories_of_resolve {path : Path} {location : Location}
    (relative : path.isAbsolute = false) (unlinked : files.Unlinked path)
    (resolved : files.resolve path = .ok location)
    (directory : files.root.kindAt location = some .directory) : files.PassesDirectories path := by
  intro above start
  by_cases whole : above = path.components
  · rw [whole, ← reach, ← eq_reach_of_resolve unlinked resolved]
    exact directory
  · exact kindAt_of_prefix relative unlinked resolved start whole

/-- A relative path without links to a file ends with the name of the file, behind
a path to its directory. -/
theorem exists_parent?_of_file {path : Path} {location : Location}
    (relative : path.isAbsolute = false) (unlinked : files.Unlinked path)
    (resolved : files.resolve path = .ok location)
    (file : files.root.kindAt location = some .file) :
    ∃ parent name, path.parent? = some parent ∧
      path.components = parent.components ++ [.name name] ∧ files.PassesDirectories parent ∧
      location = files.reach parent ++ [name] := by
  have reached := eq_reach_of_resolve unlinked resolved
  rcases List.eq_nil_or_concat path.components with empty | ⟨front, last, whole⟩
  · rw [reached, reach, empty, Location.reach_nil,
      kindAt_workingDirectory relative resolved] at file
    cases file
  · rw [List.concat_eq_append] at whole
    have notRoot : last ≠ .root := by
      rintro rfl
      exact Path.root_notMem_components relative (by simp [whole])
    rcases Path.exists_parent? whole notRoot with ⟨parent, above, read⟩
    have passes : files.PassesDirectories parent := by
      intro farther start
      rw [read] at start
      have inPath := start.trans (List.prefix_append front [last])
      rw [← whole] at inPath
      apply kindAt_of_prefix relative unlinked resolved inPath
      rintro rfl
      have shorter := start.length_le
      rw [whole, List.length_append, List.length_singleton] at shorter
      omega
    have directory := passes _ List.prefix_rfl
    have stepped : location = last.step (files.reach parent) := by
      rw [reached, reach, whole, Location.reach_append, reach, read]
      rfl
    -- Only a name leads from a directory to a file.
    cases last with
    | root => exact absurd rfl notRoot
    | current =>
        rw [stepped, Component.step, reach, directory] at file
        cases file
    | parent =>
        rw [stepped, Component.step, reach, kindAt_dropLast directory] at file
        cases file
    | name name => exact ⟨parent, name, above, by rw [read, whole], passes, stepped⟩

end FileSystem

end LoopLift
