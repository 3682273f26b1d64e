import LoopLift.Proofs.FileSystem.Following

/-!
# Making a file

A path that leads to a name that its directory does not have can be written, and
this makes a file with that name. No other entry changes its kind, so every path
that led to an entry still leads there, and a path that led to the free name now
leads to the new file.
-/

namespace LoopLift

open Entry

namespace Entry

/-- A location in a directory that does not have the name. -/
structure Vacant (root : Entry) (location : Location) : Prop where
  absent : root.kindAt location = none
  inDirectory : ∃ here name, location = here ++ [name] ∧ root.kindAt here = some .directory

theorem kindAt_directory_iff {root : Entry} {location : Location} :
    root.kindAt location = some .directory ↔
      ∃ entries, root.at? location = some (.directory entries) := by
  rw [kindAt]
  cases root.at? location with
  | none => simp
  | some entry => cases entry <;> simp [kind]

/-- A file that is put in a directory stands there, and at no other location
anything changes its kind or, if it is a file, its content. -/
theorem at?_put_new {root : Entry} {here : Location} {name : String}
    (directory : root.kindAt here = some .directory)
    (absent : root.kindAt (here ++ [name]) = none) (content : ByteArray) (other : Location) :
    (other = here ++ [name] →
      (root.put (here ++ [name]) (.file content)).at? other = some (.file content)) ∧
    (other ≠ here ++ [name] →
      (root.put (here ++ [name]) (.file content)).kindAt other = root.kindAt other ∧
      ∀ old, (root.put (here ++ [name]) (.file content)).at? other = some (.file old) ↔
        root.at? other = some (.file old)) := by
  -- The induction follows the way down to the directory.
  induction here generalizing root other with
  | nil =>
      rcases kindAt_directory_iff.mp directory with ⟨entries, top⟩
      rw [at?_nil, Option.some_inj] at top
      subst top
      have free : entries.lookup name = none := by simpa [kindAt, child?] using absent
      cases other with
      | nil => simp [put, kindAt, kind]
      | cons first others =>
          by_cases same : first = name
          · subst same
            cases others <;> simp [put, kindAt, child?, lookup_assign, free]
          · simp [put, same, kindAt, child?, lookup_assign]
  | cons next farther ih =>
      cases root with
      | file content => simp [kindAt, child?] at directory
      | link target => simp [kindAt, child?] at directory
      | directory entries =>
          cases found : entries.lookup next with
          | none => simp [kindAt, child?, found] at directory
          | some below =>
              have directoryBelow : below.kindAt farther = some .directory := by
                simpa [kindAt, child?, found] using directory
              have absentBelow : below.kindAt (farther ++ [name]) = none := by
                simpa [kindAt, child?, found] using absent
              have inner := ih directoryBelow absentBelow
              cases other with
              | nil => simp [put, kindAt, kind]
              | cons first others =>
                  by_cases same : first = next
                  · subst same
                    simpa [put, found, kindAt, child?, lookup_assign] using inner others
                  · simp [put, same, kindAt, child?, lookup_assign]

end Entry

/-- Where a path leads after a file has been made at a location. -/
def Place.afterMaking (location : Location) : Place → Place
  | .occupied here => .occupied here
  | .vacant here => if here = location then .occupied here else .vacant here

namespace FileSystem

/-! ## Ways to a free name -/

/-- A way that ends at a free name ends in a directory. -/
theorem vacant_of_follow {root : Entry} {links : Nat} {here location : Location} :
    {segments : List String} → follow root links here segments = .ok (.vacant location) →
      root.Vacant location
  | [], followed => by
      rw [follow_nil] at followed
      cases followed
  | segment :: rest, followed => by
      rcases follow_cons_eq_ok_iff.mp followed with ⟨directory, step⟩
      cases step with
      | stay blank onwards => exact vacant_of_follow onwards
      | up up onwards => exact vacant_of_follow onwards
      | free named absent last ends =>
          cases ends
          exact ⟨absent, here, segment, rfl, directory⟩
      | link named linked more onwards =>
          subst more
          exact vacant_of_follow onwards
      | enter named stands noLink onwards => exact vacant_of_follow onwards
termination_by segments => (links, segments.length)

theorem vacant_of_locate {files : FileSystem} {path : Path} {location : Location}
    (located : files.locate path = .ok (.vacant location)) : files.root.Vacant location := by
  rw [locate] at located
  split at located
  · cases located
  · exact vacant_of_follow located

/-- Making a file changes where a way ends only if it ended at the free name. -/
theorem follow_of_making {old new : Entry} {location : Location}
    (absent : old.kindAt location = none) (present : new.kindAt location = some .file)
    (others : ∀ other, other ≠ location → new.kindAt other = old.kindAt other)
    {links : Nat} {here : Location} {place : Place} :
    {segments : List String} → follow old links here segments = .ok place →
      follow new links here segments = .ok (place.afterMaking location)
  | [], followed => by
      rw [follow_nil] at followed ⊢
      cases followed
      rfl
  | segment :: rest, followed => by
      have kept : ∀ {other kind}, old.kindAt other = some kind → new.kindAt other = some kind := by
        intro other kind stands
        rw [← stands]
        apply others
        rintro rfl
        rw [absent] at stands
        cases stands
      rcases follow_cons_eq_ok_iff.mp followed with ⟨directory, step⟩
      refine follow_cons_eq_ok_iff.mpr ⟨kept directory, ?_⟩
      cases step with
      | stay blank onwards => exact .stay blank (follow_of_making absent present others onwards)
      | up up onwards => exact .up up (follow_of_making absent present others onwards)
      | free named free last ends =>
          subst last ends
          by_cases made : here ++ [segment] = location
          · subst made
            refine .enter named present (by simp) ?_
            rw [follow_nil, Place.afterMaking, if_pos rfl]
          · refine .free named ?_ rfl (if_neg made)
            rw [others _ made, free]
      | link named linked more onwards =>
          subst more
          exact .link named (kept linked) rfl (follow_of_making absent present others onwards)
      | enter named stands noLink onwards =>
          exact .enter named (kept stands) noLink (follow_of_making absent present others onwards)
termination_by segments => (links, segments.length)

/-! ## Writing to a free name -/

/-- A path that leads to no entry can be written only at a free name. -/
theorem exists_vacant_of_writeText {files written : FileSystem} {path : Path} {text : String}
    (absent : files.pathExists path = false) (wrote : files.writeText path text = .ok written) :
    ∃ location, files.locate path = .ok (.vacant location) := by
  rw [pathExists, entry?, resolve] at absent
  rw [writeText] at wrote
  cases located : files.locate path with
  | error error =>
      rw [located] at wrote
      cases wrote
  | ok place =>
      cases place with
      | vacant location => exact ⟨location, rfl⟩
      | occupied location =>
          simp only [located, Option.isSome_eq_false_iff, Option.isNone_iff_eq_none] at absent wrote
          rw [absent] at wrote
          cases wrote

/-- A path to a free name can be written. The new file holds the text, and every
path that led to an entry still leads to it, of the same kind. -/
theorem writeText_of_vacant {files : FileSystem} {path : Path} {location : Location}
    (located : files.locate path = .ok (.vacant location)) (text : String) :
    ∃ written, files.writeText path text = .ok written ∧
      written.readText path = .ok text ∧
      ∀ other reached kind, files.resolve other = .ok reached →
        files.root.kindAt reached = some kind →
        written.resolve other = .ok reached ∧ written.root.kindAt reached = some kind := by
  have vacant := vacant_of_locate located
  rcases vacant.inDirectory with ⟨here, name, rfl, directory⟩
  have changed := at?_put_new directory vacant.absent text.toUTF8
  let written : FileSystem :=
    { files with root := files.root.put (here ++ [name]) (.file text.toUTF8) }
  have present : written.root.kindAt (here ++ [name]) = some .file :=
    kindAt_eq_file_iff.mpr ⟨_, (changed _).1 rfl⟩
  have leads : ∀ other place, files.locate other = .ok place →
      written.locate other = .ok (place.afterMaking (here ++ [name])) := by
    intro other place followed
    rw [locate] at followed ⊢
    split at followed
    · cases followed
    · rw [if_neg (by assumption)]
      exact follow_of_making vacant.absent present
        (fun other different => ((changed other).2 different).1) followed
  refine ⟨written, ?_, ?_, ?_⟩
  · rw [writeText, located]
  · apply readText_eq_ok_iff.mpr
    refine ⟨here ++ [name], text.toUTF8, ?_, (changed _).1 rfl, fromUTF8?_toUTF8 text⟩
    rw [resolve, leads path _ located, Place.afterMaking, if_pos rfl]
  · intro other reached kind resolved stands
    constructor
    · rw [resolve, leads other _ (locate_eq_of_resolve resolved), Place.afterMaking]
    · rw [((changed reached).2 _).1, stands]
      rintro rfl
      rw [vacant.absent] at stands
      cases stands

end FileSystem

end LoopLift
