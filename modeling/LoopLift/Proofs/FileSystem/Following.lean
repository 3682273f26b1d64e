import LoopLift.FileSystem.Containment
import LoopLift.Proofs.FileSystem.Entry

/-!
# Following paths

One step of following a path, in terms of the kinds of entries. File systems of
one shape, with the same kinds everywhere and the same working directory, lead
every path to the same place, and so judge containment alike. Writing to a file
that was read keeps the shape.
-/

namespace LoopLift

open Entry

namespace FileSystem

/-! ## One step -/

@[simp] theorem follow_nil (root : Entry) (links : Nat) (here : Location) :
    follow root links here [] = .ok (.occupied here) := by
  cases links <;> rfl

/-- One step on the way of a path. -/
theorem follow_cons (root : Entry) (links : Nat) (here : Location) (segment : String)
    (rest : List String) :
    follow root links here (segment :: rest) =
      if root.kindAt here = some .directory then
        if segment = "" ∨ segment = "." then follow root links here rest
        else if segment = ".." then follow root links here.dropLast rest
        else
          match root.kindAt (here ++ [segment]) with
          | none => if rest.isEmpty then .ok (.vacant (here ++ [segment])) else .error .notFound
          | some (.link target) =>
              match links with
              | 0 => .error .tooManyLinks
              | links + 1 =>
                  follow root links (if target.isAbsolute then [] else here)
                    (target.segments ++ rest)
          | some _ => follow root links (here ++ [segment]) rest
      else .error .notADirectory := by
  cases found : root.at? here with
  | none => cases links <;> simp [follow, followTo, kindAt, found]
  | some entry =>
      cases entry with
      | file content => cases links <;> simp [follow, followTo, kindAt, kind, found]
      | link target => cases links <;> simp [follow, followTo, kindAt, kind, found]
      | directory entries =>
          have below := at?_concat found segment
          cases links <;>
            simp only [follow, followTo, kindAt, kind, found, below, Option.map_some, ↓reduceIte]
          all_goals
            cases entries.lookup segment with
            | none => rfl
            | some inner => cases inner <;> rfl

/-- What the first segment of a way that ends at a place does. -/
inductive FirstStep (root : Entry) (links : Nat) (here : Location) (segment : String)
    (rest : List String) (place : Place) : Prop where
  | stay (blank : segment = "" ∨ segment = ".")
      (onwards : follow root links here rest = .ok place)
  | up (up : segment = "..") (onwards : follow root links here.dropLast rest = .ok place)
  | free (named : segment ≠ "" ∧ segment ≠ "." ∧ segment ≠ "..")
      (absent : root.kindAt (here ++ [segment]) = none)
      (last : rest = []) (ends : place = .vacant (here ++ [segment]))
  | link {fewer : Nat} {target : Path} (named : segment ≠ "" ∧ segment ≠ "." ∧ segment ≠ "..")
      (linked : root.kindAt (here ++ [segment]) = some (.link target)) (more : links = fewer + 1)
      (onwards : follow root fewer (if target.isAbsolute then [] else here)
        (target.segments ++ rest) = .ok place)
  | enter {kind : Kind} (named : segment ≠ "" ∧ segment ≠ "." ∧ segment ≠ "..")
      (stands : root.kindAt (here ++ [segment]) = some kind)
      (noLink : ∀ target, kind ≠ .link target)
      (onwards : follow root links (here ++ [segment]) rest = .ok place)

theorem follow_cons_eq_ok_iff {root : Entry} {links : Nat} {here : Location} {segment : String}
    {rest : List String} {place : Place} :
    follow root links here (segment :: rest) = .ok place ↔
      root.kindAt here = some .directory ∧ FirstStep root links here segment rest place := by
  rw [follow_cons]
  constructor
  · intro followed
    split at followed
    · rename_i directory
      refine ⟨directory, ?_⟩
      split at followed
      · exact .stay (by assumption) followed
      · rename_i written
        split at followed
        · exact .up (by assumption) followed
        · rename_i notUp
          have named : segment ≠ "" ∧ segment ≠ "." ∧ segment ≠ ".." :=
            ⟨(not_or.mp written).1, (not_or.mp written).2, notUp⟩
          split at followed
          · split at followed
            · cases followed
              exact .free named (by assumption) (List.isEmpty_iff.mp (by assumption)) rfl
            · cases followed
          · cases links with
            | zero => cases followed
            | succ fewer => exact .link named (by assumption) rfl followed
          · exact .enter named (by assumption) (by assumption) followed
    · cases followed
  · rintro ⟨directory, step⟩
    rw [if_pos directory]
    cases step with
    | stay blank onwards => rw [if_pos blank, onwards]
    | up up onwards =>
        subst up
        rw [if_neg (by decide), if_pos rfl, onwards]
    | free named absent last ends =>
        rw [if_neg (not_or.mpr ⟨named.1, named.2.1⟩), if_neg named.2.2, absent, last, ends]
        rfl
    | link named linked more onwards =>
        subst more
        rw [if_neg (not_or.mpr ⟨named.1, named.2.1⟩), if_neg named.2.2, linked]
        exact onwards
    | @enter kind named stands noLink onwards =>
        rw [if_neg (not_or.mpr ⟨named.1, named.2.1⟩), if_neg named.2.2, stands]
        cases kind with
        | link target => exact absurd rfl (noLink target)
        | file => exact onwards
        | directory => exact onwards

/-- Where a path leads depends on the kinds of entries only. -/
theorem follow_congr {left right : Entry}
    (same : ∀ location, left.kindAt location = right.kindAt location) (links : Nat)
    (here : Location) :
    (segments : List String) →
      follow left links here segments = follow right links here segments
  | [] => by rw [follow_nil, follow_nil]
  | segment :: rest => by
      rw [follow_cons, follow_cons, same here, same (here ++ [segment])]
      rw [follow_congr same links here rest, follow_congr same links here.dropLast rest,
        follow_congr same links (here ++ [segment]) rest]
      cases links with
      | zero => rfl
      | succ links =>
          split
          · split
            · rfl
            · split
              · rfl
              · split
                · rfl
                · exact follow_congr same links _ _
                · rfl
          · rfl
termination_by segments => (links, segments.length)

/-! ## File systems of one shape -/

/-- Two file systems with the same kinds everywhere and the same working
directory. -/
structure SameShape (left right : FileSystem) : Prop where
  workingDirectory : left.workingDirectory = right.workingDirectory
  kinds : ∀ location, left.root.kindAt location = right.root.kindAt location

namespace SameShape

theorem refl (files : FileSystem) : files.SameShape files := ⟨rfl, fun _ => rfl⟩

theorem trans {first second third : FileSystem} (left : first.SameShape second)
    (right : second.SameShape third) : first.SameShape third :=
  ⟨left.workingDirectory.trans right.workingDirectory,
    fun location => (left.kinds location).trans (right.kinds location)⟩

variable {left right : FileSystem} (shape : left.SameShape right)

include shape

theorem locate (path : Path) : left.locate path = right.locate path := by
  simp only [FileSystem.locate, shape.workingDirectory, follow_congr shape.kinds]

theorem resolve (path : Path) : left.resolve path = right.resolve path := by
  simp only [FileSystem.resolve, shape.locate]

theorem canonical (path : Path) : left.canonical path = right.canonical path := by
  simp only [FileSystem.canonical, shape.resolve]

theorem pathExists (path : Path) : left.pathExists path = right.pathExists path := by
  simp only [FileSystem.pathExists, FileSystem.entry?, shape.resolve]
  cases right.resolve path with
  | error error => rfl
  | ok location =>
      have same := congrArg Option.isSome (shape.kinds location)
      simpa only [kindAt, Option.isSome_map] using same

theorem existingPart (fuel : Nat) (path : Path) :
    left.existingPart fuel path = right.existingPart fuel path := by
  induction fuel generalizing path with
  | zero => rfl
  | succ fuel ih => simp only [FileSystem.existingPart, shape.pathExists, ih]

theorem contain (path : Path) (root : Option Path) :
    left.contain path root = right.contain path root := by
  simp only [FileSystem.contain, shape.workingDirectory, shape.canonical, shape.existingPart]

end SameShape

/-! ## Reading and writing -/

theorem locate_eq_of_resolve {files : FileSystem} {path : Path} {location : Location}
    (resolved : files.resolve path = .ok location) :
    files.locate path = .ok (.occupied location) := by
  rw [resolve] at resolved
  split at resolved
  · cases resolved
    assumption
  · cases resolved
  · cases resolved

theorem readText_eq_ok_iff {files : FileSystem} {path : Path} {text : String} :
    files.readText path = .ok text ↔
      ∃ location content, files.resolve path = .ok location ∧
        files.root.at? location = some (.file content) ∧
        String.fromUTF8? content = some text := by
  simp only [readText, readBytes]
  cases files.resolve path with
  | error error => simp
  | ok location =>
      cases found : files.root.at? location with
      | none => simp [found]
      | some entry =>
          cases entry with
          | file content =>
              cases decoded : String.fromUTF8? content <;> simp [found, decoded]
          | link target => simp [found]
          | directory entries => simp [found]

theorem text_ne_empty_of_readText {files : FileSystem} {path : Path} {text : String}
    (read : files.readText path = .ok text) : path.text ≠ "" := by
  rcases readText_eq_ok_iff.mp read with ⟨location, content, resolved, -⟩
  have located := locate_eq_of_resolve resolved
  intro empty
  simp [locate, empty] at located

@[simp] theorem fromUTF8?_toUTF8 (text : String) : String.fromUTF8? text.toUTF8 = some text := by
  simp [String.fromUTF8?, String.fromUTF8, text.isValidUTF8]

theorem pathExists_of_readText {files : FileSystem} {path : Path} {text : String}
    (read : files.readText path = .ok text) : files.pathExists path = true := by
  rcases readText_eq_ok_iff.mp read with ⟨location, content, resolved, present, -⟩
  rw [pathExists, entry?, resolved]
  simp [present]

/-- A file that was read can be written, and then holds the new text. No entry
changes its kind, and no other file changes. -/
theorem writeText_of_readText {files : FileSystem} {path : Path} {source : String}
    (read : files.readText path = .ok source) (text : String) :
    ∃ location written, files.resolve path = .ok location ∧
      files.writeText path text = .ok written ∧ files.SameShape written ∧
      written.readText path = .ok text ∧
      ∀ other, other ≠ location → ∀ content,
        written.root.at? other = some (.file content) ↔
          files.root.at? other = some (.file content) := by
  rcases readText_eq_ok_iff.mp read with ⟨location, content, resolved, present, -⟩
  have changed := at?_put_file present text.toUTF8
  have located := locate_eq_of_resolve resolved
  let written : FileSystem := { files with root := files.root.put location (.file text.toUTF8) }
  have shape : files.SameShape written := ⟨rfl, fun other => (changed other).2.1.symm⟩
  refine ⟨location, written, resolved, ?_, shape, ?_, ?_⟩
  · simp only [writeText, located, present]
    rfl
  · apply readText_eq_ok_iff.mpr
    refine ⟨location, text.toUTF8, ?_, (changed location).1 rfl, fromUTF8?_toUTF8 text⟩
    rw [← shape.resolve]
    exact resolved
  · intro other different
    exact (changed other).2.2 different

end FileSystem

end LoopLift
