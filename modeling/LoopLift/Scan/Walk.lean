import LoopLift.Ignore.Level
import LoopLift.Scan.Exclusion

/-!
# Walking a directory

Lists the files below a directory that have a scanned extension. Ignored entries
and excluded folders are left out, and links are listed but not entered.
-/

namespace LoopLift

/-- Which files a scan takes. -/
structure Selection where
  excluded : List String := []
  included : List String := []
  extensions : List String := ["php"]
  deriving Repr, DecidableEq

/-- What a walk found. -/
structure Harvest where
  files : List Path := []
  /-- Number of directories below the first one. -/
  directories : Nat := 0
  /-- Messages of what went wrong. -/
  errors : List String := []
  deriving Repr, DecidableEq

namespace Harvest

/-- Two harvests together. -/
def append (left right : Harvest) : Harvest :=
  ⟨left.files ++ right.files, left.directories + right.directories, left.errors ++ right.errors⟩

instance : Append Harvest := ⟨append⟩

end Harvest

namespace Selection

/-- Whether a file is taken by its extension, whatever its case. -/
def takes (selection : Selection) (path : Path) : Bool :=
  match path.extension? with
  | some extension => selection.extensions.any fun wanted => wanted.toLower == extension.toLower
  | none => false

/-- The harvest of one file. -/
def file (selection : Selection) (path : Path) : Harvest :=
  { files := if selection.takes path then [path] else [] }

end Selection

namespace Walk

open Ignore

/-- A walk that has reached a directory. -/
structure Visit where
  files : FileSystem
  selection : Selection
  /-- The directory where the walk started, as it was given. -/
  start : Path
  /-- The same directory, free of links. -/
  base : Path
  /-- Levels from the directory reached up to the start. -/
  inner : List Level
  /-- Levels above the start. -/
  outer : List Level

/-- A path of the walk as the levels above its start see it. -/
def Visit.absolute (visit : Visit) (path : List Char) : List Char :=
  let path :=
    if visit.start.same ⟨"."⟩ then path
    else
      let start := withoutStart ['.', '/'] visit.start.text.toList
      withoutStart ['/'] (withoutStart start path)
  (visit.base.join ⟨String.ofList path⟩).text.toList

/-- The levels that judge an entry. -/
def Visit.sight (visit : Visit) (path : Path) : Sight :=
  let text := withoutStart ['.', '/'] path.text.toList
  visit.inner.map (·, text) ++ visit.outer.map (·, visit.absolute text)

/-- The visit of a directory below. -/
def Visit.enter (visit : Visit) (directory : Path) : Visit :=
  { visit with inner := (Level.ofDirectory visit.files directory).1 :: visit.inner }

mutual

/-- The harvest of an entry of a directory. -/
def entry (visit : Visit) (path : Path) (name : String) : Entry → Harvest
  | .directory entries =>
      if (visit.sight path).skips true then {}
      else if Exclusion.isExcluded name
          (Exclusion.inForce visit.selection.excluded visit.selection.included) then {}
      else { directories := 1 } ++ entriesOf (visit.enter path) path entries
  | .file _ | .link _ =>
      if (visit.sight path).skips false then {} else visit.selection.file path

/-- The harvest of the entries of a directory. -/
def entriesOf (visit : Visit) (directory : Path) : List (String × Entry) → Harvest
  | [] => {}
  | (name, below) :: rest =>
      entry visit (directory.child name) name below ++ entriesOf visit directory rest

end

/-- Everything below a path, files not yet in order. The path itself is never
skipped, and a link there is followed, though it counts as a file. -/
def unsorted (files : FileSystem) (selection : Selection) (start : Path) : Harvest :=
  match files.resolve start with
  | .error error =>
      { errors := [start.text ++ ": IO error for operation on " ++ start.text ++ ": " ++
          error.message] }
  | .ok location =>
      match files.root.at? location with
      | some (.directory entries) =>
          let above := (Level.pathsAbove location).map (Level.ofDirectory files)
          let errors := above.reverse.flatMap Prod.snd
          let visit : Visit :=
            { files, selection, start, base := Location.path location
              inner := [(Level.ofDirectory files start).1], outer := above.map Prod.fst }
          { errors := if errors.isEmpty then [] else [String.intercalate "\n" errors] } ++
            (if files.isLink start then selection.file start else {}) ++
            entriesOf visit start entries
      | _ => selection.file start

/-- The files below a path in the order of their paths. -/
def collect (files : FileSystem) (selection : Selection) (start : Path) : Harvest :=
  let harvest := unsorted files selection start
  { harvest with files := harvest.files.mergeSort Path.isBefore }

end Walk

end LoopLift
