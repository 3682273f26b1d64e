import LoopLift.Path.Basic

/-!
# Entries of a file system

A directory tree as a value. An entry is found by the names on the way to it,
and every change is made at one location.
-/

namespace LoopLift

/-- The names from the top of the file system down to an entry. -/
abbrev Location := List String

/-- The absolute path of a location. -/
def Location.path (location : Location) : Path :=
  ⟨"/" ++ String.intercalate "/" location⟩

/-- What stands at a location. -/
inductive Entry where
  | file (content : ByteArray)
  /-- A symbolic link. -/
  | link (target : Path)
  | directory (entries : List (String × Entry))
  deriving Inhabited

namespace Entry

/-- The entry with a name in a directory. -/
def child? (name : String) : Entry → Option Entry
  | .directory entries => entries.lookup name
  | _ => none

/-- The entry at a location. Links on the way are not followed. -/
def at? : Entry → Location → Option Entry
  | entry, [] => some entry
  | entry, name :: rest => (entry.child? name).bind fun below => below.at? rest

/-- Set the entry with a name, at its place or at the end. -/
def assign (name : String) (new : Entry) : List (String × Entry) → List (String × Entry)
  | [] => [(name, new)]
  | (other, entry) :: rest =>
      if other = name then (name, new) :: rest else (other, entry) :: assign name new rest

/-- Put an entry at a location. Missing directories on the way are made, and a
way through something that is no directory changes nothing. -/
def put : Entry → Location → Entry → Entry
  | _, [], new => new
  | .directory entries, name :: rest, new =>
      let below := (entries.lookup name).getD (.directory [])
      .directory (assign name (below.put rest new) entries)
  | other, _ :: _, _ => other

/-- Remove the entry at a location with all that is below it. -/
def erase : Entry → Location → Entry
  | entry, [] => entry
  | .directory entries, [name] => .directory (entries.filter fun (other, _) => other != name)
  | .directory entries, name :: rest =>
      match entries.lookup name with
      | some below => .directory (assign name (below.erase rest) entries)
      | none => .directory entries
  | other, _ :: _ => other

mutual

/-- The regular files at and below an entry, each with its location. -/
def files (location : Location) : Entry → List (Location × ByteArray)
  | .file content => [(location, content)]
  | .link _ => []
  | .directory entries => filesOf location entries

/-- The regular files among the entries of a directory and below. -/
def filesOf (location : Location) : List (String × Entry) → List (Location × ByteArray)
  | [] => []
  | (name, entry) :: rest => entry.files (location ++ [name]) ++ filesOf location rest

end

end Entry

end LoopLift
