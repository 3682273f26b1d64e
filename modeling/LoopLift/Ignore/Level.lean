import LoopLift.FileSystem.Basic
import LoopLift.Ignore.Rules

/-!
# Ignore rules of a directory and those above it

Rules for all tools always apply. Rules of a repository apply only inside one,
and only up to the directory that holds it. Rules of a nearer directory come
first.
-/

namespace LoopLift.Ignore

/-- The rules that a directory brings. -/
structure Level where
  /-- Whether a repository starts here. -/
  hasRepository : Bool
  /-- Rules for all tools. -/
  general : Rules
  /-- Rules that a repository shares. -/
  repository : Rules
  /-- Rules that stay with one copy of a repository. -/
  excluded : Rules

namespace Level

/-- The rules in a file of a directory, none if the file cannot be read. -/
def rulesIn (files : FileSystem) (directory file : Path) : Rules × List String :=
  match files.readBytes file with
  | .ok content =>
      let (rules, errors) := Rules.ofContent directory content
      (rules, errors.map (RuleError.message file))
  | .error _ => (⟨directory, []⟩, [])

/-- The first line of a file. -/
def firstLine? (files : FileSystem) (file : Path) : Option (List Char) :=
  match files.readBytes file with
  | .ok content => (Rules.textLines content).head?.map fun line =>
      if line.getLast? == some '\r' then line.dropLast else line
  | .error _ => none

/-- What the pointer to a repository elsewhere starts with. -/
def pointerStart : List Char := "gitdir: ".toList

/-- The directory with the data of the repository of a directory. A file in
place of it points to a work area, which names the directory. -/
def repositoryData? (files : FileSystem) (directory : Path) : Option Path := do
  let data := directory.child ".git"
  if files.isFile data then
    let pointer ← firstLine? files data
    guard (pointerStart.isPrefixOf pointer)
    let area : Path := ⟨String.ofList (pointer.drop pointerStart.length)⟩
    let shared ← firstLine? files (area.child "commondir")
    let target : Path := ⟨String.ofList shared⟩
    return if shared.head? == some '.' then area.join target else target
  else
    return data

/-- The rules that a directory brings, and the errors in them. -/
def ofDirectory (files : FileSystem) (directory : Path) : Level × List String :=
  let (general, generalErrors) := rulesIn files directory (directory.child ".ignore")
  let (repository, repositoryErrors) := rulesIn files directory (directory.child ".gitignore")
  let (excluded, excludedErrors) :=
    match repositoryData? files directory with
    | some data => rulesIn files directory (data.join ⟨"info/exclude"⟩)
    | none => (⟨directory, []⟩, [])
  let hasRepository :=
    files.pathExists (directory.child ".git") || files.pathExists (directory.child ".jj")
  (⟨hasRepository, general, repository, excluded⟩,
    generalErrors ++ repositoryErrors ++ excludedErrors)

/-- The paths of the directories above a location, the nearest first. -/
def pathsAbove (location : Location) : List Path :=
  (List.range location.length).reverse.map fun length => Location.path (location.take length)

end Level

/-- Every level that an entry is judged by, the nearest first, each with the
path that it sees. -/
abbrev Sight := List (Level × List Char)

namespace Sight

/-- The levels up to the one where the nearest repository starts. -/
def inRepository : Sight → Sight
  | [] => []
  | (level, path) :: rest =>
      if level.hasRepository then [(level, path)] else (level, path) :: inRepository rest

/-- What the nearest level with an opinion says. -/
def first? (sight : Sight) (rules : Level → Rules) (isDirectory : Bool) : Option Verdict :=
  sight.findSome? fun (level, path) => (rules level).verdict? path isDirectory

/-- Whether an entry is skipped. Rules for all tools come before those of a
repository. -/
def skips (sight : Sight) (isDirectory : Bool) : Bool :=
  let inside := if sight.any fun (level, _) => level.hasRepository then sight.inRepository else []
  ((sight.first? Level.general isDirectory).or
    ((inside.first? Level.repository isDirectory).or
      (inside.first? Level.excluded isDirectory))) == some .skipped

end Sight

end LoopLift.Ignore
