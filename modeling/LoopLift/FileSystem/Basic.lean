import LoopLift.FileSystem.Entry

/-!
# File system

A directory tree together with the working directory. Paths are followed as an
operating system does: names one after the other, each in a directory, links
replaced by what they point to.
-/

namespace LoopLift

/-- Why a file cannot be reached or read. -/
inductive IoError where
  | notFound
  | notADirectory
  | isADirectory
  | tooManyLinks
  | invalidText
  deriving Repr, DecidableEq

/-- The wording of a failure. -/
def IoError.message : IoError → String
  | .notFound => "No such file or directory (os error 2)"
  | .notADirectory => "Not a directory (os error 20)"
  | .isADirectory => "Is a directory (os error 21)"
  | .tooManyLinks => "Too many levels of symbolic links (os error 40)"
  | .invalidText => "stream did not contain valid UTF-8"

/-- A directory tree and the directory that relative paths start from. -/
structure FileSystem where
  root : Entry := .directory []
  workingDirectory : Location := []

/-- Where a path leads. -/
inductive Place where
  /-- To an entry that is no link. -/
  | occupied (location : Location)
  /-- To a name that its directory does not have. -/
  | vacant (location : Location)
  deriving Repr, DecidableEq

namespace FileSystem

/-- Number of links that are followed on the way to one entry. -/
def linkLimit : Nat := 40

/-- Follow segments from a location up to the first link. What the link points
to, and the segments behind it, are followed by `jump`. -/
def followTo (root : Entry) (jump : Location → List String → Except IoError Place)
    (here : Location) : List String → Except IoError Place
  | [] => .ok (.occupied here)
  | segment :: rest =>
      match root.at? here with
      | some (.directory entries) =>
          if segment = "" ∨ segment = "." then followTo root jump here rest
          else if segment = ".." then followTo root jump here.dropLast rest
          else
            match entries.lookup segment with
            | none => if rest.isEmpty then .ok (.vacant (here ++ [segment])) else .error .notFound
            | some (.link target) =>
                jump (if target.isAbsolute then [] else here) (target.segments ++ rest)
            | some _ => followTo root jump (here ++ [segment]) rest
      | _ => .error .notADirectory

/-- Follow segments from a location, with at most `links` links on the way. -/
def follow (root : Entry) : (links : Nat) → Location → List String → Except IoError Place
  | 0 => followTo root fun _ _ => .error .tooManyLinks
  | links + 1 => followTo root (follow root links)

variable (files : FileSystem)

/-- Where a path leads, links followed. -/
def locate (path : Path) : Except IoError Place :=
  if path.text.isEmpty then .error .notFound
  else
    follow files.root linkLimit (if path.isAbsolute then [] else files.workingDirectory)
      path.segments

/-- The location of the entry that a path denotes. -/
def resolve (path : Path) : Except IoError Location :=
  match files.locate path with
  | .ok (.occupied location) => .ok location
  | .ok (.vacant _) => .error .notFound
  | .error error => .error error

/-- The entry that a path denotes. -/
def entry? (path : Path) : Option Entry :=
  match files.resolve path with
  | .ok location => files.root.at? location
  | .error _ => none

/-- Whether a path denotes anything. -/
def pathExists (path : Path) : Bool :=
  (files.entry? path).isSome

/-- Whether a path denotes a regular file. -/
def isFile (path : Path) : Bool :=
  match files.entry? path with
  | some (.file _) => true
  | _ => false

/-- Whether a path denotes a directory. -/
def isDirectory (path : Path) : Bool :=
  match files.entry? path with
  | some (.directory _) => true
  | _ => false

/-- Whether the last name of a path is that of a link. -/
def isLink (path : Path) : Bool :=
  match path.segments.reverse with
  | [] => false
  | last :: before =>
      let start := if path.isAbsolute then [] else files.workingDirectory
      match follow files.root linkLimit start before.reverse with
      | .ok (.occupied location) =>
          match files.root.at? (location ++ [last]) with
          | some (.link _) => true
          | _ => false
      | _ => false

/-- The absolute path, free of links, of what a path denotes. -/
def canonical (path : Path) : Except IoError Path :=
  (files.resolve path).map Location.path

/-- The bytes of the file that a path denotes. -/
def readBytes (path : Path) : Except IoError ByteArray :=
  match files.resolve path with
  | .error error => .error error
  | .ok location =>
      match files.root.at? location with
      | some (.file content) => .ok content
      | some _ => .error .isADirectory
      | none => .error .notFound

/-- The text of the file that a path denotes. -/
def readText (path : Path) : Except IoError String :=
  match files.readBytes path with
  | .error error => .error error
  | .ok content =>
      match String.fromUTF8? content with
      | some text => .ok text
      | none => .error .invalidText

/-- Number of bytes that a directory takes. -/
def blockSize : Nat := 4096

/-- Number of bytes of what a path denotes. A path that leads nowhere counts as
empty. -/
def size (path : Path) : Nat :=
  match files.entry? path with
  | some (.file content) => content.size
  | some (.directory _) => blockSize
  | _ => 0

/-- Write a text to the file that a path denotes. A file that is not there is
made if its directory is. -/
def writeText (path : Path) (text : String) : Except IoError FileSystem :=
  match files.locate path with
  | .error error => .error error
  | .ok (.vacant location) =>
      .ok { files with root := files.root.put location (.file text.toUTF8) }
  | .ok (.occupied location) =>
      match files.root.at? location with
      | some (.file _) => .ok { files with root := files.root.put location (.file text.toUTF8) }
      | _ => .error .isADirectory

end FileSystem

end LoopLift
