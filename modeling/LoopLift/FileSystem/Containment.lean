import LoopLift.FileSystem.Basic

/-!
# Containment

A file may be written only below a root directory. Links are resolved as far as
the path exists, and the part that does not exist may not climb.
-/

namespace LoopLift

/-- Why a path may not be written. -/
inductive ContainmentError where
  | unknownRoot (root : Path) (error : IoError)
  | unknownAncestor (ancestor : Path) (error : IoError)
  /-- The existing part of the path is not below the root. -/
  | outside (ancestor root : Path)
  /-- The part that does not exist has a step up. -/
  | climbing (path : Path)
  deriving Repr, DecidableEq

/-- The wording of an error. -/
def ContainmentError.message : ContainmentError → String
  | .unknownRoot root error =>
      s!"Failed to canonicalize root directory {root.text}: {error.message}"
  | .unknownAncestor ancestor error =>
      s!"Failed to canonicalize ancestor path {ancestor.text}: {error.message}"
  | .outside ancestor root => s!"Refusing to write '{ancestor.shown}': outside of '{root.shown}'"
  | .climbing path =>
      s!"Security Error: Path contains '..' in non-existent portion: '{path.text}'"

namespace FileSystem

variable (files : FileSystem)

/-- The longest part of a path that exists, at most `fuel` steps up. -/
def existingPart : (fuel : Nat) → Path → Path
  | 0, path => path
  | fuel + 1, path =>
      if files.pathExists path then path
      else
        match path.parent? with
        | some parent => existingPart fuel parent
        | none => path

/-- Read a path from a root directory, or from the working directory, and check
that it stays there. -/
def contain (path : Path) (root : Option Path) : Except ContainmentError Path := do
  let root := root.getD (Location.path files.workingDirectory)
  let base ← (files.canonical root).mapError (.unknownRoot root)
  let full := base.join path
  let ancestor := files.existingPart (full.components.length + 1) full
  let reached ← (files.canonical ancestor).mapError (.unknownAncestor ancestor)
  if !reached.isUnder base then
    throw (.outside reached base)
  else if ((ancestor.below? full).getD []).contains .parent then
    throw (.climbing path)
  else
    return full

end FileSystem

end LoopLift
