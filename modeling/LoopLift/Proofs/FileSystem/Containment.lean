import LoopLift.Proofs.FileSystem.Grounded
import Mathlib.Control.Monad.Basic

/-!
# Contained paths

A path that passes the containment check is the given path, read from the root.
What it leads to is below the root, links resolved.
It therefore denotes what the given path denotes from the root as the working
directory. This is the same file as before when the path is absolute or the root
is the working directory, and in general it is another one.
-/

namespace LoopLift.FileSystem

/-- A checked step of a computation with an answer has an answer itself. -/
theorem mapError_bind_eq_ok {ε δ α β : Type} {first : Except ε α} {label : ε → δ}
    {rest : α → Except δ β} {answer : β} (whole : first.mapError label >>= rest = .ok answer) :
    ∃ value, first = .ok value ∧ rest value = .ok answer := by
  cases first with
  | error error => cases whole
  | ok value => exact ⟨value, rfl, whole⟩

/-- A path that passes the check is the given one behind the canonical root, and what exists
of it leads below the root. -/
theorem exists_part_of_contain {files : FileSystem} {path full : Path} {root : Option Path}
    (contained : files.contain path root = .ok full) :
    ∃ base reached, files.canonical (root.getD (Location.path files.workingDirectory)) = .ok base ∧
      full = base.join path ∧
      files.canonical (files.existingPart (full.components.length + 1) full) = .ok reached ∧
      reached.isUnder base = true := by
  rw [contain] at contained
  rcases mapError_bind_eq_ok contained with ⟨base, canonicalRoot, checked⟩
  rcases mapError_bind_eq_ok checked with ⟨reached, canonicalPart, verdict⟩
  refine ⟨base, reached, canonicalRoot, ?_⟩
  split at verdict
  · cases verdict
  · rename_i below
    rw [Bool.not_eq_true', Bool.not_eq_false] at below
    split at verdict
    · cases verdict
    · cases verdict
      exact ⟨rfl, canonicalPart, below⟩

theorem exists_location_of_canonical {files : FileSystem} {path full : Path}
    (canonical : files.canonical path = .ok full) :
    ∃ location, files.resolve path = .ok location ∧ full = Location.path location := by
  rw [FileSystem.canonical] at canonical
  cases resolved : files.resolve path with
  | error error =>
      rw [resolved] at canonical
      cases canonical
  | ok location =>
      rw [resolved] at canonical
      cases canonical
      exact ⟨location, rfl, rfl⟩

/-- The checked path is the given one behind the absolute path of the root. -/
theorem exists_base_of_contain {files : FileSystem} {path root full : Path}
    (contained : files.contain path (some root) = .ok full) :
    ∃ base, files.resolve root = .ok base ∧ full = (Location.path base).join path := by
  rcases exists_part_of_contain contained with ⟨_, _, canonicalRoot, joined, -⟩
  rcases exists_location_of_canonical canonicalRoot with ⟨base, resolved, rfl⟩
  exact ⟨base, resolved, joined⟩

/-- A checked path that leads to an entry leads below the root. -/
theorem isUnder_of_contain {files : FileSystem} {path root full : Path} {location : Location}
    (contained : files.contain path (some root) = .ok full)
    (resolved : files.resolve full = .ok location) (present : files.pathExists full = true) :
    ∃ base, files.canonical root = .ok base ∧ (Location.path location).isUnder base = true := by
  rcases exists_part_of_contain contained with ⟨base, _, canonicalRoot, -, canonicalPart, below⟩
  -- All of the path exists, so the check was made on the path itself.
  rw [existingPart, if_pos present, canonical, resolved] at canonicalPart
  cases canonicalPart
  exact ⟨base, canonicalRoot, below⟩

/-- A checked path denotes what the given path denotes from the root as the
working directory. -/
theorem resolve_of_contain {files : FileSystem} {path root full : Path}
    (proper : ∀ name ∈ files.workingDirectory, IsEntryName name) (nonempty : path.text ≠ "")
    (contained : files.contain path (some root) = .ok full) :
    ∃ base, files.resolve root = .ok base ∧
      files.resolve full = (files.standingAt base).resolve path := by
  rcases exists_base_of_contain contained with ⟨base, resolvedRoot, rfl⟩
  exact ⟨base, resolvedRoot, resolve_join (grounded_of_resolve proper resolvedRoot) nonempty⟩

theorem resolve_standingAt_of_isAbsolute {path : Path} (absolute : path.isAbsolute = true)
    (files : FileSystem) (location : Location) :
    (files.standingAt location).resolve path = files.resolve path := by
  simp only [resolve, locate, standingAt, absolute, ↓reduceIte]

theorem resolve_current {files : FileSystem} {base : Location}
    (resolved : files.resolve ⟨"."⟩ = .ok base) : base = files.workingDirectory := by
  have located := locate_eq_of_resolve resolved
  rw [locate_eq_follow (by decide)] at located
  have segments : (⟨"."⟩ : Path).segments = ["."] := by decide +kernel
  have relative : (⟨"."⟩ : Path).isAbsolute = false := by decide
  rw [segments, relative, follow_cons] at located
  simp only [Bool.false_eq_true, ↓reduceIte, or_true, follow_nil] at located
  split at located
  · cases located
    rfl
  · cases located

end LoopLift.FileSystem
