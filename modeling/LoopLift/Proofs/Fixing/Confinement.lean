import LoopLift.Proofs.Fixing.Turns

/-!
# What a run can change

A run changes what files hold and nothing else, and only below the root. A file
holds its old content, or the whole verified text of a draft whose path leads to it.
The one failure of a run is a file outside of the root. It comes after the files
before it in the order of paths, and ends the run as the run through those files.
-/

namespace LoopLift

open Syntax

namespace FixRun

variable {parse : Parser} {options : FixOptions} {files : FileSystem}

/-! ## Where a content comes from -/

/-- Some turns give a file a content: that is the whole verified text of the draft of
one of them, and the path of this draft leads to the file. -/
def Gives (parse : Parser) (options : FixOptions) (files : FileSystem) (listed : List Turn)
    (location : Location) (content : ByteArray) : Prop :=
  ∃ turn ∈ listed, ∃ draft text, turn.draft? parse options = some draft ∧
    draft.plan.rewritten ≠ [] ∧ draft.plan.session.applyVerified parse = .ok text ∧
    files.resolve draft.path = .ok location ∧ content = text.toUTF8

theorem Gives.mono {few many : List Turn} (subset : few ⊆ many) {location : Location}
    {content : ByteArray} (gives : Gives parse options files few location content) :
    Gives parse options files many location content := by
  rcases gives with ⟨turn, member, given⟩
  exact ⟨turn, subset member, given⟩

/-- Turns give contents to files below the root only. -/
theorem Gives.isUnder {run : FixRun} {entries : List FileProblems} (before : run.Underway files)
    {location : Location} {content : ByteArray}
    (given : Gives parse options files (turns parse options run entries) location content) :
    ∃ base, files.canonical options.root = .ok base ∧
      (Location.path location).isUnder base = true := by
  rcases given with ⟨turn, member, draft, text, drafted, -, -, resolved, -⟩
  have underway := underway_of_mem_turns before member
  rcases Turn.draft?_eq_some_iff.mp drafted with ⟨-, inside, read, -⟩
  have present := FileSystem.pathExists_of_readText read
  rw [← underway.shape.contain] at inside
  rw [← underway.shape.pathExists] at present
  exact FileSystem.isUnder_of_contain inside resolved present

end FixRun

end LoopLift
