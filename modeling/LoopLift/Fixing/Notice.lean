import LoopLift.Report.Style

/-!
# Notices of a fixing run

What a run tells its reader, in the order in which it happens. Some notices are
for readers who want to follow the details only.
-/

namespace LoopLift

/-- Something that a run tells. Files stand as they are shown. -/
inductive FixNotice where
  | applying
  | previewing
  | nothingToFix
  | statistics (files loops : Nat)
  /-- A file that stays as it is. -/
  | skipped (file reason : String)
  /-- A loop that could not be rewritten. -/
  | failed (file : String) (line : Nat) (reason : String)
  | preview (file : String) (line : Nat) (replacement : String)
  /-- Loops that the file no longer has. -/
  | unmatched (file : String) (count : Nat)
  | fixed (file : String) (count : Nat)
  /-- Loops inside those that were rewritten. -/
  | nested (count : Nat)
  deriving Repr, DecidableEq

namespace FixNotice

/-- Whether a notice is for readers who follow the details. -/
def isDetail : FixNotice → Bool
  | .statistics .. | .unmatched .. => true
  | _ => false

/-- A notice as it is shown. -/
def text (colors : Bool) (notice : FixNotice) : String :=
  let painted (color : Color) (text : String) := Style.paint { color := some color } colors text
  match notice with
  | .applying => "\n" ++ painted .cyan "Applying collection fixes..." ++ "\n"
  | .previewing =>
      "\n" ++ painted .yellow "[DRY-RUN] Loops that would be rewritten (use --apply to write):" ++
        "\n"
  | .nothingToFix => "  No loops to fix.\n"
  | .statistics files loops =>
      "[VERBOSE] Fix Statistics:\n" ++ s!"   Files to modify: {files}\n" ++
        s!"   Loops reported: {loops}\n\n"
  | .skipped file reason => "  " ++ painted .yellow "Skip:" ++ s!" {file}: {reason}\n"
  | .failed file line reason => "  " ++ painted .red "Error:" ++ s!" {file}:{line}: {reason}\n"
  | .preview file line replacement =>
      s!"  Would rewrite {file}:{line}\n    " ++
        Style.paint { dimmed := true } colors replacement ++ "\n"
  | .unmatched file count =>
      s!"[VERBOSE] {file}: {count} loop(s) no longer match and were left unchanged\n"
  | .fixed file count =>
      "  " ++ painted .green "Fixed:" ++ s!" {file} ({count} loop(s) rewritten)\n"
  | .nested count =>
      "  " ++ painted .yellow "Note:" ++
        s!" {count} nested loop(s) remain; re-run to rewrite them.\n"

/-- Notices as they are shown. -/
def render (colors verbose : Bool) (notices : List FixNotice) : String :=
  String.join ((notices.filter fun notice => verbose || !notice.isDetail).map (text colors))

end FixNotice

end LoopLift
