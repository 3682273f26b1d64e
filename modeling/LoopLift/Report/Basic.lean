import LoopLift.Analysis.Basic
import LoopLift.Json.Basic
import LoopLift.Report.Style
import LoopLift.Report.Table
import LoopLift.Scan.Exclusion

/-!
# Reports

The result of an analysis as text for readers, and as JSON for programs.
-/

namespace LoopLift.Report

/-- A text with a newline at its end. -/
def line (text : String) : String := text ++ "\n"

/-- Texts with a comma between each two. -/
def listed (texts : List String) : String := String.intercalate ", " texts

/-- Which folders are excluded. -/
def exclusions (colors : Bool) (folders : List String) : String :=
  if folders.isEmpty then
    line (Style.paint { color := some .green } colors "[OK] Using default exclusions only:" ++
      " " ++ Style.paint { dimmed := true } colors (listed Exclusion.defaults))
  else
    line (Style.paint { bold := true, color := some .yellow } colors "Excluding:" ++
      " " ++ listed folders)

/-- The title of a report. -/
def header (colors : Bool) : String :=
  line "" ++
    line (Style.paint { color := some .cyan } colors
      "╔════════════════════════════════════════╗") ++
    line (Style.paint { bold := true, color := some .cyan } colors
      "║  Foreach To Collection Results         ║") ++
    line (Style.paint { color := some .cyan } colors
      "╚════════════════════════════════════════╝") ++
    line ""

/-- A count that should be zero. -/
def pill (colors : Bool) (label : String) (count : Nat) : String :=
  let style : Style :=
    if count = 0 then { color := some .green } else { bold := true, color := some .red }
  label ++ ": " ++ style.paint colors (toString count)

/-- The counts of loops. -/
def pills (colors : Bool) (summary : Summary) : String :=
  line ("Loops: " ++ Style.paint { bold := true } colors (toString summary.loops) ++ "  " ++
    pill colors "Refactorable" summary.fixable ++ "  " ++
    pill colors "Parse Errors" summary.failures) ++ line ""

/-- The counts of files and lines. -/
def statistics (colors : Bool) (summary : Summary) : String :=
  let bold (count : Nat) := Style.paint { bold := true } colors (toString count)
  line (Style.paint { dimmed := true } colors
    ("Analyzed " ++ bold summary.files ++ " files (" ++ bold summary.lines ++ " lines)"))

/-- The loops that can be rewritten. -/
def problems (colors : Bool) (analysis : Analysis) : String :=
  if analysis.problems.isEmpty then ""
  else
    let rows := analysis.problems.map fun ⟨file, problem⟩ =>
      [s!"{file.shown}:{problem.line}:{problem.column}", problem.message, problem.fixName]
    let title := Style.paint { bold := true, underlined := true } colors "Refactorable Loops"
    "\n" ++ line title ++ line (Table.render ⟨["Location", "Message", "Fix"], rows⟩ .box)

/-- The files that could not be read or have syntax errors. -/
def failures (colors : Bool) (analysis : Analysis) : String :=
  if analysis.failures.isEmpty then ""
  else
    let rows := analysis.failures.map fun failure => [failure.file.shown, failure.error]
    let title := Style.paint { bold := true, underlined := true, color := some .red } colors
      "Parse Errors"
    "\n" ++ line title ++ line (Table.render ⟨["File", "Error"], rows⟩ .box)

/-- The full report. -/
def full (colors : Bool) (analysis : Analysis) : String :=
  header colors ++
    if analysis.problems.isEmpty && analysis.failures.isEmpty then
      line (Style.paint { color := some .green } colors
        "✓ All clean! No refactorable loops found.")
    else
      problems colors analysis ++ failures colors analysis

/-- The report in one line. -/
def quiet (analysis : Analysis) : String :=
  line (s!"[SUMMARY] {analysis.summary.fixable} refactorable loops, " ++
    s!"{analysis.summary.failures} parse errors")

/-! ## For programs -/

/-- A problem for programs. -/
def problemJson (entry : FileProblem) : Json :=
  Json.record
    [("file", Json.text entry.file.text), ("kind", Json.text entry.problem.kind),
     ("start_byte", Json.count entry.problem.start), ("end_byte", Json.count entry.problem.stop),
     ("line", Json.count entry.problem.line), ("column", Json.count entry.problem.column),
     ("message", Json.text entry.problem.message), ("fix_name", Json.text entry.problem.fixName)]

/-- A failure for programs. -/
def failureJson (failure : FileFailure) : Json :=
  Json.record [("file", Json.text failure.file.text), ("error", Json.text failure.error)]

/-- Counts for programs. -/
def summaryJson (summary : Summary) : Json :=
  Json.record
    [("total_files", Json.count summary.files),
     ("total_directories", Json.count summary.directories),
     ("total_lines", Json.count summary.lines), ("total_loops", Json.count summary.loops),
     ("fixable_loops", Json.count summary.fixable),
     ("parse_errors_count", Json.count summary.failures)]

/-- An analysis for programs. -/
def json (analysis : Analysis) : Json :=
  Json.record
    [("problems", .array (analysis.problems.map problemJson)),
     ("parse_errors", .array (analysis.failures.map failureJson)),
     ("summary", summaryJson analysis.summary)]

end LoopLift.Report
