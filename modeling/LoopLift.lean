import LoopLift.Analysis.Basic
import LoopLift.Analysis.Scan
import LoopLift.CommandLine.Help
import LoopLift.CommandLine.Invocation
import LoopLift.CommandLine.Run
import LoopLift.CommandLine.Words
import LoopLift.Config.Basic
import LoopLift.Config.Lookup
import LoopLift.Edit.Basic
import LoopLift.Edit.Verified
import LoopLift.FileSystem.Basic
import LoopLift.FileSystem.Containment
import LoopLift.FileSystem.Entry
import LoopLift.Fixing.Notice
import LoopLift.Fixing.Plan
import LoopLift.Fixing.Run
import LoopLift.Ignore.Glob
import LoopLift.Ignore.Level
import LoopLift.Ignore.Rules
import LoopLift.Json.Basic
import LoopLift.Json.Reader
import LoopLift.Listing
import LoopLift.Loop.Capture
import LoopLift.Loop.Fix
import LoopLift.Loop.Inspection
import LoopLift.Loop.Jump
import LoopLift.Loop.Replacement
import LoopLift.Loop.Shape
import LoopLift.Loop.Suppression
import LoopLift.Main
import LoopLift.Path.Basic
import LoopLift.Php.Cursor
import LoopLift.Php.Declaration
import LoopLift.Php.Expression
import LoopLift.Php.Nonterminal
import LoopLift.Php.Parser
import LoopLift.Php.Quoted
import LoopLift.Php.Rule
import LoopLift.Php.Statement
import LoopLift.Php.Token
import LoopLift.Php.Trivia
import LoopLift.Php.TypeName
import LoopLift.Proofs.CommandLine.Fixing
import LoopLift.Proofs.Edit.Splicing
import LoopLift.Proofs.Edit.Validation
import LoopLift.Proofs.FileSystem.Containment
import LoopLift.Proofs.FileSystem.Entry
import LoopLift.Proofs.FileSystem.Following
import LoopLift.Proofs.FileSystem.Grounded
import LoopLift.Proofs.Fixing.Accounting
import LoopLift.Proofs.Fixing.FileFix
import LoopLift.Proofs.Fixing.Grouping
import LoopLift.Proofs.Fixing.Plan
import LoopLift.Proofs.Fixing.Run
import LoopLift.Proofs.Fixing.Selection
import LoopLift.Proofs.Fixing.Turns
import LoopLift.Proofs.Loop.Fix
import LoopLift.Proofs.Path.Order
import LoopLift.Proofs.Path.Segments
import LoopLift.Proofs.Scan.Gathering
import LoopLift.Proofs.Syntax.Nesting
import LoopLift.Proofs.Syntax.Preorder
import LoopLift.Proofs.Text.Cutting
import LoopLift.Report.Basic
import LoopLift.Report.Style
import LoopLift.Report.Table
import LoopLift.Scan.Exclusion
import LoopLift.Scan.Walk
import LoopLift.Setup
import LoopLift.Syntax.Node
import LoopLift.Syntax.Tree
import LoopLift.Tally
import LoopLift.Text.Blank
import LoopLift.Text.Bytes
import LoopLift.Text.Kilobytes
import LoopLift.Text.Lines
import LoopLift.Text.Literal
import LoopLift.Text.Magnitude
import LoopLift.Text.Width
import LoopLift.Toml.Basic
import LoopLift.Toml.Quoted
import LoopLift.Toml.Reader
import LoopLift.Toml.Scalar
import LoopLift.Proofs.CommandLine.Gate
import LoopLift.Proofs.Fixing.Confinement
import LoopLift.Proofs.Fixing.Preview
import LoopLift.Proofs.Loop.Replacement
import LoopLift.Proofs.Loop.Rewriting
import LoopLift.Proofs.Loop.Suppression
import LoopLift.Proofs.Fixing.Passes
import LoopLift.Proofs.Fixing.Suppressed
import LoopLift.Proofs.Loop.Jump
import LoopLift.Proofs.Loop.Level
import LoopLift.Proofs.Fixing.Reordering
import LoopLift.Proofs.Fixing.SingleFile
import LoopLift.Proofs.Fixing.Stale
import LoopLift.Proofs.Loop.Capture
import LoopLift.Proofs.Loop.Carrying
import LoopLift.Proofs.Loop.Closure
import LoopLift.Proofs.Fixing.Convergence
import LoopLift.Proofs.Edit.Culprit
import LoopLift.Proofs.Loop.Alike
import LoopLift.Proofs.Loop.Locality
import LoopLift.Proofs.Loop.Errors
import LoopLift.Proofs.Loop.Verbatim
import LoopLift.Proofs.Fixing.Remaining
import LoopLift.Proofs.Edit.Severing
import LoopLift.Proofs.Loop.Denotation
import LoopLift.Proofs.Scan.Outcomes
import LoopLift.Proofs.Path.Ancestors
import LoopLift.Proofs.Config.Lookup
import LoopLift.Proofs.FileSystem.Reaching
import LoopLift.Proofs.Scan.Exclusion
import LoopLift.Proofs.Config.Presence
import LoopLift.Proofs.Config.Spelling
import LoopLift.Proofs.Scan.Repeats
import LoopLift.Proofs.Syntax.Search
import LoopLift.Proofs.Loop.Rows
import LoopLift.Proofs.FileSystem.Writing
import LoopLift.Proofs.CommandLine.JsonOutput
