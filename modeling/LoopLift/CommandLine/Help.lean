/-!
# Help texts

What the program tells about its own use.
-/

namespace LoopLift.CommandLine

/-- What help is asked about. -/
inductive HelpTopic where
  | program
  | files
  | init
  | help
  deriving Repr, DecidableEq

/-- The version of the program. -/
def version : String := "0.3.0"

/-- What the program says when its version is asked for. -/
def versionText : String := s!"collector {version}\n"

/-- Help on the program as a whole. -/
def programHelp : String :=
  "Collector - Refactor PHP foreach loops into collect(...)->each(...) calls\n" ++
  "\n" ++
  "Usage: collector [OPTIONS] [PATHS]... [COMMAND]\n" ++
  "\n" ++
  "Commands:\n" ++
  "  files  List the files a scan would visit\n" ++
  "  init   Create a .collector.toml with default settings in the current directory\n" ++
  "  help   Print this message or the help of the given subcommand(s)\n" ++
  "\n" ++
  "Arguments:\n" ++
  "  [PATHS]...  Paths to analyze (files or directories). When no paths are provided, " ++
  "defaults to the current directory. Cannot be used with --root\n" ++
  "\n" ++
  "Options:\n" ++
  "      --root <ROOT>\n" ++
  "          Project root used as both the analysis target and the containment boundary " ++
  "for rewritten files\n" ++
  "      --json\n" ++
  "          Output raw JSON\n" ++
  "  -v, --verbose\n" ++
  "          Enable verbose output for debugging (shows files being analyzed)\n" ++
  "      --quiet\n" ++
  "          Quiet mode: show only the summary (no detailed tables)\n" ++
  "      --exclude-folders <EXCLUDE_FOLDERS>\n" ++
  "          Folders to exclude from analysis\n" ++
  "      --include-folders <INCLUDE_FOLDERS>\n" ++
  "          Folders to force-include in analysis (overrides default exclusions)\n" ++
  "      --fix\n" ++
  "          Rewrite the reported loops. By default, shows a preview of the replacement " ++
  "statements (dry-run). Use --apply to actually modify files\n" ++
  "  -a, --apply\n" ++
  "          Apply the fixes to files (use with --fix)\n" ++
  "      --fail-on-problems\n" ++
  "          Exit with code 1 if any loop can be refactored (and was not rewritten)\n" ++
  "  -h, --help\n" ++
  "          Print help\n" ++
  "  -V, --version\n" ++
  "          Print version\n" ++
  "\n" ++
  "CONFIGURATION FILE (.collector.toml, or \"extra.collector\" in composer.json):\n" ++
  "  Create this file in your project root to set defaults.\n" ++
  "\n" ++
  "  [collector]\n" ++
  "  exclude_folders = [\"build\"]   # vendor, node_modules, storage, ... are always " ++
  "excluded\n" ++
  "  include_folders = []          # Force-include these\n" ++
  "  extensions = [\"php\"]          # File extensions to scan\n" ++
  "  fail_on_problems = false      # Exit 1 if any foreach can be refactored\n"

/-- Help on listing files. -/
def filesHelp : String :=
  "List the files a scan would visit\n" ++
  "\n" ++
  "Usage: collector files [OPTIONS] [PATHS]...\n" ++
  "\n" ++
  "Arguments:\n" ++
  "  [PATHS]...  Paths to analyze (files or directories). When no paths are provided, " ++
  "defaults to the current directory. Cannot be used with --root\n" ++
  "\n" ++
  "Options:\n" ++
  "      --root <ROOT>        Project root used as both the analysis target and the " ++
  "containment boundary for rewritten files\n" ++
  "      --json               Output JSON\n" ++
  "      --exclude <EXCLUDE>  Exclude folders\n" ++
  "  -h, --help               Print help\n"

/-- Help on setting up a project. -/
def initHelp : String :=
  "Create a .collector.toml with default settings in the current directory\n" ++
  "\n" ++
  "Usage: collector init\n" ++
  "\n" ++
  "Options:\n" ++
  "  -h, --help  Print help\n"

/-- Help on asking for help. -/
def helpHelp : String :=
  "Print this message or the help of the given subcommand(s)\n" ++
  "\n" ++
  "Usage: collector help [COMMAND]...\n" ++
  "\n" ++
  "Arguments:\n" ++
  "  [COMMAND]...  Print help for the subcommand(s)\n"

/-- The help text on a topic. -/
def HelpTopic.text : HelpTopic → String
  | .program => programHelp
  | .files => filesHelp
  | .init => initHelp
  | .help => helpHelp

end LoopLift.CommandLine
