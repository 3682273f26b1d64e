import LoopLift.Ignore.Glob
import LoopLift.Path.Basic
import LoopLift.Text.Blank

/-!
# Ignore rules

A rule file lists globs, one on a line. The last rule that matches an entry
decides whether the entry is skipped or kept. Paths are matched relative to the
directory that the rules belong to.
-/

namespace LoopLift.Ignore

/-- What a rule says about an entry. -/
inductive Verdict where
  | skipped
  | kept
  deriving Repr, DecidableEq

/-- One line of a rule file. -/
structure Rule where
  glob : List Token
  verdict : Verdict
  directoriesOnly : Bool

/-- A line that holds no glob. -/
structure RuleError where
  line : Nat
  pattern : String
  error : GlobError

/-- The wording of an error in a file. -/
def RuleError.message (file : Path) (failure : RuleError) : String :=
  s!"{file.text}: line {failure.line}: error parsing glob '" ++ failure.pattern ++ "': " ++
    failure.error.message

/-- A text without white space at its end. -/
def trimEnd (text : List Char) : List Char :=
  (text.reverse.dropWhile Text.isBlankChar).reverse

/-- Remove a text from the start of another one. -/
def withoutStart (start text : List Char) : List Char :=
  if start.isPrefixOf text then text.drop start.length else text

/-- The text of the glob that a pattern stands for. A pattern without a slash
applies at every depth, and one that ends in a double star does not apply to the
directory itself. -/
def globText (anchored : Bool) (pattern : List Char) : List Char :=
  let everywhere := !anchored && !pattern.contains '/' && pattern != ['*', '*']
  let text := if everywhere then ['*', '*', '/'] ++ pattern else pattern
  if ['*', '*', '/'].isPrefixOf text.reverse then text ++ ['/', '*'] else text

/-- The rule on a line. Blank lines and comments hold none. -/
def Rule.ofLine? (line : List Char) : Except (String × GlobError) (Option Rule) :=
  if line.head? == some '#' then .ok none
  else
    let line := if [' ', '\\'].isPrefixOf line.reverse then line else trimEnd line
    if line.isEmpty then .ok none
    else
      let escaped := ['\\', '!'].isPrefixOf line || ['\\', '#'].isPrefixOf line
      let negated := !escaped && line.head? == some '!'
      let body := if escaped || negated then line.tail else line
      let anchored := body.head? == some '/'
      let body := if anchored then body.tail else body
      let directoriesOnly := body.getLast? == some '/'
      let body := if directoriesOnly then body.dropLast else body
      let body :=
        if directoriesOnly && body.getLast? == some '\\' then body.dropLast else body
      match parseGlob (String.ofList (globText anchored body)) with
      | .ok tokens =>
          .ok (some ⟨tokens, if negated then .kept else .skipped, directoriesOnly⟩)
      | .error error => .error (String.ofList line, error)

/-- The rules of a directory. -/
structure Rules where
  directory : Path
  rules : List Rule := []

namespace Rules

/-- Cut bytes at their newlines, when `held`, given backwards, has been read of
the first line. -/
def byteLines (held : List UInt8) : List UInt8 → List (List UInt8)
  | [] => if held.isEmpty then [] else [held.reverse]
  | 10 :: rest => held.reverse :: byteLines [] rest
  | byte :: rest => byteLines (byte :: held) rest

/-- The lines of a file up to the first that is no text. A mark at the start of
the file is left out. -/
def textLines (content : ByteArray) : List (List Char) :=
  let decoded := (byteLines [] content.toList).map fun line =>
    String.fromUTF8? ⟨line.toArray⟩
  let lines := (decoded.takeWhile Option.isSome).filterMap fun line => line.map String.toList
  match lines with
  | [] => []
  | first :: rest => first.dropWhile (· == '\uFEFF') :: rest

/-- Read numbered lines. -/
def readLines (number : Nat) : List (List Char) → List Rule × List RuleError
  | [] => ([], [])
  | line :: rest =>
      let (rules, errors) := readLines (number + 1) rest
      match Rule.ofLine? line with
      | .ok (some rule) => (rule :: rules, errors)
      | .ok none => (rules, errors)
      | .error (pattern, error) => (rules, ⟨number, pattern, error⟩ :: errors)

/-- The rules in the content of a file, for a directory. -/
def ofContent (directory : Path) (content : ByteArray) : Rules × List RuleError :=
  let (rules, errors) := readLines 1 (textLines content)
  (⟨directory, rules⟩, errors)

/-- A path as the rules of a directory see it. -/
def relative (directory : Path) (path : List Char) : List Char :=
  let path := withoutStart ['.', '/'] path
  if directory.same ⟨"."⟩ || !path.contains '/' then path
  else
    let start := withoutStart ['.', '/'] directory.text.toList
    if start.isPrefixOf path then withoutStart ['/'] (path.drop start.length) else path

/-- What the rules say about an entry. -/
def verdict? (rules : Rules) (path : List Char) (isDirectory : Bool) : Option Verdict :=
  let text := String.ofList (relative rules.directory path)
  (rules.rules.reverse.find? fun rule =>
    (isDirectory || !rule.directoriesOnly) && matchesPath rule.glob text).map Rule.verdict

end Rules

end LoopLift.Ignore
