/-!
# Paths

A path is kept as the text that was given, because that is what messages show.
Order, containment and file names go by its components instead, so doubled or
final slashes and inner `.` steps do not count.
-/

namespace LoopLift

/-- One step of a path. -/
inductive Component where
  /-- The top of the file system, first in an absolute path. -/
  | root
  /-- A leading `.`. -/
  | current
  /-- A step to the directory above. -/
  | parent
  | name (text : String)
  deriving Repr, DecidableEq

namespace Component

/-- The place of a kind of component in the order of components. -/
def rank : Component → Nat
  | .root => 0
  | .current => 1
  | .parent => 2
  | .name _ => 3

/-- Components are ordered by kind, and names by their characters. -/
def order : Component → Component → Ordering
  | .name left, .name right => compare left right
  | left, right => compare left.rank right.rank

/-- The component that a segment behind the first one stands for. Empty
segments and `.` stand for none. -/
def ofSegment? (segment : String) : Option Component :=
  if segment = "" ∨ segment = "." then none
  else if segment = ".." then some .parent
  else some (.name segment)

end Component

/-- A path as it was given. -/
structure Path where
  text : String
  deriving Repr, DecidableEq, Inhabited

namespace Path

/-- Cut a text at its slashes, when `held`, given backwards, has been read of
the first segment. -/
def segmentsFrom (held : List Char) : List Char → List String
  | [] => [String.ofList held.reverse]
  | '/' :: rest => String.ofList held.reverse :: segmentsFrom [] rest
  | char :: rest => segmentsFrom (char :: held) rest

/-- The texts between the slashes of a path, empty ones included. -/
def segments (path : Path) : List String :=
  segmentsFrom [] path.text.toList

/-- Whether a path starts at the top of the file system. -/
def isAbsolute (path : Path) : Bool :=
  path.text.toList.head? == some '/'

/-- The components of the segments that start at a position, each with the
position of its end. -/
def spansFrom (position : Nat) : List String → List (Component × Nat)
  | [] => []
  | segment :: rest =>
      let stop := position + segment.length
      match Component.ofSegment? segment with
      | some component => (component, stop) :: spansFrom (stop + 1) rest
      | none => spansFrom (stop + 1) rest

/-- The components of a path, each with the number of characters up to its
end. -/
def spans (path : Path) : List (Component × Nat) :=
  match path.segments with
  | [] => []
  | first :: rest =>
      if path.isAbsolute then (.root, 1) :: spansFrom 1 rest
      else if first = "." then (.current, 1) :: spansFrom 2 rest
      else spansFrom 0 (first :: rest)

/-- The components of a path. -/
def components (path : Path) : List Component :=
  path.spans.map Prod.fst

/-- Paths are ordered by their components. -/
def order (left right : Path) : Ordering :=
  List.compareLex Component.order left.components right.components

/-- Whether two paths have the same components. -/
def same (left right : Path) : Bool :=
  left.components == right.components

/-- Whether a path does not come after another one. -/
def isBefore (left right : Path) : Bool :=
  (left.order right).isLE

/-- The path that a second path denotes when it is read from a first one. An
absolute path stays as it is. -/
def join (base path : Path) : Path :=
  if path.isAbsolute || base.text.isEmpty then path
  else if base.text.toList.getLast? == some '/' then ⟨base.text ++ path.text⟩
  else ⟨base.text ++ "/" ++ path.text⟩

/-- A path with a further name. -/
def child (base : Path) (name : String) : Path :=
  base.join ⟨name⟩

/-- The path without its last component, which may be a `..` as well. The top of
the file system and the empty path have none. -/
def parent? (path : Path) : Option Path :=
  match path.spans.reverse with
  | [] | (.root, _) :: _ => none
  | [_] => some ⟨""⟩
  | _ :: (_, stop) :: _ => some ⟨String.ofList (path.text.toList.take stop)⟩

/-- The last component, if it is a name. -/
def fileName? (path : Path) : Option String :=
  match path.components.getLast? with
  | some (.name name) => some name
  | _ => none

/-- The extension of a name: what follows its last dot, unless nothing stands
before that dot. -/
def extensionOf? (name : String) : Option String :=
  let reversed := name.toList.reverse
  match reversed.dropWhile (· != '.') with
  | [] | [_] => none
  | _ :: _ :: _ => some (String.ofList (reversed.takeWhile (· != '.')).reverse)

/-- The extension of the file name. -/
def extension? (path : Path) : Option String :=
  path.fileName?.bind extensionOf?

/-- What remains of the components of a path after those of another one. -/
def below? (base path : Path) : Option (List Component) :=
  if base.components.isPrefixOf path.components then
    some (path.components.drop base.components.length)
  else
    none

/-- Whether the components of a path start with those of another one. -/
def isUnder (path base : Path) : Bool :=
  base.components.isPrefixOf path.components

/-- Remove a text from the start of another one as often as it stands there. -/
def stripAll (start : List Char) : (fuel : Nat) → List Char → List Char
  | 0, text => text
  | fuel + 1, text =>
      if start.isPrefixOf text then stripAll start fuel (text.drop start.length) else text

/-- A path as it is shown: without marks of verbatim paths and without one
leading `./`, with slashes for backslashes. -/
def shown (path : Path) : String :=
  let text := path.text.toList
  let slashed := (stripAll ['\\', '\\', '?', '\\'] text.length text).map fun char =>
    if char = '\\' then '/' else char
  String.ofList (if ['.', '/'].isPrefixOf slashed then slashed.drop 2 else slashed)

end Path

end LoopLift
