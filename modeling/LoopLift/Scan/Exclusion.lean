/-!
# Excluded folders

Names of folders that a scan does not enter. Some are excluded by default, and a
folder that is included by name is entered all the same.
-/

namespace LoopLift.Exclusion

/-- Folders that are excluded by default, in alphabetical order. -/
def defaults : List String :=
  [".git", ".idea", ".phpunit.cache", "cache", "node_modules", "storage", "vendor"]

/-- Whether an exclusion covers a name. An exclusion that starts with a star and
a dot covers every name with that ending. -/
def covers (name exclusion : String) : Bool :=
  match exclusion.toList with
  | '*' :: '.' :: ending => ('.' :: ending).isSuffixOf name.toList
  | _ => name == exclusion

/-- Whether one of several exclusions covers a name. -/
def isExcluded (name : String) (exclusions : List String) : Bool :=
  exclusions.any (covers name)

/-- The exclusions in force: the given ones and the default ones without those
that are included. -/
def inForce (excluded included : List String) : List String :=
  (excluded ++ defaults).filter fun exclusion => !included.contains exclusion

/-- Append the names that a list does not have yet. -/
def extend (merged : List String) : List String → List String
  | [] => merged
  | name :: rest => extend (if merged.contains name then merged else merged ++ [name]) rest

/-- Configured names followed by given ones, each at its first place only. -/
def merge (configured : Option (List String)) (given : List String) : List String :=
  extend [] (configured.getD [] ++ given)

end LoopLift.Exclusion
