/-!
# TOML documents

A document is a table of keys. Where a table came from decides what may still be
added to it: a header can define a table once, and dotted keys can extend only
tables that dotted keys have made.
-/

namespace LoopLift

/-- Where a table came from. -/
inductive TableOrigin where
  /-- The header of the table itself. -/
  | header
  /-- The header of a table inside it. -/
  | implied
  /-- A dotted key. -/
  | dotted
  /-- A value in braces, which is complete as it stands. -/
  | inline
  deriving Repr, DecidableEq

/-- A value of a document. Numbers and points in time are kept as they are
written. -/
inductive Toml where
  | string (text : String)
  | boolean (value : Bool)
  | number (written : String)
  | moment (written : String)
  /-- An array, which headers can extend if headers have made it. -/
  | array (ofHeaders : Bool) (items : List Toml)
  | table (origin : TableOrigin) (members : List (String × Toml))
  deriving Inhabited

namespace Toml

/-- The members of a table. -/
abbrev Members := List (String × Toml)

/-- Replace the value of a key, or add it at the end. A change that fails makes
the whole fail. -/
def alter (key : String) (change : Option Toml → Option Toml) : Members → Option Members
  | [] => (change none).map fun value => [(key, value)]
  | (other, value) :: rest =>
      if other = key then (change (some value)).map fun value => (key, value) :: rest
      else (alter key change rest).map ((other, value) :: ·)

/-- Change the last item of an array, which has to be a table. -/
def alterLast (change : Members → Option Members) : List Toml → Option (List Toml)
  | [] => none
  | [.table origin members] => (change members).map fun members => [.table origin members]
  | [_] => none
  | item :: rest => (alterLast change rest).map (item :: ·)

/-- Change the members of the table at the end of a header's path. Tables that
are not there are made, and an array of tables stands for its last one. -/
def within (change : Members → Option Members) : List String → Members → Option Members
  | [], members => change members
  | key :: rest, members =>
      alter key (fun
        | none => (within change rest []).map (.table .implied)
        | some (.table origin members) =>
            if origin = .inline then none
            else (within change rest members).map (.table origin)
        | some (.array true items) => (alterLast (within change rest) items).map (.array true)
        | some _ => none) members

/-- Add a value that has to be new. -/
def addNew (key : String) (value : Toml) : Members → Option Members :=
  alter key fun
    | none => some value
    | some _ => none

/-- Define the table of a header. -/
def defineTable (key : String) : Members → Option Members :=
  alter key fun
    | none => some (.table .header [])
    | some (.table .implied members) => some (.table .header members)
    | some _ => none

/-- Append a table to the array of a header. -/
def appendTable (key : String) : Members → Option Members :=
  alter key fun
    | none => some (.array true [.table .header []])
    | some (.array true items) => some (.array true (items ++ [.table .header []]))
    | some _ => none

/-- Add a value below the tables that the leading parts of a dotted key name.
`extensible` tells whether the table reached can take the value itself. -/
def addDotted (key : String) (value : Toml) (extensible : Bool) :
    List String → Members → Option Members
  | [], members => if extensible then addNew key value members else none
  | part :: rest, members =>
      alter part (fun
        | none => (addDotted key value true rest []).map (.table .dotted)
        | some (.table .dotted members) =>
            (addDotted key value true rest members).map (.table .dotted)
        | some (.table .implied members) =>
            (addDotted key value false rest members).map (.table .implied)
        | some (.array true items) =>
            (alterLast (addDotted key value false rest) items).map (.array true)
        | some _ => none) members

/-- Add the value of a key to a table. -/
def add (path : List String) (key : String) (value : Toml) : Members → Option Members :=
  addDotted key value true path

end Toml

end LoopLift
