import LoopLift.Text.Bytes

/-!
# Edits of a source text

An edit exchanges a byte range of a source text. A list of edits is checked as a
whole before any of it is carried out: every range has to lie in the source on
character boundaries, and no two ranges may overlap.
-/

namespace LoopLift

/-- Exchange the bytes from `start` up to `stop` for a replacement. -/
structure Edit where
  start : Nat
  stop : Nat
  replacement : String
  description : Option String := none
  deriving Repr, DecidableEq

/-- Why a list of edits cannot be carried out. Edits are counted from zero. -/
inductive EditError where
  /-- Two edits whose ranges overlap. -/
  | overlapping (first second : Nat)
  /-- An edit that ends past the source, or before it starts. -/
  | outOfBounds (index stop length : Nat)
  /-- An edit that starts or ends inside a character. -/
  | splitsCharacter (index : Nat)
  /-- The edited source has syntax errors that the source had not. -/
  | unparsable
  /-- A text inserted at the start of an edit moved a character over its end. -/
  | severed
  deriving Repr, DecidableEq

/-- The wording of an error. -/
def EditError.message : EditError → String
  | .overlapping first second => s!"Overlapping edits at indices {first} and {second}"
  | .outOfBounds index stop length =>
      s!"Edit {index} out of bounds: end_byte {stop} > source length {length}"
  | .splitsCharacter index => s!"Edit {index} does not start and end on character boundaries"
  | .unparsable => "Rewritten source contains syntax errors"
  | .severed => "Edited range no longer lies on character boundaries"

namespace Edit

/-- Whether two edits share a byte. -/
def overlaps (left right : Edit) : Bool :=
  decide (left.start < right.stop) && decide (right.start < left.stop)

/-- What is wrong with the range of one edit. -/
def fault? (source : List Char) (index : Nat) (edit : Edit) : Option EditError :=
  if Text.byteLength source < edit.stop ∨ edit.stop < edit.start then
    some (.outOfBounds index edit.stop (Text.byteLength source))
  else if Text.isBoundary source edit.start && Text.isBoundary source edit.stop then
    none
  else
    some (.splitsCharacter index)

/-- The fault of the first edit that has one, edits being counted from
`index`. -/
def firstFault? (source : List Char) (index : Nat) : List Edit → Option EditError
  | [] => none
  | edit :: rest =>
      match edit.fault? source index with
      | some error => some error
      | none => firstFault? source (index + 1) rest

/-- The first of `others`, counted from `index`, that overlaps an edit. -/
def firstClash? (edit : Edit) (index : Nat) (others : List Edit) : Option Nat :=
  match others with
  | [] => none
  | other :: rest =>
      if edit.overlaps other then some index else edit.firstClash? (index + 1) rest

/-- The least pair of overlapping edits, edits being counted from `index`. -/
def firstOverlap? (index : Nat) : List Edit → Option (Nat × Nat)
  | [] => none
  | edit :: rest =>
      match edit.firstClash? (index + 1) rest with
      | some other => some (index, other)
      | none => firstOverlap? (index + 1) rest

/-- Check a list of edits of a source. Faults of single edits come before
overlaps. -/
def validate (source : List Char) (edits : List Edit) : Except EditError Unit :=
  match firstFault? source 0 edits with
  | some error => .error error
  | none =>
      match firstOverlap? 0 edits with
      | some (first, second) => .error (.overlapping first second)
      | none => .ok ()

/-- The edits from the end of the source to its start. Edits with one start stay
in the order in which they were made. -/
def fromTheEnd (edits : List Edit) : List Edit :=
  edits.mergeSort fun left right => decide (right.start ≤ left.start)

/-- Carry out edits one after the other. -/
def splice : List Char → List Edit → Except EditError (List Char)
  | source, [] => .ok source
  | source, edit :: rest =>
      match Text.replaceRange? source edit.start edit.stop edit.replacement.toList with
      | some edited => splice edited rest
      | none => .error .severed

/-- Check a list of edits and carry it out from the end of the source to its
start, so that the offsets of edits still to come stay valid. -/
def apply (source : String) (edits : List Edit) : Except EditError String := do
  validate source.toList edits
  let edited ← splice source.toList (fromTheEnd edits)
  return String.ofList edited

end Edit

end LoopLift
