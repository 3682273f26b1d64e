/-!
# Byte offsets into text

Positions in a source file are byte offsets into its UTF-8 encoding. This module
cuts text at such offsets. A cut succeeds exactly when the offset lies on a
character boundary inside the text (`splitAtByte?_eq_some_iff`), so slicing and
splicing never produce half a character.
-/

namespace LoopLift.Text

/-- Number of bytes in the UTF-8 encoding of a text. -/
def byteLength : List Char → Nat
  | [] => 0
  | char :: rest => char.utf8Size + byteLength rest

@[simp] theorem byteLength_nil : byteLength [] = 0 := rfl

@[simp] theorem byteLength_cons (char : Char) (rest : List Char) :
    byteLength (char :: rest) = char.utf8Size + byteLength rest := rfl

@[simp] theorem byteLength_append (left right : List Char) :
    byteLength (left ++ right) = byteLength left + byteLength right := by
  induction left with
  | nil => simp
  | cons char rest ih => simp [ih, Nat.add_assoc]

/-- The loop of `splitAtByte?`: `before` holds the characters passed so far,
last one first. -/
def splitAtByteFrom (before : List Char) : Nat → List Char → Option (List Char × List Char)
  | 0, rest => some (before.reverse, rest)
  | _ + 1, [] => none
  | offset + 1, char :: rest =>
      if char.utf8Size ≤ offset + 1 then
        splitAtByteFrom (char :: before) (offset + 1 - char.utf8Size) rest
      else
        none

/-- Cut a text at a byte offset. There is no result past the end of the text or
inside a character. -/
def splitAtByte? (offset : Nat) (text : List Char) : Option (List Char × List Char) :=
  splitAtByteFrom [] offset text

theorem splitAtByteFrom_eq_some_iff {before : List Char} {offset : Nat} {text : List Char}
    {left right : List Char} :
    splitAtByteFrom before offset text = some (left, right) ↔
      ∃ passed, left = before.reverse ++ passed ∧ text = passed ++ right ∧
        byteLength passed = offset := by
  induction text generalizing before offset with
  | nil =>
      cases offset with
      | zero =>
          simp only [splitAtByteFrom, Option.some.injEq, Prod.mk.injEq]
          constructor
          · rintro ⟨rfl, rfl⟩
            exact ⟨[], by simp⟩
          · rintro ⟨passed, rfl, split, -⟩
            obtain ⟨rfl, rfl⟩ := List.append_eq_nil_iff.1 split.symm
            simp
      | succ offset =>
          simp only [splitAtByteFrom, reduceCtorEq, false_iff]
          rintro ⟨passed, -, split, size⟩
          have : passed = [] := (List.append_eq_nil_iff.1 split.symm).1
          simp [this] at size
  | cons char rest ih =>
      have positive := char.utf8Size_pos
      cases offset with
      | zero =>
          simp only [splitAtByteFrom, Option.some.injEq, Prod.mk.injEq]
          constructor
          · rintro ⟨rfl, rfl⟩
            exact ⟨[], by simp⟩
          · rintro ⟨passed, rfl, split, size⟩
            cases passed with
            | nil => exact ⟨by simp, by simpa using split⟩
            | cons first passed =>
                have := first.utf8Size_pos
                simp at size
                omega
      | succ offset =>
          simp only [splitAtByteFrom]
          split
          · rename_i fits
            rw [ih]
            constructor
            · rintro ⟨passed, rfl, rfl, size⟩
              exact ⟨char :: passed, by simp, by simp, by simp; omega⟩
            · rintro ⟨passed, rfl, split, size⟩
              cases passed with
              | nil => simp at size
              | cons first passed =>
                  obtain ⟨rfl, rfl⟩ : char = first ∧ rest = passed ++ right := by
                    simpa using split
                  exact ⟨passed, by simp, rfl, by simp at size; omega⟩
          · rename_i small
            simp only [reduceCtorEq, false_iff]
            rintro ⟨passed, -, split, size⟩
            cases passed with
            | nil => simp at size
            | cons first passed =>
                obtain ⟨rfl, -⟩ : char = first ∧ rest = passed ++ right := by
                  simpa using split
                simp at size
                omega

/-- Cutting succeeds exactly at the byte lengths of the initial parts of the
text, and yields the two parts. -/
theorem splitAtByte?_eq_some_iff {offset : Nat} {text left right : List Char} :
    splitAtByte? offset text = some (left, right) ↔
      text = left ++ right ∧ byteLength left = offset := by
  rw [splitAtByte?, splitAtByteFrom_eq_some_iff]
  constructor
  · rintro ⟨passed, rfl, split, size⟩
    exact ⟨by simpa using split, by simpa using size⟩
  · rintro ⟨split, size⟩
    exact ⟨left, by simp, split, size⟩

/-- Whether a byte offset lies on a character boundary of the text, its two ends
included. -/
def isBoundary (text : List Char) (offset : Nat) : Bool :=
  (splitAtByte? offset text).isSome

/-- The part of a text between two byte offsets, when they are ordered and lie
on character boundaries. -/
def slice? (text : List Char) (start stop : Nat) : Option (List Char) :=
  if start ≤ stop then
    (splitAtByte? start text).bind fun (_, rest) =>
      (splitAtByte? (stop - start) rest).map Prod.fst
  else
    none

/-- The text with the part between two byte offsets exchanged, when the offsets
are ordered and lie on character boundaries. -/
def replaceRange? (text : List Char) (start stop : Nat) (replacement : List Char) :
    Option (List Char) :=
  if start ≤ stop then
    (splitAtByte? start text).bind fun (before, rest) =>
      (splitAtByte? (stop - start) rest).map fun (_, after) =>
        before ++ replacement ++ after
  else
    none

end LoopLift.Text
