import LoopLift.Text.Bytes

/-!
# Cutting text at byte offsets

What the functions on byte offsets say about the pieces of a text. A boundary is
the byte length of an initial piece, a slice is a piece between two others, and
an exchange keeps the pieces on both sides. Two cuts of one text are comparable:
the shorter initial piece is part of the longer one.
-/

namespace LoopLift.Text

/-- A piece of text without bytes is empty. -/
theorem eq_nil_of_byteLength_eq_zero {text : List Char} (empty : byteLength text = 0) :
    text = [] := by
  cases text with
  | nil => rfl
  | cons char rest =>
      have positive := char.utf8Size_pos
      simp only [byteLength_cons] at empty
      omega

/-- Of two cuts of a text, the one at the smaller offset cuts the initial piece
of the other. -/
theorem exists_middle_of_byteLength_le {left right left' right' : List Char}
    (same : left ++ right = left' ++ right')
    (shorter : byteLength left ≤ byteLength left') :
    ∃ middle, left' = left ++ middle ∧ right = middle ++ right' := by
  rcases List.append_eq_append_iff.mp same with
    ⟨middle, longer, rest⟩ | ⟨middle, longer, rest⟩
  · exact ⟨middle, longer, rest⟩
  · have noBytes : byteLength middle = 0 := by
      rw [longer, byteLength_append] at shorter
      omega
    have empty := eq_nil_of_byteLength_eq_zero noBytes
    subst empty
    exact ⟨[], by simpa using longer.symm, by simpa using rest.symm⟩

/-- A boundary is the byte length of an initial piece. -/
theorem isBoundary_iff {text : List Char} {offset : Nat} :
    isBoundary text offset = true ↔
      ∃ left right, text = left ++ right ∧ byteLength left = offset := by
  constructor
  · intro boundary
    rcases Option.isSome_iff_exists.mp boundary with ⟨⟨left, right⟩, cut⟩
    exact ⟨left, right, splitAtByte?_eq_some_iff.mp cut⟩
  · rintro ⟨left, right, pieces⟩
    exact Option.isSome_iff_exists.mpr ⟨(left, right), splitAtByte?_eq_some_iff.mpr pieces⟩

/-- A slice is a piece between two others, whose lengths are given by the two
offsets. -/
theorem slice?_eq_some_iff {text piece : List Char} {start stop : Nat} :
    slice? text start stop = some piece ↔
      ∃ before after, text = before ++ piece ++ after ∧ byteLength before = start ∧
        start + byteLength piece = stop := by
  constructor
  · intro sliced
    simp only [slice?] at sliced
    split at sliced
    · rename_i ordered
      rcases Option.bind_eq_some_iff.mp sliced with ⟨⟨before, rest⟩, first, second⟩
      rcases Option.map_eq_some_iff.mp second with ⟨⟨taken, after⟩, cut, rfl⟩
      rcases splitAtByte?_eq_some_iff.mp first with ⟨rfl, startEq⟩
      rcases splitAtByte?_eq_some_iff.mp cut with ⟨rfl, sizeEq⟩
      refine ⟨before, after, by simp, startEq, ?_⟩
      dsimp only
      omega
    · cases sliced
  · rintro ⟨before, after, rfl, rfl, rfl⟩
    have first : splitAtByte? (byteLength before) (before ++ piece ++ after) =
        some (before, piece ++ after) :=
      splitAtByte?_eq_some_iff.mpr ⟨by simp, rfl⟩
    have second : splitAtByte? (byteLength piece) (piece ++ after) = some (piece, after) :=
      splitAtByte?_eq_some_iff.mpr ⟨rfl, rfl⟩
    simp only [slice?, Nat.le_add_right, ↓reduceIte, first, Option.bind_some,
      Nat.add_sub_cancel_left, second, Option.map_some]

/-- A slice of the front of a text does not depend on what follows. -/
theorem slice?_append_left {before after : List Char} {start stop : Nat}
    (inside : stop ≤ byteLength before) :
    slice? (before ++ after) start stop = slice? before start stop := by
  apply Option.ext
  intro piece
  rw [slice?_eq_some_iff, slice?_eq_some_iff]
  constructor
  · rintro ⟨front, back, pieces, startEq, stopEq⟩
    rcases exists_middle_of_byteLength_le pieces.symm
      (by rw [byteLength_append]; omega) with ⟨middle, beforeEq, -⟩
    exact ⟨front, middle, beforeEq, startEq, stopEq⟩
  · rintro ⟨front, back, rfl, startEq, stopEq⟩
    exact ⟨front, back ++ after, by simp, startEq, stopEq⟩

/-- Two boundaries in their order have a slice between them. -/
theorem exists_slice?_of_boundaries {text : List Char} {start stop : Nat} (ordered : start ≤ stop)
    (starts : isBoundary text start = true) (stops : isBoundary text stop = true) :
    ∃ piece, slice? text start stop = some piece := by
  rcases isBoundary_iff.mp starts with ⟨before, rest, pieces, startEq⟩
  rcases isBoundary_iff.mp stops with ⟨toStop, after, stopPieces, stopEq⟩
  rcases exists_middle_of_byteLength_le (pieces.symm.trans stopPieces) (by omega) with
    ⟨piece, rfl, -⟩
  refine ⟨piece, slice?_eq_some_iff.mpr ⟨before, after, stopPieces, startEq, ?_⟩⟩
  rw [← stopEq, byteLength_append, startEq]

/-- Inside of a slice, the slices of the text are those of the slice. -/
theorem slice?_of_slice? {text piece : List Char} {start stop first last : Nat}
    (sliced : slice? text start stop = some piece) (starts : start ≤ first)
    (ordered : first ≤ last) (stops : last ≤ stop) :
    slice? text first last = slice? piece (first - start) (last - start) := by
  rcases slice?_eq_some_iff.mp sliced with ⟨before, after, rfl, rfl, rfl⟩
  apply Option.ext
  intro inner
  rw [slice?_eq_some_iff, slice?_eq_some_iff]
  constructor
  · intro cut
    rcases cut with ⟨front, back, pieces, rfl, rfl⟩
    rw [List.append_assoc, List.append_assoc] at pieces
    rcases exists_middle_of_byteLength_le pieces starts with ⟨lead, rfl, rest⟩
    rw [← List.append_assoc] at rest
    rcases exists_middle_of_byteLength_le rest.symm
      (by simp only [byteLength_append] at stops ⊢; omega) with ⟨trail, rfl, -⟩
    refine ⟨lead, trail, rfl, ?_, ?_⟩
    · rw [byteLength_append, Nat.add_sub_cancel_left]
    · rw [byteLength_append]
      omega
  · intro cut
    rcases cut with ⟨front, back, rfl, frontEq, innerEq⟩
    refine ⟨before ++ front, back ++ after, by simp, ?_, ?_⟩
    · rw [byteLength_append]
      omega
    · omega

/-- A slice inside of another one cuts it into a gap, the slice and what is behind. -/
theorem exists_gap_of_slice? {text piece inner : List Char} {start stop first last : Nat}
    (sliced : slice? text start stop = some piece) (cut : slice? text first last = some inner)
    (starts : start ≤ first) (ordered : first ≤ last) (stops : last ≤ stop) :
    ∃ gap behind, piece = gap ++ inner ++ behind ∧ slice? text last stop = some behind := by
  rw [slice?_of_slice? sliced starts ordered stops] at cut
  rcases slice?_eq_some_iff.mp cut with ⟨gap, behind, rfl, gapEq, innerEq⟩
  refine ⟨gap, behind, rfl, ?_⟩
  rw [slice?_of_slice? sliced (Nat.le_trans starts ordered) stops (Nat.le_refl stop)]
  rcases slice?_eq_some_iff.mp sliced with ⟨before, after, -, -, lengthEq⟩
  simp only [byteLength_append] at lengthEq
  apply slice?_eq_some_iff.mpr
  refine ⟨gap ++ inner, [], by simp, ?_, ?_⟩
  · rw [byteLength_append]
    omega
  · omega

/-- A slice over a cut of the text is put together from two slices. -/
theorem exists_slices_of_cut {before after piece : List Char} {start stop : Nat}
    (sliced : slice? (before ++ after) start stop = some piece)
    (starts : start ≤ byteLength before) (stops : byteLength before ≤ stop) :
    ∃ first second, piece = first ++ second ∧
      slice? before start (byteLength before) = some first ∧
      slice? (before ++ after) (byteLength before) stop = some second := by
  rcases slice?_eq_some_iff.mp sliced with ⟨front, back, pieces, startEq, stopEq⟩
  rw [List.append_assoc] at pieces
  rcases exists_middle_of_byteLength_le pieces.symm (by omega) with ⟨first, rfl, rest⟩
  rcases exists_middle_of_byteLength_le rest.symm (by rw [byteLength_append] at stops; omega) with
    ⟨second, rfl, rfl⟩
  refine ⟨first, second, rfl, slice?_eq_some_iff.mpr ⟨front, [], by simp, startEq, ?_⟩,
    slice?_eq_some_iff.mpr ⟨front ++ first, back, by simp, rfl, ?_⟩⟩
  · rw [byteLength_append, startEq]
  · rw [byteLength_append, startEq]
    rw [byteLength_append] at stopEq
    omega

/-- An exchange keeps the pieces on both sides of the range. -/
theorem replaceRange?_eq_some_iff {text replacement result : List Char} {start stop : Nat} :
    replaceRange? text start stop replacement = some result ↔
      ∃ before removed after, text = before ++ removed ++ after ∧
        byteLength before = start ∧ start + byteLength removed = stop ∧
        result = before ++ replacement ++ after := by
  constructor
  · intro replaced
    simp only [replaceRange?] at replaced
    split at replaced
    · rename_i ordered
      rcases Option.bind_eq_some_iff.mp replaced with ⟨⟨before, rest⟩, first, second⟩
      rcases Option.map_eq_some_iff.mp second with ⟨⟨removed, after⟩, cut, rfl⟩
      rcases splitAtByte?_eq_some_iff.mp first with ⟨rfl, startEq⟩
      rcases splitAtByte?_eq_some_iff.mp cut with ⟨rfl, sizeEq⟩
      exact ⟨before, removed, after, by simp, startEq, by omega, rfl⟩
    · cases replaced
  · rintro ⟨before, removed, after, rfl, rfl, rfl, rfl⟩
    have first : splitAtByte? (byteLength before) (before ++ removed ++ after) =
        some (before, removed ++ after) :=
      splitAtByte?_eq_some_iff.mpr ⟨by simp, rfl⟩
    have second : splitAtByte? (byteLength removed) (removed ++ after) =
        some (removed, after) :=
      splitAtByte?_eq_some_iff.mpr ⟨rfl, rfl⟩
    simp only [replaceRange?, Nat.le_add_right, ↓reduceIte, first, Option.bind_some,
      Nat.add_sub_cancel_left, second, Option.map_some]

end LoopLift.Text
