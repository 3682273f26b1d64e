import LoopLift.Php.Cursor
import LoopLift.Proofs.Loop.Suppression
import LoopLift.Proofs.Text.Cutting
import Mathlib.Data.List.DropRight

/-!
# Rows and the table of lines

The row of a place is the number of line ends before it, and its column is the number of
bytes since the last one. The table of lines is made in another way: it drops the carriage
return of a line end, and the empty line behind a final line end. At every place inside of
a line, the entry of the table at the row of the place is nevertheless this line, and the
entry before is the line above. So suppression looks at these two lines only.
-/

namespace LoopLift

open Syntax

namespace Text

/-! ## Bytes -/

/-- The bytes of a text. -/
def bytes (text : List Char) : List UInt8 := text.flatMap String.utf8EncodeChar

/-- The byte of a line end. -/
def newline : UInt8 := 10

/-- Number of line ends before a byte offset. -/
def rowAt (text : List Char) (offset : Nat) : Nat :=
  ((bytes text).take offset).count newline

/-- Number of bytes since the last line end before a byte offset. -/
def columnAt (text : List Char) (offset : Nat) : Nat :=
  (((bytes text).take offset).rtakeWhile (· ≠ newline)).length

@[simp] theorem bytes_append (left right : List Char) :
    bytes (left ++ right) = bytes left ++ bytes right :=
  List.flatMap_append

theorem bytes_cons (char : Char) (rest : List Char) :
    bytes (char :: rest) = String.utf8EncodeChar char ++ bytes rest :=
  List.flatMap_cons

@[simp] theorem length_bytes (text : List Char) : (bytes text).length = byteLength text := by
  induction text with
  | nil => rfl
  | cons char rest ih =>
      rw [bytes_cons, List.length_append, String.length_utf8EncodeChar, ih, byteLength_cons]

theorem take_bytes (before after : List Char) :
    (bytes (before ++ after)).take (byteLength before) = bytes before := by
  rw [bytes_append, ← length_bytes, List.take_left]

theorem newline_ne_ofNat {code : Nat} (other : code ≠ 10) (byte : code < 256) :
    newline ≠ UInt8.ofNat code := by
  intro same
  have value := congrArg UInt8.toNat same
  rw [UInt8.toNat_ofNat_of_lt' byte] at value
  exact other value.symm

/-- No other character has the byte of a line end in its encoding. -/
theorem newline_notMem_utf8EncodeChar {char : Char} (other : char ≠ '\n') :
    newline ∉ String.utf8EncodeChar char := by
  have code : char.val.toNat ≠ 10 := by
    intro same
    exact other (Char.ext (UInt32.toNat_inj.mp same))
  -- All bytes of a longer encoding are large.
  rw [String.utf8EncodeChar]
  split
  · rw [List.mem_singleton]
    exact newline_ne_ofNat code (by omega)
  · split
    · simp only [List.mem_cons, List.not_mem_nil, or_false, not_or]
      exact ⟨newline_ne_ofNat (by omega) (by omega), newline_ne_ofNat (by omega) (by omega)⟩
    · split
      · simp only [List.mem_cons, List.not_mem_nil, or_false, not_or]
        exact ⟨newline_ne_ofNat (by omega) (by omega), newline_ne_ofNat (by omega) (by omega),
          newline_ne_ofNat (by omega) (by omega)⟩
      · simp only [List.mem_cons, List.not_mem_nil, or_false, not_or]
        exact ⟨newline_ne_ofNat (by omega) (by omega), newline_ne_ofNat (by omega) (by omega),
          newline_ne_ofNat (by omega) (by omega), newline_ne_ofNat (by omega) (by omega)⟩

theorem newline_notMem_bytes {line : List Char} (free : '\n' ∉ line) : newline ∉ bytes line := by
  rw [bytes, List.mem_flatMap]
  rintro ⟨char, member, inChar⟩
  apply newline_notMem_utf8EncodeChar _ inChar
  rintro rfl
  exact free member

theorem row_cons (char : Char) (rest : List Char) :
    row (char :: rest) = (if char = '\n' then 1 else 0) + row rest := by
  simp only [row, List.count_cons, beq_iff_eq, Nat.add_comm]

theorem count_bytes (text : List Char) : (bytes text).count newline = row text := by
  induction text with
  | nil => rfl
  | cons char rest ih =>
      rw [bytes_cons, List.count_append, ih, row_cons]
      split
      · rename_i lineEnd
        subst lineEnd
        rfl
      · rename_i inLine
        rw [List.count_eq_zero.mpr (newline_notMem_utf8EncodeChar inLine)]

theorem rowAt_append (before after : List Char) :
    rowAt (before ++ after) (byteLength before) = row before := by
  rw [rowAt, take_bytes, count_bytes]

/-! ## Lines between line ends -/

/-- What stands before the start of a line. -/
def OpensLine (front : List Char) : Prop :=
  front = [] ∨ ∃ before, front = before ++ ['\n']

/-- A line of a text, with what stands before and behind it: it has no line end in it, and
goes from a line end or the start of the text to a line end or the end of the text. -/
structure IsLine (front line back : List Char) : Prop where
  opened : OpensLine front
  whole : '\n' ∉ line
  closed : back = [] ∨ ∃ behind, back = '\n' :: behind

/-- A line without a final carriage return. -/
def withoutReturn (line : List Char) : List Char :=
  if line.getLast? = some '\r' then line.dropLast else line

/-- What the table of lines holds of a line. A carriage return right before a line end is
left out, and one at the end of the text is not. -/
def lineText (line back : List Char) : List Char :=
  if back = [] then line else withoutReturn line

/-- What the table of lines holds of the line right above the end of a text, if there is a
line above. -/
inductive Above : List Char → Option (List Char) → Prop where
  | none : Above [] none
  | line {front line : List Char} (isLine : IsLine front line ['\n']) :
      Above (front ++ line ++ ['\n']) (some (lineText line ['\n']))

/-- A text is cut at its last line end. -/
theorem exists_opensLine (before : List Char) :
    ∃ front held, before = front ++ held ∧ OpensLine front ∧ '\n' ∉ held := by
  refine ⟨before.rdropWhile (· ≠ '\n'), before.rtakeWhile (· ≠ '\n'),
    List.rdropWhile_append_rtakeWhile.symm, ?_, ?_⟩
  · by_cases empty : before.rdropWhile (· ≠ '\n') = []
    · exact .inl empty
    · have last := List.rdropWhile_last_not _ _ empty
      have split := List.dropLast_concat_getLast empty
      simp only [ne_eq, decide_not, Bool.not_eq_eq_eq_not, Bool.not_true, decide_eq_false_iff_not,
        Decidable.not_not] at last split ⊢
      exact .inr ⟨_, by rw [← split, last]⟩
  · intro member
    simpa using List.mem_rtakeWhile_imp member

/-- A text is cut at its first line end. -/
theorem exists_closed (after : List Char) :
    ∃ tail back, after = tail ++ back ∧ '\n' ∉ tail ∧
      (back = [] ∨ ∃ behind, back = '\n' :: behind) := by
  induction after with
  | nil => exact ⟨[], [], rfl, List.not_mem_nil, .inl rfl⟩
  | cons char after ih =>
      by_cases lineEnd : char = '\n'
      · exact ⟨[], char :: after, rfl, List.not_mem_nil, .inr ⟨after, by rw [lineEnd]⟩⟩
      · rcases ih with ⟨tail, back, rfl, free, closed⟩
        refine ⟨char :: tail, back, rfl, ?_, closed⟩
        rw [List.mem_cons, not_or]
        exact ⟨Ne.symm lineEnd, free⟩

theorem exists_above {front : List Char} (opens : OpensLine front) : ∃ above, Above front above := by
  rcases opens with rfl | ⟨before, rfl⟩
  · exact ⟨none, .none⟩
  · rcases exists_opensLine before with ⟨front, line, rfl, opens, free⟩
    exact ⟨_, .line ⟨opens, free, .inr ⟨[], rfl⟩⟩⟩

/-- The column at the end of a text counts the bytes of its last line. -/
theorem columnAt_append {front held : List Char} (opens : OpensLine front) (free : '\n' ∉ held)
    (after : List Char) :
    columnAt (front ++ held ++ after) (byteLength (front ++ held)) = byteLength held := by
  have onlyOthers : ∀ byte ∈ (bytes held).reverse, (decide (byte ≠ newline)) = true := by
    intro byte member
    rw [decide_eq_true_iff]
    rintro rfl
    exact newline_notMem_bytes free (List.mem_reverse.mp member)
  have stops : (bytes front).reverse.takeWhile (fun byte => decide (byte ≠ newline)) = [] := by
    rcases opens with rfl | ⟨before, rfl⟩
    · rfl
    · rw [bytes_append, List.reverse_append]
      rfl
  rw [columnAt, take_bytes, List.rtakeWhile, bytes_append, List.reverse_append,
    List.takeWhile_append_of_pos onlyOthers, stops]
  simp

/-- A line end starts the columns again. -/
theorem columnAt_concat (before : List Char) (char : Char) (after : List Char) :
    columnAt (before ++ [char] ++ after) (byteLength (before ++ [char])) =
      if char = '\n' then 0
      else columnAt (before ++ char :: after) (byteLength before) + char.utf8Size := by
  split
  · rename_i lineEnd
    subst lineEnd
    have column := columnAt_append (.inr ⟨before, rfl⟩) List.not_mem_nil after
    rwa [List.append_nil] at column
  · rename_i inLine
    rcases exists_opensLine before with ⟨front, held, rfl, opens, free⟩
    have freeNext : '\n' ∉ held ++ [char] := by
      rw [List.mem_append, List.mem_singleton, not_or]
      exact ⟨free, Ne.symm inLine⟩
    rw [columnAt_append opens free, List.append_assoc front, columnAt_append opens freeNext]
    simp

/-! ## The table of lines -/

theorem closeLine_reverse (line : List Char) : closeLine line.reverse = withoutReturn line := by
  rw [withoutReturn, closeLine.eq_def]
  rcases List.eq_nil_or_concat line with rfl | ⟨front, last, rfl⟩
  · rfl
  · rw [List.concat_eq_append, List.reverse_append, List.getLast?_concat, List.dropLast_concat]
    by_cases carriage : last = '\r'
    · subst carriage
      simp
    · rw [if_neg (by simpa using carriage)]
      split
      · rename_i same
        exact absurd (List.cons.inj same).1 carriage
      · simp

/-- Behind a line end, the table of lines goes on with the lines of the rest. -/
theorem linesFrom_append_newline (held front rest : List Char) :
    linesFrom held (front ++ '\n' :: rest) = linesFrom held (front ++ ['\n']) ++ lines rest := by
  induction front generalizing held with
  | nil => simp [linesFrom_cons, linesFrom, lines]
  | cons char front ih =>
      rw [List.cons_append, List.cons_append, linesFrom_cons, linesFrom_cons, ih, ih]
      split <;> rfl

/-- Every line end closes one line. -/
theorem length_linesFrom (held front : List Char) :
    (linesFrom held (front ++ ['\n'])).length = row front + 1 := by
  induction front generalizing held with
  | nil => rfl
  | cons char front ih =>
      rw [List.cons_append, linesFrom_cons, row_cons]
      split
      · rw [List.length_cons, ih]
        omega
      · rw [ih]
        omega

theorem linesFrom_of_free {line : List Char} (free : '\n' ∉ line) (held rest : List Char) :
    linesFrom held (line ++ rest) = linesFrom (line.reverse ++ held) rest := by
  induction line generalizing held with
  | nil => rfl
  | cons char line ih =>
      rw [List.mem_cons, not_or] at free
      rw [List.cons_append, linesFrom_cons, if_neg (Ne.symm free.1), ih free.2]
      simp

/-- A line is the first one in the table of what starts with it. -/
theorem head?_lines {line back : List Char} (free : '\n' ∉ line)
    (closed : back = [] ∨ ∃ behind, back = '\n' :: behind) (nonempty : line ++ back ≠ []) :
    (lines (line ++ back)).head? = some (lineText line back) := by
  rw [lines, linesFrom_of_free free, List.append_nil]
  rcases closed with rfl | ⟨behind, rfl⟩
  · rw [linesFrom, if_neg (by simpa using nonempty), lineText, if_pos rfl]
    simp
  · rw [linesFrom_cons, if_pos rfl, closeLine_reverse, lineText, if_neg (List.cons_ne_nil _ _)]
    rfl

/-- The table of lines has a line at the row where it starts. -/
theorem getElem?_lines {front line back : List Char} (isLine : IsLine front line back)
    (nonempty : line ++ back ≠ []) :
    (lines (front ++ line ++ back))[row front]? = some (lineText line back) := by
  have first := head?_lines isLine.whole isLine.closed nonempty
  rw [List.append_assoc]
  rcases isLine.opened with rfl | ⟨before, rfl⟩
  · rw [List.nil_append, ← first, List.head?_eq_getElem?]
    rfl
  · have size := length_linesFrom [] before
    have rows : row (before ++ ['\n']) = row before + 1 := row_append before ['\n']
    rw [List.append_assoc, List.singleton_append, lines, linesFrom_append_newline, rows, ← size,
      List.getElem?_append_right (Nat.le_refl _), Nat.sub_self, ← List.head?_eq_getElem?, first]

theorem getElem?_lines_above {front rest : List Char} {above : Option (List Char)}
    (isAbove : Above front above) :
    (if row front = 0 then none else (lines (front ++ rest))[row front - 1]?) = above := by
  cases isAbove with
  | none => rfl
  | @line front line isLine =>
      have rows : row (front ++ line ++ ['\n']) = row front + 1 := by
        rw [row_append, row_append, row_eq_zero_iff.mpr isLine.whole]
        rfl
      have whole : IsLine front line ('\n' :: rest) :=
        ⟨isLine.opened, isLine.whole, .inr ⟨rest, rfl⟩⟩
      have entry := getElem?_lines whole (by simp)
      rw [rows, if_neg (Nat.succ_ne_zero _), Nat.add_sub_cancel, List.append_assoc (front ++ line),
        List.singleton_append, entry]
      simp [lineText]

end Text

/-! ## Reading positions -/

namespace Php.Cursor

theorem advance_add (first second : Nat) (cursor : Cursor) :
    advance (first + second) cursor = advance second (advance first cursor) := by
  induction first generalizing cursor with
  | zero => rw [Nat.zero_add]; rfl
  | succ first ih =>
      rw [Nat.succ_add, advance, advance]
      split
      · rename_i ended
        cases second with
        | zero => rfl
        | succ second => simp [advance, ended]
      · exact ih _

/-- A reading position counts the row and the column of its byte offset. -/
theorem advance_ofText (before after : List Char) :
    advance before.length (ofText (before ++ after)) =
      { rest := after, offset := Text.byteLength before
        row := Text.rowAt (before ++ after) (Text.byteLength before)
        column := Text.columnAt (before ++ after) (Text.byteLength before) } := by
  induction before using List.reverseRecOn generalizing after with
  | nil => rfl
  | append_singleton before char ih =>
      rw [List.length_append, List.length_singleton, List.append_assoc, advance_add,
        List.singleton_append, ih]
      have row := Text.rowAt_append (before ++ [char]) after
      have column := Text.columnAt_concat before char after
      rw [Text.row_append, Text.row_cons, List.append_assoc, List.singleton_append] at row
      rw [List.append_assoc, List.singleton_append] at column
      change pass _ char after = _
      rw [pass, row, column, Text.rowAt_append, Text.byteLength_append]
      by_cases lineEnd : char = '\n'
      · subst lineEnd
        rfl
      · simp [lineEnd, Text.row]

end Php.Cursor

/-! ## The line of a place -/

/-- A place in a line of a text, with the line above, as the table of lines has them. The
place stands in the line, at its column behind the start of the line. -/
structure Text.InLine (text : List Char) (offset : Nat) (front line back : List Char)
    (above : Option (List Char)) : Prop where
  isLine : IsLine front line back
  isAbove : Above front above
  whole : text = front ++ line ++ back
  column : byteLength front + columnAt text offset = offset
  inside : offset < byteLength (front ++ line)
  entry : (lines text)[rowAt text offset]? = some (lineText line back)
  entryAbove :
    (if rowAt text offset = 0 then none else (lines text)[rowAt text offset - 1]?) = above

/-- A place at a character that is no line end stands in a line. -/
theorem Text.exists_inLine {text before after : List Char} {char : Char} {offset : Nat}
    (cut : splitAtByte? offset text = some (before, char :: after)) (inLine : char ≠ '\n') :
    ∃ front line back above, InLine text offset front line back above := by
  rcases splitAtByte?_eq_some_iff.mp cut with ⟨rfl, rfl⟩
  rcases exists_opensLine before with ⟨front, held, rfl, opens, heldFree⟩
  rcases exists_closed after with ⟨tail, back, rfl, tailFree, closed⟩
  rcases exists_above opens with ⟨above, isAbove⟩
  have whole : front ++ held ++ char :: (tail ++ back) = front ++ (held ++ char :: tail) ++ back := by
    simp
  have free : '\n' ∉ held ++ char :: tail := by
    rw [List.mem_append, List.mem_cons, not_or, not_or]
    exact ⟨heldFree, Ne.symm inLine, tailFree⟩
  have isLine : IsLine front (held ++ char :: tail) back := ⟨opens, free, closed⟩
  have rows : rowAt (front ++ held ++ char :: (tail ++ back)) (byteLength (front ++ held)) =
      row front := by
    rw [rowAt_append, row_append, row_eq_zero_iff.mpr heldFree, Nat.add_zero]
  refine ⟨front, held ++ char :: tail, back, above, isLine, isAbove, whole, ?_, ?_, ?_, ?_⟩
  · rw [columnAt_append opens heldFree, byteLength_append]
  · have positive := char.utf8Size_pos
    simp only [byteLength_append, byteLength_cons]
    omega
  · rw [rows, whole, getElem?_lines isLine (by simp)]
  · rw [rows, List.append_assoc, getElem?_lines_above isAbove]

/-- A reading position has the row and the column of its byte offset. At a place that is no
line end, the table of lines has an entry at this row, and it is the line that the place
stands in. A loop that starts in this row is suppressed exactly if this line or the line
above, if there is one, holds a marker. -/
theorem row_is_index_of_line {text before after : List Char} {char : Char} {offset : Nat}
    (cut : Text.splitAtByte? offset text = some (before, char :: after)) (inLine : char ≠ '\n') :
    Php.Cursor.advance before.length (.ofText text) =
      ⟨char :: after, offset, Text.rowAt text offset, Text.columnAt text offset⟩ ∧
    Text.rowAt text offset < Text.countLines text ∧
    ∃ front line back above, Text.InLine text offset front line back above ∧
      ∀ loop : Node, loop.row = Text.rowAt text offset →
        Suppression.isSuppressed (Text.lines text) loop =
          (Suppression.isMarked (Text.lineText line back) ||
            above.any Suppression.isMarked) := by
  rcases Text.exists_inLine cut inLine with ⟨front, line, back, above, placed⟩
  refine ⟨?_, ?_, front, line, back, above, placed, ?_⟩
  · rcases Text.splitAtByte?_eq_some_iff.mp cut with ⟨rfl, rfl⟩
    exact Php.Cursor.advance_ofText before (char :: after)
  · exact (List.getElem?_eq_some_iff.mp placed.entry).1
  · intro loop sameRow
    simp only [Suppression.isSuppressed, sameRow, placed.entry, placed.entryAbove,
      Option.any_some]

/-- A loop behind a comment with a carriage return in it, in a text whose last line is not
ended. -/
def mixedLines : List Char := "<?php\r\n/* é\r*/\r\nforeach ($a as $b) f();".toList

theorem row_is_index_of_line_mixedLines :
    Text.splitAtByte? 17 mixedLines =
      some ("<?php\r\n/* é\r*/\r\n".toList, 'f' :: "oreach ($a as $b) f();".toList) ∧
    'f' ≠ '\n' ∧ Text.rowAt mixedLines 17 = 2 ∧
    (Text.lines mixedLines)[1]? = some "/* é\r*/".toList ∧
    2 < Text.countLines mixedLines ∧
    ∃ front line back above, Text.InLine mixedLines 17 front line back above ∧
      ∀ loop : Node, loop.row = 2 →
        Suppression.isSuppressed (Text.lines mixedLines) loop =
          (Suppression.isMarked (Text.lineText line back) ||
            above.any Suppression.isMarked) := by
  have cut : Text.splitAtByte? 17 mixedLines =
      some ("<?php\r\n/* é\r*/\r\n".toList, 'f' :: "oreach ($a as $b) f();".toList) := by
    decide +kernel
  have inLine : 'f' ≠ '\n' := by decide
  have row : Text.rowAt mixedLines 17 = 2 := by decide +kernel
  have table : (Text.lines mixedLines)[1]? = some "/* é\r*/".toList := by decide +kernel
  rcases row_is_index_of_line cut inLine with ⟨-, counted, placed⟩
  rw [row] at counted placed
  exact ⟨cut, inLine, row, table, counted, placed⟩

end LoopLift
