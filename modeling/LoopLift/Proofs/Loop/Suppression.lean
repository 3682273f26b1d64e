import LoopLift.Loop.Suppression
import Mathlib.Data.List.TakeWhile

/-!
# Markers and lines

A loop is suppressed exactly when a marker stands on its first line or on the line
above, with lines counted by the line ends before a place. So suppression is a local
matter: a text that holds a marker and the place of a loop suppresses the loop
wherever the whole of this text stands.
-/

namespace LoopLift

open Syntax

/-- Number of line ends in a text, which is the row of a place behind it. -/
def Text.row (text : List Char) : Nat := text.count '\n'

@[simp] theorem Text.row_append (left right : List Char) :
    row (left ++ right) = row left + row right :=
  List.count_append

theorem Text.row_eq_zero_iff {text : List Char} : row text = 0 ↔ '\n' ∉ text :=
  List.count_eq_zero

theorem Text.linesFrom_cons (line : List Char) (char : Char) (rest : List Char) :
    linesFrom line (char :: rest) =
      if char = '\n' then closeLine line :: linesFrom [] rest
      else linesFrom (char :: line) rest := by
  rw [linesFrom.eq_def]
  split
  · rename_i none
    cases none
  · rename_i newline
    cases newline
    rfl
  · rename_i other notNewline equal
    cases equal
    rw [if_neg]
    intro newline
    exact notNewline newline

namespace Suppression

/-! ## Markers -/

/-- The text of a marker, up to case folding. -/
def IsMarker (text : List Char) : Prop :=
  text.map fold = "collector-ignore".toList ∨
    ∃ name blanks subject, text = name ++ blanks ++ subject ∧
      name.map fold = "@noinspection".toList ∧ blanks ≠ [] ∧
      (∀ blank ∈ blanks, Text.isBlankChar blank = true) ∧
      subject.map fold = "foreachtocollection".toList

theorem afterWord?_eq_some_iff {word text rest : List Char} :
    afterWord? word text = some rest ↔ ∃ front, text = front ++ rest ∧ front.map fold = word := by
  induction word generalizing text with
  | nil => simp [afterWord?, eq_comm]
  | cons letter word ih =>
      cases text with
      | nil => simp [afterWord?]
      | cons char text =>
          rw [afterWord?]
          constructor
          · intro found
            split at found
            · rename_i same
              rcases ih.mp found with ⟨front, rfl, folded⟩
              exact ⟨char :: front, rfl, by rw [List.map_cons, folded, beq_iff_eq.mp same]⟩
            · cases found
          · rintro ⟨front, split, folded⟩
            cases front with
            | nil => cases folded
            | cons first front =>
                cases split
                cases folded
                rw [if_pos (BEq.rfl)]
                exact ih.mpr ⟨front, rfl, rfl⟩

theorem eq_of_toLower_eq {char : Char} (lower : char.toLower = 'f') : char = 'f' ∨ char = 'F' := by
  delta Char.toLower at lower
  split at lower
  · right
    have value : char.val + 32 = 70 + 32 := congrArg Char.val lower
    exact Char.ext ((UInt32.add_left_inj 32).mp value)
  · exact .inl lower

/-- No blank folds to the first letter of the inspection. -/
theorem isBlankChar_eq_false_of_fold {char : Char} (folded : fold char = 'f') :
    Text.isBlankChar char = false := by
  rw [fold] at folded
  split at folded
  · cases folded
  · split at folded
    · cases folded
    · rcases eq_of_toLower_eq folded with rfl | rfl
      · decide
      · decide

theorem startsNamed_iff {text : List Char} :
    startsNamed text = true ↔
      ∃ name blanks subject rest, text = name ++ blanks ++ subject ++ rest ∧
        name.map fold = "@noinspection".toList ∧ blanks ≠ [] ∧
        (∀ blank ∈ blanks, Text.isBlankChar blank = true) ∧
        subject.map fold = "foreachtocollection".toList := by
  rw [startsNamed]
  constructor
  · intro starts
    split at starts
    · cases starts
    · rename_i behind foundName
      rcases afterWord?_eq_some_iff.mp foundName with ⟨name, rfl, named⟩
      split at starts
      · rename_i blank behindBlank
        rw [Bool.and_eq_true, Option.isSome_iff_exists] at starts
        rcases starts with ⟨isBlank, rest, foundSubject⟩
        rcases afterWord?_eq_some_iff.mp foundSubject with ⟨subject, split, ofSubject⟩
        refine ⟨name, blank :: behindBlank.takeWhile Text.isBlankChar, subject, rest, ?_, named,
          by simp, ?_, ofSubject⟩
        · rw [List.append_assoc, ← split, List.append_assoc, List.cons_append,
            List.takeWhile_append_dropWhile]
        · rw [List.forall_mem_cons]
          exact ⟨isBlank, fun other member => List.mem_takeWhile_imp member⟩
      · cases starts
  · rintro ⟨name, blanks, subject, rest, rfl, named, nonempty, allBlank, ofSubject⟩
    have foundName : afterWord? "@noinspection".toList (name ++ blanks ++ subject ++ rest) =
        some (blanks ++ subject ++ rest) := afterWord?_eq_some_iff.mpr ⟨name, by simp, named⟩
    have foundSubject : afterWord? "foreachtocollection".toList (subject ++ rest) = some rest :=
      afterWord?_eq_some_iff.mpr ⟨subject, rfl, ofSubject⟩
    rcases List.exists_cons_of_ne_nil nonempty with ⟨blank, others, rfl⟩
    rcases List.forall_mem_cons.mp allBlank with ⟨isBlank, othersBlank⟩
    have skipped : (others ++ subject ++ rest).dropWhile Text.isBlankChar = subject ++ rest := by
      rw [List.append_assoc, List.dropWhile_append_of_pos othersBlank]
      cases subject with
      | nil => cases ofSubject
      | cons letter letters =>
          have notBlank : Text.isBlankChar letter = false :=
            isBlankChar_eq_false_of_fold (List.cons.inj ofSubject).1
          rw [List.cons_append, List.dropWhile_cons_of_neg (by simp [notBlank])]
    rw [foundName]
    simp only [List.cons_append, isBlank, Bool.true_and, skipped, foundSubject, Option.isSome_some]

theorem startsMarker_iff {text : List Char} :
    startsMarker text = true ↔ ∃ marker rest, text = marker ++ rest ∧ IsMarker marker := by
  rw [startsMarker, Bool.or_eq_true, startsNamed_iff, Option.isSome_iff_exists]
  simp only [afterWord?_eq_some_iff]
  constructor
  · rintro (⟨name, blanks, subject, rest, split, named⟩ | ⟨rest, marker, split, folded⟩)
    · exact ⟨_, rest, split, .inr ⟨name, blanks, subject, rfl, named⟩⟩
    · exact ⟨marker, rest, split, .inl folded⟩
  · rintro ⟨marker, rest, rfl, folded | ⟨name, blanks, subject, rfl, named⟩⟩
    · exact .inr ⟨rest, marker, rfl, folded⟩
    · exact .inl ⟨name, blanks, subject, rest, rfl, named⟩

/-- A marker ends with a letter. -/
theorem IsMarker.exists_last {marker : List Char} (isMarker : IsMarker marker) :
    ∃ front last, marker = front ++ [last] ∧ last ≠ '\r' := by
  have ending : ∀ {word letters : List Char} {letter : Char}, word.map fold = letters ++ [letter] →
      letter ≠ '\r' → ∃ front last, word = front ++ [last] ∧ last ≠ '\r' := by
    intro word letters letter folded notReturn
    rcases List.map_eq_append_iff.mp folded with ⟨front, final, rfl, -, foldedFinal⟩
    rcases List.map_eq_singleton_iff.mp foldedFinal with ⟨last, rfl, rfl⟩
    refine ⟨front, last, rfl, ?_⟩
    intro isReturn
    apply notReturn
    rw [isReturn]
    decide
  rcases isMarker with folded | ⟨name, blanks, subject, rfl, -, -, -, folded⟩
  · exact @ending _ "collector-ignor".toList 'e' folded (by decide)
  · rcases @ending _ "foreachtocollectio".toList 'n' folded (by decide) with
      ⟨front, last, rfl, notReturn⟩
    exact ⟨name ++ blanks ++ front, last, by simp, notReturn⟩

theorem IsMarker.ne_nil {marker : List Char} (isMarker : IsMarker marker) : marker ≠ [] := by
  rcases isMarker.exists_last with ⟨front, last, rfl, -⟩
  simp

/-- A line is marked when a marker stands anywhere in it. -/
theorem isMarked_iff {line : List Char} :
    isMarked line = true ↔ ∃ front marker rest, line = front ++ marker ++ rest ∧ IsMarker marker := by
  induction line with
  | nil =>
      simp only [isMarked, Bool.false_eq_true, false_iff]
      rintro ⟨front, marker, rest, split, isMarker⟩
      apply isMarker.ne_nil
      simp_all
  | cons char line ih =>
      rw [isMarked, Bool.or_eq_true, startsMarker_iff, ih]
      constructor
      · rintro (⟨marker, rest, split, isMarker⟩ | ⟨front, marker, rest, rfl, isMarker⟩)
        · exact ⟨[], marker, rest, split, isMarker⟩
        · exact ⟨char :: front, marker, rest, rfl, isMarker⟩
      · rintro ⟨front, marker, rest, split, isMarker⟩
        cases front with
        | nil => exact .inl ⟨marker, rest, split, isMarker⟩
        | cons first front =>
            cases split
            exact .inr ⟨front, marker, rest, rfl, isMarker⟩

/-- The carriage return of a line end is no part of a marker. -/
theorem isMarked_closeLine (line : List Char) :
    isMarked (Text.closeLine line) = isMarked line.reverse := by
  rw [Text.closeLine.eq_def]
  split
  · rename_i held
    rw [Bool.eq_iff_iff, isMarked_iff, isMarked_iff, List.reverse_cons]
    constructor
    · rintro ⟨front, marker, rest, split, isMarker⟩
      exact ⟨front, marker, rest ++ ['\r'], by rw [split]; simp, isMarker⟩
    · rintro ⟨front, marker, rest, split, isMarker⟩
      rcases List.eq_nil_or_concat rest with rfl | ⟨before, last, rfl⟩
      · rcases isMarker.exists_last with ⟨inner, last, rfl, notReturn⟩
        rw [List.append_nil, ← List.append_assoc] at split
        exact absurd (List.append_inj' split rfl).2 (by simpa using Ne.symm notReturn)
      · rw [List.concat_eq_append, ← List.append_assoc] at split
        exact ⟨front, marker, before, (List.append_inj' split rfl).1, isMarker⟩
  · rfl

/-! ## Rows -/

/-- Right behind a front of a text, a marker stands within one line. -/
def MarkedBehind (text front : List Char) : Prop :=
  ∃ marker rest, text = front ++ marker ++ rest ∧ IsMarker marker ∧ '\n' ∉ marker

/-- A text of one line has its markers in its first row. -/
theorem exists_markedBehind_iff {line : List Char} (free : '\n' ∉ line) {row : Nat} :
    (∃ front, Text.row front = row ∧ MarkedBehind line front) ↔
      row = 0 ∧ isMarked line = true := by
  rw [isMarked_iff]
  constructor
  · rintro ⟨front, rfl, marker, rest, rfl, isMarker, -⟩
    refine ⟨Text.row_eq_zero_iff.mpr ?_, front, marker, rest, rfl, isMarker⟩
    intro inFront
    exact free (by simp [inFront])
  · rintro ⟨rfl, front, marker, rest, rfl, isMarker⟩
    simp only [List.mem_append, not_or] at free
    exact ⟨front, Text.row_eq_zero_iff.mpr free.1.1, marker, rest, rfl, isMarker, free.1.2⟩

/-- In the first row of a text, markers stand before the line end. -/
theorem markedBehind_line_iff {line rest front : List Char} (free : '\n' ∉ line)
    (first : Text.row front = 0) :
    MarkedBehind (line ++ '\n' :: rest) front ↔ MarkedBehind line front := by
  constructor
  · rintro ⟨marker, behind, split, isMarker, within⟩
    rcases List.append_eq_append_iff.mp split with
      ⟨crossed, lineEq, restEq⟩ | ⟨trail, lineEq, -⟩
    · cases crossed with
      | nil => exact ⟨marker, [], by simp [lineEq], isMarker, within⟩
      | cons char crossed =>
          cases restEq
          have crosses : '\n' ∈ front ++ marker := by rw [lineEq]; simp
          rcases List.mem_append.mp crosses with inFront | inMarker
          · exact absurd inFront (Text.row_eq_zero_iff.mp first)
          · exact absurd inMarker within
    · exact ⟨marker, trail, lineEq, isMarker, within⟩
  · rintro ⟨marker, behind, rfl, isMarker, within⟩
    exact ⟨marker, behind ++ '\n' :: rest, by simp, isMarker, within⟩

/-- In later rows of a text, markers stand behind the line end. -/
theorem exists_markedBehind_succ_iff {line rest : List Char} (free : '\n' ∉ line) {row : Nat} :
    (∃ front, Text.row front = row + 1 ∧ MarkedBehind (line ++ '\n' :: rest) front) ↔
      ∃ front, Text.row front = row ∧ MarkedBehind rest front := by
  have lineRow : Text.row line = 0 := Text.row_eq_zero_iff.mpr free
  constructor
  · rintro ⟨front, later, marker, behind, split, isMarker, within⟩
    rw [List.append_assoc] at split
    rcases List.append_eq_append_iff.mp split with ⟨passed, frontEq, restEq⟩ | ⟨trail, lineEq, -⟩
    · cases passed with
      | nil =>
          rw [frontEq, List.append_nil, lineRow] at later
          cases later
      | cons char passed =>
          cases restEq
          refine ⟨passed, ?_, marker, behind, by simp, isMarker, within⟩
          rw [frontEq, Text.row_append, lineRow] at later
          simpa [Text.row] using later
    · rw [lineEq, Text.row_append] at lineRow
      omega
  · rintro ⟨front, rfl, marker, behind, rfl, isMarker, within⟩
    refine ⟨line ++ '\n' :: front, ?_, marker, behind, by simp, isMarker, within⟩
    rw [Text.row_append, lineRow]
    simp [Text.row]

/-- A row of a text is marked when a marker stands behind a front with so many line
ends. -/
theorem any_isMarked_linesFrom_iff {line text : List Char} {row : Nat} (free : '\n' ∉ line) :
    (Text.linesFrom line text)[row]?.any isMarked = true ↔
      ∃ front, Text.row front = row ∧ MarkedBehind (line.reverse ++ text) front := by
  have freeReverse : '\n' ∉ line.reverse := by simpa using free
  induction text generalizing line row with
  | nil =>
      rw [List.append_nil, exists_markedBehind_iff freeReverse, Text.linesFrom]
      cases line with
      | nil => simp [isMarked]
      | cons char line => cases row <;> simp
  | cons char text ih =>
      rw [Text.linesFrom_cons]
      split
      · rename_i newline
        subst newline
        cases row with
        | zero =>
            rw [List.getElem?_cons_zero, Option.any_some, isMarked_closeLine]
            constructor
            · intro marked
              rcases (exists_markedBehind_iff freeReverse).mpr ⟨rfl, marked⟩ with
                ⟨front, first, markedBehind⟩
              exact ⟨front, first, (markedBehind_line_iff freeReverse first).mpr markedBehind⟩
            · rintro ⟨front, first, markedBehind⟩
              rw [markedBehind_line_iff freeReverse first] at markedBehind
              exact ((exists_markedBehind_iff freeReverse).mp ⟨front, first, markedBehind⟩).2
        | succ row =>
            rw [List.getElem?_cons_succ, exists_markedBehind_succ_iff freeReverse]
            exact ih List.not_mem_nil List.not_mem_nil
      · rename_i notNewline
        have freeNext : '\n' ∉ char :: line := by
          rw [List.mem_cons, not_or]
          exact ⟨Ne.symm notNewline, free⟩
        have freeReversed : '\n' ∉ (char :: line).reverse := by
          rwa [List.mem_reverse]
        have later := @ih (char :: line) row freeNext freeReversed
        rwa [List.reverse_cons, List.append_assoc] at later

/-- A loop is suppressed exactly when a marker stands in its row or in the row
above. -/
theorem isSuppressed_iff {text : List Char} {loop : Node} :
    isSuppressed (Text.lines text) loop = true ↔
      ∃ front, (Text.row front = loop.row ∨ Text.row front + 1 = loop.row) ∧
        MarkedBehind text front := by
  have marked : ∀ row, (Text.lines text)[row]?.any isMarked = true ↔
      ∃ front, Text.row front = row ∧ MarkedBehind text front := by
    intro row
    exact any_isMarked_linesFrom_iff List.not_mem_nil
  simp only [isSuppressed, Bool.or_eq_true, marked, or_and_right, exists_or]
  refine or_congr Iff.rfl ?_
  cases rowEq : loop.row with
  | zero => simp
  | succ row => simp [marked]

/-! ## Guarding texts -/

/-- A text guards a place in it: within the text, a marker stands in the row of the
place or in the row above. -/
def Guards (span place : List Char) : Prop :=
  ∃ front, (Text.row front = Text.row place ∨ Text.row front + 1 = Text.row place) ∧
    MarkedBehind span front

/-- Wherever a guarding text stands as a whole, a loop at the guarded place is
suppressed. -/
theorem Guards.isSuppressed {span place : List Char} (guards : Guards span place)
    {before after : List Char} {loop : Node} (row : loop.row = Text.row (before ++ place)) :
    isSuppressed (Text.lines (before ++ span ++ after)) loop = true := by
  rcases guards with ⟨front, rows, marker, rest, rfl, isMarker, within⟩
  rw [isSuppressed_iff, row]
  refine ⟨before ++ front, ?_, marker, rest ++ after, by simp, isMarker, within⟩
  simp only [Text.row_append]
  omega

end Suppression

end LoopLift
