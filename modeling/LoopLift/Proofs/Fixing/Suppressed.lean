import LoopLift.Proofs.Fixing.Passes
import LoopLift.Proofs.Loop.Suppression
import Mathlib.Logic.Relation

/-!
# Suppressed loops over several passes

A loop that is suppressed can lie inside a rewritten one. Its marker then goes where
its text goes: with a piece that is carried over, or nowhere when it stands in a
comment between the statements. So a loop stays suppressed as long as the text from
its marker to its start is taken along as a whole. A marker in the first line of the
loop itself goes along with the loop.
-/

namespace LoopLift

open Syntax

/-- No loop is reported at an offset of a source with a faithful tree. -/
def Silent (parse : Parser) (source : String) (offset : Nat) : Prop :=
  (parse source).source = source → (parse source).Faithful →
    ∀ problem ∈ Inspection.inspect (parse source), problem.start ≠ offset

/-- Where a guarding text stands, no loop at the guarded place is reported. -/
theorem StandsAt.silent {parse : Parser} {source : String} {span place rest : List Char}
    {offset : Nat} (stands : StandsAt source span offset) (placed : span = place ++ rest)
    (guards : Suppression.Guards span place) :
    Silent parse source (offset + Text.byteLength place) := by
  intro ownSource faithful problem reported atPlace
  rcases stands with ⟨before, after, split, rfl⟩
  rcases Inspection.mem_inspect_iff.mp reported with ⟨loop, member, -, unmarked, rfl⟩
  have cut : (parse source).source.toList = before ++ place ++ (rest ++ after) := by
    rw [ownSource, split, placed]
    simp
  have row := faithful.row_eq member cut (by rw [Text.byteLength_append]; exact atPlace.symm)
  have suppressed := @Suppression.Guards.isSuppressed _ _ guards before after loop row
  rw [← split, ← ownSource, unmarked] at suppressed
  cases suppressed

/-- A pass takes a text from a place in a source to a place in the next one. -/
def Step (parse : Parser) (span : List Char) (old new : String × Nat) : Prop :=
  ∃ options files analysis turn draft, Pass parse options files analysis turn draft new.1 ∧
    draft.source = old.1 ∧ Moves draft span old.2 new.2

theorem standsAt_of_steps {parse : Parser} {span : List Char} {first last : String × Nat}
    (steps : Relation.ReflTransGen (Step parse span) first last)
    (stands : StandsAt first.1 span first.2) : StandsAt last.1 span last.2 := by
  induction steps with
  | refl => exact stands
  | tail _ step _ =>
      rcases step with ⟨options, files, analysis, turn, draft, pass, -, moves⟩
      exact pass.standsAt_of_moves moves

/-- A loop starts in a piece that the replacement of a rewritten loop carries over, at a
place of the piece. -/
structure Held (parse : Parser) (draft : Draft) (outer inner piece : Node)
    (front place rest : List Char) : Prop where
  outerLoop : outer ∈ (parse draft.source).loops
  fixed : Problem.ofNode outer ∈ draft.plan.rewritten
  innerLoop : inner ∈ (parse draft.source).loops
  carries : Carries draft.source outer front piece
  pieceText : (piece.text draft.source).toList = place ++ rest
  starts : inner.start = piece.start + Text.byteLength place

/-- Suppression goes with the text of its marker. -/
structure SuppressionTravels (parse : Parser) : Prop where
  /-- The text of a pass is what the file holds after it. -/
  written : ∀ {options files analysis turn draft text},
    Pass parse options files analysis turn draft text →
    (turn.next parse options).files.readText draft.path = .ok text
  /-- A loop inside a rewritten one, in a piece that is carried over with a marker in
  the row of the loop or the row above, is not reported in the written file. -/
  samePiece : ∀ {options files analysis turn draft text},
    Pass parse options files analysis turn draft text →
    ∀ {outer inner piece front place rest}, Held parse draft outer inner piece front place rest →
    Suppression.Guards (place ++ rest) place →
    ∃ next, Moves draft (place ++ rest) piece.start next ∧ StandsAt text (place ++ rest) next ∧
      Silent parse text (next + Text.byteLength place)
  /-- A marker elsewhere in a replacement, or in the text that is kept behind it,
  suppresses what stands in its row or the row below: in the replacement, as the copy of
  a loop does behind the statement before it, or behind the replacement. -/
  otherPiece : ∀ {options files analysis turn draft text},
    Pass parse options files analysis turn draft text →
    ∀ outer ∈ (parse draft.source).loops, Problem.ofNode outer ∈ draft.plan.rewritten →
    ∀ through behind after, draft.source.toList = through ++ behind ++ after →
      Text.byteLength through = outer.stop →
      (∀ edit ∈ draft.plan.session.edits,
        edit.start < outer.stop ∨ Text.byteLength (through ++ behind) ≤ edit.start) →
      ∃ replacement next, replacementText? draft.source outer = some replacement ∧
        StandsAt text (replacement.toList ++ behind) next ∧
        ∀ place rest, replacement.toList ++ behind = place ++ rest →
          Suppression.Guards (place ++ rest) place →
          Silent parse text (next + Text.byteLength place)
  /-- A marker in the first line of a loop goes along with the loop, as far as rewritten
  loops around it hold it in pieces that are carried over. -/
  ownLine : ∀ {options files analysis turn draft text},
    Pass parse options files analysis turn draft text →
    ∀ loop ∈ (parse draft.source).loops, ∀ before span after,
      draft.source.toList = before ++ (span ++ after) → Text.byteLength before = loop.start →
      Text.byteLength (before ++ span) ≤ loop.stop → '\n' ∉ span →
      Suppression.Guards span [] →
      (∀ outer ∈ (parse draft.source).loops, Problem.ofNode outer ∈ draft.plan.rewritten →
        loop.Within outer → ∃ front piece, Carries draft.source outer front piece ∧
          loop.Within piece) →
      ∃ next, Moves draft span loop.start next ∧ StandsAt text span next ∧
        Silent parse text next
  /-- Over any number of passes that take a guarding text along, no loop at the guarded
  place is reported or rewritten. -/
  manyPasses : ∀ {place rest : List Char} {first last : String × Nat},
    Suppression.Guards (place ++ rest) place → StandsAt first.1 (place ++ rest) first.2 →
    Relation.ReflTransGen (Step parse (place ++ rest)) first last →
    StandsAt last.1 (place ++ rest) last.2 ∧
    Silent parse last.1 (last.2 + Text.byteLength place) ∧
    ∀ {options files analysis turn draft text},
      Pass parse options files analysis turn draft text → draft.source = last.1 →
      ∀ problem ∈ draft.plan.rewritten, problem.start ≠ last.2 + Text.byteLength place

theorem suppression_travels_with_marker (parse : Parser) : SuppressionTravels parse := by
  refine ⟨?_, ?_, ?_, ?_, ?_⟩
  · intro options files analysis turn draft text pass
    exact FixRun.Turn.readText_next pass.drafted pass.output
  · intro options files analysis turn draft text pass outer inner piece front place rest held guards
    rcases pass.exists_moves_of_carries held.outerLoop held.fixed held.carries
      (show (piece.text draft.source).toList = [] ++ (place ++ rest) ++ [] by
        simp [held.pieceText]) with ⟨next, moves⟩
    rw [Text.byteLength_nil, Nat.add_zero] at moves
    have stands := pass.standsAt_of_moves moves
    exact ⟨next, moves, stands, stands.silent rfl guards⟩
  · intro options files analysis turn draft text pass outer member fixed through behind after split
      stops apart
    rcases pass.exists_standsAt_replacement member fixed split stops apart with
      ⟨replacement, next, replaced, stands⟩
    refine ⟨replacement, next, replaced, stands, ?_⟩
    intro place rest placed guards
    rw [← placed] at guards
    exact stands.silent placed guards
  · intro options files analysis turn draft text pass loop member before span after split starts
      ends line guards held
    rcases pass.exists_moves_of_ownLine split line guards member starts ends held with
      ⟨next, moves⟩
    have stands := pass.standsAt_of_moves moves
    exact ⟨next, moves, stands, stands.silent (List.nil_append span).symm guards⟩
  · intro place rest first last guards standsFirst steps
    have stands := standsAt_of_steps steps standsFirst
    refine ⟨stands, stands.silent rfl guards, ?_⟩
    intro options files analysis turn draft text pass sameSource problem fixed
    rw [← sameSource] at stands
    exact stands.silent rfl guards pass.ownSource pass.faithful problem (pass.reported fixed)

/-! ## A marker that is lost and one that is kept -/

/-- A directory with one file. -/
def singleFile (source : String) : FileSystem :=
  { root := .directory [("a.php", .file source.toUTF8)] }

theorem singleFile_sameShape (left right : String) :
    (singleFile left).SameShape (singleFile right) := by
  refine ⟨rfl, ?_⟩
  intro location
  cases location with
  | nil => rfl
  | cons name rest =>
      simp only [Entry.kindAt, singleFile, Entry.at?_cons, Entry.child?, Entry.lookup_cons_eq]
      split
      · cases rest <;> rfl
      · rfl

theorem contain_singleFile (source : String) :
    (singleFile source).contain ⟨"a.php"⟩ (some ⟨"."⟩) = .ok ⟨"/a.php"⟩ := by
  rw [(singleFile_sameShape source "").contain]
  decide +kernel

theorem readText_singleFile (source : String) :
    (singleFile source).readText ⟨"/a.php"⟩ = .ok source := by
  apply FileSystem.readText_eq_ok_iff.mpr
  refine ⟨["a.php"], source.toUTF8, ?_, rfl, FileSystem.fromUTF8?_toUTF8 source⟩
  rw [(singleFile_sameShape source "").resolve]
  decide +kernel

/-- The run over a single file with what inspection finds in it. -/
def fixSingle (parse : Parser) (source : String) : FixRun :=
  FixRun.ofAnalysis parse ⟨true, ⟨"."⟩⟩ (singleFile source)
    (Analysis.ofSource parse ⟨"a.php"⟩ source)

/-- A source whose one problem is fixed, with the replacement read in full, and the text
that this gives. -/
structure FixedTo (parse : Parser) (source : String) (problem : Problem) (text : String) :
    Prop where
  inspected : Inspection.inspect (parse source) = [problem]
  faithful : (parse source).Faithful
  whole : ∀ loop ∈ (parse source).loops, Problem.ofNode loop ∈ Inspection.inspect (parse source) →
    ∀ replacement ∈ replacementText? source loop,
    ∀ statement ∈ (Statement.ofText parse replacement).toOption, statement.text = replacement
  rewritten : (FixPlan.ofProblems parse (parse source) [problem]).rewritten = [problem]
  applied : (FixPlan.ofProblems parse (parse source) [problem]).session.apply.toOption = some text
  parsable : (parse text).hasError = false

instance (parse : Parser) (source : String) (problem : Problem) (text : String) :
    Decidable (FixedTo parse source problem text) :=
  decidable_of_iff
    (Inspection.inspect (parse source) = [problem] ∧ (parse source).Faithful ∧
      (∀ loop ∈ (parse source).loops, Problem.ofNode loop ∈ Inspection.inspect (parse source) →
        ∀ replacement ∈ replacementText? source loop,
        ∀ statement ∈ (Statement.ofText parse replacement).toOption,
          statement.text = replacement) ∧
      (FixPlan.ofProblems parse (parse source) [problem]).rewritten = [problem] ∧
      (FixPlan.ofProblems parse (parse source) [problem]).session.apply.toOption = some text ∧
      (parse text).hasError = false)
    ⟨fun ⟨inspected, faithful, whole, rewritten, applied, parsable⟩ =>
        ⟨inspected, faithful, whole, rewritten, applied, parsable⟩,
      fun fixedTo => ⟨fixedTo.inspected, fixedTo.faithful, fixedTo.whole, fixedTo.rewritten,
        fixedTo.applied, fixedTo.parsable⟩⟩

namespace FixedTo

open FixRun (Turn turnsOf passed)

variable {parse : Parser} {source text : String} {problem : Problem}

/-- The one turn of the run. -/
def turn (parse : Parser) (source : String) (problem : Problem) : Turn where
  reached := FixRun.opened ⟨true, ⟨"."⟩⟩ (singleFile source)
    (Analysis.ofSource parse ⟨"a.php"⟩ source)
  entry := ⟨⟨"a.php"⟩, [problem]⟩

/-- The draft of the one turn. -/
def draft (parse : Parser) (source : String) (problem : Problem) : Draft where
  path := ⟨"/a.php"⟩
  source := source
  plan := FixPlan.ofProblems parse (parse source) [problem]

theorem ofProblems_eq (fixedTo : FixedTo parse source problem text) :
    FileProblems.ofProblems (Analysis.ofSource parse ⟨"a.php"⟩ source).problems =
      [⟨⟨"a.php"⟩, [problem]⟩] := by
  simp [Analysis.ofSource, Analysis.ofOutcomes, FileOutcome.ofSource, fixedTo.inspected,
    FileProblems.ofProblems, FileProblems.grouped]

theorem drafted : (turn parse source problem).draft? parse ⟨true, ⟨"."⟩⟩ =
    some (draft parse source problem) :=
  FixRun.Turn.draft?_eq_some_iff.mpr
    ⟨rfl, contain_singleFile source, readText_singleFile source, rfl⟩

theorem output (fixedTo : FixedTo parse source problem text) :
    (draft parse source problem).output? parse true = some text := by
  apply Draft.output?_eq_some_iff.mpr
  refine ⟨rfl, by simp [draft, fixedTo.rewritten], ?_⟩
  have applied := fixedTo.applied
  cases verdict : (FixPlan.ofProblems parse (parse source) [problem]).session.apply with
  | error error =>
      rw [verdict] at applied
      cases applied
  | ok edited =>
      rw [verdict] at applied
      cases applied
      rw [FixSession.apply] at verdict
      simp only [draft, FixSession.applyVerified, Edit.applyVerified, verdict, fixedTo.parsable,
        bind, Except.bind, Bool.and_false, Bool.false_eq_true, ↓reduceIte]
      rfl

/-- The run is a pass over the file. -/
theorem pass (fixedTo : FixedTo parse source problem text)
    (ownSource : (parse source).source = source) :
    Pass parse ⟨true, ⟨"."⟩⟩ (singleFile source) (Analysis.ofSource parse ⟨"a.php"⟩ source)
      (turn parse source problem) (draft parse source problem) text where
  member := by
    rw [turnsOf, fixedTo.ofProblems_eq]
    exact List.mem_cons_self
  drafted := drafted
  output := fixedTo.output
  inspected := by
    rw [draft, fixedTo.inspected]
    exact List.Perm.refl _
  ownSource := ownSource
  faithful := fixedTo.faithful
  whole := fixedTo.whole

/-- The file after the run. -/
theorem readText_fixSingle (fixedTo : FixedTo parse source problem text) :
    (fixSingle parse source).files.readText ⟨"/a.php"⟩ = .ok text := by
  have written := FixRun.Turn.readText_next (@drafted parse source problem) fixedTo.output
  rw [fixSingle, (FixRun.ofAnalysis_eq_passed _ _).1, passed, fixedTo.ofProblems_eq]
  exact written

end FixedTo

open FixPlan (loopAt)

/-- Two suppressed loops in a loop. The marker of the first one stands in a comment
between the statements, that of the second one in the loop itself. -/
def markedLoops : String :=
  "<?php foreach([]as$b)\x7b\n#collector-ignore\nforeach([]as$c)1;\n" ++
    "foreach([]as$c)'collector-ignore';\x7d"

/-- What a pass makes of `markedLoops`. -/
def markedLoopsFixed : String :=
  "<?php collect([])->each(function($b) use ($c) \x7bforeach([]as$c)1;\n" ++
    "foreach([]as$c)'collector-ignore';\x7d);"

set_option maxRecDepth 100000 in
/-- What is evaluated of the two texts, at once so that each is parsed once. -/
theorem markedLoops_fixedTo :
    FixedTo Php.parse markedLoops (loopAt 6 94 7) markedLoopsFixed ∧
    (∃ outer ∈ (Php.parse markedLoops).loops, Problem.ofNode outer = loopAt 6 94 7 ∧
      (∃ lost ∈ (Php.parse markedLoops).loops, lost.Within outer ∧
        lost.text markedLoops = "foreach([]as$c)1;" ∧
        Inspection.isOffered markedLoops lost = true ∧
        Suppression.isSuppressed (Text.lines markedLoops.toList) lost = true) ∧
      (∃ kept ∈ (Php.parse markedLoops).loops, kept.start = 59) ∧
      ∃ shape ∈ LoopShape.ofNode? markedLoops outer,
        (shape.statements outer).map (fun statement =>
            (statement.start, statement.text markedLoops)) =
          [(41, "foreach([]as$c)1;"), (59, "foreach([]as$c)'collector-ignore';")]) ∧
    (Php.parse markedLoopsFixed).Faithful ∧
    ∃ copy ∈ (Php.parse markedLoopsFixed).loops,
      copy.text markedLoopsFixed = "foreach([]as$c)1;" ∧
      Problem.ofNode copy ∈ Inspection.inspect (Php.parse markedLoopsFixed) := by
  decide +kernel

/-- The second loop of `markedLoops`. -/
def keptLoop : String := "foreach([]as$c)'collector-ignore';"

theorem guards_keptLoop : Suppression.Guards ([] ++ keptLoop.toList) [] := by
  refine ⟨"foreach([]as$c)'".toList, .inl (by decide), "collector-ignore".toList, "';".toList,
    by decide, .inl (by decide), by decide⟩

theorem suppression_travels_with_marker_markedLoops :
    Pass Php.parse ⟨true, ⟨"."⟩⟩ (singleFile markedLoops)
      (Analysis.ofSource Php.parse ⟨"a.php"⟩ markedLoops)
      (FixedTo.turn Php.parse markedLoops (loopAt 6 94 7))
      (FixedTo.draft Php.parse markedLoops (loopAt 6 94 7)) markedLoopsFixed ∧
    (∃ outer kept piece front,
      Held Php.parse (FixedTo.draft Php.parse markedLoops (loopAt 6 94 7)) outer kept piece front
        [] keptLoop.toList) ∧
    Suppression.Guards ([] ++ keptLoop.toList) [] ∧
    ∃ next, StandsAt markedLoopsFixed keptLoop.toList next ∧
      ∀ problem ∈ Inspection.inspect (Php.parse markedLoopsFixed), problem.start ≠ next := by
  rcases markedLoops_fixedTo with ⟨fixedTo, ⟨outer, outerLoop, outerProblem, -,
    ⟨kept, keptMember, keptStart⟩, shape, shaped, statements⟩, faithful, -⟩
  have pass := fixedTo.pass (Php.source_parse markedLoops)
  rcases List.map_eq_cons_iff.mp statements with ⟨first, rest, split, -, restMap⟩
  rcases List.map_eq_singleton_iff.mp restMap with ⟨piece, rfl, pieceIs⟩
  rw [Prod.mk.injEq] at pieceIs
  have held : Held Php.parse (FixedTo.draft Php.parse markedLoops (loopAt 6 94 7)) outer kept piece
      ((shape.opening markedLoops).toList ++
        [first].flatMap fun other => (other.text markedLoops).toList ++ ['\n'])
      [] keptLoop.toList := by
    refine ⟨outerLoop, ?_, keptMember, .statement shaped split, ?_, ?_⟩
    · rw [outerProblem, FixedTo.draft, fixedTo.rewritten]
      exact List.mem_cons_self
    · rw [FixedTo.draft, pieceIs.2]
      rfl
    · rw [keptStart, pieceIs.1]
      rfl
  rcases (suppression_travels_with_marker Php.parse).samePiece pass held guards_keptLoop with
    ⟨next, -, stands, silent⟩
  exact ⟨pass, ⟨outer, kept, piece, _, held⟩, guards_keptLoop, next, stands,
    silent (Php.source_parse markedLoopsFixed) faithful⟩

/-- A suppressed loop can be reported after a pass: a comment between the statements of
a rewritten loop is left out, and its marker with it. -/
theorem suppression_lost_with_comment :
    ∃ outer ∈ (Php.parse markedLoops).loops,
      Inspection.inspect (Php.parse markedLoops) = [Problem.ofNode outer] ∧
    ∃ inner ∈ (Php.parse markedLoops).loops, inner.Within outer ∧
      Inspection.isOffered markedLoops inner = true ∧
      Suppression.isSuppressed (Text.lines markedLoops.toList) inner = true ∧
    (fixSingle Php.parse markedLoops).files.readText ⟨"/a.php"⟩ = .ok markedLoopsFixed ∧
    ∃ copy ∈ (Php.parse markedLoopsFixed).loops,
      copy.text markedLoopsFixed = inner.text markedLoops ∧
      Problem.ofNode copy ∈ Inspection.inspect (Php.parse markedLoopsFixed) := by
  rcases markedLoops_fixedTo with ⟨fixedTo, ⟨outer, outerLoop, outerProblem,
    ⟨lost, lostLoop, within, lostText, offered, suppressed⟩, -⟩, -, copy, copyLoop, copyText,
    reported⟩
  refine ⟨outer, outerLoop, ?_, lost, lostLoop, within, offered, suppressed,
    fixedTo.readText_fixSingle, copy, copyLoop, copyText.trans lostText.symm, reported⟩
  rw [outerProblem]
  exact fixedTo.inspected

end LoopLift
