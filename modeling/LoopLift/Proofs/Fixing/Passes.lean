import LoopLift.Proofs.Fixing.Accounting
import LoopLift.Proofs.Loop.Replacement
import LoopLift.Proofs.Loop.Suppression

/-!
# Passes over a file

A pass inspects a file and rewrites what it finds. The text of the file then goes to
other places: what lies outside the rewritten loops is kept, and inside of them the
replacement carries over the iterated expression and each statement of the body as
they are. All else of a rewritten loop is lost, in particular the comments between its
statements.
-/

namespace LoopLift

open Syntax

/-! ## Trees of a parser -/

/-- A tree as far as its loops matter: ranges are nested and denote pieces of the
source, loops have ranges of their own that are not empty, and the row of a loop
counts the line ends before it. -/
structure Syntax.Tree.Faithful (tree : Tree) : Prop where
  formed : tree.WellFormed
  nonempty : ∀ loop ∈ tree.loops, loop.start < loop.stop
  distinct : tree.loops.Pairwise fun left right =>
    (left.start, left.stop) ≠ (right.start, right.stop)
  rows : ∀ loop ∈ tree.loops,
    (Text.splitAtByte? loop.start tree.source.toList).map (fun cut => Text.row cut.1) =
      some loop.row

instance (tree : Tree) : Decidable tree.Faithful :=
  decidable_of_iff
    (tree.WellFormed ∧ (∀ loop ∈ tree.loops, loop.start < loop.stop) ∧
      (tree.loops.Pairwise fun left right =>
        (left.start, left.stop) ≠ (right.start, right.stop)) ∧
      ∀ loop ∈ tree.loops,
        (Text.splitAtByte? loop.start tree.source.toList).map (fun cut => Text.row cut.1) =
          some loop.row)
    ⟨fun ⟨formed, nonempty, distinct, rows⟩ => ⟨formed, nonempty, distinct, rows⟩,
      fun faithful => ⟨faithful.formed, faithful.nonempty, faithful.distinct, faithful.rows⟩⟩

namespace Syntax.Tree.Faithful

variable {tree : Tree}

theorem row_eq (faithful : tree.Faithful) {loop : Node} (member : loop ∈ tree.loops)
    {before after : List Char} (split : tree.source.toList = before ++ after)
    (starts : Text.byteLength before = loop.start) : loop.row = Text.row before := by
  have cut : Text.splitAtByte? loop.start tree.source.toList = some (before, after) :=
    Text.splitAtByte?_eq_some_iff.mpr ⟨split, starts⟩
  have row := faithful.rows loop member
  rw [cut] at row
  exact (Option.some.inj row).symm

/-- The problem of a loop denotes the loop. -/
theorem element?_ofNode (faithful : tree.Faithful) {loop : Node} (member : loop ∈ tree.loops) :
    FixSession.element? { tree } (Problem.ofNode loop) = some loop := by
  apply FixSession.element?_ofNode faithful.formed.nested (Tree.mem_loops_iff.mp member).1
    (faithful.nonempty loop member)
  intro other
  exact Tree.eq_loop_of_range_eq faithful.distinct member

end Syntax.Tree.Faithful

/-! ## Edits and the loops they come from -/

/-- An edit puts the replacement of the loop that a problem denotes in its place. -/
def Renders (parse : Parser) (tree : Tree) (problem : Problem) (edit : Edit) : Prop :=
  ∃ node text statement, FixSession.element? { tree } problem = some node ∧
    replacementText? tree.source node = some text ∧
    Statement.ofText parse text = .ok statement ∧ edit = FixSession.loopEdit node statement

/-- A plan over a tree whose edits are those of its fixed problems. -/
structure FixPlan.Traced (parse : Parser) (tree : Tree) (plan : FixPlan) : Prop where
  sameTree : plan.session.tree = tree
  edit : ∀ problem ∈ plan.rewritten, ∃ edit ∈ plan.session.edits, Renders parse tree problem edit
  problem : ∀ edit ∈ plan.session.edits, ∃ problem ∈ plan.rewritten,
    Renders parse tree problem edit

namespace FixPlan.Traced

variable {parse : Parser} {tree : Tree}

theorem move {plan next : FixPlan} {problem : Problem} (traced : plan.Traced parse tree)
    (taken : PlanMove parse plan problem next) : next.Traced parse tree := by
  cases taken with
  | nested => exact ⟨traced.sameTree, traced.edit, traced.problem⟩
  | failed => exact ⟨traced.sameTree, traced.edit, traced.problem⟩
  | declined => exact ⟨traced.sameTree, traced.edit, traced.problem⟩
  | @rewritten node text statement outside found replaced built =>
      rw [traced.sameTree] at replaced
      have renders : Renders parse tree problem (FixSession.loopEdit node statement) := by
        refine ⟨node, text, statement, ?_, replaced, built, rfl⟩
        rw [← traced.sameTree]
        exact found
      refine ⟨traced.sameTree, ?_, ?_⟩
      · intro other member
        rcases List.mem_append.mp member with earlier | last
        · rcases traced.edit other earlier with ⟨edit, recorded, ofOther⟩
          exact ⟨edit, List.mem_append_left _ recorded, ofOther⟩
        · rw [List.mem_singleton.mp last]
          exact ⟨_, List.mem_append_right _ List.mem_cons_self, renders⟩
      · intro edit member
        rcases List.mem_append.mp member with earlier | last
        · rcases traced.problem edit earlier with ⟨other, fixed, ofEdit⟩
          exact ⟨other, List.mem_append_left _ fixed, ofEdit⟩
        · rw [List.mem_singleton.mp last]
          exact ⟨problem, List.mem_append_right _ List.mem_cons_self, renders⟩

theorem foldl {plan : FixPlan} (traced : plan.Traced parse tree) (problems : List Problem) :
    (problems.foldl (take parse) plan).Traced parse tree := by
  induction problems generalizing plan with
  | nil => exact traced
  | cons problem rest ih => exact ih (traced.move (plan.move_take parse problem))

theorem ofProblems (parse : Parser) (tree : Tree) (problems : List Problem) :
    (FixPlan.ofProblems parse tree problems).Traced parse tree := by
  have empty : FixPlan.Traced parse tree { session := { tree } } := ⟨rfl, by simp, by simp⟩
  exact empty.foldl problems

end FixPlan.Traced

/-! ## Passes -/

open FixRun (Turn turnsOf)

/-- A pass over a file: a turn of a run that fixes what inspection finds in the file it
reads, and writes a text. Replacements of reported loops are read as statements in
full. -/
structure Pass (parse : Parser) (options : FixOptions) (files : FileSystem) (analysis : Analysis)
    (turn : Turn) (draft : Draft) (text : String) : Prop where
  member : turn ∈ turnsOf parse options files analysis
  drafted : turn.draft? parse options = some draft
  output : draft.output? parse options.apply = some text
  inspected : turn.entry.problems.Perm (Inspection.inspect (parse draft.source))
  ownSource : (parse draft.source).source = draft.source
  faithful : (parse draft.source).Faithful
  whole : ∀ loop ∈ (parse draft.source).loops,
    Problem.ofNode loop ∈ Inspection.inspect (parse draft.source) →
    ∀ replacement ∈ replacementText? draft.source loop,
    ∀ statement ∈ (Statement.ofText parse replacement).toOption, statement.text = replacement

namespace Pass

variable {parse : Parser} {options : FixOptions} {files : FileSystem} {analysis : Analysis}
  {turn : Turn} {draft : Draft} {text : String}

theorem planned (pass : Pass parse options files analysis turn draft text) :
    draft.plan = FixPlan.ofProblems parse (parse draft.source) turn.entry.problems :=
  (Turn.draft?_eq_some_iff.mp pass.drafted).2.2.2

theorem selected (pass : Pass parse options files analysis turn draft text) :
    draft.plan.Selected (parse draft.source) := by
  have sorted := FileProblems.sorted_of_mem_ofProblems
    (FixRun.mem_ofProblems_of_mem_turnsOf pass.member)
  have found : (Inspection.inspect (parse draft.source)).Pairwise fun left right =>
      left.range ≠ right.range := by
    rw [Inspection.inspect, List.pairwise_map]
    exact pass.faithful.distinct.filter _
  rw [pass.planned]
  exact FixPlan.Selected.ofProblems parse pass.faithful.formed sorted
    ((pass.inspected.pairwise_iff Ne.symm).mpr found)

/-- The written text is one pass over the source. -/
theorem woven (pass : Pass parse options files analysis turn draft text) :
    Edit.weave? draft.source.toList 0 draft.plan.session.edits = some text.toList := by
  rcases Draft.output?_eq_some_iff.mp pass.output with ⟨-, -, verified⟩
  rcases pass.selected.verdict pass.faithful.formed parse with ⟨edited, woven, verdict⟩
  rw [pass.ownSource] at woven
  rcases verdict with accepted | refused
  · cases verified.symm.trans accepted
    exact woven
  · cases verified.symm.trans refused

theorem reported (pass : Pass parse options files analysis turn draft text) {problem : Problem}
    (fixed : problem ∈ draft.plan.rewritten) :
    problem ∈ Inspection.inspect (parse draft.source) := by
  have part := FixPlan.rewritten_sublist parse (parse draft.source) turn.entry.problems
  rw [← pass.planned] at part
  exact pass.inspected.subset (part.subset fixed)

/-- A fixed problem of a loop has an edit with the whole replacement of the loop. -/
theorem exists_edit (pass : Pass parse options files analysis turn draft text) {loop : Node}
    (member : loop ∈ (parse draft.source).loops)
    (fixed : Problem.ofNode loop ∈ draft.plan.rewritten) :
    ∃ statement : Statement, replacementText? draft.source loop = some statement.text ∧
      FixSession.loopEdit loop statement ∈ draft.plan.session.edits := by
  have traced := FixPlan.Traced.ofProblems parse (parse draft.source) turn.entry.problems
  rw [← pass.planned] at traced
  rcases traced.edit _ fixed with ⟨edit, recorded, node, replacement, statement, found, replaced,
    built, rfl⟩
  cases (pass.faithful.element?_ofNode member).symm.trans found
  rw [pass.ownSource] at replaced
  refine ⟨statement, ?_, recorded⟩
  rw [pass.whole loop member (pass.reported fixed) replacement replaced statement (by rw [built]; rfl)]
  exact replaced

/-- An edit is that of a loop that is fixed and not suppressed. -/
theorem exists_loop (pass : Pass parse options files analysis turn draft text) {edit : Edit}
    (recorded : edit ∈ draft.plan.session.edits) :
    ∃ loop ∈ (parse draft.source).loops, ∃ statement : Statement,
      edit = FixSession.loopEdit loop statement ∧
      Problem.ofNode loop ∈ draft.plan.rewritten ∧
      Suppression.isSuppressed (Text.lines draft.source.toList) loop = false := by
  have traced := FixPlan.Traced.ofProblems parse (parse draft.source) turn.entry.problems
  rw [← pass.planned] at traced
  rcases traced.problem edit recorded with ⟨problem, fixed, node, replacement, statement, found,
    -, -, rfl⟩
  rcases Inspection.mem_inspect_iff.mp (pass.reported fixed) with
    ⟨loop, member, -, unmarked, rfl⟩
  have denoted := pass.faithful.element?_ofNode member
  rw [found] at denoted
  cases denoted
  rw [pass.ownSource] at unmarked
  exact ⟨node, member, statement, rfl, fixed, unmarked⟩

/-- At a cut that no edit crosses, the written text falls into what becomes of the
text before the cut and the pass from there on. -/
theorem cut (pass : Pass parse options files analysis turn draft text) {before after : List Char}
    {earlier later : List Edit} (stands : draft.source.toList = before ++ after)
    (edits : draft.plan.session.edits = earlier ++ later)
    (behind : ∀ edit ∈ earlier, edit.stop ≤ Text.byteLength before)
    (ahead : ∀ edit ∈ later, Text.byteLength before ≤ edit.start) :
    ∃ placed rest, text.toList = placed ++ rest ∧ Edit.weave? before 0 earlier = some placed ∧
      Edit.weave? draft.source.toList (Text.byteLength before) later = some rest := by
  have woven := pass.woven
  rw [edits, stands] at woven
  rw [stands]
  apply Edit.exists_weave?_of_cut woven (Nat.zero_le _) _ ahead
  intro edit member
  have fits := pass.selected.fits_of_mem_edits pass.faithful.formed
    (edits ▸ List.mem_append_left later member)
  exact ⟨fits.ordered, behind edit member⟩

end Pass

/-! ## Where a text goes -/

/-- Separated edits of which none reaches into a range fall into those before it and
those behind it. -/
theorem Edit.exists_split {edits : List Edit} {first last : Nat}
    (separated : edits.Pairwise fun left right =>
      left.start < right.start ∧ left.stop ≤ right.start)
    (apart : ∀ edit ∈ edits, edit.stop ≤ first ∨ last ≤ edit.start) :
    ∃ earlier later, edits = earlier ++ later ∧ (∀ edit ∈ earlier, edit.stop ≤ first) ∧
      ∀ edit ∈ later, last ≤ edit.start := by
  induction edits with
  | nil => exact ⟨[], [], rfl, by simp, by simp⟩
  | cons edit rest ih =>
      rcases List.pairwise_cons.mp separated with ⟨before, separatedRest⟩
      rcases List.forall_mem_cons.mp apart with ⟨here, apartRest⟩
      rcases here with isBefore | isBehind
      · rcases ih separatedRest apartRest with ⟨earlier, later, rfl, front, back⟩
        exact ⟨edit :: earlier, later, rfl, List.forall_mem_cons.mpr ⟨isBefore, front⟩, back⟩
      · refine ⟨[], edit :: rest, rfl, by simp, List.forall_mem_cons.mpr ⟨isBehind, ?_⟩⟩
        intro other member
        have := (before other member).1
        omega

/-- What no edit reaches into is kept as it is. -/
theorem Edit.exists_weave?_of_apart {before span after : List Char} {edits : List Edit}
    {text : List Char}
    (woven : weave? (before ++ span ++ after) (Text.byteLength before) edits = some text)
    (ahead : ∀ edit ∈ edits, Text.byteLength (before ++ span) ≤ edit.start) :
    ∃ rest, text = span ++ rest := by
  rw [← List.nil_append edits] at woven
  rcases exists_weave?_of_cut woven (by simp) (by simp) ahead with ⟨kept, rest, rfl, ownText, -⟩
  have ownSlice : Text.slice? (before ++ span) (Text.byteLength before)
      (Text.byteLength (before ++ span)) = some span :=
    Text.slice?_eq_some_iff.mpr ⟨before, [], by simp, rfl, (Text.byteLength_append _ _).symm⟩
  cases ownSlice.symm.trans ownText
  exact ⟨rest, rfl⟩

/-- A text stands in a source at a byte offset. -/
def StandsAt (source : String) (span : List Char) (offset : Nat) : Prop :=
  ∃ before after, source.toList = before ++ span ++ after ∧ Text.byteLength before = offset

/-- Where a text in the source of a draft goes, from offset to offset. Outside of the
edits it goes behind what the text before it becomes. In a piece that the replacement
of a loop carries over, it goes with this piece. -/
inductive Moves (draft : Draft) (span : List Char) : Nat → Nat → Prop where
  | kept {before after placed : List Char} {earlier later : List Edit}
      (stands : draft.source.toList = before ++ (span ++ after))
      (edits : draft.plan.session.edits = earlier ++ later)
      (behind : ∀ edit ∈ earlier, edit.stop ≤ Text.byteLength before)
      (ahead : ∀ edit ∈ later, Text.byteLength (before ++ span) ≤ edit.start)
      (becomes : Edit.weave? before 0 earlier = some placed) :
      Moves draft span (Text.byteLength before) (Text.byteLength placed)
  | carried {before after placed front lead trail : List Char} {earlier later : List Edit}
      {loop piece : Node} {statement : Statement}
      (stands : draft.source.toList = before ++ after)
      (starts : Text.byteLength before = loop.start)
      (edits : draft.plan.session.edits =
        earlier ++ FixSession.loopEdit loop statement :: later)
      (replaced : replacementText? draft.source loop = some statement.text)
      (carries : Carries draft.source loop front piece)
      (held : (piece.text draft.source).toList = lead ++ span ++ trail)
      (becomes : Edit.weave? before 0 earlier = some placed) :
      Moves draft span (piece.start + Text.byteLength lead)
        (Text.byteLength (placed ++ front ++ lead))

namespace Pass

variable {parse : Parser} {options : FixOptions} {files : FileSystem} {analysis : Analysis}
  {turn : Turn} {draft : Draft} {text : String} {span : List Char}

/-- At the edit of a loop, the written text has the whole replacement behind what
becomes of the text before the loop, and the pass goes on behind the loop. -/
theorem exists_replacement (pass : Pass parse options files analysis turn draft text)
    {before after : List Char} {earlier later : List Edit} {loop : Node} {statement : Statement}
    (stands : draft.source.toList = before ++ after)
    (starts : Text.byteLength before = loop.start)
    (edits : draft.plan.session.edits =
      earlier ++ FixSession.loopEdit loop statement :: later) :
    ∃ placed rest, Edit.weave? before 0 earlier = some placed ∧
      Edit.weave? draft.source.toList loop.stop later = some rest ∧
      text.toList = placed ++ statement.text.toList ++ rest := by
  have separated := pass.selected.pairwise_edits
  rw [edits] at separated
  rcases List.pairwise_append.mp separated with ⟨-, separatedLater, beforeEdit⟩
  rcases List.pairwise_cons.mp separatedLater with ⟨behindEdit, -⟩
  rcases pass.cut stands edits
    (by
      intro edit member
      rw [starts]
      exact (beforeEdit edit member _ List.mem_cons_self).2)
    (by
      intro edit member
      rw [starts]
      rcases List.mem_cons.mp member with rfl | isLater
      · exact Nat.le_refl _
      · exact Nat.le_of_lt (behindEdit edit isLater).1) with
    ⟨placed, rest, textEq, becomes, onward⟩
  simp only [Edit.weave?, Option.bind_eq_bind, Option.bind_eq_some_iff] at onward
  rcases onward with ⟨kept, keptEq, others, othersEq, assembled⟩
  cases assembled
  rcases Text.slice?_eq_some_iff.mp keptEq with ⟨-, -, -, -, nothing⟩
  have empty : kept = [] := by
    apply Text.eq_nil_of_byteLength_eq_zero
    simp only [FixSession.loopEdit] at nothing
    omega
  refine ⟨placed, others, becomes, othersEq, ?_⟩
  rw [textEq, empty]
  simp [FixSession.loopEdit]

/-- A text stands where it goes. -/
theorem standsAt_of_moves (pass : Pass parse options files analysis turn draft text)
    {offset next : Nat} (moves : Moves draft span offset next) : StandsAt text span next := by
  cases moves with
  | @kept before after placed earlier later stands edits behind ahead becomes =>
      have aheadHere : ∀ edit ∈ later, Text.byteLength before ≤ edit.start := by
        intro edit isLater
        exact Nat.le_trans (by simp) (ahead edit isLater)
      rcases pass.cut stands edits behind aheadHere with
        ⟨same, rest, textEq, becomesSame, onward⟩
      cases becomes.symm.trans becomesSame
      rw [stands, ← List.append_assoc] at onward
      rcases Edit.exists_weave?_of_apart onward ahead with ⟨others, rfl⟩
      exact ⟨placed, others, by rw [textEq, List.append_assoc], rfl⟩
  | @carried before after placed front lead trail earlier later loop piece statement stands starts
      edits replaced carries held becomes =>
      rcases pass.exists_replacement stands starts edits with ⟨same, rest, becomesSame, -, textEq⟩
      cases becomes.symm.trans becomesSame
      rcases carries.exists_back replaced with ⟨back, replacementEq⟩
      refine ⟨placed ++ front ++ lead, trail ++ back ++ rest, ?_, rfl⟩
      rw [textEq, replacementEq, held]
      simp

/-- The replacement of a fixed loop stands in the written text, with what follows the
loop up to the next edit. -/
theorem exists_standsAt_replacement (pass : Pass parse options files analysis turn draft text)
    {loop : Node} (member : loop ∈ (parse draft.source).loops)
    (fixed : Problem.ofNode loop ∈ draft.plan.rewritten) {through behind after : List Char}
    (stands : draft.source.toList = through ++ behind ++ after)
    (stops : Text.byteLength through = loop.stop)
    (apart : ∀ edit ∈ draft.plan.session.edits,
      edit.start < loop.stop ∨ Text.byteLength (through ++ behind) ≤ edit.start) :
    ∃ replacement next, replacementText? draft.source loop = some replacement ∧
      StandsAt text (replacement.toList ++ behind) next := by
  rcases pass.exists_edit member fixed with ⟨statement, replaced, recorded⟩
  rcases List.append_of_mem recorded with ⟨earlier, later, edits⟩
  have boundary := (pass.faithful.formed.boundaries loop (Tree.mem_loops_iff.mp member).1).1
  rw [pass.ownSource] at boundary
  rcases Text.isBoundary_iff.mp boundary with ⟨before, rest, split, starts⟩
  rcases pass.exists_replacement split starts edits with ⟨placed, others, -, onward, textEq⟩
  have ahead : ∀ edit ∈ later, Text.byteLength (through ++ behind) ≤ edit.start := by
    intro edit isLater
    have separated := pass.selected.pairwise_edits
    rw [edits] at separated
    have isBehind := (List.pairwise_cons.mp (List.pairwise_append.mp separated).2.1).1 edit isLater
    have := apart edit (edits ▸ by simp [isLater])
    simp only [FixSession.loopEdit] at isBehind
    omega
  rw [stands, ← stops] at onward
  rcases Edit.exists_weave?_of_apart onward ahead with ⟨others, rfl⟩
  refine ⟨statement.text, _, replaced, placed, others, ?_, rfl⟩
  rw [textEq]
  simp

/-- What stands in a carried piece goes somewhere. -/
theorem exists_moves_of_carries (pass : Pass parse options files analysis turn draft text)
    {loop piece : Node} (member : loop ∈ (parse draft.source).loops)
    (fixed : Problem.ofNode loop ∈ draft.plan.rewritten) {front lead trail : List Char}
    (carries : Carries draft.source loop front piece)
    (held : (piece.text draft.source).toList = lead ++ span ++ trail) :
    ∃ next, Moves draft span (piece.start + Text.byteLength lead) next := by
  rcases pass.exists_edit member fixed with ⟨statement, replaced, recorded⟩
  rcases List.append_of_mem recorded with ⟨earlier, later, edits⟩
  have boundary := (pass.faithful.formed.boundaries loop (Tree.mem_loops_iff.mp member).1).1
  rw [pass.ownSource] at boundary
  rcases Text.isBoundary_iff.mp boundary with ⟨before, after, stands, starts⟩
  rcases pass.exists_replacement stands starts edits with ⟨placed, rest, becomes, -, -⟩
  exact ⟨_, .carried stands starts edits replaced carries held becomes⟩

/-- What no edit reaches into goes somewhere. -/
theorem exists_moves_of_apart (pass : Pass parse options files analysis turn draft text)
    {before after : List Char} (stands : draft.source.toList = before ++ (span ++ after))
    (apart : ∀ edit ∈ draft.plan.session.edits,
      edit.stop ≤ Text.byteLength before ∨ Text.byteLength (before ++ span) ≤ edit.start) :
    ∃ next, Moves draft span (Text.byteLength before) next := by
  rcases Edit.exists_split pass.selected.pairwise_edits apart with
    ⟨earlier, later, edits, behind, ahead⟩
  have aheadHere : ∀ edit ∈ later, Text.byteLength before ≤ edit.start := by
    intro edit isLater
    exact Nat.le_trans (by simp) (ahead edit isLater)
  rcases pass.cut stands edits behind aheadHere with ⟨placed, rest, -, becomes, -⟩
  exact ⟨_, .kept stands edits behind ahead becomes⟩

/-- No rewritten loop starts in the guarded line of a text. -/
theorem not_starts_in (pass : Pass parse options files analysis turn draft text)
    {before after : List Char} (stands : draft.source.toList = before ++ (span ++ after))
    (line : '\n' ∉ span) (guards : Suppression.Guards span []) {outer : Node}
    (member : outer ∈ (parse draft.source).loops)
    (unmarked : Suppression.isSuppressed (Text.lines draft.source.toList) outer = false) :
    outer.start < Text.byteLength before ∨ Text.byteLength (before ++ span) ≤ outer.start := by
  by_contra inSpan
  rw [not_or, Nat.not_lt, Nat.not_le] at inSpan
  have boundary := (pass.faithful.formed.boundaries outer (Tree.mem_loops_iff.mp member).1).1
  rw [pass.ownSource] at boundary
  rcases Text.isBoundary_iff.mp boundary with ⟨front, rest, split, starts⟩
  rcases Text.exists_middle_of_byteLength_le (stands.symm.trans split) (by omega) with
    ⟨place, rfl, onward⟩
  rcases Text.exists_middle_of_byteLength_le onward.symm
    (by simp only [Text.byteLength_append] at starts inSpan; omega) with ⟨remains, rfl, -⟩
  -- The loop is in the row of the text, which is marked.
  have sameRow : Text.row place = 0 := by
    rw [Text.row_eq_zero_iff]
    intro inPlace
    exact line (List.mem_append_left _ inPlace)
  have guardsPlace : Suppression.Guards (place ++ remains) place := by
    rcases guards with ⟨marked, rows, markedBehind⟩
    refine ⟨marked, ?_, markedBehind⟩
    rw [sameRow]
    exact rows
  have row := pass.faithful.row_eq member (pass.ownSource.symm ▸ split) starts
  have suppressed := @Suppression.Guards.isSuppressed _ _ guardsPlace before after outer row
  rw [List.append_assoc, ← stands, unmarked] at suppressed
  cases suppressed

/-- A text in the range of a node stands in the text of the node. -/
theorem exists_text_eq (pass : Pass parse options files analysis turn draft text)
    {before after : List Char} (stands : draft.source.toList = before ++ (span ++ after))
    {piece : Node} (member : piece ∈ (parse draft.source).root.preorder)
    (starts : piece.start ≤ Text.byteLength before)
    (stops : Text.byteLength (before ++ span) ≤ piece.stop) :
    ∃ lead trail, (piece.text draft.source).toList = lead ++ span ++ trail ∧
      piece.start + Text.byteLength lead = Text.byteLength before := by
  have boundaries := pass.faithful.formed.boundaries piece member
  rw [pass.ownSource] at boundaries
  rcases Text.isBoundary_iff.mp boundaries.1 with ⟨toStart, fromStart, startCut, startEq⟩
  rcases Text.isBoundary_iff.mp boundaries.2 with ⟨toStop, fromStop, stopCut, stopEq⟩
  rcases Text.exists_middle_of_byteLength_le (startCut.symm.trans stands) (by omega) with
    ⟨lead, rfl, -⟩
  rw [← List.append_assoc] at stands
  rcases Text.exists_middle_of_byteLength_le (stands.symm.trans stopCut) (by omega) with
    ⟨trail, rfl, -⟩
  refine ⟨lead, trail, ?_, by rw [Text.byteLength_append, startEq]⟩
  have sliced : Text.slice? draft.source.toList piece.start piece.stop =
      some (lead ++ span ++ trail) := by
    apply Text.slice?_eq_some_iff.mpr
    refine ⟨toStart, fromStop, by rw [stopCut]; simp, startEq, ?_⟩
    rw [← stopEq, ← startEq]
    simp only [Text.byteLength_append]
    omega
  rw [Node.text, sliced]
  simp

/-- A guarded first line of a loop goes along with the loop, when every rewritten loop
around it holds it in a piece that is carried over. -/
theorem exists_moves_of_ownLine (pass : Pass parse options files analysis turn draft text)
    {before after : List Char} (stands : draft.source.toList = before ++ (span ++ after))
    (line : '\n' ∉ span) (guards : Suppression.Guards span []) {loop : Node}
    (member : loop ∈ (parse draft.source).loops) (starts : Text.byteLength before = loop.start)
    (ends : Text.byteLength (before ++ span) ≤ loop.stop)
    (held : ∀ outer ∈ (parse draft.source).loops, Problem.ofNode outer ∈ draft.plan.rewritten →
      loop.Within outer → ∃ front piece, Carries draft.source outer front piece ∧
        loop.Within piece) :
    ∃ next, Moves draft span loop.start next := by
  have nested := pass.faithful.formed.nested
  have inTree := (Tree.mem_loops_iff.mp member).1
  by_cases around : ∃ outer ∈ (parse draft.source).loops,
      Problem.ofNode outer ∈ draft.plan.rewritten ∧ loop.Within outer
  · rcases around with ⟨outer, outerMember, fixed, within⟩
    rcases held outer outerMember fixed within with ⟨front, piece, carries, inPiece⟩
    have pieceInTree := Node.mem_preorder_trans carries.mem_preorder
      (Tree.mem_loops_iff.mp outerMember).1
    rcases pass.exists_text_eq stands pieceInTree (starts ▸ inPiece.1)
      (Nat.le_trans ends inPiece.2) with ⟨lead, trail, pieceText, leadEq⟩
    rw [← starts, ← leadEq]
    exact pass.exists_moves_of_carries outerMember fixed carries pieceText
  · have apart : ∀ edit ∈ draft.plan.session.edits,
        edit.stop ≤ Text.byteLength before ∨ Text.byteLength (before ++ span) ≤ edit.start := by
      intro edit recorded
      rcases pass.exists_loop recorded with ⟨outer, outerMember, statement, rfl, fixed, unmarked⟩
      rcases pass.not_starts_in stands line guards outerMember unmarked with startsBefore | behind
      · have notWithin : ¬loop.Within outer := fun within => around ⟨outer, outerMember, fixed, within⟩
        have shape := nested.laminar (Tree.mem_loops_iff.mp outerMember).1 inTree
        have nonempty := pass.faithful.nonempty loop member
        simp only [Node.Within, FixSession.loopEdit] at shape notWithin ⊢
        omega
      · exact .inr behind
    rw [← starts]
    exact pass.exists_moves_of_apart stands apart

end Pass

end LoopLift
