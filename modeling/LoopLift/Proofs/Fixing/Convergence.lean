import LoopLift.Proofs.Fixing.Preview
import LoopLift.Proofs.Fixing.Stale
import LoopLift.Proofs.Loop.Carrying

/-!
# Writing passes come to an end

A pass that writes a file exchanges some of its loops, none of them inside another one, and
the text of a replacement has no loops but those that it carries over. The text can grow by
this, but it has fewer loops: one less for each rewritten problem. So there are never more
writing passes over a file than loops in it.
-/

namespace LoopLift

open Syntax

/-! ## The loops that edits exchange -/

namespace Edit

/-- A loop that stands in the range of an edit. -/
def exchanges (edits : List Edit) (node : Node) : Bool :=
  node.kind == Tree.loopKind && edits.any fun edit => node.spans edit.start edit.stop

theorem exchanges_iff {edits : List Edit} {node : Node} :
    exchanges edits node = true ↔
      node.kind = Tree.loopKind ∧ ∃ edit ∈ edits, edit.range = (node.start, node.stop) := by
  simp only [exchanges, Bool.and_eq_true, beq_iff_eq, List.any_eq_true, Node.spans_iff, range,
    Prod.mk.injEq, @eq_comm _ node.start, @eq_comm _ node.stop]

/-- Edits that stand apart, each in the range of a loop with a shape and a supported
body. -/
structure ExchangeLoops (tree : Tree) (edits : List Edit) : Prop where
  loop : ∀ edit ∈ edits, ∃ loop ∈ tree.loops, edit.range = (loop.start, loop.stop) ∧
    ∃ shape, LoopShape.ofNode? tree.source loop = some shape ∧ shape.body ≠ .unsupported
  apart : edits.Pairwise fun left right => left.overlaps right = false

namespace ExchangeLoops

variable {tree : Tree} {edits : List Edit}

theorem nonempty (exchange : ExchangeLoops tree edits) (grammatical : tree.Grammatical)
    {edit : Edit} (member : edit ∈ edits) : edit.start < edit.stop := by
  rcases exchange.loop edit member with ⟨loop, inTree, rangeEq, -⟩
  rw [range, Prod.mk.injEq] at rangeEq
  rw [rangeEq.1, rangeEq.2]
  exact grammatical.nonempty loop inTree

theorem nodup_range (exchange : ExchangeLoops tree edits) (grammatical : tree.Grammatical) :
    (edits.map range).Nodup := by
  rw [List.Nodup, List.pairwise_map]
  refine exchange.apart.imp_of_mem ?_
  intro left right leftMember rightMember apart same
  have leftOrdered := exchange.nonempty grammatical leftMember
  have rightOrdered := exchange.nonempty grammatical rightMember
  rw [overlaps_eq_false_iff] at apart
  rw [range, range, Prod.mk.injEq] at same
  omega

/-- Edits with different ranges lie one behind the other. -/
theorem apart_of_range_ne (exchange : ExchangeLoops tree edits) {left right : Edit}
    (leftMember : left ∈ edits) (rightMember : right ∈ edits)
    (different : left.range ≠ right.range) :
    right.stop ≤ left.start ∨ left.stop ≤ right.start := by
  have apart : edits.Pairwise fun left right =>
      right.stop ≤ left.start ∨ left.stop ≤ right.start :=
    exchange.apart.imp overlaps_eq_false_iff.mp
  have : Std.Symm fun left right : Edit =>
      right.stop ≤ left.start ∨ left.stop ≤ right.start :=
    ⟨fun _ _ => Or.symm⟩
  exact apart.forall leftMember rightMember fun same => different (congrArg range same)

/-- There are as many exchanged loops as edits. -/
theorem length_filter (exchange : ExchangeLoops tree edits) (grammatical : tree.Grammatical) :
    (tree.loops.filter (exchanges edits)).length = edits.length := by
  have distinct : ((tree.loops.filter (exchanges edits)).map
      fun loop => (loop.start, loop.stop)).Nodup := by
    rw [List.Nodup, List.pairwise_map]
    exact grammatical.distinct.filter _
  have sameRanges : ((tree.loops.filter (exchanges edits)).map
      fun loop => (loop.start, loop.stop)).Perm (edits.map range) := by
    rw [List.perm_ext_iff_of_nodup distinct (exchange.nodup_range grammatical)]
    intro span
    simp only [List.mem_map, List.mem_filter, exchanges_iff]
    constructor
    · rintro ⟨loop, ⟨-, -, edit, member, rangeEq⟩, rfl⟩
      exact ⟨edit, member, rangeEq⟩
    · rintro ⟨edit, member, rfl⟩
      rcases exchange.loop edit member with ⟨loop, inTree, rangeEq, -⟩
      exact ⟨loop, ⟨inTree, (Tree.mem_loops_iff.mp inTree).2, edit, member, rangeEq⟩, rangeEq.symm⟩
  simpa using sameRanges.length_eq

/-- An exchanged loop carries over all its inner loops. -/
theorem loops_eq (exchange : ExchangeLoops tree edits) (grammatical : tree.Grammatical)
    {node : Node} (inside : node ∈ tree.root.preorder) (exchanged : exchanges edits node = true) :
    node.loops = node :: LoopShape.carriedLoops tree.source node := by
  rcases exchanges_iff.mp exchanged with ⟨isLoop, edit, member, nodeRange⟩
  rcases exchange.loop edit member with ⟨loop, inTree, loopRange, shape, shaped, supported⟩
  have sameRange := nodeRange.symm.trans loopRange
  rw [Prod.mk.injEq] at sameRange
  have sameKind := isLoop.trans (Tree.mem_loops_iff.mp inTree).2.symm
  rw [Tree.eq_loop_of_range_eq grammatical.distinct inTree inside sameKind sameRange.1 sameRange.2]
  exact LoopShape.loops_eq_cons_carriedLoops grammatical.loopsInParts inTree shaped supported

/-- No loop inside an exchanged one is exchanged too. -/
theorem exchanges_eq_false (exchange : ExchangeLoops tree edits) (grammatical : tree.Grammatical)
    {node inner : Node} (inside : node ∈ tree.root.preorder)
    (exchanged : exchanges edits node = true)
    (carried : inner ∈ LoopShape.carriedLoops tree.source node) :
    exchanges edits inner = false := by
  have loopsEq := exchange.loops_eq grammatical inside exchanged
  have different : (node.start, node.stop) ≠ (inner.start, inner.stop) := by
    have distinct := grammatical.distinct.sublist (Node.loops_sublist inside)
    rw [loopsEq] at distinct
    exact List.rel_of_pairwise_cons distinct carried
  have innerLoop : inner ∈ node.loops := by
    rw [loopsEq]
    exact List.mem_cons_of_mem node carried
  have within := (grammatical.nested.of_mem inside).within_root (Node.mem_loops_iff.mp innerLoop).1
  have ordered := grammatical.nonempty inner ((Node.loops_sublist inside).subset innerLoop)
  rw [Bool.eq_false_iff]
  intro innerExchanged
  rcases exchanges_iff.mp exchanged with ⟨-, outerEdit, outerMember, outerRange⟩
  rcases exchanges_iff.mp innerExchanged with ⟨-, innerEdit, innerMember, innerRange⟩
  have apart := exchange.apart_of_range_ne outerMember innerMember (by rwa [outerRange, innerRange])
  rw [range, Prod.mk.injEq] at outerRange innerRange
  rw [Node.Within] at within
  omega

/-- For each edit, the tree has one loop less after the exchange. -/
theorem length_loopsAfter (exchange : ExchangeLoops tree edits) (grammatical : tree.Grammatical) :
    (tree.root.loopsAfter tree.source (exchanges edits)).length + edits.length =
      tree.loops.length := by
  have split := @Node.loops_perm_loopsAfter tree.source (exchanges edits) tree.root (by
    intro node inside exchanged
    refine ⟨exchange.loops_eq grammatical inside exchanged, ?_⟩
    intro inner carried
    exact exchange.exchanges_eq_false grammatical inside exchanged carried)
  rw [← exchange.length_filter grammatical, ← List.length_append]
  exact split.length_eq.symm

end ExchangeLoops

end Edit

/-- The edits of a draft that is written exchange loops. -/
theorem Draft.exchangeLoops {parse : Parser} {apply : Bool} {draft : Draft} {text : String}
    {problems : List Problem}
    (planned : draft.plan = FixPlan.ofProblems parse (parse draft.source) problems)
    (output : draft.output? parse apply = some text) :
    Edit.ExchangeLoops (parse draft.source) draft.plan.session.edits := by
  rcases Draft.output?_eq_some_iff.mp output with ⟨-, -, verified⟩
  have valid := Edit.validate_of_apply (FixSession.apply_of_applyVerified verified)
  refine ⟨?_, (Edit.validate_eq_ok_iff.mp valid).2⟩
  intro edit member
  rw [planned] at member
  rcases (FixPlan.Traced.ofProblems parse _ problems).problem edit member with
    ⟨problem, -, loop, replacement, statement, found, replaced, -, rfl⟩
  rcases Problem.Denotes.of_replacementText? found replaced with ⟨shape, denotes⟩
  exact ⟨loop, denotes.inTree, rfl, shape, denotes.shaped, denotes.supported⟩

/-! ## Passes that write -/

open FixRun (Turn turnsOf)

/-- A pass that writes a file, whatever analysis it follows, with the result that is
reported for the file. In the new text as many loops are read as are left by the exchange:
the loops that are not exchanged, and in the place of each exchanged one just those that its
replacement carries over. -/
structure WritingPass (parse : Parser) (options : FixOptions) (files : FileSystem)
    (analysis : Analysis) (turn : Turn) (draft : Draft) (fix : FileFix) (text : String) :
    Prop where
  member : turn ∈ turnsOf parse options files analysis
  drafted : turn.draft? parse options = some draft
  result : draft.result? parse options.apply = some fix
  output : draft.output? parse options.apply = some text
  grammatical : (parse draft.source).Grammatical
  reread : (parse text).loops.length =
    ((parse draft.source).root.loopsAfter (parse draft.source).source
      (Edit.exchanges draft.plan.session.edits)).length

namespace WritingPass

variable {parse : Parser} {options : FixOptions} {files : FileSystem} {analysis : Analysis}
  {turn : Turn} {draft : Draft} {fix : FileFix} {text : String}

theorem rewritten_eq (pass : WritingPass parse options files analysis turn draft fix text) :
    fix.rewritten = draft.plan.rewritten.length := by
  rw [(Draft.of_result? pass.result).1]
  rfl

theorem one_le_rewritten (pass : WritingPass parse options files analysis turn draft fix text) :
    1 ≤ fix.rewritten := by
  rcases Draft.output?_eq_some_iff.mp pass.output with ⟨-, busy, -⟩
  rw [pass.rewritten_eq]
  exact List.length_pos_iff.mpr busy

/-- The new text has one loop less for each rewritten problem. -/
theorem length_loops (pass : WritingPass parse options files analysis turn draft fix text) :
    (parse text).loops.length + fix.rewritten = (parse draft.source).loops.length := by
  have planned := (Turn.draft?_eq_some_iff.mp pass.drafted).2.2.2
  have recorded := FixPlan.Recorded.ofProblems parse (parse draft.source) turn.entry.problems
  rw [← planned] at recorded
  rw [pass.reread, pass.rewritten_eq, ← recorded.length_eq]
  exact (Draft.exchangeLoops planned pass.output).length_loopsAfter pass.grammatical

end WritingPass

/-- Writing passes over a file, each one over the text that the last one has left, with
their counts of rewritten problems. -/
inductive WritingPasses (parse : Parser) : String → List Nat → String → Prop where
  | done (source : String) : WritingPasses parse source [] source
  | pass {options files analysis turn draft fix text counts last}
      (first : WritingPass parse options files analysis turn draft fix text)
      (rest : WritingPasses parse text counts last) :
      WritingPasses parse draft.source (fix.rewritten :: counts) last

/-- All loops that are gone after some passes are counted. -/
theorem WritingPasses.length_loops {parse : Parser} {source last : String} {counts : List Nat}
    (passes : WritingPasses parse source counts last) :
    (parse last).loops.length + total counts = (parse source).loops.length := by
  induction passes with
  | done source => simp
  | pass first rest ih =>
      have fewer := first.length_loops
      rw [total_cons]
      omega

theorem WritingPasses.length_le_total {parse : Parser} {source last : String} {counts : List Nat}
    (passes : WritingPasses parse source counts last) : counts.length ≤ total counts := by
  induction passes with
  | done source => simp
  | pass first rest ih =>
      have some := first.one_le_rewritten
      rw [List.length_cons, total_cons]
      omega

/-- Each pass that writes a file lowers the number of its loops, and passes over a file come
to an end. -/
structure Converges (parse : Parser) : Prop where
  /-- A pass leaves its text in the file. The text has as many loops less as the result
  counts, and this is at least one. -/
  pass : ∀ {options files analysis turn draft fix text},
    WritingPass parse options files analysis turn draft fix text →
      (turn.next parse options).files.readText draft.path = .ok text ∧ 1 ≤ fix.rewritten ∧
        (parse text).loops.length + fix.rewritten = (parse draft.source).loops.length
  /-- There are no more passes over a file than loops in it at first. -/
  passes : ∀ {source counts last}, WritingPasses parse source counts last →
    counts.length ≤ (parse source).loops.length ∧
      (parse last).loops.length + total counts = (parse source).loops.length

theorem writing_passes_converge (parse : Parser) : Converges parse where
  pass := by
    intro options files analysis turn draft fix text pass
    exact ⟨Turn.readText_next pass.drafted pass.output, pass.one_le_rewritten, pass.length_loops⟩
  passes := by
    intro source counts last passes
    have counted := passes.length_loops
    have some := passes.length_le_total
    exact ⟨by omega, counted⟩

open FixPlan (loopAt)
open FixRun (singleAnalysis singleTurn singleDraft)

/-- A loop in a loop. -/
def twoLoops : String := "<?php foreach([]as$b)foreach([]as$b)1;"

/-- What a pass makes of `twoLoops`. The inner loop is carried over. -/
def twoLoopsFixed : String :=
  "<?php collect([])->each(function($b)  \x7bforeach([]as$b)1;\x7d);"

/-- The problems of `twoLoops`. -/
def twoLoopsProblems : List Problem := [loopAt 6 38 7, loopAt 21 38 22]

set_option maxRecDepth 100000 in
/-- What is evaluated of the two texts, at once so that each is parsed once. -/
theorem twoLoops_plan :
    Inspection.inspect (Php.parse twoLoops) = twoLoopsProblems ∧
    (Php.parse twoLoops).loops.length = 2 ∧ (Php.parse twoLoops).Grammatical ∧
    (FixPlan.ofProblems Php.parse (Php.parse twoLoops) twoLoopsProblems).rewritten =
      [loopAt 6 38 7] ∧
    ((FixPlan.ofProblems Php.parse (Php.parse twoLoops) twoLoopsProblems).session.applyVerified
      Php.parse).toOption = some twoLoopsFixed ∧
    (Php.parse twoLoopsFixed).loops.length =
      ((Php.parse twoLoops).root.loopsAfter (Php.parse twoLoops).source
        (Edit.exchanges (FixPlan.ofProblems Php.parse (Php.parse twoLoops)
          twoLoopsProblems).session.edits)).length := by
  decide +kernel

/-- The run over `twoLoops` is a pass that writes the file. -/
theorem writingPass_twoLoops :
    WritingPass Php.parse ⟨true, ⟨"."⟩⟩ (singleFile twoLoops) (singleAnalysis twoLoopsProblems)
      (singleTurn twoLoops twoLoopsProblems) (singleDraft Php.parse twoLoops twoLoopsProblems)
      (FixRun.resultOf (Path.shown ⟨"/a.php"⟩)
        (singleDraft Php.parse twoLoops twoLoopsProblems).plan true) twoLoopsFixed := by
  rcases twoLoops_plan with ⟨-, -, grammatical, rewritten, verified, reread⟩
  have output := FixRun.output?_singleDraft (by simp [rewritten]) verified
  refine ⟨?_, FixRun.draft?_singleTurn, Draft.result?_of_output? output, output, grammatical,
    reread⟩
  rw [FixRun.turnsOf_singleFile (by simp [twoLoopsProblems]) (by decide)]
  exact List.mem_singleton_self _

/-- The one pass over `twoLoops` rewrites one problem. -/
theorem writingPasses_twoLoops : WritingPasses Php.parse twoLoops [1] twoLoopsFixed := by
  have one := writingPass_twoLoops.rewritten_eq
  rw [show (singleDraft Php.parse twoLoops twoLoopsProblems).plan.rewritten = [loopAt 6 38 7] from
    twoLoops_plan.2.2.2.1, List.length_singleton] at one
  rw [← one]
  exact .pass writingPass_twoLoops (.done twoLoopsFixed)

theorem writing_passes_converge_twoLoops :
    Inspection.inspect (Php.parse twoLoops) = twoLoopsProblems ∧
    WritingPasses Php.parse twoLoops [1] twoLoopsFixed ∧
    (Php.parse twoLoops).loops.length = 2 ∧ [1].length ≤ (Php.parse twoLoops).loops.length ∧
    (Php.parse twoLoopsFixed).loops.length + total [1] = (Php.parse twoLoops).loops.length :=
  ⟨twoLoops_plan.1, writingPasses_twoLoops, twoLoops_plan.2.1,
    (writing_passes_converge Php.parse).passes writingPasses_twoLoops⟩

end LoopLift
