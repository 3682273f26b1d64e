import LoopLift.Proofs.Fixing.Turns

/-!
# Accounting for problems

A plan counts each of its problems once: as rewritten, as remaining inside a
rewritten one, or as declined. The turns of a run add up in the same way, so that
the problems of a run are those rewritten in written files, those left in written
files, and all those of the files that are not written.

Problems with one range share their lot. So a plan has rewritten every one of its
problems exactly when it counts none of them as remaining or declined.
-/

namespace LoopLift

open Syntax

/-! ## One plan -/

theorem PlanMove.counts {parse : Parser} {plan next : FixPlan} {problem : Problem}
    (move : PlanMove parse plan problem next) :
    next.rewritten.length + next.remaining + next.declined =
      plan.rewritten.length + plan.remaining + plan.declined + 1 := by
  cases move with
  | nested => simp only; omega
  | failed => simp only; omega
  | declined => simp only; omega
  | rewritten => simp only [List.length_append, List.length_singleton]; omega

namespace FixPlan

theorem foldl_take_counts (parse : Parser) (problems : List Problem) (plan : FixPlan) :
    (problems.foldl (take parse) plan).rewritten.length +
        (problems.foldl (take parse) plan).remaining +
        (problems.foldl (take parse) plan).declined =
      plan.rewritten.length + plan.remaining + plan.declined + problems.length := by
  induction problems generalizing plan with
  | nil => rfl
  | cons problem rest ih =>
      have here := (plan.move_take parse problem).counts
      rw [List.foldl_cons, ih, here, List.length_cons]
      omega

/-- Every problem of a plan is counted once. -/
theorem ofProblems_counts (parse : Parser) (tree : Tree) (problems : List Problem) :
    (ofProblems parse tree problems).rewritten.length + (ofProblems parse tree problems).remaining +
      (ofProblems parse tree problems).declined = problems.length := by
  rw [ofProblems, foldl_take_counts]
  simp

end FixPlan

/-! ## Problems that are all rewritten -/

theorem FileProblems.isNestedIn_eq_false_of_comesFirst {first second : Problem}
    (order : comesFirst first second = true) : first.isNestedIn second = false := by
  rw [Bool.eq_false_iff, ne_eq, Problem.isNestedIn_iff]
  rw [comesFirst_iff] at order
  rintro ⟨starts, stops, different⟩
  apply different
  simp only [Problem.range, Prod.mk.injEq]
  omega

/-- A problem denotes a loop of a tree, and its replacement is a statement. -/
def Problem.Fixable (parse : Parser) (tree : Tree) (problem : Problem) : Prop :=
  ∃ node text statement, FixSession.element? { tree } problem = some node ∧
    replacementText? tree.source node = some text ∧ Statement.ofText parse text = .ok statement

/-- A problem that can be fixed is rewritten, unless it lies inside a fixed one. -/
theorem PlanMove.rewritten_of_fixable {parse : Parser} {plan next : FixPlan} {problem : Problem}
    (move : PlanMove parse plan problem next)
    (fixable : problem.Fixable parse plan.session.tree)
    (outside : plan.rewritten.any problem.isNestedIn = false) :
    next.rewritten = plan.rewritten ++ [problem] := by
  rcases fixable with ⟨loop, text, statement, found, replaced, built⟩
  cases move with
  | nested inside => cases outside.symm.trans inside
  | failed _ loopFound loopReplaced refused =>
      cases found.symm.trans loopFound
      cases replaced.symm.trans loopReplaced
      cases built.symm.trans refused
  | declined _ unfit => cases (unfit loop found).symm.trans replaced
  | rewritten => rfl

namespace FixPlan

/-- A plan over a tree whose fixed problems can be fixed, and none of them lies
inside another one. -/
structure Apart (parse : Parser) (tree : Tree) (plan : FixPlan) : Prop where
  sameTree : plan.session.tree = tree
  fixable : ∀ problem ∈ plan.rewritten, problem.Fixable parse tree
  apart : ∀ inner ∈ plan.rewritten, ∀ outer ∈ plan.rewritten, inner.isNestedIn outer = false

namespace Apart

variable {parse : Parser} {tree : Tree}

theorem move {plan next : FixPlan} {problem : Problem} (before : plan.Apart parse tree)
    (behind : ∀ fixed ∈ plan.rewritten, FileProblems.comesFirst fixed problem = true)
    (taken : PlanMove parse plan problem next) : next.Apart parse tree := by
  cases taken with
  | nested => exact ⟨before.sameTree, before.fixable, before.apart⟩
  | failed => exact ⟨before.sameTree, before.fixable, before.apart⟩
  | declined => exact ⟨before.sameTree, before.fixable, before.apart⟩
  | @rewritten node text statement outside found replaced built =>
      refine ⟨before.sameTree, ?_, ?_⟩
      · intro other member
        rcases List.mem_append.mp member with earlier | last
        · exact before.fixable other earlier
        · rw [List.mem_singleton.mp last, ← before.sameTree]
          exact ⟨node, text, statement, found, replaced, built⟩
      · have itself : problem.isNestedIn problem = false := by simp [Problem.isNestedIn]
        have below : ∀ fixed ∈ plan.rewritten, problem.isNestedIn fixed = false := by
          intro fixed member
          exact Bool.eq_false_iff.mpr (List.any_eq_false.mp outside fixed member)
        have above : ∀ fixed ∈ plan.rewritten, fixed.isNestedIn problem = false := by
          intro fixed member
          exact FileProblems.isNestedIn_eq_false_of_comesFirst (behind fixed member)
        intro inner innerMember outer outerMember
        rcases List.mem_append.mp innerMember with innerEarlier | innerLast
        · rcases List.mem_append.mp outerMember with outerEarlier | outerLast
          · exact before.apart inner innerEarlier outer outerEarlier
          · rw [List.mem_singleton.mp outerLast]
            exact above inner innerEarlier
        · rw [List.mem_singleton.mp innerLast]
          rcases List.mem_append.mp outerMember with outerEarlier | outerLast
          · exact below outer outerEarlier
          · rw [List.mem_singleton.mp outerLast]
            exact itself

theorem foldl {plan : FixPlan} {problems : List Problem} (before : plan.Apart parse tree)
    (sorted : problems.Pairwise fun left right => FileProblems.comesFirst left right = true)
    (behind : ∀ fixed ∈ plan.rewritten, ∀ problem ∈ problems,
      FileProblems.comesFirst fixed problem = true) :
    (problems.foldl (take parse) plan).Apart parse tree := by
  induction problems generalizing plan with
  | nil => exact before
  | cons problem rest ih =>
      rcases List.pairwise_cons.mp sorted with ⟨first, sortedRest⟩
      have taken := plan.move_take parse problem
      have here : ∀ fixed ∈ plan.rewritten, FileProblems.comesFirst fixed problem = true := by
        intro fixed member
        exact behind fixed member problem List.mem_cons_self
      apply ih (before.move here taken) sortedRest
      intro fixed member other otherMember
      rcases taken.mem_rewritten member with earlier | rfl
      · exact behind fixed earlier other (List.mem_cons_of_mem _ otherMember)
      · exact first other otherMember

end Apart

/-- When all problems are fixed in the end, each of them is fixed at its turn. -/
theorem rewritten_foldl_of_forall_mem {parse : Parser} {tree : Tree} {plan last : FixPlan}
    {problems : List Problem} (lastEq : problems.foldl (take parse) plan = last)
    (sameTree : plan.session.tree = tree) (settled : last.Apart parse tree)
    (all : ∀ problem ∈ problems, problem ∈ last.rewritten) :
    last.rewritten = plan.rewritten ++ problems := by
  induction problems generalizing plan with
  | nil =>
      rw [← lastEq]
      simp
  | cons problem rest ih =>
      rcases List.forall_mem_cons.mp all with ⟨fixed, allRest⟩
      rcases exists_rewritten_foldl parse (problem :: rest) plan with ⟨added, -, rewritten⟩
      have kept : ∀ earlier ∈ plan.rewritten, earlier ∈ last.rewritten := by
        intro earlier member
        rw [← lastEq, rewritten]
        exact List.mem_append_left _ member
      have outside : plan.rewritten.any problem.isNestedIn = false := by
        rw [List.any_eq_false]
        intro earlier member
        exact Bool.eq_false_iff.mp (settled.apart problem fixed earlier (kept earlier member))
      have fixable : problem.Fixable parse plan.session.tree := by
        rw [sameTree]
        exact settled.fixable problem fixed
      have taken := plan.move_take parse problem
      have here := taken.rewritten_of_fixable fixable outside
      rw [ih lastEq (taken.tree_eq.trans sameTree) allRest, here, List.append_assoc]
      rfl

/-- A plan over problems in order has fixed every one of them exactly when it leaves
none. -/
theorem forall_mem_rewritten_iff (parse : Parser) (tree : Tree) {problems : List Problem}
    (sorted : problems.Pairwise fun left right => FileProblems.comesFirst left right = true) :
    (∀ problem ∈ problems, problem ∈ (ofProblems parse tree problems).rewritten) ↔
      (ofProblems parse tree problems).remaining + (ofProblems parse tree problems).declined = 0 := by
  have counts := ofProblems_counts parse tree problems
  have empty : FixPlan.Apart parse tree { session := { tree } } := ⟨rfl, by simp, by simp⟩
  have settled := empty.foldl sorted (by simp)
  constructor
  · intro all
    have whole := rewritten_foldl_of_forall_mem rfl rfl settled all
    rw [← ofProblems] at whole
    rw [whole] at counts
    simp only [List.nil_append] at counts
    omega
  · intro nothing problem member
    have part := rewritten_sublist parse tree problems
    have whole := part.eq_of_length (by omega)
    rw [whole]
    exact member

end FixPlan

/-! ## The turns of a run -/

namespace FixRun

variable {parse : Parser} {options : FixOptions}

/-- A result counts all problems of its file. -/
theorem Turn.result?_counts {turn : Turn} {fix : FileFix}
    (result : turn.result? parse options = some fix) :
    fix.rewritten + fix.remaining + fix.declined = turn.entry.problems.length := by
  rcases Option.bind_eq_some_iff.mp result with ⟨draft, drafted, ofDraft⟩
  rcases Turn.draft?_eq_some_iff.mp drafted with ⟨-, -, -, planned⟩
  rw [(Draft.of_result? ofDraft).1, resultOf, planned]
  exact FixPlan.ofProblems_counts parse _ _

theorem Turn.written_eq {turn : Turn} {fix : FileFix}
    (result : turn.result? parse options = some fix) :
    fix.written = (turn.output? parse options).isSome := by
  rcases Option.bind_eq_some_iff.mp result with ⟨draft, drafted, ofDraft⟩
  rw [Turn.output?, drafted]
  exact (Draft.of_result? ofDraft).2

theorem Turn.output?_eq_none {turn : Turn} (noResult : turn.result? parse options = none) :
    turn.output? parse options = none := by
  rw [Option.eq_none_iff_forall_ne_some]
  intro text output
  rcases Option.bind_eq_some_iff.mp output with ⟨draft, drafted, ofDraft⟩
  rw [Turn.result?, drafted, Option.bind_some, Draft.result?_of_output? ofDraft] at noResult
  cases noResult

/-- Number of problems that are rewritten in the written files of some results. -/
def rewrittenInWritten (results : List FileFix) : Nat :=
  total ((results.filter FileFix.written).map FileFix.rewritten)

/-- Number of problems that are left in the written files of some results. -/
def leftInWritten (results : List FileFix) : Nat :=
  total ((results.filter FileFix.written).map fun fix => fix.remaining + fix.declined)

/-- Number of problems of the files that some turns do not write. -/
def leftUnwritten (parse : Parser) (options : FixOptions) (listed : List Turn) : Nat :=
  total ((listed.filter fun turn => (turn.output? parse options).isNone).map
    fun turn => turn.entry.problems.length)

/-- Problems of some turns: they are rewritten or left in a written file, or they
are those of a file that is not written. -/
theorem total_turns (listed : List Turn) :
    rewrittenInWritten (listed.filterMap (Turn.result? parse options)) +
      (leftInWritten (listed.filterMap (Turn.result? parse options)) +
        leftUnwritten parse options listed) =
      total (listed.map fun turn => turn.entry.problems.length) := by
  simp only [rewrittenInWritten, leftInWritten, leftUnwritten]
  induction listed with
  | nil => rfl
  | cons turn rest ih =>
      cases result : turn.result? parse options with
      | none =>
          have unwritten := Turn.output?_eq_none result
          simp only [List.filterMap_cons, result, List.filter_cons, unwritten, Option.isNone_none,
            ↓reduceIte, List.map_cons, total_cons]
          omega
      | some fix =>
          have counts := Turn.result?_counts result
          have written := Turn.written_eq result
          cases output : turn.output? parse options with
          | none =>
              rw [output, Option.isSome_none] at written
              simp only [List.filterMap_cons, result, List.filter_cons, written, output,
                Option.isNone_none, ↓reduceIte, Bool.false_eq_true, List.map_cons, total_cons]
              omega
          | some text =>
              rw [output, Option.isSome_some] at written
              simp only [List.filterMap_cons, result, List.filter_cons, written, output,
                Option.isNone_some, ↓reduceIte, Bool.false_eq_true, List.map_cons, total_cons]
              omega

/-- A turn rewrites a problem: the problem is among those that its draft fixes, and
the file then holds the verified text of the draft. -/
def Turn.Rewrites (parse : Parser) (options : FixOptions) (turn : Turn) (problem : Problem) :
    Prop :=
  ∃ draft text, turn.draft? parse options = some draft ∧ problem ∈ draft.plan.rewritten ∧
    draft.output? parse options.apply = some text ∧
    (turn.next parse options).files.readText draft.path = .ok text

/-- A turn rewrites just the problems that its draft fixes, if it writes. -/
theorem Turn.rewrites_iff {turn : Turn} {draft : Draft} {text : String}
    (drafted : turn.draft? parse options = some draft)
    (output : draft.output? parse options.apply = some text) {problem : Problem} :
    turn.Rewrites parse options problem ↔ problem ∈ draft.plan.rewritten := by
  constructor
  · rintro ⟨other, -, otherDrafted, fixed, -⟩
    cases drafted.symm.trans otherDrafted
    exact fixed
  · intro fixed
    exact ⟨draft, text, drafted, fixed, output, Turn.readText_next drafted output⟩

/-- A turn that writes rewrites all problems of its file exactly when its result
leaves none. -/
theorem Turn.forall_rewrites_iff {turn : Turn} {fix : FileFix}
    (sorted : turn.entry.problems.Pairwise fun left right =>
      FileProblems.comesFirst left right = true)
    (result : turn.result? parse options = some fix) (written : fix.written = true) :
    (∀ problem ∈ turn.entry.problems, turn.Rewrites parse options problem) ↔
      fix.remaining + fix.declined = 0 := by
  rcases Option.bind_eq_some_iff.mp result with ⟨draft, drafted, ofDraft⟩
  rcases Draft.of_result? ofDraft with ⟨counts, writtenEq⟩
  rw [written] at writtenEq
  rcases Option.isSome_iff_exists.mp writtenEq.symm with ⟨text, output⟩
  rcases Turn.draft?_eq_some_iff.mp drafted with ⟨-, -, -, planned⟩
  rw [counts, resultOf]
  simp only [Turn.rewrites_iff drafted output, planned]
  exact FixPlan.forall_mem_rewritten_iff parse _ sorted

/-- Every problem of an analysis is rewritten in the turn of its file. -/
def AllRewritten (parse : Parser) (options : FixOptions) (analysis : Analysis)
    (listed : List Turn) : Prop :=
  ∀ item ∈ analysis.problems, ∃ turn ∈ listed,
    turn.entry.file.same item.file = true ∧ turn.Rewrites parse options item.problem

/-- Nothing is left of the problems of an analysis exactly when each of them is
rewritten in the turn of its file. -/
theorem left_eq_zero_iff (files : FileSystem) (analysis : Analysis) :
    leftInWritten ((turnsOf parse options files analysis).filterMap (Turn.result? parse options)) +
        leftUnwritten parse options (turnsOf parse options files analysis) = 0 ↔
      AllRewritten parse options analysis (turnsOf parse options files analysis) := by
  rw [Nat.add_eq_zero_iff, leftInWritten, leftUnwritten, total_eq_zero_iff, total_eq_zero_iff]
  simp only [List.forall_mem_map, List.mem_filter, List.mem_filterMap]
  constructor
  · rintro ⟨nothingLeft, nothingUnwritten⟩ item reported
    rcases FileProblems.exists_mem_ofProblems reported with ⟨entry, listed, problem, same, -⟩
    rw [← @map_entry_turnsOf parse options files analysis] at listed
    rcases List.mem_map.mp listed with ⟨turn, member, rfl⟩
    refine ⟨turn, member, same, ?_⟩
    have entryListed := mem_ofProblems_of_mem_turnsOf member
    cases output : turn.output? parse options with
    | none =>
        have empty := nothingUnwritten turn ⟨member, by rw [output]; rfl⟩
        exact absurd (List.eq_nil_of_length_eq_zero empty)
          (FileProblems.of_mem_ofProblems entryListed).1
    | some text =>
        rcases Option.bind_eq_some_iff.mp output with ⟨draft, drafted, ofDraft⟩
        have result : turn.result? parse options =
            some (resultOf draft.path.shown draft.plan true) := by
          rw [Turn.result?, drafted, Option.bind_some, Draft.result?_of_output? ofDraft]
        have left := nothingLeft _ ⟨⟨turn, member, result⟩, rfl⟩
        exact (Turn.forall_rewrites_iff (FileProblems.sorted_of_mem_ofProblems entryListed) result
          rfl).mpr left item.problem problem
  · intro all
    have ownTurn : ∀ turn ∈ turnsOf parse options files analysis,
        ∀ problem ∈ turn.entry.problems, turn.Rewrites parse options problem := by
      intro turn member problem inEntry
      have entryListed := mem_ofProblems_of_mem_turnsOf member
      rw [(FileProblems.perm_of_mem_ofProblems entryListed).mem_iff] at inEntry
      rcases List.mem_map.mp inEntry with ⟨item, inFile, rfl⟩
      rcases List.mem_filter.mp inFile with ⟨reported, itemSame⟩
      rcases all item reported with ⟨other, otherMember, same, rewrites⟩
      have sameFile : other.entry.file.same turn.entry.file = true := by
        rw [Path.same_iff] at same itemSame ⊢
        exact same.trans itemSame
      rw [eq_of_same_of_mem_turnsOf otherMember member sameFile] at rewrites
      exact rewrites
    constructor
    · rintro fix ⟨⟨turn, member, result⟩, written⟩
      have entryListed := mem_ofProblems_of_mem_turnsOf member
      exact (Turn.forall_rewrites_iff (FileProblems.sorted_of_mem_ofProblems entryListed) result
        written).mp (ownTurn turn member)
    · rintro turn ⟨member, unwritten⟩
      have entryListed := mem_ofProblems_of_mem_turnsOf member
      rcases List.exists_mem_of_ne_nil _ (FileProblems.of_mem_ofProblems entryListed).1 with
        ⟨problem, inEntry⟩
      rcases ownTurn turn member problem inEntry with ⟨draft, text, drafted, -, output, -⟩
      rw [Turn.output?, drafted, Option.bind_some, output] at unwritten
      cases unwritten

end FixRun

end LoopLift
