import LoopLift.Proofs.Edit.Splicing
import LoopLift.Proofs.Fixing.Plan

/-!
# Selected problems

The problems of a file are taken in the order of their starts, longer ones first.
Over a well-formed tree the fixed ones are then separated: each ends before the
next one starts. A problem inside a fixed one is passed over, and ranges of
nodes of one tree overlap in no other way. So the recorded edits always pass the
check, and their splice is one pass over the source.
-/

namespace LoopLift

open Syntax

/-- The range of a problem. -/
def Problem.range (problem : Problem) : Nat × Nat := (problem.start, problem.stop)

/-- The range of an edit. -/
def Edit.range (edit : Edit) : Nat × Nat := (edit.start, edit.stop)

theorem Problem.isNestedIn_iff {inner outer : Problem} :
    inner.isNestedIn outer = true ↔
      outer.start ≤ inner.start ∧ inner.stop ≤ outer.stop ∧ outer.range ≠ inner.range := by
  simp only [isNestedIn, range, ne_eq, Prod.mk.injEq, Bool.and_eq_true, decide_eq_true_eq,
    Bool.not_eq_true', Bool.and_eq_false_iff, beq_eq_false_iff_ne]
  constructor
  · rintro ⟨⟨starts, stops⟩, different⟩
    exact ⟨starts, stops, fun ⟨startEq, stopEq⟩ => different.elim (· startEq) (· stopEq)⟩
  · rintro ⟨starts, stops, different⟩
    exact ⟨⟨starts, stops⟩, not_and_or.mp different⟩

namespace FileProblems

theorem comesFirst_iff {left right : Problem} :
    comesFirst left right = true ↔
      left.start < right.start ∨ left.start = right.start ∧ right.stop ≤ left.stop := by
  simp only [comesFirst, Bool.or_eq_true, Bool.and_eq_true, decide_eq_true_eq, beq_iff_eq]

theorem pairwise_mergeSort_comesFirst (problems : List Problem) :
    (problems.mergeSort comesFirst).Pairwise fun left right => comesFirst left right = true := by
  apply List.pairwise_mergeSort
  · intro first second third
    simp only [comesFirst_iff]
    omega
  · intro first second
    simp only [Bool.or_eq_true, comesFirst_iff]
    omega

end FileProblems

/-- A plan over a tree whose fixed problems are separated ranges of nodes, with
one edit for each of them. -/
structure FixPlan.Selected (tree : Tree) (plan : FixPlan) : Prop where
  sameTree : plan.session.tree = tree
  ranges : plan.session.edits.map Edit.range = plan.rewritten.map Problem.range
  inTree : ∀ problem ∈ plan.rewritten,
    ∃ node ∈ tree.root.preorder, node.start = problem.start ∧ node.stop = problem.stop
  separated : plan.rewritten.Pairwise fun earlier later =>
    earlier.start < later.start ∧ earlier.stop ≤ later.start

namespace FixPlan.Selected

/-- One problem keeps a plan separated, if it comes behind all the fixed ones. -/
theorem move {parse : Parser} {tree : Tree} {plan next : FixPlan} {problem : Problem}
    (formed : tree.WellFormed) (selected : plan.Selected tree)
    (behind : ∀ fixed ∈ plan.rewritten, FileProblems.comesFirst fixed problem = true)
    (distinct : ∀ fixed ∈ plan.rewritten, fixed.range ≠ problem.range)
    (taken : PlanMove parse plan problem next) : next.Selected tree := by
  cases taken with
  | nested => exact ⟨selected.sameTree, selected.ranges, selected.inTree, selected.separated⟩
  | failed => exact ⟨selected.sameTree, selected.ranges, selected.inTree, selected.separated⟩
  | declined => exact ⟨selected.sameTree, selected.ranges, selected.inTree, selected.separated⟩
  | @rewritten node text statement outside found =>
      rcases FixSession.element?_sound found with ⟨nodeInside, startEq, stopEq⟩
      rw [selected.sameTree] at nodeInside
      refine ⟨selected.sameTree, ?_, ?_, ?_⟩
      · simp [selected.ranges, Edit.range, FixSession.loopEdit, Problem.range, startEq, stopEq]
      · intro other member
        rcases List.mem_append.mp member with earlier | last
        · exact selected.inTree other earlier
        · rw [List.mem_singleton.mp last]
          exact ⟨node, nodeInside, startEq, stopEq⟩
      · rw [List.pairwise_append]
        refine ⟨selected.separated, List.pairwise_singleton _ _, ?_⟩
        intro fixed member last lastMember
        rw [List.mem_singleton.mp lastMember]
        rcases selected.inTree fixed member with ⟨fixedNode, fixedInside, fixedStart, fixedStop⟩
        have apart : ¬problem.isNestedIn fixed = true := by
          intro inside
          have := List.any_eq_false.mp outside fixed member
          exact this inside
        rw [Problem.isNestedIn_iff] at apart
        -- Ranges of two nodes are nested or disjoint. The problem is not inside a
        -- fixed one, and being behind it in the order it cannot be around it.
        have order := FileProblems.comesFirst_iff.mp (behind fixed member)
        have different := distinct fixed member
        have problemOrdered := formed.ordered node nodeInside
        have fixedOrdered := formed.ordered fixedNode fixedInside
        have shape := formed.nested.laminar fixedInside nodeInside
        simp only [Problem.range, ne_eq, Prod.mk.injEq] at apart different
        simp only [Node.Within] at shape
        omega

/-- Problems in order, with ranges of their own, keep a plan separated. -/
theorem foldl {parse : Parser} {tree : Tree} (formed : tree.WellFormed) {plan : FixPlan}
    {problems : List Problem} (selected : plan.Selected tree)
    (sorted : problems.Pairwise fun left right => FileProblems.comesFirst left right = true)
    (distinct : problems.Pairwise fun left right => left.range ≠ right.range)
    (behind : ∀ fixed ∈ plan.rewritten, ∀ problem ∈ problems,
      FileProblems.comesFirst fixed problem = true ∧ fixed.range ≠ problem.range) :
    (problems.foldl (FixPlan.take parse) plan).Selected tree := by
  induction problems generalizing plan with
  | nil => exact selected
  | cons problem rest ih =>
      rcases List.pairwise_cons.mp sorted with ⟨first, sortedRest⟩
      rcases List.pairwise_cons.mp distinct with ⟨different, distinctRest⟩
      have taken := plan.move_take parse problem
      have next := selected.move formed
        (fun fixed member => (behind fixed member problem (by simp)).1)
        (fun fixed member => (behind fixed member problem (by simp)).2) taken
      apply ih next sortedRest distinctRest
      intro fixed member other otherMember
      rcases taken.mem_rewritten member with earlier | rfl
      · exact behind fixed earlier other (List.mem_cons_of_mem _ otherMember)
      · exact ⟨first other otherMember, different other otherMember⟩

/-- The plan of problems in order, with ranges of their own, is separated. -/
theorem ofProblems (parse : Parser) {tree : Tree} (formed : tree.WellFormed)
    {problems : List Problem}
    (sorted : problems.Pairwise fun left right => FileProblems.comesFirst left right = true)
    (distinct : problems.Pairwise fun left right => left.range ≠ right.range) :
    (FixPlan.ofProblems parse tree problems).Selected tree := by
  have empty : FixPlan.Selected tree { session := { tree } } :=
    ⟨rfl, rfl, by simp, List.Pairwise.nil⟩
  exact empty.foldl formed sorted distinct (by simp)

/-! ## The edits of a separated plan -/

variable {tree : Tree} {plan : FixPlan}

theorem fits_of_mem_edits (formed : tree.WellFormed) (selected : plan.Selected tree) {edit : Edit}
    (member : edit ∈ plan.session.edits) : edit.Fits tree.source.toList := by
  have ranged : edit.range ∈ plan.rewritten.map Problem.range := by
    rw [← selected.ranges]
    exact List.mem_map_of_mem member
  rcases List.mem_map.mp ranged with ⟨problem, rewritten, sameRange⟩
  rcases selected.inTree problem rewritten with ⟨node, inside, startEq, stopEq⟩
  simp only [Problem.range, Edit.range, Prod.mk.injEq] at sameRange
  rw [sameRange.1] at startEq
  rw [sameRange.2] at stopEq
  have boundaries := formed.boundaries node inside
  constructor
  · rw [← startEq, ← stopEq]
    exact formed.ordered node inside
  · rw [← stopEq]
    exact formed.inside node inside
  · rw [← startEq]
    exact boundaries.1
  · rw [← stopEq]
    exact boundaries.2

theorem pairwise_edits (selected : plan.Selected tree) :
    plan.session.edits.Pairwise fun left right =>
      left.start < right.start ∧ left.stop ≤ right.start := by
  have ranges : (plan.session.edits.map Edit.range).Pairwise fun left right =>
      left.1 < right.1 ∧ left.2 ≤ right.1 := by
    rw [selected.ranges]
    exact List.pairwise_map.mpr selected.separated
  exact List.pairwise_map.mp ranges

theorem validate_edits (formed : tree.WellFormed) (selected : plan.Selected tree) :
    Edit.validate tree.source.toList plan.session.edits = .ok () := by
  rw [Edit.validate_eq_ok_iff]
  constructor
  · intro edit member
    exact selected.fits_of_mem_edits formed member
  · exact selected.pairwise_edits.imp fun apart => Edit.overlaps_eq_false_iff.mpr (.inr apart.2)

/-- The edits of a separated plan are applied in one pass, in the order in which
they were made. -/
theorem apply_edits (formed : tree.WellFormed) (selected : plan.Selected tree) :
    ∃ text : String, Edit.weave? tree.source.toList 0 plan.session.edits = some text.toList ∧
      plan.session.apply = .ok text := by
  have ascending : plan.session.edits.Pairwise fun left right => left.start < right.start :=
    selected.pairwise_edits.imp And.left
  have insertsLast : Edit.InsertsLast plan.session.edits := by
    apply ascending.imp
    intro left right before behind
    exact Nat.ne_of_gt before behind.2.1
  have valid := selected.validate_edits formed
  rcases Edit.splice_fromTheEnd valid insertsLast with ⟨woven, wovenEq, spliced⟩
  rw [Edit.inSourceOrder_eq_self ascending] at wovenEq
  refine ⟨String.ofList woven, by rw [wovenEq, String.toList_ofList], ?_⟩
  rw [FixSession.apply, selected.sameTree]
  exact Edit.apply_of_splice valid spliced

/-- The edits of a separated plan give their splice, or are refused for the syntax
errors that they bring. -/
theorem verdict (formed : tree.WellFormed) (selected : plan.Selected tree) (parse : Parser) :
    ∃ text : String, Edit.weave? tree.source.toList 0 plan.session.edits = some text.toList ∧
      (plan.session.applyVerified parse = .ok text ∨
        plan.session.applyVerified parse = .error .unparsable) := by
  rcases selected.apply_edits formed with ⟨text, woven, applied⟩
  refine ⟨text, woven, ?_⟩
  rw [FixSession.apply] at applied
  simp only [FixSession.applyVerified, Edit.applyVerified, applied, bind, Except.bind]
  split
  · exact .inr rfl
  · exact .inl rfl

end FixPlan.Selected

end LoopLift
