import LoopLift.Proofs.Fixing.Run

/-!
# Problems in any order

A run takes files in the order of their paths, and the problems of a file from the
outside in. Both orders are strict when equal paths are spelled in one way and the
problems of a file have ranges of their own. So the run does not depend on the order in
which problems are reported.
-/

namespace LoopLift

open Syntax

namespace FileProblems

/-- Equal paths are spelled in one way, and problems of one file have ranges of their
own. -/
structure Unambiguous (reported : List FileProblem) : Prop where
  spelling : ∀ left ∈ reported, ∀ right ∈ reported,
    left.file.same right.file = true → left.file = right.file
  ranges : reported.Pairwise fun left right =>
    left.file.same right.file = true → left.problem.range ≠ right.problem.range

instance (reported : List FileProblem) : Decidable (Unambiguous reported) :=
  decidable_of_iff
    ((∀ left ∈ reported, ∀ right ∈ reported,
        left.file.same right.file = true → left.file = right.file) ∧
      reported.Pairwise fun left right =>
        left.file.same right.file = true → left.problem.range ≠ right.problem.range)
    ⟨fun ⟨spelling, ranges⟩ => ⟨spelling, ranges⟩,
      fun unambiguous => ⟨unambiguous.spelling, unambiguous.ranges⟩⟩

namespace Unambiguous

variable {reported permuted : List FileProblem}

theorem perm (unambiguous : Unambiguous reported) (order : reported.Perm permuted) :
    Unambiguous permuted := by
  constructor
  · intro left leftMember right rightMember
    exact unambiguous.spelling left (order.mem_iff.mpr leftMember) right
      (order.mem_iff.mpr rightMember)
  · apply order.pairwise unambiguous.ranges
    intro left right apart same
    exact (apart (by rwa [Path.same, BEq.comm])).symm

/-- The problems of a file have ranges of their own. -/
theorem pairwise_range (unambiguous : Unambiguous reported) {entry : FileProblems}
    (member : entry ∈ ofProblems reported) :
    entry.problems.Pairwise fun left right => left.range ≠ right.range := by
  apply pairwise_of_mem_ofProblems Ne.symm member
  rw [List.pairwise_filter]
  apply unambiguous.ranges.imp
  intro left right apart leftSame rightSame
  rw [Path.same_iff] at leftSame rightSame
  exact apart (Path.same_iff.mpr (leftSame.trans rightSame.symm))

end Unambiguous

/-- Problems with ranges of their own have only one order in which each comes before
those behind it. -/
theorem eq_of_perm_of_comesFirst {left right : List Problem} (order : left.Perm right)
    (leftSorted : left.Pairwise fun first second => comesFirst first second = true)
    (rightSorted : right.Pairwise fun first second => comesFirst first second = true)
    (distinct : left.Pairwise fun first second => first.range ≠ second.range) :
    left = right := by
  have : Std.Symm fun first second : Problem => first.range ≠ second.range :=
    ⟨fun _ _ => Ne.symm⟩
  apply order.eq_of_pairwise _ leftSorted rightSorted
  intro first second firstMember secondMember before behind
  by_contra different
  apply distinct.forall firstMember (order.mem_iff.mpr secondMember) different
  rw [comesFirst_iff] at before behind
  simp only [Problem.range, Prod.mk.injEq]
  omega

/-- A file with its problems is found for one order of problems as for any other. -/
theorem mem_ofProblems_of_perm {reported permuted : List FileProblem}
    (unambiguous : Unambiguous reported) (order : reported.Perm permuted) {entry : FileProblems}
    (member : entry ∈ ofProblems reported) : entry ∈ ofProblems permuted := by
  rcases (of_mem_ofProblems member).2 with ⟨first, known⟩
  rcases exists_mem_ofProblems (order.mem_iff.mp known) with
    ⟨other, otherMember, -, same, second, otherKnown⟩
  have file : other.file = entry.file :=
    unambiguous.spelling ⟨other.file, second⟩ (order.mem_iff.mpr otherKnown)
      ⟨entry.file, first⟩ known same
  have problems : entry.problems.Perm other.problems := by
    have ofReported := perm_of_mem_ofProblems member
    have ofPermuted := perm_of_mem_ofProblems otherMember
    rw [file] at ofPermuted
    exact (ofReported.trans ((order.filter _).map _)).trans ofPermuted.symm
  have sameProblems : entry.problems = other.problems :=
    eq_of_perm_of_comesFirst problems (sorted_of_mem_ofProblems member)
      (sorted_of_mem_ofProblems otherMember) (unambiguous.pairwise_range member)
  cases entry
  cases other
  cases file
  cases sameProblems
  exact otherMember

/-- The files of an analysis with their problems do not depend on the order of the
problems. -/
theorem ofProblems_eq_of_perm {reported permuted : List FileProblem}
    (unambiguous : Unambiguous reported) (order : reported.Perm permuted) :
    ofProblems reported = ofProblems permuted := by
  have strict := pairwise_ofProblems
  have nodup : ∀ problems, (ofProblems problems).Nodup := by
    intro problems
    apply (strict problems).imp
    rintro left right before rfl
    exact Path.order_lt_irrefl left.file before
  have sameFiles : (ofProblems reported).Perm (ofProblems permuted) := by
    rw [List.perm_ext_iff_of_nodup (nodup reported) (nodup permuted)]
    intro entry
    exact ⟨mem_ofProblems_of_perm unambiguous order,
      mem_ofProblems_of_perm (unambiguous.perm order) order.symm⟩
  apply sameFiles.eq_of_pairwise _ (strict reported) (strict permuted)
  intro left right _ _ before behind
  exact absurd (Path.order_lt_trans before behind) (Path.order_lt_irrefl left.file)

end FileProblems

namespace FixRun

/-- A run does not depend on the order in which its problems are reported: it leaves the
same files, results and notices, and the same failure if there is one. -/
theorem ofAnalysis_eq_of_perm (parse : Parser) (options : FixOptions) (files : FileSystem)
    (analysis permuted : Analysis)
    (unambiguous : FileProblems.Unambiguous analysis.problems)
    (order : analysis.problems.Perm permuted.problems) :
    ofAnalysis parse options files analysis = ofAnalysis parse options files permuted := by
  simp only [ofAnalysis, FileProblems.ofProblems_eq_of_perm unambiguous order, order.length_eq]

theorem ofAnalysis_eq_of_perm_mixedReports :
    FileProblems.Unambiguous mixedReports ∧ mixedReports.Perm mixedReports.reverse ∧
    ofAnalysis Php.parse ⟨true, ⟨"."⟩⟩ singleFileRun.files { problems := mixedReports } =
      ofAnalysis Php.parse ⟨true, ⟨"."⟩⟩ singleFileRun.files
        { problems := mixedReports.reverse } :=
  have unambiguous : FileProblems.Unambiguous mixedReports := by decide +kernel
  have order : mixedReports.Perm mixedReports.reverse := (List.reverse_perm mixedReports).symm
  ⟨unambiguous, order, ofAnalysis_eq_of_perm Php.parse ⟨true, ⟨"."⟩⟩ singleFileRun.files
    { problems := mixedReports } { problems := mixedReports.reverse } unambiguous order⟩

end FixRun

end LoopLift
