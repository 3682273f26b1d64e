import LoopLift.Proofs.Fixing.Selection
import LoopLift.Proofs.Path.Order

/-!
# Problems by file

The problems of an analysis are put in groups, one for each run of neighbours in
the same file. A group holds problems of its own file only, every problem is in
a group, and inside a group the problems stand in the order in which they are
fixed.
-/

namespace LoopLift

namespace FileProblems

/-- One more problem goes to the first group, if that has its file, or makes a
group of its own. -/
theorem grouped_cons_cases (file : Path) (problem : Problem) (rest : List FileProblem) :
    (∃ next problems groups, grouped rest = (next, problems) :: groups ∧
      next.same file = true ∧
      grouped (⟨file, problem⟩ :: rest) = (file, problem :: problems) :: groups) ∨
    (∀ next problems groups, grouped rest = (next, problems) :: groups →
        next.same file = false) ∧
      grouped (⟨file, problem⟩ :: rest) = (file, [problem]) :: grouped rest := by
  simp only [grouped]
  cases grouped rest with
  | nil => exact .inr ⟨by simp, rfl⟩
  | cons first groups =>
      rcases first with ⟨next, problems⟩
      simp only
      split
      · rename_i same
        exact .inl ⟨next, problems, groups, rfl, same, rfl⟩
      · rename_i different
        refine .inr ⟨?_, rfl⟩
        intro other others behind equal
        cases equal
        exact Bool.eq_false_iff.mpr different

/-- Every problem is in a group, which has the file of one of the problems. -/
theorem exists_mem_grouped {reported : List FileProblem} {item : FileProblem}
    (member : item ∈ reported) :
    ∃ file problems, (file, problems) ∈ grouped reported ∧ item.problem ∈ problems ∧
      file.same item.file = true ∧ ∃ first, ⟨file, first⟩ ∈ reported := by
  induction reported with
  | nil => cases member
  | cons head rest ih =>
      rcases head with ⟨headFile, problem⟩
      have headSame : headFile.same headFile = true := Path.same_iff.mpr rfl
      rcases grouped_cons_cases headFile problem rest with
        ⟨next, inner, groups, restGroups, same, joined⟩ | ⟨-, alone⟩
      · rw [joined]
        rcases List.mem_cons.mp member with rfl | later
        · exact ⟨headFile, problem :: inner, by simp, by simp, headSame, problem, by simp⟩
        · rcases ih later with ⟨file, problems, inGroups, inProblems, fileSame, first, known⟩
          rw [restGroups] at inGroups
          rcases List.mem_cons.mp inGroups with equal | otherMember
          · cases equal
            refine ⟨headFile, problem :: inner, by simp, List.mem_cons_of_mem _ inProblems, ?_,
              problem, by simp⟩
            rw [Path.same_iff] at same fileSame ⊢
            exact same.symm.trans fileSame
          · exact ⟨file, problems, List.mem_cons_of_mem _ otherMember, inProblems, fileSame,
              first, List.mem_cons_of_mem _ known⟩
      · rw [alone]
        rcases List.mem_cons.mp member with rfl | later
        · exact ⟨headFile, [problem], by simp, by simp, headSame, problem, by simp⟩
        · rcases ih later with ⟨file, problems, inGroups, inProblems, fileSame, first, known⟩
          exact ⟨file, problems, List.mem_cons_of_mem _ inGroups, inProblems, fileSame, first,
            List.mem_cons_of_mem _ known⟩

/-- A group has a problem, and the file of one of the problems. -/
theorem of_mem_grouped {reported : List FileProblem} {file : Path} {problems : List Problem}
    (member : (file, problems) ∈ grouped reported) :
    problems ≠ [] ∧ ∃ first, ⟨file, first⟩ ∈ reported := by
  induction reported with
  | nil => cases member
  | cons item rest ih =>
      rcases item with ⟨itemFile, problem⟩
      have later : (file, problems) ∈ grouped rest → problems ≠ [] ∧
          ∃ first, ⟨file, first⟩ ∈ (⟨itemFile, problem⟩ :: rest : List FileProblem) := by
        intro inRest
        rcases ih inRest with ⟨nonempty, first, known⟩
        exact ⟨nonempty, first, List.mem_cons_of_mem _ known⟩
      rcases grouped_cons_cases itemFile problem rest with
        ⟨next, inner, groups, restGroups, -, joined⟩ | ⟨-, alone⟩
      · rw [joined] at member
        rcases List.mem_cons.mp member with equal | otherMember
        · cases equal
          exact ⟨by simp, problem, by simp⟩
        · exact later (restGroups ▸ List.mem_cons_of_mem _ otherMember)
      · rw [alone] at member
        rcases List.mem_cons.mp member with equal | otherMember
        · cases equal
          exact ⟨by simp, problem, by simp⟩
        · exact later otherMember

/-- The groups one after the other hold what is reported. -/
theorem flatMap_grouped (reported : List FileProblem) :
    (grouped reported).flatMap Prod.snd = reported.map FileProblem.problem := by
  induction reported with
  | nil => rfl
  | cons item rest ih =>
      rcases item with ⟨file, problem⟩
      rcases grouped_cons_cases file problem rest with
        ⟨next, inner, groups, restGroups, -, joined⟩ | ⟨-, alone⟩
      · rw [restGroups] at ih
        rw [joined]
        simpa using ih
      · rw [alone]
        simpa using ih

/-! ## Problems in the order of their files -/

/-- Of problems in the order of their files, the groups stand in this order too,
and no two of them have the same file. -/
theorem pairwise_grouped {reported : List FileProblem}
    (sorted : reported.Pairwise fun left right => left.file.isBefore right.file = true) :
    (grouped reported).Pairwise fun left right => left.1.order right.1 = .lt := by
  induction reported with
  | nil => exact List.Pairwise.nil
  | cons item rest ih =>
      rcases item with ⟨file, problem⟩
      rcases List.pairwise_cons.mp sorted with ⟨first, sortedRest⟩
      have strict := ih sortedRest
      rcases grouped_cons_cases file problem rest with
        ⟨next, inner, groups, restGroups, same, joined⟩ | ⟨different, alone⟩
      · rw [restGroups, List.pairwise_cons] at strict
        rw [joined, List.pairwise_cons]
        refine ⟨?_, strict.2⟩
        intro group member
        rw [← Path.order_congr same]
        exact strict.1 group member
      · rw [alone, List.pairwise_cons]
        refine ⟨?_, strict⟩
        cases restGroups : grouped rest with
        | nil => simp
        | cons head groups =>
            rcases head with ⟨next, inner⟩
            -- The file comes before the first group behind it, and so before all.
            rcases (of_mem_grouped (restGroups ▸ List.mem_cons_self)).2 with ⟨known, reported⟩
            have before : file.order next = .lt :=
              Path.order_lt_of_isBefore (first ⟨next, known⟩ reported) (different _ _ _ restGroups)
            rw [restGroups, List.pairwise_cons] at strict
            intro group member
            rcases List.mem_cons.mp member with rfl | behind
            · exact before
            · exact Path.order_lt_trans before (strict.1 group behind)

/-- Of problems in the order of their files, a group holds all those of its file. -/
theorem eq_filter_of_mem_grouped {reported : List FileProblem}
    (sorted : reported.Pairwise fun left right => left.file.isBefore right.file = true)
    {file : Path} {problems : List Problem} (member : (file, problems) ∈ grouped reported) :
    problems = (reported.filter fun item => item.file.same file).map FileProblem.problem := by
  induction reported generalizing file problems with
  | nil => cases member
  | cons item rest ih =>
      rcases item with ⟨itemFile, problem⟩
      have strict := pairwise_grouped sorted
      have sortedRest := (List.pairwise_cons.mp sorted).2
      have itemSame : itemFile.same itemFile = true := Path.same_iff.mpr rfl
      have later : ∀ {other others}, (other, others) ∈ grouped rest →
          itemFile.order other = .lt →
          others = ((⟨itemFile, problem⟩ :: rest : List FileProblem).filter fun item =>
            item.file.same other).map FileProblem.problem := by
        intro other others inRest before
        rw [List.filter_cons, Path.same_eq_false_of_order_lt before]
        exact ih sortedRest inRest
      rcases grouped_cons_cases itemFile problem rest with
        ⟨next, inner, groups, restGroups, same, joined⟩ | ⟨-, alone⟩
      · rw [joined] at member strict
        rw [List.pairwise_cons] at strict
        rcases List.mem_cons.mp member with equal | otherMember
        · cases equal
          have sameFilter : (fun item : FileProblem => item.file.same next) =
              fun item => item.file.same file := by
            funext item
            rw [Path.same, Path.same, Path.same_iff.mp same]
          have inRest : (next, inner) ∈ grouped rest := restGroups ▸ List.mem_cons_self
          have innerEq := ih sortedRest inRest
          rw [sameFilter] at innerEq
          rw [List.filter_cons, itemSame, innerEq]
          rfl
        · have before := strict.1 (file, problems) otherMember
          exact later (restGroups ▸ List.mem_cons_of_mem _ otherMember) before
      · rw [alone] at member strict
        rw [List.pairwise_cons] at strict
        rcases List.mem_cons.mp member with equal | otherMember
        · cases equal
          -- A problem of the same file further on would be in a later group.
          have noOther : rest.filter (fun item => item.file.same file) = [] := by
            rw [List.filter_eq_nil_iff]
            intro other otherMember otherSame
            rcases exists_mem_grouped otherMember with ⟨group, problems, inGroups, -, groupSame, -⟩
            have apart := Path.same_eq_false_of_order_lt (strict.1 (group, problems) inGroups)
            rw [Path.same_iff] at groupSame otherSame
            rw [Path.same, groupSame, otherSame, BEq.rfl] at apart
            cases apart
          rw [List.filter_cons, itemSame, noOther]
          rfl
        · exact later otherMember (strict.1 (file, problems) otherMember)

theorem pairwise_mergeSort_file (reported : List FileProblem) :
    (reported.mergeSort fun left right => left.file.isBefore right.file).Pairwise
      fun left right => left.file.isBefore right.file = true := by
  apply List.pairwise_mergeSort
  · intro first second third
    exact Path.isBefore_trans
  · intro first second
    exact Path.isBefore_total first.file second.file

/-! ## Problems of an analysis -/

/-- Every problem is among those of a file that is reported and is the same as its
own. -/
theorem exists_mem_ofProblems {reported : List FileProblem} {item : FileProblem}
    (member : item ∈ reported) :
    ∃ entry ∈ ofProblems reported, item.problem ∈ entry.problems ∧
      entry.file.same item.file = true ∧ ∃ first, ⟨entry.file, first⟩ ∈ reported := by
  have inSorted := (List.mergeSort_perm reported
    fun left right => left.file.isBefore right.file).symm.subset member
  rcases exists_mem_grouped inSorted with ⟨file, problems, inGroups, inProblems, same, first, known⟩
  refine ⟨_, List.mem_map_of_mem inGroups, List.mem_mergeSort.mpr inProblems, same, first, ?_⟩
  exact List.mem_mergeSort.mp known

/-- The problems of a file stand in the order in which they are fixed. -/
theorem sorted_of_mem_ofProblems {reported : List FileProblem} {entry : FileProblems}
    (member : entry ∈ ofProblems reported) :
    entry.problems.Pairwise fun left right => comesFirst left right = true := by
  rcases List.mem_map.mp member with ⟨⟨file, problems⟩, -, rfl⟩
  exact pairwise_mergeSort_comesFirst problems

/-- The files of an analysis are in order, and no two of them are the same. -/
theorem pairwise_ofProblems (reported : List FileProblem) :
    (ofProblems reported).Pairwise fun left right => left.file.order right.file = .lt :=
  List.pairwise_map.mpr (pairwise_grouped (pairwise_mergeSort_file reported))

/-- A file has a problem, and is spelled as it is reported. -/
theorem of_mem_ofProblems {reported : List FileProblem} {entry : FileProblems}
    (member : entry ∈ ofProblems reported) :
    entry.problems ≠ [] ∧ ∃ first, ⟨entry.file, first⟩ ∈ reported := by
  rcases List.mem_map.mp member with ⟨⟨file, problems⟩, inGroups, rfl⟩
  rcases of_mem_grouped inGroups with ⟨nonempty, first, known⟩
  refine ⟨?_, first, List.mem_mergeSort.mp known⟩
  intro empty
  have sorted := List.mergeSort_perm problems comesFirst
  change problems.mergeSort comesFirst = [] at empty
  rw [empty] at sorted
  exact nonempty sorted.symm.eq_nil

/-- A file has exactly the problems that are reported on it. -/
theorem perm_of_mem_ofProblems {reported : List FileProblem} {entry : FileProblems}
    (member : entry ∈ ofProblems reported) :
    entry.problems.Perm
      ((reported.filter fun item => item.file.same entry.file).map FileProblem.problem) := by
  rcases List.mem_map.mp member with ⟨⟨file, problems⟩, inGroups, rfl⟩
  have whole := eq_filter_of_mem_grouped (pairwise_mergeSort_file reported) inGroups
  refine (List.mergeSort_perm problems comesFirst).trans ?_
  rw [whole]
  exact ((List.mergeSort_perm reported _).filter _).map _

/-- All files together have as many problems as are reported. -/
theorem total_length_ofProblems (reported : List FileProblem) :
    total ((ofProblems reported).map fun entry => entry.problems.length) = reported.length := by
  have flat := congrArg List.length
    (flatMap_grouped (reported.mergeSort fun left right => left.file.isBefore right.file))
  rw [List.length_map, List.length_mergeSort, ← total_map_length] at flat
  rw [← flat, ofProblems, List.map_map]
  simp only [Function.comp_def, List.length_mergeSort]

/-- What holds of any two problems of a file, in either order, holds of any two
of its group. -/
theorem pairwise_of_mem_ofProblems {relation : Problem → Problem → Prop}
    (symmetric : ∀ {left right}, relation left right → relation right left)
    {reported : List FileProblem} {entry : FileProblems} (member : entry ∈ ofProblems reported)
    (related : (reported.filter fun item => item.file.same entry.file).Pairwise
      fun left right => relation left.problem right.problem) :
    entry.problems.Pairwise relation := by
  have ofReported := List.pairwise_map.mpr related
  exact (perm_of_mem_ofProblems member).symm.pairwise ofReported symmetric

end FileProblems

end LoopLift
