import LoopLift.Loop.Capture
import LoopLift.Proofs.Loop.Jump

/-!
# The names that a closure captures

The names are collected one after the other along the walks of the given nodes, and a name
is left out when it is there already. What comes out are the names that are read under the
nodes and can be captured, each once and in the order of their first occurrence.
-/

namespace LoopLift

open Syntax

/-- A walk visits the nodes that a way leads down to, each with the last node that the way
passes. -/
theorem Syntax.Node.mem_walkFrom_iff {parent visited : Option Node} {node inner : Node} :
    (inner, visited) ∈ walkFrom parent node ↔
      ∃ above, node.Leads above inner ∧ visited = above.getLast?.or parent := by
  induction node using inductionOnChildren generalizing parent with
  | step node ih =>
      rw [walkFrom_eq, walkEach_eq, List.mem_cons, List.mem_flatMap]
      constructor
      · intro visit
        rcases visit with here | ⟨child, member, below⟩
        · cases here
          exact ⟨[], .here inner, rfl⟩
        · rcases (ih child member).mp below with ⟨above, way, rfl⟩
          refine ⟨node :: above, .down member way, ?_⟩
          rw [List.getLast?_cons]
          cases above.getLast? <;> rfl
      · intro way
        rcases way with ⟨above, way, rfl⟩
        rcases leads_iff.mp way with ⟨rfl, rfl⟩ | ⟨child, member, rest, rfl, below⟩
        · exact .inl rfl
        · refine .inr ⟨child, member, (ih child member).mpr ⟨rest, below, ?_⟩⟩
          rw [List.getLast?_cons]
          cases rest.getLast? <;> rfl

namespace Capture

variable {source : String} {ignored : List String} {roots : List Node} {name : String}

/-- A name is read under some nodes: a way leads from one of them down to a reference with
this name. The parent of the reference is the last node on the way. -/
def Reads (source : String) (roots : List Node) (name : String) : Prop :=
  ∃ root ∈ roots, ∃ above node, root.Leads above node ∧
    isReference node above.getLast? = true ∧ referenceName source node = name

/-! ## The names read along the walks -/

theorem references_eq (source : String) (roots : List Node) :
    references source roots =
      ((roots.flatMap Node.walk).filter fun visit => isReference visit.1 visit.2).map
        fun visit => referenceName source visit.1 := by
  rw [references]
  induction roots.flatMap Node.walk with
  | nil => rfl
  | cons visit visits ih =>
      rcases visit with ⟨node, parent⟩
      rw [List.filterMap_cons, List.filter_cons, ih]
      cases read : isReference node parent <;> simp [read]

theorem mem_references_iff : name ∈ references source roots ↔ Reads source roots name := by
  rw [references_eq, List.mem_map]
  constructor
  · intro mapped
    rcases mapped with ⟨⟨node, parent⟩, visit, nameEq⟩
    rcases List.mem_filter.mp visit with ⟨walked, read⟩
    rcases List.mem_flatMap.mp walked with ⟨root, member, inWalk⟩
    rcases Node.mem_walkFrom_iff.mp inWalk with ⟨above, way, rfl⟩
    rw [Option.or_none] at read
    exact ⟨root, member, above, node, way, read, nameEq⟩
  · intro reads
    rcases reads with ⟨root, member, above, node, way, read, nameEq⟩
    refine ⟨(node, above.getLast?), List.mem_filter.mpr ⟨?_, read⟩, nameEq⟩
    refine List.mem_flatMap.mpr ⟨root, member, Node.mem_walkFrom_iff.mpr ⟨above, way, ?_⟩⟩
    rw [Option.or_none]

theorem references_append (source : String) (roots more : List Node) :
    references source (roots ++ more) = references source roots ++ references source more := by
  rw [references, List.flatMap_append, List.filterMap_append]
  rfl

/-! ## One name after the other -/

/-- The first occurrences of the chosen items are the chosen ones of the first
occurrences. -/
theorem eraseDups_filter (chosen : String → Bool) (names : List String) :
    (names.filter chosen).eraseDups = names.eraseDups.filter chosen := by
  cases names with
  | nil => rfl
  | cons name names =>
      have later := eraseDups_filter chosen (names.filter fun other => !other == name)
      rw [List.eraseDups_cons, List.filter_cons, List.filter_cons, ← later]
      cases verdict : chosen name with
      | true =>
          rw [if_pos rfl, if_pos rfl, List.eraseDups_cons, List.filter_filter, List.filter_filter]
          simp only [Bool.and_comm]
      | false =>
          -- The name is not among the chosen ones, so nothing is left out behind it.
          rw [if_neg Bool.false_ne_true, if_neg Bool.false_ne_true, List.filter_filter]
          congr 1
          apply List.filter_congr
          intro other _
          by_cases same : other = name
          · rw [same, verdict, Bool.false_and]
          · rw [beq_eq_false_iff_ne.mpr same, Bool.not_false, Bool.and_true]
termination_by names.length
decreasing_by
  rw [List.length_cons]
  exact Nat.lt_add_one_of_le (List.length_filter_le _ _)

/-- A name is added at the end when it can be captured and is not there already. -/
theorem record_cases (ignored captured : List String) (name : String) :
    (record ignored captured name = captured ++ [name] ∧ isCapturable ignored name = true ∧
      name ∉ captured) ∨
    (record ignored captured name = captured ∧
      (isCapturable ignored name = false ∨ name ∈ captured)) := by
  rw [record]
  split
  · rename_i added
    rw [Bool.and_eq_true, Bool.not_eq_true', List.contains_eq_mem, decide_eq_false_iff_not]
      at added
    exact .inl ⟨rfl, added⟩
  · rename_i passed
    refine .inr ⟨rfl, ?_⟩
    by_cases capturable : isCapturable ignored name = true
    · rw [capturable, Bool.true_and, Bool.not_eq_true', Bool.not_eq_false,
        List.contains_iff_mem] at passed
      exact .inr passed
    · exact .inl (Bool.not_eq_true _ ▸ capturable)

theorem nodup_record {captured : List String} (distinct : captured.Nodup) (name : String) :
    (record ignored captured name).Nodup := by
  rcases record_cases ignored captured name with ⟨added, -, fresh⟩ | ⟨passed, -⟩
  · rw [added]
    refine List.nodup_append.mpr ⟨distinct, List.pairwise_singleton _ name, ?_⟩
    intro earlier member last isLast same
    rw [List.mem_singleton.mp isLast] at same
    exact fresh (same ▸ member)
  · rw [passed]
    exact distinct

theorem nodup_foldl_record {captured : List String} (distinct : captured.Nodup)
    (names : List String) : (names.foldl (record ignored) captured).Nodup := by
  induction names generalizing captured with
  | nil => exact distinct
  | cons name names ih => exact ih (nodup_record distinct name)

/-- To the names that are there already come the first occurrences of all others that can be
captured. -/
theorem foldl_record (ignored captured names : List String) :
    names.foldl (record ignored) captured =
      captured ++ ((names.filter (isCapturable ignored)).filter
        fun name => !captured.contains name).eraseDups := by
  induction names generalizing captured with
  | nil => simp
  | cons name names ih =>
      rw [List.foldl_cons, ih, List.filter_cons]
      rcases record_cases ignored captured name with
        ⟨added, capturable, fresh⟩ | ⟨passed, refused | present⟩
      · -- What is left of the later names are those that differ from this one.
        have later : ∀ others : List String,
            others.filter (fun other => !(captured ++ [name]).contains other) =
              (others.filter fun other => !captured.contains other).filter
                fun other => !other == name := by
          intro others
          rw [List.filter_filter]
          apply List.filter_congr
          intro other _
          rw [Bool.eq_iff_iff]
          simp [and_comm]
        rw [added, if_pos capturable, List.filter_cons_of_pos (by simp [fresh]),
          List.eraseDups_cons, later, List.append_assoc]
        rfl
      · rw [passed, if_neg (by simp [refused])]
      · rw [passed]
        split
        · rw [List.filter_cons_of_neg (by simp [present])]
        · rfl

/-! ## The captured names -/

theorem collect_eq (source : String) (ignored : List String) (roots : List Node) :
    collect source ignored roots =
      ((references source roots).filter (isCapturable ignored)).eraseDups := by
  rw [collect, foldl_record, List.nil_append, List.filter_eq_self.mpr]
  intro name _
  rfl

theorem nodup_collect (source : String) (ignored : List String) (roots : List Node) :
    (collect source ignored roots).Nodup :=
  nodup_foldl_record List.nodup_nil _

theorem isCapturable_iff :
    isCapturable ignored name = true ↔ Text.isBlank name.toList = false ∧ name ∉ ignored := by
  simp [isCapturable]

theorem mem_collect_iff :
    name ∈ collect source ignored roots ↔
      Reads source roots name ∧ Text.isBlank name.toList = false ∧ name ∉ ignored := by
  rw [collect_eq, List.mem_eraseDups, List.mem_filter, mem_references_iff, isCapturable_iff]

theorem collect_append (source : String) (ignored : List String) (roots more : List Node) :
    collect source ignored (roots ++ more) =
      collect source ignored roots ++
        (collect source ignored more).filter fun name =>
          decide (name ∉ collect source ignored roots) := by
  rw [collect_eq source ignored more, ← eraseDups_filter]
  rw [collect, references_append, List.foldl_append, ← collect, foldl_record]
  simp only [List.contains_eq_mem, decide_not]

/-- Captured are the first occurrences of the names that the references along the walks read,
without the blank and the ignored ones. So no name is captured twice, a name is captured
exactly when it is read under the nodes and is neither blank nor ignored, and further nodes
add their own names behind those that are there. -/
theorem collect_keeps_first_occurrences (source : String) (ignored : List String)
    (roots : List Node) :
    collect source ignored roots =
        ((((roots.flatMap Node.walk).filter fun visit => isReference visit.1 visit.2).map
          fun visit => referenceName source visit.1).filter fun name =>
            decide (Text.isBlank name.toList = false ∧ name ∉ ignored)).eraseDups ∧
      (collect source ignored roots).Nodup ∧
      (∀ name, name ∈ collect source ignored roots ↔
        Reads source roots name ∧ Text.isBlank name.toList = false ∧ name ∉ ignored) ∧
      ∀ more, collect source ignored (roots ++ more) =
        collect source ignored roots ++
          (collect source ignored more).filter fun name =>
            decide (name ∉ collect source ignored roots) := by
  have capturable : isCapturable ignored = fun name =>
      decide (Text.isBlank name.toList = false ∧ name ∉ ignored) := by
    funext name
    rw [Bool.eq_iff_iff, decide_eq_true_iff]
    exact isCapturable_iff
  refine ⟨?_, nodup_collect source ignored roots, ?_, collect_append source ignored roots⟩
  · rw [collect_eq, references_eq, capturable]
  · intro name
    exact mem_collect_iff

end Capture

end LoopLift
