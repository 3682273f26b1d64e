import LoopLift.Path.Basic

/-!
# The order of paths

Components are ordered by rank and, within names, by their text. Paths are
ordered by their components, so that the order is transitive and total, and ties
are exactly the paths with the same components.
-/

namespace LoopLift

namespace Component

/-- The text that decides between components of one rank. -/
def label : Component → String
  | .name text => text
  | _ => ""

theorem order_eq_compareLex : order = compareLex (compareOn rank) (compareOn label) := by
  funext left right
  cases left <;> cases right <;>
    simp [order, compareLex, compareOn, rank, label, Nat.compare_eq_ite_lt]

instance : Std.TransCmp order := by
  rw [order_eq_compareLex]
  infer_instance

instance : Std.LawfulEqCmp order where
  compare_self := by
    intro component
    cases component <;> simp [order]
  eq_of_compare := by
    intro left right tied
    cases left <;> cases right <;> simp_all [order, rank]

end Component

namespace Path

theorem same_iff {left right : Path} :
    left.same right = true ↔ left.components = right.components := by
  rw [same, beq_iff_eq]

instance : Std.TransCmp order where
  eq_swap := by
    intro left right
    rw [order, order]
    exact Std.OrientedCmp.eq_swap
  isLE_trans := by
    intro first second third before behind
    rw [order] at before behind ⊢
    exact Std.TransCmp.isLE_trans before behind

theorem order_eq_iff_same {left right : Path} :
    left.order right = .eq ↔ left.same right = true := by
  rw [order, same_iff]
  exact Std.LawfulEqCmp.compare_eq_iff_eq

/-- Of two paths that differ, the one that does not come after comes before. -/
theorem order_lt_of_isBefore {left right : Path} (before : left.isBefore right = true)
    (different : right.same left = false) : left.order right = .lt := by
  rw [isBefore] at before
  cases compared : left.order right with
  | lt => rfl
  | gt => simp [compared] at before
  | eq =>
      rw [order_eq_iff_same, same_iff] at compared
      rw [same, compared] at different
      simp at different

theorem order_congr {left right other : Path} (same : left.same right = true) :
    left.order other = right.order other := by
  rw [order, order, same_iff.mp same]

theorem order_lt_trans {first second third : Path} (before : first.order second = .lt)
    (behind : second.order third = .lt) : first.order third = .lt :=
  @Std.TransCmp.lt_trans _ order _ first second third before behind

theorem order_lt_irrefl (path : Path) : path.order path ≠ .lt := by
  rw [order_eq_iff_same.mpr (same_iff.mpr rfl)]
  exact Ordering.noConfusion

theorem same_eq_false_of_order_lt {left right : Path} (before : left.order right = .lt) :
    left.same right = false := by
  rw [Bool.eq_false_iff, ne_eq, ← order_eq_iff_same, before]
  exact Ordering.noConfusion

theorem isBefore_trans {first second third : Path} (before : first.isBefore second = true)
    (behind : second.isBefore third = true) : first.isBefore third = true :=
  @Std.TransCmp.isLE_trans _ order _ first second third before behind

theorem isBefore_total (left right : Path) :
    (left.isBefore right || right.isBefore left) = true := by
  rw [isBefore, isBefore, @Std.OrientedCmp.eq_swap _ order _ right left]
  cases left.order right <;> rfl

theorem pairwise_mergeSort_isBefore (paths : List Path) :
    (paths.mergeSort isBefore).Pairwise fun left right => left.isBefore right = true := by
  apply List.pairwise_mergeSort
  · intro first second third
    exact isBefore_trans
  · intro first second
    exact isBefore_total first second

end Path

end LoopLift
