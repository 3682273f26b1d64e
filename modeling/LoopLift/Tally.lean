/-!
# Totals

The sum of a list of counts.
-/

namespace LoopLift

/-- The sum of a list of counts. -/
def total : List Nat → Nat
  | [] => 0
  | count :: rest => count + total rest

@[simp] theorem total_nil : total [] = 0 := rfl

@[simp] theorem total_cons (count : Nat) (rest : List Nat) :
    total (count :: rest) = count + total rest := rfl

@[simp] theorem total_append (left right : List Nat) :
    total (left ++ right) = total left + total right := by
  induction left with
  | nil => simp
  | cons count rest ih => simp [ih, Nat.add_assoc]

/-- The lengths of some lists add up to the length of the lists in a row. -/
theorem total_map_length {α β : Type} (lists : α → List β) (items : List α) :
    total (items.map fun item => (lists item).length) = (items.flatMap lists).length := by
  induction items with
  | nil => rfl
  | cons item rest ih => simp [ih]

theorem total_map_le {α : Type} {smaller larger : α → Nat} {items : List α}
    (le : ∀ item ∈ items, smaller item ≤ larger item) :
    total (items.map smaller) ≤ total (items.map larger) := by
  induction items with
  | nil => exact Nat.le_refl _
  | cons item rest ih =>
      simp only [List.map_cons, total_cons]
      exact Nat.add_le_add (le item List.mem_cons_self)
        (ih fun other member => le other (List.mem_cons_of_mem item member))

theorem total_eq_zero_iff {counts : List Nat} : total counts = 0 ↔ ∀ count ∈ counts, count = 0 := by
  induction counts with
  | nil => simp
  | cons count rest ih => simp [ih]

end LoopLift
