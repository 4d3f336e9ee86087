import Llmxy.Lib.Table
import Mathlib.Algebra.BigOperators.Group.List.Basic
import Mathlib.Tactic.Abel

/-!
# Sums over a table

An update changes the sum of a column, or of any function of a row, by what it does to the one
row of its key.

## Main definitions

* `Table.total` — the sum over the rows.
* `Table.total_update` — what an update does to it.
-/

namespace Llmxy

universe u v
variable {ρ : Type u} [HasId ρ] {α : Type v} [AddCommGroup α]

/-- The sum over all rows. -/
def Table.total (f : ρ → α) (t : Table ρ) : α := (t.rows.map f).sum

/-- Where the keys are distinct, one row has the key of `r`. -/
theorem sum_map_of_key {l : List ρ} (hnodup : (l.map rowId).Nodup) {r : ρ} (hr : r ∈ l)
    (d : ρ → α) : (l.map fun x => if rowId x = rowId r then d x else 0).sum = d r := by
  induction l with
  | nil => cases hr
  | cons x l ih =>
      obtain ⟨hnew, hnodup'⟩ := List.nodup_cons.mp hnodup
      rw [List.map_cons, List.sum_cons]
      obtain rfl | hr := List.mem_cons.mp hr
      · have hrest : ∀ y ∈ l, (if rowId y = rowId r then d y else 0) = 0 := by
          intro y hy
          refine if_neg fun heq => hnew ?_
          rw [← heq]
          exact List.mem_map_of_mem hy
        rw [if_pos rfl, List.map_congr_left hrest]
        simp
      · have hne : rowId x ≠ rowId r := by
          intro heq
          rw [heq] at hnew
          exact hnew (List.mem_map_of_mem hr)
        rw [if_neg hne, zero_add, ih hnodup' hr]

/-- **An update changes the total** by what it does to its row. -/
theorem Table.total_update {t : Table ρ} {k : ℤ} {r : ρ} (h : t.get? k = some r)
    (f : ρ → α) (g : RowUpdate ρ) : (t.update k g).total f = t.total f + (f (g.1 r) - f r) := by
  obtain ⟨hr, rfl⟩ := Table.get?_eq_some.mp h
  have heach : ∀ x ∈ t.rows, f (if rowId x = rowId r then g.1 x else x) =
      f x + if rowId x = rowId r then f (g.1 x) - f x else 0 := by
    intro x _
    split_ifs
    · abel
    · rw [add_zero]
  rw [total, total, rows_update, List.map_map]
  refine (congrArg List.sum (List.map_congr_left heach)).trans ?_
  rw [List.sum_map_add, sum_map_of_key t.nodup hr]

end Llmxy
