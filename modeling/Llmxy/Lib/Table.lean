import Mathlib.Data.List.Nodup
import Mathlib.Data.Int.Order.Basic
import Mathlib.Tactic.Common

/-!
# Tables with a primary key

A `Table ρ` is a list of rows whose ids are pairwise distinct, in the physical
order a sequential scan returns them in.  The primary key is a field of the
structure, so a table with two rows of one id cannot be built, and an update has
to be a `RowUpdate`, which keeps the id of every row it is applied to.

## Main definitions

* `HasId`, `RowUpdate`, `Table`.
* `Table.get?`, `Table.select`, `Table.update`, `Table.insert` — the statements.
* `Table.get?_update`, `Table.update_update_cancel` — how they compose.
-/

namespace Llmxy

universe u

/-- Rows that carry an integer primary key. -/
class HasId (ρ : Type u) where
  /-- The primary key of a row. -/
  rowId : ρ → ℤ

export HasId (rowId)

/-- A change of a row that does not touch its primary key. -/
def RowUpdate (ρ : Type u) [HasId ρ] := { f : ρ → ρ // ∀ r, rowId (f r) = rowId r }

/-- Rows with pairwise distinct primary keys, in scan order. -/
@[ext] structure Table (ρ : Type u) [HasId ρ] where
  /-- The rows, in scan order. -/
  rows : List ρ
  /-- The primary key. -/
  nodup : (rows.map rowId).Nodup

namespace Table
variable {ρ : Type u} [HasId ρ] {t : Table ρ} {r r' : ρ} {k k' : ℤ} {f g : RowUpdate ρ}

/-- No rows. -/
def empty : Table ρ := ⟨[], List.nodup_nil⟩

/-- One row. -/
def single (r : ρ) : Table ρ := ⟨[r], List.nodup_singleton _⟩

/-- The row of id `k`. -/
def get? (t : Table ρ) (k : ℤ) : Option ρ := t.rows.find? fun r => rowId r = k

/-- `SELECT` with a filter, in scan order. -/
def select (t : Table ρ) (p : ρ → Bool) : List ρ := t.rows.filter p

private theorem map_id_update (l : List ρ) (k : ℤ) (f : RowUpdate ρ) :
    (l.map fun r => if rowId r = k then f.1 r else r).map rowId = l.map rowId := by
  rw [List.map_map]
  refine List.map_congr_left fun r _ => ?_
  simp only [Function.comp]
  split
  · exact f.2 r
  · rfl

/-- `UPDATE` of the row of id `k`. -/
def update (t : Table ρ) (k : ℤ) (f : RowUpdate ρ) : Table ρ where
  rows := t.rows.map fun r => if rowId r = k then f.1 r else r
  nodup := by rw [map_id_update]; exact t.nodup

/-- The next value of the id sequence. -/
def nextId (t : Table ρ) : ℤ := (t.rows.map rowId).foldr max 0 + 1

private theorem le_foldr_max {l : List ℤ} {x : ℤ} (h : x ∈ l) : x ≤ l.foldr max 0 := by
  induction l with
  | nil => cases h
  | cons y l ih =>
      rw [List.foldr_cons]
      rcases List.mem_cons.mp h with rfl | h
      · exact le_max_left _ _
      · exact le_trans (ih h) (le_max_right _ _)

theorem nextId_notMem (t : Table ρ) : t.nextId ∉ t.rows.map rowId := by
  intro h
  have := le_foldr_max h
  unfold nextId at this
  omega

/-- `INSERT` of a row under the next id. -/
def insert (t : Table ρ) (mk : ℤ → ρ) (hmk : ∀ k, rowId (mk k) = k) : Table ρ where
  rows := t.rows ++ [mk t.nextId]
  nodup := by
    rw [List.map_append, List.map_singleton, hmk]
    exact List.nodup_append.mpr
      ⟨t.nodup, List.nodup_singleton _, by
        intro x hx y hy
        rw [List.mem_singleton.mp hy]
        rintro rfl
        exact t.nextId_notMem hx⟩

@[simp] theorem rows_update (t : Table ρ) (k : ℤ) (f : RowUpdate ρ) :
    (t.update k f).rows = t.rows.map fun r => if rowId r = k then f.1 r else r := rfl

@[simp] theorem rows_insert (t : Table ρ) (mk : ℤ → ρ) (hmk : ∀ k, rowId (mk k) = k) :
    (t.insert mk hmk).rows = t.rows ++ [mk t.nextId] := rfl

/-- Two rows of one id are one row. -/
theorem eq_of_rowId_eq (hr : r ∈ t.rows) (hr' : r' ∈ t.rows) (h : rowId r = rowId r') : r = r' :=
  List.inj_on_of_nodup_map t.nodup hr hr' h

theorem get?_eq_some : t.get? k = some r ↔ r ∈ t.rows ∧ rowId r = k := by
  constructor
  · intro h
    exact ⟨List.mem_of_find?_eq_some h, by simpa using List.find?_some h⟩
  · rintro ⟨hr, rfl⟩
    cases h : t.get? (rowId r) with
    | none => exact absurd (List.find?_eq_none.mp h r hr) (by simp)
    | some r' =>
        have hk : rowId r' = rowId r := by simpa using List.find?_some h
        rw [eq_of_rowId_eq (List.mem_of_find?_eq_some h) hr hk]

theorem get?_eq_none : t.get? k = none ↔ ∀ r ∈ t.rows, rowId r ≠ k := by
  simp [get?, List.find?_eq_none]

theorem mem_select {p : ρ → Bool} : r ∈ t.select p ↔ r ∈ t.rows ∧ p r = true :=
  List.mem_filter

/-- Reading a row after an update: only the updated row changes. -/
theorem get?_update (t : Table ρ) (k k' : ℤ) (f : RowUpdate ρ) :
    (t.update k f).get? k' = if k' = k then (t.get? k').map f.1 else t.get? k' := by
  have hrow : ∀ l : List ρ,
      (l.map fun r => if rowId r = k then f.1 r else r).find? (fun r => rowId r = k')
        = if k' = k then (l.find? fun r => rowId r = k').map f.1
          else l.find? fun r => rowId r = k' := by
    intro l
    induction l with
    | nil => simp
    | cons r l ih =>
        rw [List.map_cons, List.find?_cons, List.find?_cons, ih]
        have hid : rowId (if rowId r = k then f.1 r else r) = rowId r := by
          split
          · exact f.2 r
          · rfl
        simp only [hid]
        by_cases hr : rowId r = k'
        · by_cases hk : k' = k
          · simp [hr, hk]
          · simp [hr, hk]
        · simp [hr]
  exact hrow t.rows

@[simp] theorem get?_update_self (t : Table ρ) (k : ℤ) (f : RowUpdate ρ) :
    (t.update k f).get? k = (t.get? k).map f.1 := by simp [get?_update]

theorem get?_update_of_ne (h : k' ≠ k) : (t.update k f).get? k' = t.get? k' := by
  simp [get?_update, h]

/-- An update adds and removes no row. -/
theorem isSome_get?_update (t : Table ρ) (k k' : ℤ) (f : RowUpdate ρ) :
    ((t.update k f).get? k').isSome = (t.get? k').isSome := by
  rw [get?_update]
  split_ifs <;> simp

/-- Reading a row after an insert. -/
theorem get?_insert (t : Table ρ) (mk : ℤ → ρ) (hmk : ∀ k, rowId (mk k) = k) (k : ℤ) :
    (t.insert mk hmk).get? k = if k = t.nextId then some (mk k) else t.get? k := by
  by_cases hk : k = t.nextId
  · subst hk
    rw [if_pos rfl, get?_eq_some]
    exact ⟨by simp, hmk _⟩
  · rw [if_neg hk]
    have hne : rowId (mk t.nextId) ≠ k := by
      rw [hmk]
      exact fun h => hk h.symm
    simp [get?, List.find?_append, hne]

/-- An update is decided by what it does to its row. -/
theorem update_congr (h : ∀ r, t.get? k = some r → f.1 r = g.1 r) : t.update k f = t.update k g := by
  refine Table.ext (List.map_congr_left fun r hr => ?_)
  split
  · next hk => exact h r (get?_eq_some.mpr ⟨hr, hk⟩)
  · rfl

/-- An update that keeps its row keeps the table. -/
theorem update_eq_self (h : ∀ r, t.get? k = some r → f.1 r = r) : t.update k f = t := by
  refine Table.ext ((List.map_congr_left fun r hr => ?_).trans (List.map_id _))
  split
  · next hk => exact h r (get?_eq_some.mpr ⟨hr, hk⟩)
  · rfl

/-- Two updates of one row in a row. -/
theorem update_update (t : Table ρ) (k : ℤ) (f g h : RowUpdate ρ) (hh : ∀ r, h.1 r = g.1 (f.1 r)) :
    (t.update k f).update k g = t.update k h := by
  refine Table.ext ?_
  rw [rows_update, rows_update, List.map_map]
  refine List.map_congr_left fun r _ => ?_
  by_cases hk : rowId r = k
  · simp [hk, f.2 r, hh]
  · simp [hk]

/-- A second update of the row that undoes the first restores the table. -/
theorem update_update_cancel (h : ∀ r ∈ t.rows, rowId r = k → g.1 (f.1 r) = r) :
    (t.update k f).update k g = t := by
  refine Table.ext ?_
  rw [rows_update, rows_update, List.map_map]
  refine (List.map_congr_left ?_).trans (List.map_id _)
  intro r hr
  by_cases hk : rowId r = k
  · simp [hk, f.2 r, h r hr hk]
  · simp [hk]

end Table
end Llmxy
