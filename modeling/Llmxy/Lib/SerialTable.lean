import Llmxy.Lib.Table

/-!
# Tables whose ids come from a sequence

A `SerialTable ρ` is a table with the sequence its ids are drawn from.  The sequence only
moves forward, so an id that a deleted row had is never given again: what was once said about
an id cannot come to be said about another row.

## Main definitions

* `SerialTable` — the rows and the sequence.
* `SerialTable.insert`, `update`, `updateAll`, `delete` — the statements.
* `SerialTable.mem_insert`, `mem_update`, `mem_updateAll`, `mem_delete` — their rows.
-/

namespace Llmxy

universe u

/-- A table and the next value of its id sequence. -/
structure SerialTable (ρ : Type u) [HasId ρ] where
  table : Table ρ
  nextId : ℤ
  /-- Every id was drawn. -/
  lt_nextId : ∀ r ∈ table.rows, rowId r < nextId

namespace SerialTable
variable {ρ : Type u} [HasId ρ] {t : SerialTable ρ} {r : ρ} {k : ℤ} {f : RowUpdate ρ}

/-- No rows, and a fresh sequence. -/
def empty : SerialTable ρ := ⟨.empty, 1, fun _ h => by cases h⟩

/-- The rows, in scan order. -/
def rows (t : SerialTable ρ) : List ρ := t.table.rows

/-- The row of id `k`. -/
def get? (t : SerialTable ρ) (k : ℤ) : Option ρ := t.table.get? k

theorem get?_eq_some : t.get? k = some r ↔ r ∈ t.rows ∧ rowId r = k := Table.get?_eq_some

theorem get?_of_mem (h : r ∈ t.rows) : t.get? (rowId r) = some r := get?_eq_some.mpr ⟨h, rfl⟩

theorem rowId_lt (h : r ∈ t.rows) : rowId r < t.nextId := t.lt_nextId r h

theorem lt_of_get? (h : t.get? k = some r) : k < t.nextId := by
  obtain ⟨hmem, rfl⟩ := get?_eq_some.mp h
  exact rowId_lt hmem

/-- `INSERT` of a row under the next id. -/
def insert (t : SerialTable ρ) (mk : ℤ → ρ) (hmk : ∀ k, rowId (mk k) = k) : SerialTable ρ where
  table :=
    { rows := t.table.rows ++ [mk t.nextId]
      nodup := by
        rw [List.map_append, List.map_singleton, hmk]
        refine List.nodup_append.mpr ⟨t.table.nodup, List.nodup_singleton _, ?_⟩
        intro x hx y hy
        obtain ⟨r, hr, rfl⟩ := List.mem_map.mp hx
        rw [List.mem_singleton.mp hy]
        exact Int.ne_of_lt (t.lt_nextId r hr) }
  nextId := t.nextId + 1
  lt_nextId := by
    intro r hr
    obtain hr | hr := List.mem_append.mp hr
    · have := t.lt_nextId r hr
      omega
    · rw [List.mem_singleton.mp hr, hmk]
      omega

/-- `UPDATE` of the row of id `k`. -/
def update (t : SerialTable ρ) (k : ℤ) (f : RowUpdate ρ) : SerialTable ρ where
  table := t.table.update k f
  nextId := t.nextId
  lt_nextId := by
    intro r hr
    obtain ⟨r', hr', rfl⟩ := List.mem_map.mp hr
    split_ifs
    · exact (f.2 r').symm ▸ t.lt_nextId r' hr'
    · exact t.lt_nextId r' hr'

/-- `UPDATE` of every row. -/
def updateAll (t : SerialTable ρ) (f : RowUpdate ρ) : SerialTable ρ where
  table :=
    { rows := t.table.rows.map f.1
      nodup := by
        have heq : (t.table.rows.map f.1).map rowId = t.table.rows.map rowId := by
          rw [List.map_map]
          exact List.map_congr_left fun r _ => f.2 r
        rw [heq]
        exact t.table.nodup }
  nextId := t.nextId
  lt_nextId := by
    intro r hr
    obtain ⟨r', hr', rfl⟩ := List.mem_map.mp hr
    exact (f.2 r').symm ▸ t.lt_nextId r' hr'

/-- `DELETE` of the row of id `k`. -/
def delete (t : SerialTable ρ) (k : ℤ) : SerialTable ρ where
  table :=
    { rows := t.table.rows.filter fun r => rowId r ≠ k
      nodup := t.table.nodup.sublist (List.filter_sublist.map rowId) }
  nextId := t.nextId
  lt_nextId := fun r hr => t.lt_nextId r (List.mem_of_mem_filter hr)

theorem mem_insert {mk : ℤ → ρ} (hmk : ∀ k, rowId (mk k) = k) :
    r ∈ (t.insert mk hmk).rows ↔ r ∈ t.rows ∨ r = mk t.nextId := by
  simp [insert, rows]

theorem mem_update : r ∈ (t.update k f).rows ↔
    ∃ r' ∈ t.rows, (if rowId r' = k then f.1 r' else r') = r := List.mem_map

theorem mem_updateAll : r ∈ (t.updateAll f).rows ↔ ∃ r' ∈ t.rows, f.1 r' = r := List.mem_map

theorem mem_delete : r ∈ (t.delete k).rows ↔ r ∈ t.rows ∧ rowId r ≠ k := by
  simp [delete, rows]

theorem get?_update (k' : ℤ) :
    (t.update k f).get? k' = if k' = k then (t.get? k').map f.1 else t.get? k' :=
  Table.get?_update t.table k k' f

theorem get?_updateAll (k : ℤ) : (t.updateAll f).get? k = (t.get? k).map f.1 := by
  ext r
  rw [get?_eq_some, mem_updateAll, Option.map_eq_some_iff]
  constructor
  · rintro ⟨⟨r', hr', rfl⟩, hid⟩
    exact ⟨r', get?_eq_some.mpr ⟨hr', (f.2 r').symm.trans hid⟩, rfl⟩
  · rintro ⟨r', hget, rfl⟩
    obtain ⟨hr', hid⟩ := get?_eq_some.mp hget
    exact ⟨⟨r', hr', rfl⟩, (f.2 r').trans hid⟩

theorem get?_delete (k' : ℤ) : (t.delete k).get? k' = if k' = k then none else t.get? k' := by
  ext r
  rw [get?_eq_some, mem_delete]
  split_ifs with hk
  · subst hk
    simp only [iff_false]
    rintro ⟨⟨-, hne⟩, hid⟩
    exact hne hid
  · rw [get?_eq_some]
    constructor
    · rintro ⟨⟨hr, -⟩, hid⟩
      exact ⟨hr, hid⟩
    · rintro ⟨hr, hid⟩
      exact ⟨⟨hr, hid ▸ hk⟩, hid⟩

theorem get?_insert {mk : ℤ → ρ} (hmk : ∀ k, rowId (mk k) = k) (k : ℤ) :
    (t.insert mk hmk).get? k = if k = t.nextId then some (mk k) else t.get? k := by
  ext r
  rw [get?_eq_some, mem_insert hmk]
  split_ifs with hk
  · subst hk
    rw [Option.some.injEq]
    constructor
    · rintro ⟨hr | rfl, hid⟩
      · exact absurd hid (Int.ne_of_lt (rowId_lt hr))
      · rfl
    · rintro rfl
      exact ⟨.inr rfl, hmk _⟩
  · rw [get?_eq_some]
    constructor
    · rintro ⟨hr | rfl, hid⟩
      · exact ⟨hr, hid⟩
      · exact absurd ((hmk _).symm.trans hid).symm hk
    · rintro ⟨hr, hid⟩
      exact ⟨.inl hr, hid⟩

@[simp] theorem rows_empty : (empty : SerialTable ρ).rows = [] := rfl

@[simp] theorem nextId_update : (t.update k f).nextId = t.nextId := rfl

end SerialTable
end Llmxy
