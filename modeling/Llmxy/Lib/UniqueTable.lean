import Mathlib.Data.List.Nodup
import Mathlib.Data.Fintype.Basic
import Mathlib.Logic.Function.Basic
import Mathlib.Tactic.Common

/-!
# A unique column under concurrent inserts

A transaction inserts a row and commits it later.  Until then the others do not read the row, but
they cannot insert another of its key either: the insert waits for the transaction that holds the
key, and fails when the key is that of a committed row.

So a check that a key is free, made by a read before the insert, is not needed for the keys to stay
distinct, and the row of a key that has been committed once is the row of that key for good.

## Main definitions

* `UniqueTable` — the committed rows, and the row that each transaction has inserted.
* `UniqueTable.insert`, `commit`, `rollback`, `update` — the statements.
* `UniqueTable.Distinct` — no two rows have one key, and how each statement keeps it.
-/

namespace Llmxy

universe u v w

/-- Committed rows, in the order of their commits, and at most one row of each transaction that is
open. -/
structure UniqueTable (ι : Type u) (ρ : Type v) where
  rows : List ρ
  pending : ι → Option ρ

namespace UniqueTable
variable {ι : Type u} {ρ : Type v} {κ : Type w} {key : ρ → κ} {t t' : UniqueTable ι ρ} {i : ι}
  {r : ρ} {k : κ}

/-- These rows, and no transaction. -/
def idle (rows : List ρ) : UniqueTable ι ρ := ⟨rows, fun _ => none⟩

/-- `UPDATE` of the committed rows. -/
def update (f : ρ → ρ) (t : UniqueTable ι ρ) : UniqueTable ι ρ := { t with rows := t.rows.map f }

/-- **No two rows have one key**, be they committed or not. -/
structure Distinct (key : ρ → κ) (t : UniqueTable ι ρ) : Prop where
  rows : (t.rows.map key).Nodup
  pending : ∀ i r, t.pending i = some r → key r ∉ t.rows.map key
  exclusive : ∀ i j r r', t.pending i = some r → t.pending j = some r' → key r = key r' → i = j

theorem distinct_idle {rows : List ρ} (h : (rows.map key).Nodup) :
    (idle rows : UniqueTable ι ρ).Distinct key :=
  ⟨h, fun _ _ h => (Option.some_ne_none _ h.symm).elim,
    fun _ _ _ _ h => (Option.some_ne_none _ h.symm).elim⟩

/-- **An update** leaves the keys. -/
theorem Distinct.update {f : ρ → ρ} (h : t.Distinct key) (hf : ∀ r, key (f r) = key r) :
    (t.update f).Distinct key := by
  have hkeys : (t.update f).rows.map key = t.rows.map key := by
    rw [UniqueTable.update, List.map_map]
    exact List.map_congr_left fun r _ => hf r
  exact ⟨by rw [hkeys]; exact h.rows, fun i r hr => by rw [hkeys]; exact h.pending i r hr,
    h.exclusive⟩

/-! ### The end of a transaction -/

section
variable [DecidableEq ι]

/-- `COMMIT` of a transaction, with the row that it has inserted. -/
def commit (t : UniqueTable ι ρ) (i : ι) : UniqueTable ι ρ where
  rows := t.rows ++ (t.pending i).toList
  pending := Function.update t.pending i none

/-- `ROLLBACK`. -/
def rollback (t : UniqueTable ι ρ) (i : ι) : UniqueTable ι ρ :=
  { t with pending := Function.update t.pending i none }

theorem mem_commit : r ∈ (t.commit i).rows ↔ r ∈ t.rows ∨ t.pending i = some r := by
  rw [commit, List.mem_append, Option.mem_toList]

theorem pending_of_ended {j : ι} (h : Function.update t.pending i none j = some r) :
    j ≠ i ∧ t.pending j = some r := by
  by_cases hj : j = i
  · simp [hj] at h
  · exact ⟨hj, by simpa [hj] using h⟩

/-- A row that is held has a key that is free. -/
theorem Distinct.hold (h : t.Distinct key) (hrows : key r ∉ t.rows.map key)
    (hpending : ∀ j r', j ≠ i → t.pending j = some r' → key r' ≠ key r) :
    Distinct key { t with pending := Function.update t.pending i (some r) } := by
  refine ⟨h.rows, fun j r' hr' => ?_, fun j j' r₁ r₂ h₁ h₂ heq => ?_⟩
  · by_cases hj : j = i
    · subst hj
      obtain rfl : r = r' := by simpa using hr'
      exact hrows
    · exact h.pending j r' (by simpa [hj] using hr')
  · by_cases hj : j = i
    · by_cases hj' : j' = i
      · rw [hj, hj']
      · obtain rfl : r = r₁ := by simpa [hj] using h₁
        exact absurd heq.symm (hpending j' r₂ hj' (by simpa [hj'] using h₂))
    · by_cases hj' : j' = i
      · obtain rfl : r = r₂ := by simpa [hj'] using h₂
        exact absurd heq (hpending j r₁ hj (by simpa [hj] using h₁))
      · exact h.exclusive j j' r₁ r₂ (by simpa [hj] using h₁) (by simpa [hj'] using h₂) heq

/-- **A commit** gives the key to the row that has held it. -/
theorem Distinct.commit (h : t.Distinct key) (i : ι) : (t.commit i).Distinct key := by
  have hkeys : ∀ k, k ∈ (t.commit i).rows.map key ↔
      k ∈ t.rows.map key ∨ ∃ r, t.pending i = some r ∧ key r = k := by
    intro k
    simp only [List.mem_map, mem_commit, or_and_right, exists_or]
  refine ⟨?_, fun j r' hr' => ?_, fun j j' r₁ r₂ h₁ h₂ heq => ?_⟩
  · cases hi : t.pending i with
    | none => simpa [UniqueTable.commit, hi] using h.rows
    | some r =>
        rw [UniqueTable.commit, hi, Option.toList_some, List.map_append, List.map_singleton]
        exact List.nodup_append.mpr ⟨h.rows, List.nodup_singleton _,
          fun a ha b hb hab => h.pending i r hi (by rwa [← List.mem_singleton.mp hb, ← hab])⟩
  · obtain ⟨hj, hr'⟩ := pending_of_ended hr'
    rw [hkeys, not_or]
    exact ⟨h.pending j r' hr', fun ⟨r, hr, heq⟩ => hj (h.exclusive j i r' r hr' hr heq.symm)⟩
  · exact h.exclusive j j' r₁ r₂ (pending_of_ended h₁).2 (pending_of_ended h₂).2 heq

/-- **A rollback** frees a key. -/
theorem Distinct.rollback (h : t.Distinct key) (i : ι) : (t.rollback i).Distinct key :=
  ⟨h.rows, fun j r' hr' => h.pending j r' (pending_of_ended hr').2,
    fun j j' r₁ r₂ h₁ h₂ heq =>
      h.exclusive j j' r₁ r₂ (pending_of_ended h₁).2 (pending_of_ended h₂).2 heq⟩

end

/-! ### Reading and inserting -/

section
variable [DecidableEq κ]

/-- The committed row of a key. -/
def find? (key : ρ → κ) (t : UniqueTable ι ρ) (k : κ) : Option ρ := t.rows.find? fun r => key r = k

theorem find?_eq_some (h : t.find? key k = some r) : r ∈ t.rows ∧ key r = k :=
  ⟨List.mem_of_find?_eq_some h, of_decide_eq_true (List.find?_some (p := fun r => key r = k) h)⟩

theorem find?_eq_none (h : t.find? key k = none) : k ∉ t.rows.map key := by
  rw [List.mem_map]
  rintro ⟨r, hr, rfl⟩
  exact List.find?_eq_none.mp h r hr (decide_eq_true rfl)

/-- A row is found by its key. -/
theorem Distinct.find?_of_mem (h : t.Distinct key) (hr : r ∈ t.rows) :
    t.find? key (key r) = some r := by
  cases hfind : t.find? key (key r) with
  | none => exact absurd (List.mem_map_of_mem hr) (find?_eq_none hfind)
  | some r' =>
      obtain ⟨hr', hkey⟩ := find?_eq_some hfind
      rw [List.inj_on_of_nodup_map h.rows hr' hr hkey]

variable [DecidableEq ι] [Fintype ι]

/-- Another transaction has inserted the key. -/
def Waits (key : ρ → κ) (t : UniqueTable ι ρ) (i : ι) (k : κ) : Prop :=
  ∃ j, j ≠ i ∧ (t.pending j).any fun r => key r = k

instance (key : ρ → κ) (t : UniqueTable ι ρ) (i : ι) (k : κ) : Decidable (t.Waits key i k) :=
  inferInstanceAs (Decidable (∃ j, j ≠ i ∧ (t.pending j).any fun r => key r = k))

/-- `INSERT`: `none` while it waits, and no table when the key is taken. -/
def insert (key : ρ → κ) (t : UniqueTable ι ρ) (i : ι) (r : ρ) :
    Option (Option (UniqueTable ι ρ)) :=
  if t.Waits key i (key r) then none
  else
    match t.find? key (key r) with
    | some _ => some none
    | none => some (some { t with pending := Function.update t.pending i (some r) })

/-- What an insert that succeeds has found. -/
theorem insert_eq_some (h : t.insert key i r = some (some t')) :
    ¬ t.Waits key i (key r) ∧ t.find? key (key r) = none ∧
      t' = { t with pending := Function.update t.pending i (some r) } := by
  rw [insert] at h
  split_ifs at h with hwaits
  cases hfind : t.find? key (key r) with
  | some r' =>
      rw [hfind] at h
      cases h
  | none =>
      rw [hfind] at h
      exact ⟨hwaits, rfl, (Option.some.inj (Option.some.inj h)).symm⟩

/-- **An insert** takes a key that is free. -/
theorem Distinct.insert (h : t.Distinct key) (hins : t.insert key i r = some (some t')) :
    t'.Distinct key := by
  obtain ⟨hwaits, hnone, rfl⟩ := insert_eq_some hins
  refine h.hold (find?_eq_none hnone) fun j r' hj hr' heq => hwaits ⟨j, hj, ?_⟩
  simp [hr', heq]

end
end UniqueTable
end Llmxy
