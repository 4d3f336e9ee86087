import Mathlib.Logic.Function.Basic
import Mathlib.Tactic.Common

/-!
# READ COMMITTED transactions with row locks

The rows of a database are one value `ρ`.  A transaction `i` that issues an
`UPDATE` of row `k` first takes the lock of that row; the lock is held until the
transaction commits, and an `UPDATE` of a row another transaction holds is not
enabled.  What the transaction has written so far is a function on the rows, which
its commit applies to the rows committed by then.

Under READ COMMITTED each statement sees the rows committed when it starts,
together with the transaction's own writes.  This is `view`.  A read takes no
lock, so nothing relates the rows a transaction has read to those it later writes:
what is safe must come from the writes being functions of the row they lock.

A transaction that has locked a row can rely on it: `Owned` says that every transaction
writes only what it holds, and then a commit of one leaves what another holds as it is.

## Main definitions

* `RowStore κ ι ρ` — committed rows, lock holders and pending writes.
* `view` — what a statement of a transaction sees.
* `update`, `lock`, `insert`, `commit`, `rollback` — the statements of a transaction.
* `Owned`, `Kept` — what is locked is stable.
-/

namespace Llmxy

universe u v w

/-- Committed rows, the holder of each row lock, and the writes each transaction
has issued and not yet committed. -/
structure RowStore (κ : Type u) (ι : Type v) (ρ : Type w) where
  /-- What a new transaction reads. -/
  committed : ρ
  /-- Who holds each row lock. -/
  holder : κ → Option ι
  /-- What the commit of each transaction will do to the rows. -/
  pending : ι → ρ → ρ

namespace RowStore
variable {κ : Type u} {ι : Type v} {ρ : Type w}

/-- No transaction is open. -/
def idle (r : ρ) : RowStore κ ι ρ := ⟨r, fun _ => none, fun _ => id⟩

/-- What a statement of transaction `i` sees: its own writes over the committed
rows. -/
def view (s : RowStore κ ι ρ) (i : ι) : ρ := s.pending i s.committed

@[simp] theorem committed_idle (r : ρ) : (idle r : RowStore κ ι ρ).committed = r := rfl
@[simp] theorem pending_idle (r : ρ) (i : ι) : (idle r : RowStore κ ι ρ).pending i = id := rfl

/-- A transaction that has written nothing sees what is committed. -/
theorem view_eq_committed {s : RowStore κ ι ρ} {i : ι} (h : s.pending i = id) :
    s.view i = s.committed := by
  rw [view, h, id]

variable [DecidableEq ι]

/-- `INSERT` of a fresh row, which no other transaction can be holding. -/
def insert (s : RowStore κ ι ρ) (i : ι) (f : ρ → ρ) : RowStore κ ι ρ :=
  { s with pending := Function.update s.pending i (f ∘ s.pending i) }

/-- `COMMIT`: publish the writes and release the locks. -/
def commit (s : RowStore κ ι ρ) (i : ι) : RowStore κ ι ρ where
  committed := s.view i
  holder := fun k => if s.holder k = some i then none else s.holder k
  pending := Function.update s.pending i id

/-- `ROLLBACK`: forget the writes and release the locks. -/
def rollback (s : RowStore κ ι ρ) (i : ι) : RowStore κ ι ρ where
  committed := s.committed
  holder := fun k => if s.holder k = some i then none else s.holder k
  pending := Function.update s.pending i id

section
variable {s : RowStore κ ι ρ} {i j : ι} {f : ρ → ρ}

@[simp] theorem committed_insert : (s.insert i f).committed = s.committed := rfl
@[simp] theorem pending_insert : (s.insert i f).pending i = f ∘ s.pending i := by simp [insert]
theorem pending_insert_other (hj : j ≠ i) : (s.insert i f).pending j = s.pending j := by
  simp [insert, hj]

@[simp] theorem committed_commit : (s.commit i).committed = s.pending i s.committed := rfl
@[simp] theorem pending_commit : (s.commit i).pending i = id := by simp [commit]
theorem pending_commit_other (hj : j ≠ i) : (s.commit i).pending j = s.pending j := by
  simp [commit, hj]

@[simp] theorem committed_rollback : (s.rollback i).committed = s.committed := rfl
@[simp] theorem pending_rollback : (s.rollback i).pending i = id := by simp [rollback]
theorem pending_rollback_other (hj : j ≠ i) : (s.rollback i).pending j = s.pending j := by
  simp [rollback, hj]

end

/-! ### What is locked is stable -/

section Owned
universe x
variable {ν : Type x} (get : κ → ρ → ν)

/-- Every transaction writes only rows that it holds; `get` reads a row. -/
def Owned (s : RowStore κ ι ρ) : Prop :=
  ∀ i k, s.holder k ≠ some i → ∀ r, get k (s.pending i r) = get k r

variable {get}

omit [DecidableEq ι] in
theorem owned_idle (r : ρ) : Owned get (idle r : RowStore κ ι ρ) := fun _ _ _ _ => rfl

variable {s : RowStore κ ι ρ} {i j : ι} {k : κ} {f : ρ → ρ}

/-- A write to rows that the transaction has locked. -/
theorem Owned.write (h : Owned get s) (hf : ∀ k, s.holder k ≠ some i → ∀ r, get k (f r) = get k r) :
    Owned get (s.insert i f) := by
  intro j k hk r
  by_cases hj : j = i
  · subst hj
    rw [pending_insert, Function.comp_apply, hf k hk]
    exact h j k hk r
  · rw [pending_insert_other hj]
    exact h j k hk r

private theorem owned_of_released {t : RowStore κ ι ρ} (h : Owned get s)
    (hholder : ∀ k, t.holder k = if s.holder k = some i then none else s.holder k)
    (hpending : t.pending = Function.update s.pending i id) : Owned get t := by
  intro j k hk r
  rw [hpending]
  by_cases hj : j = i
  · subst hj
    rw [Function.update_self]
    rfl
  · rw [Function.update_of_ne hj]
    refine h j k ?_ r
    intro hheld
    have hne : s.holder k ≠ some i := by
      rw [hheld]
      exact fun h => hj (Option.some.inj h)
    rw [hholder, if_neg hne] at hk
    exact hk hheld

theorem Owned.commit (h : Owned get s) (i : ι) : Owned get (s.commit i) :=
  owned_of_released h (fun _ => rfl) rfl

theorem Owned.rollback (h : Owned get s) (i : ι) : Owned get (s.rollback i) :=
  owned_of_released h (fun _ => rfl) rfl

/-- **What a transaction does not hold, its commit leaves as it is.** -/
theorem get_commit_of_ne (h : Owned get s) (hk : s.holder k ≠ some i) :
    get k (s.commit i).committed = get k s.committed := by
  rw [committed_commit]
  exact h i k hk _

/-- The locks of another transaction survive a commit. -/
theorem holder_commit_other (hk : s.holder k = some j) (hj : j ≠ i) :
    (s.commit i).holder k = some j := by
  have hne : s.holder k ≠ some i := by
    rw [hk]
    exact fun h => hj (Option.some.inj h)
  simp only [RowStore.commit, if_neg hne]
  exact hk

theorem holder_rollback_other (hk : s.holder k = some j) (hj : j ≠ i) :
    (s.rollback i).holder k = some j := by
  have hne : s.holder k ≠ some i := by
    rw [hk]
    exact fun h => hj (Option.some.inj h)
  simp only [RowStore.rollback, if_neg hne]
  exact hk

end Owned

variable [DecidableEq κ]

/-- `UPDATE` of row `k`.  It waits, that is, it is not enabled, while another
transaction holds the row. -/
def update (s : RowStore κ ι ρ) (i : ι) (k : κ) (f : ρ → ρ) : Option (RowStore κ ι ρ) :=
  if s.holder k = none ∨ s.holder k = some i then
    some { s with
      holder := Function.update s.holder k (some i)
      pending := Function.update s.pending i (f ∘ s.pending i) }
  else none

variable {s t : RowStore κ ι ρ} {i j : ι} {k : κ} {f : ρ → ρ}

/-- An `UPDATE` publishes nothing. -/
theorem committed_update (h : s.update i k f = some t) : t.committed = s.committed := by
  unfold update at h
  split at h
  · cases h; rfl
  · cases h

/-- An `UPDATE` adds its function to what the commit will do. -/
theorem pending_update (h : s.update i k f = some t) : t.pending i = f ∘ s.pending i := by
  unfold update at h
  split at h
  · cases h; simp
  · cases h

theorem pending_update_other (h : s.update i k f = some t) (hj : j ≠ i) :
    t.pending j = s.pending j := by
  unfold update at h
  split at h
  · cases h; simp [hj]
  · cases h

/-- `SELECT … FOR UPDATE` of the rows `ks`.  It waits while another transaction holds one
of them. -/
def lock (s : RowStore κ ι ρ) (i : ι) (ks : List κ) : Option (RowStore κ ι ρ) :=
  if ∀ k ∈ ks, s.holder k = none ∨ s.holder k = some i then
    some { s with holder := fun k => if k ∈ ks then some i else s.holder k }
  else none

theorem lock_eq_some {ks : List κ} (h : s.lock i ks = some t) :
    (∀ k ∈ ks, s.holder k = none ∨ s.holder k = some i) ∧
      t = { s with holder := fun k => if k ∈ ks then some i else s.holder k } := by
  unfold lock at h
  split_ifs at h with hfree
  exact ⟨hfree, (Option.some.inj h).symm⟩

theorem update_eq_some (h : s.update i k f = some t) :
    (s.holder k = none ∨ s.holder k = some i) ∧
      t = { s with
        holder := Function.update s.holder k (some i)
        pending := Function.update s.pending i (f ∘ s.pending i) } := by
  unfold update at h
  split_ifs at h with hfree
  exact ⟨hfree, (Option.some.inj h).symm⟩

section Owned
universe x
variable {ν : Type x} {get : κ → ρ → ν}

/-- An update of row `k` that changes no other row. -/
theorem Owned.update (h : Owned get s) (hupd : s.update i k f = some t)
    (hf : ∀ k', k' ≠ k → ∀ r, get k' (f r) = get k' r) : Owned get t := by
  obtain ⟨hfree, rfl⟩ := update_eq_some hupd
  intro j k' hk r
  simp only at hk ⊢
  by_cases hkk : k' = k
  · subst hkk
    have hj : j ≠ i := by
      rintro rfl
      exact hk (by simp)
    rw [Function.update_of_ne hj]
    refine h j k' ?_ r
    rcases hfree with hfree | hfree
    · simp [hfree]
    · rw [hfree]
      exact fun h => hj (Option.some.inj h).symm
  · rw [Function.update_of_ne hkk] at hk
    by_cases hj : j = i
    · subst hj
      rw [Function.update_self, Function.comp_apply, hf k' hkk]
      exact h j k' hk r
    · rw [Function.update_of_ne hj]
      exact h j k' hk r

theorem Owned.lock {ks : List κ} (h : Owned get s) (hlock : s.lock i ks = some t) :
    Owned get t := by
  obtain ⟨hfree, rfl⟩ := lock_eq_some hlock
  intro j k hk r
  simp only at hk ⊢
  by_cases hmem : k ∈ ks
  · rw [if_pos hmem] at hk
    refine h j k ?_ r
    rcases hfree k hmem with hfree | hfree
    · simp [hfree]
    · rw [hfree]
      exact hk
  · rw [if_neg hmem] at hk
    exact h j k hk r

end Owned

/-- Nobody takes a lock that is held. -/
theorem holder_update_other {k' : κ} (hupd : s.update i k f = some t) (hk : s.holder k' = some j)
    (hj : j ≠ i) : t.holder k' = some j := by
  obtain ⟨hfree, rfl⟩ := update_eq_some hupd
  have hne : k' ≠ k := by
    rintro rfl
    rcases hfree with hfree | hfree
    · rw [hk] at hfree
      cases hfree
    · rw [hk] at hfree
      exact hj (Option.some.inj hfree)
  simp only [Function.update_of_ne hne, hk]

theorem holder_lock_other {ks : List κ} (hlock : s.lock i ks = some t) (hk : s.holder k = some j)
    (hj : j ≠ i) : t.holder k = some j := by
  obtain ⟨hfree, rfl⟩ := lock_eq_some hlock
  have hne : k ∉ ks := by
    intro hmem
    rcases hfree k hmem with hfree | hfree
    · rw [hk] at hfree
      cases hfree
    · rw [hk] at hfree
      exact hj (Option.some.inj hfree)
  simp only [hne, if_false, hk]

/-! ### What the others see of a statement -/

/-- A step of `i` that publishes nothing and leaves the other transactions alone. -/
structure Quiet (i : ι) (s t : RowStore κ ι ρ) : Prop where
  committed : t.committed = s.committed
  pending : ∀ j, j ≠ i → t.pending j = s.pending j
  holder : ∀ j k, j ≠ i → s.holder k = some j → t.holder k = some j

omit [DecidableEq ι] [DecidableEq κ] in
theorem Quiet.refl (i : ι) (s : RowStore κ ι ρ) : Quiet i s s :=
  ⟨rfl, fun _ _ => rfl, fun _ _ _ h => h⟩

omit [DecidableEq ι] [DecidableEq κ] in
theorem Quiet.trans {u : RowStore κ ι ρ} (h : Quiet i s t) (h' : Quiet i t u) : Quiet i s u :=
  ⟨h'.committed.trans h.committed, fun j hj => (h'.pending j hj).trans (h.pending j hj),
    fun j k hj hk => h'.holder j k hj (h.holder j k hj hk)⟩

theorem quiet_update (h : s.update i k f = some t) : Quiet i s t :=
  ⟨committed_update h, fun _ hj => pending_update_other h hj,
    fun _ _ hj hk => holder_update_other h hk hj⟩

theorem quiet_lock {ks : List κ} (h : s.lock i ks = some t) : Quiet i s t := by
  refine ⟨?_, ?_, fun _ _ hj hk => holder_lock_other h hk hj⟩
  · rw [(lock_eq_some h).2]
  · intro j _
    rw [(lock_eq_some h).2]

omit [DecidableEq κ] in
theorem quiet_insert (s : RowStore κ ι ρ) (i : ι) (f : ρ → ρ) : Quiet i s (s.insert i f) :=
  ⟨rfl, fun _ hj => pending_insert_other hj, fun _ _ _ hk => hk⟩

omit [DecidableEq κ] in
theorem quiet_rollback (s : RowStore κ ι ρ) (i : ι) : Quiet i s (s.rollback i) :=
  ⟨rfl, fun _ hj => pending_rollback_other hj, fun _ _ hj hk => holder_rollback_other hk hj⟩

/-- An update takes the lock of its row. -/
theorem holder_update (h : s.update i k f = some t) : t.holder k = some i := by
  rw [(update_eq_some h).2]
  exact Function.update_self ..

theorem holder_lock {ks : List κ} (h : s.lock i ks = some t) (hk : k ∈ ks) :
    t.holder k = some i := by
  rw [(lock_eq_some h).2]
  exact if_pos hk

theorem pending_lock {ks : List κ} (h : s.lock i ks = some t) : t.pending = s.pending := by
  rw [(lock_eq_some h).2]

/-! ### What a transaction can rely on -/

section Kept
universe x
variable {ν : Type x} {get : κ → ρ → ν}

/-- A step of another transaction, as `i` sees it: its writes and its locks stand, and the
rows that it holds are as they were. -/
structure Kept (get : κ → ρ → ν) (i : ι) (s t : RowStore κ ι ρ) : Prop where
  pending : t.pending i = s.pending i
  holder : ∀ k, s.holder k = some i → t.holder k = some i
  row : ∀ k, s.holder k = some i → get k t.committed = get k s.committed

omit [DecidableEq ι] [DecidableEq κ] in
theorem Quiet.kept (h : Quiet i s t) (hj : j ≠ i) : Kept get j s t :=
  ⟨h.pending j hj, fun k hk => h.holder j k hj hk, fun _ _ => by rw [h.committed]⟩

omit [DecidableEq κ] in
theorem kept_commit (h : Owned get s) (hj : j ≠ i) : Kept get j s (s.commit i) := by
  refine ⟨pending_commit_other hj, fun _ hk => holder_commit_other hk hj, fun k hk => ?_⟩
  refine get_commit_of_ne h ?_
  rw [hk]
  exact fun h => hj (Option.some.inj h)

end Kept

end RowStore
end Llmxy
