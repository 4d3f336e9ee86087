import Llmxy.Billing.Charge
import Llmxy.Lib.Machine
import Llmxy.Lib.RowLock
import Mathlib.Algebra.BigOperators.Fin
import Mathlib.Algebra.BigOperators.Group.Finset.Basic

/-!
# The usage counter of an API key under concurrent charges

`charge_user` counts the cost twice in its session: the bulk `UPDATE` adds it to the
row and is mirrored onto the loaded `ApiKey`, and the assignment adds it once more
to the object.  The flush then writes the object's value as an absolute one.  So a
charge leaves `used_cents` at what its session had *loaded* plus twice its cost, and
whatever other sessions committed since the load is overwritten.

`keyProg` is the part of a charge transaction that touches the key, one statement
at a time.  Every session of a machine `Net.step (keyProg …)` runs it on one row.
`Lineage` follows a schedule and remembers whose commits each session had loaded;
the charges that survive are the lineage of the last commit.

## Main definitions

* `KeyPhase`, `keyProg` — the statements of one charge on the key's row.
* `Lineage`, `survivors` — which charges are in the counter at the end.
* `usedCents_run` — the counter after any schedule.
* `usedCents_exact_iff` — when every charge is counted exactly once.
-/

namespace Llmxy

/-- Where a charge transaction stands. -/
inductive KeyPhase where
  | start
  | loaded (used : Attr)
  | updated (used : Attr)
  | flushed
  | done
  deriving DecidableEq

/-- The shared rows of the key table. -/
abbrev KeyRows (n : ℕ) := RowStore ℤ (Fin n) (Table ApiKey)

variable {n : ℕ}

/-- The statements of charge `i` on the row of key `kid`. -/
def keyProg (kid : ℤ) (cost : Fin n → ℤ) (i : Fin n) (rows : KeyRows n) :
    KeyPhase → Option (KeyRows n × KeyPhase)
  | .start => ((rows.view i).get? kid).map fun k => (rows, .loaded (.load k.usedCents))
  | .loaded used =>
      if cost i ≤ 0 then some (rows.commit i, .done)
      else
        (rows.update i kid fun t => t.update kid (ApiKey.setUsed (· + cost i))).map fun rows =>
          (rows, .updated (.assign ((used.sync (· + cost i)).value + cost i)))
  | .updated used =>
      (rows.update i kid fun t => t.update kid (ApiKey.setUsed fun _ => used.value)).map fun rows =>
        (rows, .flushed)
  | .flushed => some (rows.commit i, .done)
  | .done => none

/-- The sessions on one key table. -/
abbrev KeyNet (n : ℕ) := Net (Fin n) (KeyRows n) KeyPhase

/-- Every session is about to load the key. -/
def KeyNet.start (t : Table ApiKey) : KeyNet n := ⟨.idle t, fun _ => .start⟩

/-- The counter that new transactions read. -/
def KeyNet.usedCents (s : KeyNet n) (kid : ℤ) : Option ℤ :=
  (s.shared.committed.get? kid).map ApiKey.usedCents

/-! ### Lineages -/

/-- What a schedule says about whose charges the counter holds. -/
structure Lineage (n : ℕ) where
  /-- How many statements each session has run. -/
  turn : Fin n → ℕ
  /-- The charges that were in the counter when a session loaded it. -/
  seen : Fin n → List (Fin n)
  /-- The charges that are in the committed counter. -/
  committed : List (Fin n)

/-- Session `i` runs its next statement.  A commit makes the counter what the
session had seen, plus its own charge. -/
def Lineage.step (cost : Fin n → ℤ) (x : Lineage n) (i : Fin n) : Lineage n :=
  match x.turn i with
  | 0 => { x with turn := Function.update x.turn i 1
                  seen := Function.update x.seen i x.committed }
  | 1 => { x with turn := Function.update x.turn i (if cost i ≤ 0 then 4 else 2) }
  | 2 => { x with turn := Function.update x.turn i 3 }
  | 3 => { x with turn := Function.update x.turn i 4
                  committed := i :: x.seen i }
  | _ => x

/-- No session has run. -/
def Lineage.start : Lineage n := ⟨fun _ => 0, fun _ => [], []⟩

/-- The charges that the counter holds after a schedule: the last commit, the commit
its session had loaded, and so on back. -/
def survivors (cost : Fin n → ℤ) (as : List (Fin n)) : List (Fin n) :=
  (as.foldl (Lineage.step cost) Lineage.start).committed

/-- What a lineage adds to the counter: each charge twice. -/
def lineageCost (cost : Fin n → ℤ) (l : List (Fin n)) : ℤ := 2 * (l.map cost).sum

@[simp] theorem lineageCost_cons (cost : Fin n → ℤ) (i : Fin n) (l : List (Fin n)) :
    lineageCost cost (i :: l) = lineageCost cost l + cost i + cost i := by
  simp only [lineageCost, List.map_cons, List.sum_cons]
  omega

/-! ### The invariant -/

/-- Where one session stands, compared with its lineage. -/
def SessionInv (kid : ℤ) (cost : Fin n → ℤ) (u : ℤ) (x : Lineage n) (i : Fin n)
    (pending : Table ApiKey → Table ApiKey) : KeyPhase → Prop
  | .start => x.turn i = 0 ∧ pending = id
  | .loaded a => x.turn i = 1 ∧ pending = id ∧ a = .load (u + lineageCost cost (x.seen i))
  | .updated a => x.turn i = 2 ∧ a = .assign (u + lineageCost cost (i :: x.seen i)) ∧
      ∃ f, pending = fun t => t.update kid (ApiKey.setUsed f)
  | .flushed => x.turn i = 3 ∧ pending = fun t =>
      t.update kid (ApiKey.setUsed fun _ => u + lineageCost cost (i :: x.seen i))
  | .done => 4 ≤ x.turn i ∧ pending = id

/-- The counter is the initial one plus its lineage, and every session is where its
lineage says. -/
structure KeyInv (kid : ℤ) (cost : Fin n → ℤ) (u : ℤ) (s : KeyNet n) (x : Lineage n) : Prop where
  used : s.usedCents kid = some (u + lineageCost cost x.committed)
  session : ∀ i, SessionInv kid cost u x i (s.shared.pending i) (s.loc i)

variable {kid : ℤ} {cost : Fin n → ℤ} {u : ℤ} {s t : KeyNet n} {x : Lineage n} {i j : Fin n}

theorem Lineage.step_other (hj : j ≠ i) :
    (x.step cost i).turn j = x.turn j ∧ (x.step cost i).seen j = x.seen j := by
  unfold Lineage.step
  split <;> simp [Function.update_of_ne hj]

/-- A session that does not move keeps its place. -/
theorem SessionInv.other {pending : Table ApiKey → Table ApiKey} {l : KeyPhase} (hj : j ≠ i)
    (h : SessionInv kid cost u x j pending l) :
    SessionInv kid cost u (x.step cost i) j pending l := by
  obtain ⟨hturn, hseen⟩ : (x.step cost i).turn j = x.turn j ∧ (x.step cost i).seen j = x.seen j :=
    Lineage.step_other hj
  cases l <;> simpa only [SessionInv, hturn, hseen] using h

theorem keyInv_start {t : Table ApiKey} {key : ApiKey} (h : t.get? key.id = some key) :
    KeyInv key.id cost key.usedCents (KeyNet.start t) (Lineage.start : Lineage n) := by
  refine ⟨?_, fun i => ⟨rfl, rfl⟩⟩
  simp [KeyNet.usedCents, KeyNet.start, h, Lineage.start, lineageCost]

/-- A step that publishes nothing keeps the invariant if the moving session keeps its
own part. -/
private theorem keyInv_of_silent {rows : KeyRows n} {l : KeyPhase} (hinv : KeyInv kid cost u s x)
    (hc : rows.committed = s.shared.committed)
    (hp : ∀ j, j ≠ i → rows.pending j = s.shared.pending j)
    (hx : (x.step cost i).committed = x.committed)
    (hi : SessionInv kid cost u (x.step cost i) i (rows.pending i) l) :
    KeyInv kid cost u ⟨rows, Function.update s.loc i l⟩ (x.step cost i) := by
  refine ⟨?_, fun j => ?_⟩
  · simp only [KeyNet.usedCents, hc, hx]
    exact hinv.used
  · by_cases hj : j = i
    · subst hj
      simpa using hi
    · simp only [Function.update_of_ne hj, hp j hj]
      exact (hinv.session j).other hj

/-- **One statement of one session.** -/
theorem keyInv_step (hinv : KeyInv kid cost u s x)
    (h : Net.step (keyProg kid cost) s i = some t) : KeyInv kid cost u t (x.step cost i) := by
  obtain ⟨rows, l, hprog, rfl⟩ := Net.step_eq_some.mp h
  have hi := hinv.session i
  cases hl : s.loc i with
  | start =>
      rw [hl] at hprog hi
      obtain ⟨hturn, hpend⟩ := hi
      obtain ⟨k, hk, heq⟩ := Option.map_eq_some_iff.mp hprog
      cases heq
      have hused : k.usedCents = u + lineageCost cost x.committed := by
        have := hinv.used
        rw [RowStore.view_eq_committed hpend] at hk
        simpa [KeyNet.usedCents, hk] using this
      refine keyInv_of_silent hinv rfl (fun _ _ => rfl) (by simp [Lineage.step, hturn]) ?_
      exact ⟨by simp [Lineage.step, hturn], hpend, by simp [Lineage.step, hturn, hused]⟩
  | loaded a =>
      rw [hl] at hprog hi
      obtain ⟨hturn, hpend, rfl⟩ := hi
      simp only [keyProg] at hprog
      split_ifs at hprog with hcost
      · -- a cost that is not positive is not charged
        cases hprog
        refine keyInv_of_silent hinv (by simp [hpend])
          (fun j hj => RowStore.pending_commit_other hj) (by simp [Lineage.step, hturn]) ?_
        exact ⟨by simp [Lineage.step, hturn, hcost], by simp⟩
      · obtain ⟨rows', hupd, heq⟩ := Option.map_eq_some_iff.mp hprog
        cases heq
        refine keyInv_of_silent hinv (RowStore.committed_update hupd)
          (fun j hj => RowStore.pending_update_other hupd hj) (by simp [Lineage.step, hturn]) ?_
        refine ⟨by simp [Lineage.step, hturn, hcost], ?_, (· + cost i), ?_⟩
        · simp [Lineage.step, hturn, add_assoc]
        · rw [RowStore.pending_update hupd, hpend]
          rfl
  | updated a =>
      rw [hl] at hprog hi
      obtain ⟨hturn, rfl, f, hpend⟩ := hi
      obtain ⟨rows', hupd, heq⟩ := Option.map_eq_some_iff.mp hprog
      cases heq
      refine keyInv_of_silent hinv (RowStore.committed_update hupd)
        (fun j hj => RowStore.pending_update_other hupd hj) (by simp [Lineage.step, hturn]) ?_
      refine ⟨by simp [Lineage.step, hturn], ?_⟩
      rw [RowStore.pending_update hupd, hpend]
      funext t
      simp only [Function.comp_apply, Lineage.step, hturn]
      exact Table.update_update _ _ _ _ _ fun r => rfl
  | flushed =>
      rw [hl] at hprog hi
      obtain ⟨hturn, hpend⟩ := hi
      cases hprog
      refine ⟨?_, fun j => ?_⟩
      · have hrow := hinv.used
        simp only [KeyNet.usedCents, Option.map_eq_some_iff] at hrow
        obtain ⟨k, hk, -⟩ := hrow
        simp [KeyNet.usedCents, hpend, hk, Lineage.step, hturn]
      · by_cases hj : j = i
        · subst hj
          refine (show SessionInv kid cost u _ j _ KeyPhase.done from ?_) |> fun h => by simpa using h
          exact ⟨by simp [Lineage.step, hturn], by simp⟩
        · simp only [Function.update_of_ne hj, RowStore.pending_commit_other hj]
          exact (hinv.session j).other hj
  | done =>
      rw [hl] at hprog
      cases hprog

/-- **The counter after any schedule** is the initial one plus twice the surviving
charges. -/
theorem usedCents_run {t : Table ApiKey} {key : ApiKey} (hkey : t.get? key.id = some key)
    {as : List (Fin n)} {s : KeyNet n}
    (hrun : run (Net.step (keyProg key.id cost)) as (KeyNet.start t) = some s) :
    s.usedCents key.id = some (key.usedCents + lineageCost cost (survivors cost as)) := by
  have hstep : ∀ s i s' x, KeyInv key.id cost key.usedCents s x →
      Net.step (keyProg key.id cost) s i = some s' →
      KeyInv key.id cost key.usedCents s' (Lineage.step cost x i) :=
    fun s i s' x hinv h => keyInv_step hinv h
  exact (run_shadow hstep (keyInv_start hkey) hrun).used

/-- **API-key usage is counted exactly once** after a complete run exactly when twice
the surviving charges happen to be what all charges add up to. -/
theorem usedCents_exact_iff {t : Table ApiKey} {key : ApiKey} (hkey : t.get? key.id = some key)
    {as : List (Fin n)} {s : KeyNet n}
    (hrun : run (Net.step (keyProg key.id cost)) as (KeyNet.start t) = some s)
    (_hdone : ∀ i, s.loc i = .done) :
    s.usedCents key.id = some (key.usedCents + ∑ i, cost i) ↔
      2 * ((survivors cost as).map cost).sum = ∑ i, cost i := by
  rw [usedCents_run hkey hrun, Option.some.injEq, lineageCost]
  omega

/-- The statements of one session alone leave the key table as `charge_user` leaves
it. -/
theorem keyProg_alone {pg : Pg} {user : User} {key : ApiKey} {c now : ℤ}
    (hkey : pg.apiKeys.get? key.id = some key) (hc : 0 < c) :
    (run (Net.step (keyProg key.id fun _ : Fin 1 => c)) [0, 0, 0, 0]
        (KeyNet.start pg.apiKeys)).map (·.shared.committed) =
      some (chargedPg (Sess.start pg user (some key)) c now).apiKeys := by
  have hwrite : (pg.apiKeys.update key.id (ApiKey.setUsed (· + c))).update key.id
      (ApiKey.setUsed fun _ => key.usedCents + c + c) =
      pg.apiKeys.update key.id (ApiKey.setUsed fun _ => key.usedCents + c + c) :=
    Table.update_update _ _ _ _ _ fun r => rfl
  simp [run_cons, Net.step, keyProg, KeyNet.start, RowStore.view, RowStore.idle, hkey,
    not_le.mpr hc, RowStore.update, RowStore.commit, chargedPg, Sess.start, hwrite]

/-- Two charges of 30 whose sessions loaded the key one after the other. -/
def overwritten : KeyNet 2 :=
  (run (Net.step (keyProg 3 ![30, 30])) [0, 1, 0, 0, 0, 1, 1, 1]
    (KeyNet.start (.single keyThree))).get (by decide)

/-- The second commit overwrites the first and counts twice: right by accident. -/
theorem usedCents_exact_overwritten :
    overwritten.usedCents 3 = some (0 + ∑ i, ![30, 30] i) :=
  (@usedCents_exact_iff 2 ![30, 30] (.single keyThree) keyThree (by decide) _ _ (Option.some_get (by decide)).symm
    (show ∀ i, overwritten.loc i = .done by decide)).mpr (by decide)

/-- One charge of 10 cents counts 20. -/
theorem usedCents_counts_twice :
    (run (Net.step (keyProg 3 fun _ : Fin 1 => 10)) [0, 0, 0, 0]
        (KeyNet.start (.single keyThree))).map
      (fun s => (KeyNet.usedCents s 3, decide (∀ i, s.loc i = .done))) = some (some 20, true) := by
  decide

end Llmxy
