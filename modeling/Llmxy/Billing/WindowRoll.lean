import Llmxy.ApiKeys
import Llmxy.Billing.FundsLock

/-!
# Window rolls and charges of one key

`enforce_key_state` and `enforce_key_state_cached` read the row of a key without a lock, and
write the new window and a counter of zero as plain values.  Beside them charges add their
costs to the counter.  A roll that was decided on an old row may commit after another roll
into the same window, and after charges that were counted in it.

The flush of a row writes the columns that the object changed, so a roll whose row was loaded
with a counter of zero leaves the counter alone.

The row is there throughout, and its other transactions are charges.  What a charge writes to
other rows is left out.  Each statement that reads the clock brings its own time.

## Main definitions

* `KeyRequest`, `RollPhase`, `rollProg`, `rollStep` — the machine.
* `KeyCommit`, `account` — the commits, and what they should have left in the counter.
* `CleanRoll`, `counted_iff` — when they have.
* `enforceCached_alone` — one call is the state machine of the hot path.
-/

namespace Llmxy

/-- A transaction on the key. -/
inductive KeyRequest where
  /-- `enforce_key_state`, on the row that the request has read. -/
  | enforce
  /-- `enforce_key_state_cached`. -/
  | enforceCached (snap : ApiKeySnapshot)
  /-- `charge_user`. -/
  | charge (cost : ℤ)
  deriving DecidableEq

/-- What the state machine does with a row. -/
inductive KeyDecision where
  | expire
  | roll (now : ℤ) (period : QuotaPeriod) (periodEnd : ℤ)
  deriving DecidableEq

/-- The attributes that it assigns. -/
def KeyDecision.assign (row : ApiKey) : KeyDecision → ApiKey
  | .expire => { row with status := .expired }
  | .roll now period periodEnd => row.roll now period periodEnd

/-- What it decides on the row that it has read; `expire` and `roll` are what it already
looks for. -/
def enforceDecision (expire roll : Bool) (now : ℤ) (row : ApiKey) : Option KeyDecision :=
  if expire && row.snapshot.needsExpire now then some .expire
  else if roll then (row.snapshot.elapsedWindow now).map fun w => .roll now w.1 w.2
  else none

/-- The flush of a key that was loaded as `loaded` and is now `k`. -/
def ApiKey.flush (loaded k row : ApiKey) : ApiKey where
  id := row.id
  userId := flushed loaded.userId k.userId row.userId
  status := flushed loaded.status k.status row.status
  quotaCents := flushed loaded.quotaCents k.quotaCents row.quotaCents
  usedCents := flushed loaded.usedCents k.usedCents row.usedCents
  quotaMode := flushed loaded.quotaMode k.quotaMode row.quotaMode
  quotaPeriod := flushed loaded.quotaPeriod k.quotaPeriod row.quotaPeriod
  quotaPeriodStart := flushed loaded.quotaPeriodStart k.quotaPeriodStart row.quotaPeriodStart
  quotaPeriodEnd := flushed loaded.quotaPeriodEnd k.quotaPeriodEnd row.quotaPeriodEnd
  expiresAt := flushed loaded.expiresAt k.expiresAt row.expiresAt

/-- A committed transaction, as far as the counter is concerned. -/
inductive KeyCommit where
  /-- A roll into the window that starts here. -/
  | roll (start : ℤ)
  | charge (cost : ℤ)
  deriving DecidableEq

/-- What the commit of a decision is. -/
def KeyDecision.commits : KeyDecision → List KeyCommit
  | .expire => []
  | .roll now period periodEnd => [.roll (rollWindow now periodEnd period).1]

/-- The row, and what was committed, in order. -/
structure KeyHistory where
  row : ApiKey
  commits : List KeyCommit
  deriving DecidableEq

/-- Where a transaction stands. -/
inductive RollPhase where
  | start
  /-- The request has read the row. -/
  | loaded (row : ApiKey)
  /-- The snapshot wants one of the two, as of this time. -/
  | checked (now : ℤ) (expire roll : Bool)
  | decided (row : ApiKey) (d : KeyDecision)
  | flushed (row : ApiKey) (d : KeyDecision)
  | charged (cost : ℤ)
  | done
  deriving DecidableEq

/-- What a transaction has written and not yet committed. -/
def RollPhase.write : RollPhase → KeyHistory → KeyHistory
  | .flushed row d => fun h => ⟨row.flush (d.assign row) h.row, h.commits ++ d.commits⟩
  | .charged cost => fun h => ⟨(ApiKey.setUsed (· + cost)).1 h.row, h.commits ++ [.charge cost]⟩
  | _ => id

/-- The phase after a decision. -/
def RollPhase.ofDecision (row : ApiKey) : Option KeyDecision → RollPhase
  | none => .done
  | some d => .decided row d

variable {n : ℕ}

/-- The row under its lock. -/
abbrev KeyRow (n : ℕ) := RowStore Unit (Fin n) KeyHistory

/-- The statements of a transaction. -/
def rollProg (reqs : Fin n → KeyRequest) (now : ℤ) (i : Fin n) (rows : KeyRow n) :
    RollPhase → Option (KeyRow n × RollPhase)
  | .start =>
      match reqs i with
      | .enforce => some (rows, .loaded (rows.view i).row)
      | .enforceCached snap =>
          if !snap.needsExpire now && !snap.needsRoll now then some (rows, .done)
          else some (rows, .checked now (snap.needsExpire now) (snap.needsRoll now))
      | .charge cost =>
          if cost ≤ 0 then some (rows, .done)
          else (rows.update i () (RollPhase.charged cost).write).map fun rows =>
            (rows, .charged cost)
  | .loaded row =>
      some (rows, .ofDecision row (enforceDecision true (row.status = .active) now row))
  | .checked asked expire roll =>
      let row := (rows.view i).row
      some (rows, .ofDecision row (enforceDecision expire roll asked row))
  | .decided row d =>
      (rows.update i () (RollPhase.flushed row d).write).map fun rows => (rows, .flushed row d)
  | .flushed _ _ | .charged _ => some (rows.commit i, .done)
  | .done => none

/-- A move of a transaction, with the time it reads, or a rollback. -/
inductive RollLabel (n : ℕ) where
  | move (i : Fin n) (now : ℤ)
  | rollback (i : Fin n)
  deriving DecidableEq

/-- The transactions on the row. -/
abbrev RollNet (n : ℕ) := Net (Fin n) (KeyRow n) RollPhase

/-- One step of the system. -/
def rollStep (reqs : Fin n → KeyRequest) (s : RollNet n) : RollLabel n → Option (RollNet n)
  | .move i now => Net.step (rollProg reqs now) s i
  | .rollback i => Net.step (fun i rows _ => some (rows.rollback i, .done)) s i

/-- No transaction has begun. -/
def RollNet.start (key : ApiKey) : RollNet n := ⟨.idle ⟨key, []⟩, fun _ => .start⟩

/-! ### The account -/

/-- The newest window that was entered, with what was charged since the first roll into it. -/
def accountStep : Option (ℤ × ℤ) → KeyCommit → Option (ℤ × ℤ)
  | none, .roll window => some (window, 0)
  | none, .charge _ => none
  | some (newest, spent), .roll window =>
      if newest < window then some (window, 0) else some (newest, spent)
  | some (newest, spent), .charge cost => some (newest, spent + cost)

/-- The account of all commits. -/
def account (commits : List KeyCommit) : Option (ℤ × ℤ) := commits.foldl accountStep none

/-- Once a window was entered, the counter is what was charged since. -/
def Counted (h : KeyHistory) : Prop := ∀ a ∈ account h.commits, h.row.usedCents = a.2

instance (h : KeyHistory) : Decidable (Counted h) :=
  match ha : account h.commits with
  | none => isTrue (by simp [Counted, ha])
  | some a => decidable_of_iff (h.row.usedCents = a.2) (by simp [Counted, ha])

/-- The window was entered before, or a newer one. -/
def Entered (window : ℤ) (commits : List KeyCommit) : Prop :=
  ∃ a ∈ account commits, window ≤ a.1

/-- A roll that is about to commit finds a counter of zero; or it is the first into its window
and had read a counter that was not zero, or it comes late and had read zero, so that it leaves
the counter alone. -/
def RollPhase.Clean (h : KeyHistory) : RollPhase → Prop
  | .flushed row (.roll now period periodEnd) => h.row.usedCents = 0 ∨
      (Entered (rollWindow now periodEnd period).1 h.commits ↔ row.usedCents = 0)
  | _ => True

/-- A step that commits no other roll. -/
def CleanRoll (s : RollNet n) : RollLabel n → Prop
  | .move i _ => (s.loc i).Clean s.shared.committed
  | .rollback _ => True

/-! ### One commit -/

section
variable {h : KeyHistory} {row : ApiKey}

theorem account_append (commits commits' : List KeyCommit) :
    account (commits ++ commits') = commits'.foldl accountStep (account commits) := by
  rw [account, List.foldl_append, account]

/-- A charge is counted, by the row and by the account. -/
theorem counted_charged (cost : ℤ) (hcounted : Counted h) :
    Counted ((RollPhase.charged cost).write h) := by
  intro a ha
  simp only [RollPhase.write, account_append, List.foldl_cons, List.foldl_nil] at ha ⊢
  cases hacc : account h.commits with
  | none =>
      rw [hacc] at ha
      cases ha
  | some b =>
      rw [hacc] at ha
      cases ha
      rw [ApiKey.setUsed_val, hcounted b hacc]

/-- An expiry leaves the counter alone. -/
theorem counted_expired (hcounted : Counted h) :
    Counted ((RollPhase.flushed row .expire).write h) := by
  intro a ha
  simp only [RollPhase.write, KeyDecision.commits, List.append_nil] at ha
  have hused : ((RollPhase.flushed row .expire).write h).row.usedCents = h.row.usedCents :=
    flushed_same row.usedCents h.row.usedCents
  rw [hused]
  exact hcounted a ha

/-- A roll writes zero, unless that is what it had read. -/
theorem usedCents_rolled (now : ℤ) (period : QuotaPeriod) (periodEnd : ℤ) :
    ((RollPhase.flushed row (.roll now period periodEnd)).write h).row.usedCents =
      if row.usedCents = 0 then h.row.usedCents else 0 := by
  show flushed row.usedCents 0 h.row.usedCents = _
  by_cases hzero : row.usedCents = 0
  · rw [if_pos hzero, hzero, flushed_same]
  · rw [if_neg hzero, flushed_of_ne (Ne.symm hzero)]

/-- The account after a roll: a late one changes nothing. -/
theorem account_roll (window : ℤ) (commits : List KeyCommit) :
    (Entered window commits ∧ account (commits ++ [.roll window]) = account commits) ∨
      (¬Entered window commits ∧ account (commits ++ [.roll window]) = some (window, 0)) := by
  rw [account_append, List.foldl_cons, List.foldl_nil, Entered]
  cases hacc : account commits with
  | none => exact .inr ⟨by simp, rfl⟩
  | some a =>
      obtain ⟨newest, spent⟩ := a
      by_cases hnew : newest < window
      · exact .inr ⟨by simpa using hnew, if_pos hnew⟩
      · exact .inl ⟨by simpa using hnew, if_neg hnew⟩

/-- **A roll keeps the count exactly when it is clean.** -/
theorem counted_rolled_iff (now : ℤ) (period : QuotaPeriod) (periodEnd : ℤ)
    (hcounted : Counted h) :
    Counted ((RollPhase.flushed row (.roll now period periodEnd)).write h) ↔
      (RollPhase.flushed row (.roll now period periodEnd)).Clean h := by
  have hused := @usedCents_rolled h row now period periodEnd
  have hcommits : ((RollPhase.flushed row (.roll now period periodEnd)).write h).commits =
      h.commits ++ [.roll (rollWindow now periodEnd period).1] := rfl
  rw [Counted, hused, hcommits, RollPhase.Clean]
  obtain ⟨hlate, hacc⟩ | ⟨hfirst, hacc⟩ := account_roll (rollWindow now periodEnd period).1 h.commits
  · rw [hacc]
    obtain ⟨a, ha, -⟩ := id hlate
    have hspent := hcounted a ha
    rw [Option.mem_def] at ha
    rw [ha]
    by_cases hzero : row.usedCents = 0
    · simp [hzero, hlate, hspent]
    · simp [hzero, hlate, hspent, eq_comm]
  · rw [hacc]
    by_cases hzero : row.usedCents = 0
    · simp [hzero, hfirst]
    · simp [hzero, hfirst]

end

/-! ### Every run -/

section
variable {reqs : Fin n → KeyRequest} {s t : RollNet n}

/-- Each transaction will commit what its phase says. -/
def WritesPending (s : RollNet n) : Prop := ∀ i, s.shared.pending i = (s.loc i).write

theorem write_ofDecision (row : ApiKey) (d : Option KeyDecision) :
    (RollPhase.ofDecision row d).write = id := by
  cases d <;> rfl

/-- A statement that writes waits with the write until the commit. -/
theorem pending_write {rows rows' : KeyRow n} {i : Fin n} {f : KeyHistory → KeyHistory}
    (h : rows.pending i = id) (hupd : rows.update i () f = some rows') :
    rows'.pending i = f ∧ rows'.committed = rows.committed ∧
      ∀ j, j ≠ i → rows'.pending j = rows.pending j := by
  refine ⟨?_, RowStore.committed_update hupd, fun j hj => RowStore.pending_update_other hupd hj⟩
  rw [RowStore.pending_update hupd, h, Function.comp_id]

/-- **What a statement does**: it publishes what its transaction has written, if anything. -/
theorem rollProg_spec {now : ℤ} {i : Fin n} {rows rows' : KeyRow n} {l l' : RollPhase}
    (h : rows.pending i = l.write) (hprog : rollProg reqs now i rows l = some (rows', l')) :
    rows'.pending i = l'.write ∧ rows'.committed = l.write rows.committed ∧
      ∀ j, j ≠ i → rows'.pending j = rows.pending j := by
  cases l with
  | start =>
      rw [rollProg] at hprog
      split at hprog
      · cases hprog
        exact ⟨h, rfl, fun _ _ => rfl⟩
      · split_ifs at hprog <;> cases hprog <;> exact ⟨h, rfl, fun _ _ => rfl⟩
      · split_ifs at hprog
        · cases hprog
          exact ⟨h, rfl, fun _ _ => rfl⟩
        · obtain ⟨rows'', hupd, heq⟩ := Option.map_eq_some_iff.mp hprog
          cases heq
          exact pending_write h hupd
  | loaded row =>
      cases hprog
      exact ⟨h.trans (write_ofDecision ..).symm, rfl, fun _ _ => rfl⟩
  | checked asked expire roll =>
      cases hprog
      exact ⟨h.trans (write_ofDecision ..).symm, rfl, fun _ _ => rfl⟩
  | decided row d =>
      obtain ⟨rows'', hupd, heq⟩ := Option.map_eq_some_iff.mp hprog
      cases heq
      exact pending_write h hupd
  | flushed row d =>
      cases hprog
      refine ⟨RowStore.pending_commit, ?_, fun j hj => RowStore.pending_commit_other hj⟩
      rw [RowStore.committed_commit, h]
  | charged cost =>
      cases hprog
      refine ⟨RowStore.pending_commit, ?_, fun j hj => RowStore.pending_commit_other hj⟩
      rw [RowStore.committed_commit, h]
  | done => cases hprog

/-- What the transactions will commit after one of them has moved. -/
theorem pending_move {rows : KeyRow n} {i : Fin n} {l : RollPhase} (h : WritesPending s)
    (hi : rows.pending i = l.write) (hother : ∀ j, j ≠ i → rows.pending j = s.shared.pending j) :
    WritesPending ⟨rows, Function.update s.loc i l⟩ := by
  intro j
  dsimp only
  by_cases hj : j = i
  · subst hj
    rw [Function.update_self]
    exact hi
  · rw [Function.update_of_ne hj]
    exact (hother j hj).trans (h j)

theorem rollStep_rollback {i : Fin n} : rollStep reqs s (.rollback i) =
    some ⟨s.shared.rollback i, Function.update s.loc i .done⟩ := rfl

theorem pending_step {a : RollLabel n} (h : WritesPending s) (hstep : rollStep reqs s a = some t) :
    WritesPending t := by
  cases a with
  | move i now =>
      obtain ⟨rows, l, hprog, rfl⟩ := Net.step_eq_some.mp hstep
      obtain ⟨hi, -, hother⟩ := rollProg_spec (h i) hprog
      exact pending_move h hi hother
  | rollback i =>
      obtain rfl := Option.some.inj (rollStep_rollback.symm.trans hstep)
      exact pending_move h RowStore.pending_rollback fun j hj => RowStore.pending_rollback_other hj

/-- What a phase writes keeps the count exactly when the phase is clean. -/
theorem counted_write_iff {h : KeyHistory} (hcounted : Counted h) (l : RollPhase) :
    Counted (l.write h) ↔ l.Clean h := by
  cases l with
  | flushed row d =>
      cases d with
      | expire => exact iff_of_true (counted_expired hcounted) trivial
      | roll now period periodEnd => exact counted_rolled_iff now period periodEnd hcounted
  | charged cost => exact iff_of_true (counted_charged cost hcounted) trivial
  | _ => exact iff_of_true hcounted trivial

/-- **One step** keeps the count exactly when it is clean. -/
theorem counted_step_iff {a : RollLabel n} (h : WritesPending s) (hcounted : Counted s.shared.committed)
    (hstep : rollStep reqs s a = some t) : Counted t.shared.committed ↔ CleanRoll s a := by
  cases a with
  | move i now =>
      obtain ⟨rows, l, hprog, rfl⟩ := Net.step_eq_some.mp hstep
      obtain ⟨-, hcommitted, -⟩ := rollProg_spec (h i) hprog
      rw [hcommitted]
      exact counted_write_iff hcounted (s.loc i)
  | rollback i =>
      obtain rfl := Option.some.inj (rollStep_rollback.symm.trans hstep)
      exact iff_of_true hcounted trivial

/-- **The counter is what was charged since the first roll into the newest window**, in every
state of a run of calls and charges, exactly when every roll that commits finds a counter of
zero, or is the first into its window and had not read zero, or comes late and had read zero. -/
theorem counted_iff (reqs : Fin n → KeyRequest) (key : ApiKey) (labels : List (RollLabel n)) :
    (∀ prefixes t, prefixes <+: labels → run (rollStep reqs) prefixes (RollNet.start key) = some t →
        Counted t.shared.committed) ↔
      Along (rollStep reqs) CleanRoll labels (RollNet.start key) := by
  refine forall_prefix_iff_along (I := fun s : RollNet n => Counted s.shared.committed)
    (J := WritesPending) (P := CleanRoll) ?_ ?_ ?_ labels ?_ ?_
  · exact fun s a t h hstep => pending_step h hstep
  · intro s a hstuck
    cases a with
    | rollback i => trivial
    | move i now =>
        rw [CleanRoll]
        cases hl : s.loc i with
        | flushed row d =>
            rw [rollStep, Net.step, hl] at hstuck
            cases hstuck
        | _ => trivial
  · exact fun s a t h hcounted hstep => counted_step_iff h hcounted hstep
  · exact fun _ => rfl
  · intro a ha
    cases ha

end

/-! ### One call alone -/

/-- Over the row that was loaded, the flush writes the object back. -/
theorem ApiKey.flush_loaded (loaded k : ApiKey) :
    loaded.flush k loaded = { k with id := loaded.id } := by
  simp [ApiKey.flush]

/-- A move of the only transaction. -/
theorem run_alone {req : KeyRequest} {now : ℤ} {rows rows' : KeyRow 1} {l l' : RollPhase}
    (hprog : rollProg (fun _ => req) now 0 rows l = some (rows', l')) (moves : List (RollLabel 1)) :
    run (rollStep fun _ : Fin 1 => req) (.move 0 now :: moves) ⟨rows, fun _ => l⟩ =
      run (rollStep fun _ : Fin 1 => req) moves ⟨rows', fun _ => l'⟩ := by
  have hloc : Function.update (fun _ : Fin 1 => l) 0 l' = fun _ => l' := by
    ext i
    rw [Subsingleton.elim i 0, Function.update_self]
  rw [run_cons, rollStep, Net.step, hprog, Option.map_some, hloc, Option.bind_some]

/-- What the only call leaves of the row once it has decided. -/
theorem run_ofDecision (req : KeyRequest) (now : ℤ) (row : ApiKey) (d : Option KeyDecision) :
    ∃ moves t, run (rollStep fun _ : Fin 1 => req) (List.replicate moves (.move 0 now))
        ⟨.idle ⟨row, []⟩, fun _ => .ofDecision row d⟩ = some t ∧ t.loc 0 = .done ∧
      t.shared.committed.row = { d.elim row (KeyDecision.assign row) with id := row.id } := by
  cases d with
  | none => exact ⟨0, _, rfl, rfl, rfl⟩
  | some d =>
      refine ⟨2, _, rfl, rfl, ?_⟩
      simp [RowStore.commit, RowStore.view, RowStore.idle, RollPhase.write, ApiKey.flush_loaded]

/-- **A cached call alone** does to the row what `enforceKeyStateCached` does. -/
theorem enforceCached_alone {snap : ApiKeySnapshot} {w : World} {row : ApiKey}
    (hrow : w.pg.apiKeys.get? snap.id = some row) :
    ∃ moves t, run (rollStep fun _ : Fin 1 => .enforceCached snap)
        (List.replicate moves (.move 0 w.now)) (RollNet.start row) = some t ∧ t.loc 0 = .done ∧
      (enforceKeyStateCached snap w).2.pg.apiKeys.get? snap.id = some t.shared.committed.row := by
  by_cases hidle : (!snap.needsExpire w.now && !snap.needsRoll w.now) = true
  · refine ⟨1, ⟨.idle ⟨row, []⟩, fun _ => .done⟩, ?_, rfl, ?_⟩
    · have hstart : rollProg (fun _ : Fin 1 => .enforceCached snap) w.now 0 (.idle ⟨row, []⟩) .start =
          some (.idle ⟨row, []⟩, .done) := if_pos hidle
      exact run_alone hstart []
    · rw [enforceKeyStateCached, if_pos hidle]
      exact hrow
  · obtain ⟨moves, t, hrun, hdone, hleft⟩ := run_ofDecision (.enforceCached snap) w.now row
      (enforceDecision (snap.needsExpire w.now) (snap.needsRoll w.now) w.now row)
    refine ⟨moves + 2, t, ?_, hdone, ?_⟩
    · have hstart : rollProg (fun _ : Fin 1 => .enforceCached snap) w.now 0 (.idle ⟨row, []⟩) .start =
          some (.idle ⟨row, []⟩, .checked w.now (snap.needsExpire w.now) (snap.needsRoll w.now)) :=
        if_neg hidle
      refine (run_alone hstart (List.replicate (moves + 1) _)).trans ?_
      exact (run_alone rfl (List.replicate moves _)).trans hrun
    · rw [hleft, enforceKeyStateCached, if_neg hidle, hrow, enforceDecision]
      by_cases hexpire : (snap.needsExpire w.now && row.snapshot.needsExpire w.now) = true
      · simp only [if_pos hexpire]
        exact get?_saveKey hrow rfl
      · simp only [if_neg hexpire]
        by_cases hroll : snap.needsRoll w.now = true
        · simp only [if_pos hroll]
          cases row.snapshot.elapsedWindow w.now with
          | none => exact hrow
          | some e => exact get?_saveKey hrow rfl
        · simp only [if_neg hroll]
          exact hrow

/-! ### Two workers and a charge -/

/-- A key of daily windows, whose first day has passed. -/
def dailyKey : ApiKey :=
  ⟨3, 1, .active, 1000, 70, .periodic, some .day, some 0, some day, none⟩

/-- Two requests and a charge of 30 cents. -/
def rollsAndCharge : Fin 3 → KeyRequest :=
  ![.enforce, .enforceCached dailyKey.snapshot, .charge 30]

/-- Both requests read the row before either rolls it; the charge commits between the rolls. -/
def lateRoll : List (RollLabel 3) :=
  [.move 0 day, .move 1 day, .move 0 day, .move 1 day, .move 0 day, .move 0 day, .move 2 day,
    .move 2 day, .move 1 day, .move 1 day]

/-- The charge is in the log of commits, and no longer in the counter. -/
theorem charge_erased :
    (run (rollStep rollsAndCharge) lateRoll (RollNet.start dailyKey)).map (fun t =>
      (t.shared.committed.commits, t.shared.committed.row.usedCents,
        decide (Counted t.shared.committed))) =
      some ([.roll day, .charge 30, .roll day], 0, false) := by
  decide +kernel

end Llmxy
