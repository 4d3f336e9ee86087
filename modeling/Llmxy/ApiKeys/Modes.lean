import Llmxy.ApiKeys.Windows
import Llmxy.Billing.WindowRoll

/-!
# The mode and the window of a key

The requests that write keys, as transactions on their table.  Each loads a row without a lock,
assigns attributes of the object, and commits the columns that it has changed.  A key without
windows has no period, start and end; a periodic key has all three, and the end is that of the
window that begins at the start.

Each transaction leaves its own object so.  Two that overlap may each write some of the four
columns, and then the row has a part of either window.

Other columns of a key, its deletion, and the caches are left out.  Each statement that reads
the clock brings its own time.

## Main definitions

* `ApiKey.WindowConsistent` — what is promised of a row.
* `WindowWrite`, `WindowPhase`, `windowProg`, `windowStep` — the machine.
* `CleanCommit` — a commit finds the window columns that it does not write as it loaded them.
* `windowConsistent_run` — then every committed row is consistent.
-/

namespace Llmxy

/-! ### Rows -/

/-- The mode of a key, and the columns of its window, agree. -/
structure ApiKey.WindowConsistent (k : ApiKey) : Prop where
  untilDepleted : k.quotaMode = .untilDepleted →
    k.quotaPeriod = none ∧ k.quotaPeriodStart = none ∧ k.quotaPeriodEnd = none
  periodic : k.quotaMode = .periodic → ∃ period start, k.quotaPeriod = some period ∧
    k.quotaPeriodStart = some start ∧ k.quotaPeriodEnd = some (nextQuotaWindow start period)

/-- The four columns. -/
def ApiKey.windowColumns (k : ApiKey) :
    QuotaMode × Option QuotaPeriod × Option ℤ × Option ℤ :=
  (k.quotaMode, k.quotaPeriod, k.quotaPeriodStart, k.quotaPeriodEnd)

/-- `POST /api-keys/{key_id}/enable` of the row that was loaded; the detail of the error is its
message. -/
def ApiKey.enable (now : ℤ) (row : ApiKey) : Except HttpError ApiKey :=
  if row.expiresAt.any fun t => t ≤ now then
    .error ⟨400, str "expires_at is in the past; update it to a future time before re-enabling"⟩
  else .ok { row with status := .active }

/-- The sweep of one row. -/
def ApiKey.sweep (now : ℤ) : RowUpdate ApiKey :=
  ⟨fun r => { r with status := if r.snapshot.needsExpire now then .expired else r.status },
    fun _ => rfl⟩

theorem ApiKey.rowId_flush (loaded k row : ApiKey) : rowId (loaded.flush k row) = rowId row := rfl

/-- The flush of an object over the row. -/
def ApiKey.flushRow (loaded k : ApiKey) : RowUpdate ApiKey := ⟨loaded.flush k, loaded.rowId_flush k⟩

theorem ApiKey.rowId_numbered (mk : ℤ → ApiKey) (id : ℤ) : rowId { mk id with id } = id := rfl

/-! ### Transactions -/

/-- A request, or a pass of the sweeper. -/
inductive WindowWrite where
  | create (userId : ℤ) (req : ApiKeyCreate)
  | update (userId keyId : ℤ) (req : ApiKeyUpdate)
  | disable (userId keyId : ℤ)
  | enable (userId keyId : ℤ)
  | sweep
  | enforce (keyId : ℤ)
  | enforceCached (snap : ApiKeySnapshot)

/-- Where a transaction stands. -/
inductive WindowPhase where
  | start
  | loaded (row : ApiKey)
  /-- The snapshot wants one of the two, as of this time. -/
  | checked (now : ℤ) (expire roll : Bool)
  /-- The row was loaded as the first, and the object is now the second. -/
  | assigned (row k : ApiKey)
  | flushed (row k : ApiKey)
  /-- The row of a new key, which the database numbers. -/
  | inserted (mk : ℤ → ApiKey)
  /-- The sweeper has seen keys that have expired by this time. -/
  | found (now : ℤ)
  | swept (now : ℤ) (ids : List ℤ)
  | refused (e : HttpError)
  | aborted
  | done

/-- The transaction is over. -/
def WindowPhase.isOver : WindowPhase → Bool
  | .refused _ | .aborted | .done => true
  | _ => false

/-- What a transaction has written and not yet committed. -/
def WindowPhase.write : WindowPhase → Table ApiKey → Table ApiKey
  | .flushed row k => fun keys => keys.update row.id (row.flushRow k)
  | .inserted mk => fun keys => keys.insert (fun id => { mk id with id }) (ApiKey.rowId_numbered mk)
  | .swept now ids => fun keys => ids.foldl (fun keys id => keys.update id (ApiKey.sweep now)) keys
  | _ => id

/-- The phase after the attributes are assigned; an object that has not changed is not
flushed. -/
def WindowPhase.ofAssigned (row : ApiKey) : Except HttpError ApiKey → WindowPhase
  | .error e => .refused e
  | .ok k => if k = row then .done else .assigned row k

variable {n : ℕ}

/-- The table under its row locks. -/
abbrev WindowRows (n : ℕ) := RowStore ℤ (Fin n) (Table ApiKey)

/-- A key of the user, for a request on it. -/
def loadOwned (keys : Table ApiKey) (userId keyId : ℤ) : WindowPhase :=
  match keys.get? keyId with
  | none => .refused ⟨404, str "not found"⟩
  | some row => if row.userId ≠ userId then .refused ⟨404, str "not found"⟩ else .loaded row

/-- The keys that the sweeper looks for. -/
def expiredIds (keys : Table ApiKey) (now : ℤ) : List ℤ :=
  (keys.select (·.snapshot.needsExpire now)).map (·.id)

/-- What the request does with the row that it has loaded. -/
def WindowWrite.assign (now : ℤ) (row : ApiKey) : WindowWrite → Except HttpError ApiKey
  | .update _ _ req => req.assign now row
  | .disable _ _ => .ok { row with status := .disabled }
  | .enable _ _ => row.enable now
  | .enforce _ =>
      .ok ((enforceDecision true (row.status = .active) now row).elim row (KeyDecision.assign row))
  | .create _ _ | .sweep | .enforceCached _ => .ok row

/-- The first statements of a transaction. -/
def WindowWrite.begin (now : ℤ) (i : Fin n) (rows : WindowRows n) :
    WindowWrite → WindowRows n × WindowPhase
  | .create userId req =>
      match req.row userId now with
      | .error e => (rows, .refused e)
      | .ok mk => (rows.insert i (WindowPhase.inserted mk).write, .inserted mk)
  | .update userId keyId _ | .disable userId keyId | .enable userId keyId =>
      (rows, loadOwned (rows.view i) userId keyId)
  | .enforce keyId =>
      (rows, match (rows.view i).get? keyId with
        | none => .refused ⟨401, str "invalid api key"⟩
        | some row => .loaded row)
  | .enforceCached snap =>
      (rows, if !snap.needsExpire now && !snap.needsRoll now then .done
        else .checked now (snap.needsExpire now) (snap.needsRoll now))
  | .sweep => (rows, if (expiredIds (rows.view i) now).isEmpty then .done else .found now)

/-- The key of a snapshot, once the snapshot has something to do. -/
def WindowWrite.recheck (keys : Table ApiKey) (asked : ℤ) (expire roll : Bool) :
    WindowWrite → WindowPhase
  | .enforceCached snap =>
      match keys.get? snap.id with
      | none => .refused ⟨401, str "api key not found"⟩
      | some row =>
          .ofAssigned row
            (.ok ((enforceDecision expire roll asked row).elim row (KeyDecision.assign row)))
  | _ => .done

/-- The statements of a transaction. -/
def windowProg (reqs : Fin n → WindowWrite) (now : ℤ) (i : Fin n) (rows : WindowRows n) :
    WindowPhase → Option (WindowRows n × WindowPhase)
  | .start => some ((reqs i).begin now i rows)
  | .loaded row => some (rows, .ofAssigned row ((reqs i).assign now row))
  | .checked asked expire roll => some (rows, (reqs i).recheck (rows.view i) asked expire roll)
  | .assigned row k =>
      (rows.update i row.id fun keys => keys.update row.id (row.flushRow k)).map fun rows =>
        (rows, .flushed row k)
  | .found asked =>
      let ids := expiredIds (rows.view i) asked
      (rows.lock i ids).map fun rows =>
        (rows.insert i (WindowPhase.swept asked ids).write, .swept asked ids)
  | .flushed _ _ | .inserted _ | .swept _ _ => some (rows.commit i, .done)
  | .refused _ | .aborted | .done => none

/-- A move of a transaction, with the time it reads, or its rollback. -/
inductive WindowLabel (n : ℕ) where
  | move (i : Fin n) (now : ℤ)
  | rollback (i : Fin n)
  deriving DecidableEq

/-- The transactions on the table. -/
abbrev WindowNet (n : ℕ) := Net (Fin n) (WindowRows n) WindowPhase

/-- The rollback of a transaction that is not over. -/
def windowRollback (i : Fin n) (rows : WindowRows n) (l : WindowPhase) :
    Option (WindowRows n × WindowPhase) :=
  if l.isOver then none else some (rows.rollback i, .aborted)

/-- One step of the system. -/
def windowStep (reqs : Fin n → WindowWrite) (s : WindowNet n) : WindowLabel n → Option (WindowNet n)
  | .move i now => Net.step (windowProg reqs now) s i
  | .rollback i => Net.step windowRollback s i

/-- No transaction has begun. -/
def WindowNet.start (keys : Table ApiKey) : WindowNet n := ⟨.idle keys, fun _ => .start⟩

/-- Every row of the table is consistent. -/
def Consistent (keys : Table ApiKey) : Prop := ∀ k ∈ keys.rows, k.WindowConsistent

/-- The row has the window columns that the object does not change as they were loaded. -/
structure FindsLoaded (loaded k row : ApiKey) : Prop where
  mode : k.quotaMode = loaded.quotaMode → row.quotaMode = loaded.quotaMode
  period : k.quotaPeriod = loaded.quotaPeriod → row.quotaPeriod = loaded.quotaPeriod
  start : k.quotaPeriodStart = loaded.quotaPeriodStart →
    row.quotaPeriodStart = loaded.quotaPeriodStart
  stop : k.quotaPeriodEnd = loaded.quotaPeriodEnd → row.quotaPeriodEnd = loaded.quotaPeriodEnd

/-- A transaction that is about to commit writes no window column, or finds those that it does
not write as it loaded them. -/
def WindowPhase.Clean (keys : Table ApiKey) : WindowPhase → Prop
  | .flushed row k => k.windowColumns = row.windowColumns ∨
      ∀ r ∈ keys.get? row.id, FindsLoaded row k r
  | _ => True

instance (loaded k row : ApiKey) : Decidable (FindsLoaded loaded k row) :=
  decidable_of_iff
    ((k.quotaMode = loaded.quotaMode → row.quotaMode = loaded.quotaMode) ∧
      (k.quotaPeriod = loaded.quotaPeriod → row.quotaPeriod = loaded.quotaPeriod) ∧
      (k.quotaPeriodStart = loaded.quotaPeriodStart →
        row.quotaPeriodStart = loaded.quotaPeriodStart) ∧
      (k.quotaPeriodEnd = loaded.quotaPeriodEnd → row.quotaPeriodEnd = loaded.quotaPeriodEnd))
    ⟨fun h => ⟨h.1, h.2.1, h.2.2.1, h.2.2.2⟩, fun h => ⟨h.mode, h.period, h.start, h.stop⟩⟩

instance (keys : Table ApiKey) : (l : WindowPhase) → Decidable (l.Clean keys)
  | .flushed row k => inferInstanceAs (Decidable (_ ∨ ∀ r ∈ keys.get? row.id, FindsLoaded row k r))
  | .start | .loaded _ | .checked _ _ _ | .assigned _ _ | .inserted _ | .found _ | .swept _ _
  | .refused _ | .aborted | .done => isTrue trivial

/-- A step that does not commit a part of a window over another window. -/
def CleanCommit (s : WindowNet n) : WindowLabel n → Prop
  | .move i _ => (s.loc i).Clean s.shared.committed
  | .rollback _ => True

instance (s : WindowNet n) : (a : WindowLabel n) → Decidable (CleanCommit s a)
  | .move i _ => inferInstanceAs (Decidable ((s.loc i).Clean s.shared.committed))
  | .rollback _ => isTrue trivial

/-- No step of a transaction that ends in a refusal changes what is committed. -/
def RefusedWritesNothing (reqs : Fin n → WindowWrite) (keys : Table ApiKey)
    (labels : List (WindowLabel n)) : Prop :=
  ∀ before after i now s s' t e, before ++ .move i now :: after <+: labels →
    run (windowStep reqs) before (.start keys) = some s →
    windowStep reqs s (.move i now) = some s' → run (windowStep reqs) after s' = some t →
    t.loc i = .refused e → s'.shared.committed = s.shared.committed

/-! ### What each request does to a row -/

section
variable {k k' row loaded : ApiKey} {now : ℤ}

/-- The promise is about the four columns. -/
theorem ApiKey.WindowConsistent.congr (h : k.WindowConsistent)
    (hcolumns : k'.windowColumns = k.windowColumns) : k'.WindowConsistent := by
  simp only [ApiKey.windowColumns, Prod.mk.injEq] at hcolumns
  obtain ⟨hmode, hperiod, hstart, hend⟩ := hcolumns
  refine ⟨fun hm => ?_, fun hm => ?_⟩
  · rw [hperiod, hstart, hend]
    exact h.untilDepleted (hmode.symm.trans hm)
  · rw [hperiod, hstart, hend]
    exact h.periodic (hmode.symm.trans hm)

/-- A key without windows has no period, and a periodic one has a period. -/
def ValidModePeriod (mode : QuotaMode) (period : Option QuotaPeriod) : Prop :=
  mode = .untilDepleted ∧ period = none ∨ ∃ p, mode = .periodic ∧ period = some p

/-- What the validation lets through. -/
theorem validateModePeriod_ok {mode : QuotaMode} {period : Option QuotaPeriod} {u : Unit}
    (h : validateModePeriod mode period = .ok u) : ValidModePeriod mode period := by
  cases mode with
  | untilDepleted =>
      cases period with
      | none => exact .inl ⟨rfl, rfl⟩
      | some p => cases h
  | periodic =>
      cases period with
      | none => cases h
      | some p => exact .inr ⟨p, rfl, rfl⟩

/-- What is computed from a mode and a period that were parsed and validated. -/
theorem parsed_of_ok {α : Type} {x : Except HttpError QuotaMode}
    {y : Except HttpError (Option QuotaPeriod)} {f : QuotaMode → Option QuotaPeriod → α} {a : α}
    (h : (do
      let mode ← x
      let period ← y
      validateModePeriod mode period
      return f mode period) = Except.ok a) :
    ∃ mode period, x = .ok mode ∧ y = .ok period ∧ ValidModePeriod mode period ∧
      f mode period = a := by
  cases x with
  | error e => cases h
  | ok mode =>
      cases y with
      | error e => cases h
      | ok period =>
          cases hvalid : validateModePeriod mode period with
          | error e =>
              simp only [bind, Except.bind, hvalid] at h
              cases h
          | ok u =>
              simp only [bind, Except.bind, hvalid] at h
              cases h
              exact ⟨mode, period, rfl, rfl, validateModePeriod_ok hvalid, rfl⟩

/-- Its mode and period are valid. -/
theorem valid_of_parsed {α : Type} {x : Except HttpError QuotaMode}
    {y : Except HttpError (Option QuotaPeriod)} {f : QuotaMode → Option QuotaPeriod → α} {a : α}
    (h : (do
      let mode ← x
      let period ← y
      validateModePeriod mode period
      return f mode period) = Except.ok a) :
    ∃ mode period, ValidModePeriod mode period ∧ f mode period = a := by
  obtain ⟨mode, period, -, -, hvalid, heq⟩ := parsed_of_ok h
  exact ⟨mode, period, hvalid, heq⟩

/-- The mode that a PATCH leaves. -/
def ApiKeyUpdate.askedMode (req : ApiKeyUpdate) (row : ApiKey) : Except HttpError QuotaMode :=
  req.quotaMode.elim (.ok row.quotaMode) parseMode

/-- The period that a PATCH leaves. -/
def ApiKeyUpdate.askedPeriod (req : ApiKeyUpdate) (row : ApiKey) :
    Except HttpError (Option QuotaPeriod) :=
  req.quotaPeriod.elim (.ok row.quotaPeriod) fun raw => some <$> parsePeriod raw

/-- What a PATCH that is accepted asks for. -/
theorem ApiKeyUpdate.modePeriod_ok {req : ApiKeyUpdate} {mode : QuotaMode}
    {period : Option QuotaPeriod} (h : req.modePeriod row = .ok (mode, period)) :
    req.askedMode row = .ok mode ∧ req.askedPeriod row = .ok period ∧
      ValidModePeriod mode period := by
  have hparsed : (do
      let mode ← req.askedMode row
      let period ← req.askedPeriod row
      validateModePeriod mode period
      return (mode, period)) = Except.ok (mode, period) := by
    rw [← h, ApiKeyUpdate.modePeriod, ApiKeyUpdate.askedMode, ApiKeyUpdate.askedPeriod]
    cases req.quotaMode <;> cases req.quotaPeriod <;> rfl
  obtain ⟨mode', period', hmode, hperiod, hvalid, heq⟩ := parsed_of_ok hparsed
  cases heq
  exact ⟨hmode, hperiod, hvalid⟩

theorem ApiKeyUpdate.modePeriod_valid {req : ApiKeyUpdate} {mode : QuotaMode}
    {period : Option QuotaPeriod} (h : req.modePeriod row = .ok (mode, period)) :
    ValidModePeriod mode period :=
  (ApiKeyUpdate.modePeriod_ok h).2.2

/-- The row of a new key. -/
theorem ApiKeyCreate.row_ok {req : ApiKeyCreate} {userId : ℤ} {mk : ℤ → ApiKey}
    (h : req.row userId now = .ok mk) :
    ∃ mode period, ValidModePeriod mode period ∧
      (fun id => (⟨id, userId, .active, req.quotaCents, 0, mode, period, none, none,
        req.expiresAt⟩ : ApiKey).resetWindow now) = mk := by
  rw [ApiKeyCreate.row] at h
  cases hmode : req.quotaMode with
  | none =>
      rw [hmode] at h
      cases hperiod : req.quotaPeriod <;> rw [hperiod] at h <;> exact valid_of_parsed h
  | some raw =>
      rw [hmode] at h
      cases hperiod : req.quotaPeriod <;> rw [hperiod] at h <;> exact valid_of_parsed h

/-- A window that begins now is consistent with a valid mode and period. -/
theorem windowConsistent_fresh (hvalid : ValidModePeriod k.quotaMode k.quotaPeriod) :
    (k.resetWindow now).WindowConsistent := by
  cases hvalid with
  | inl h =>
      refine ⟨fun _ => ?_, fun hm => absurd (h.1.symm.trans hm) (by decide)⟩
      simp [ApiKey.resetWindow, h.1, h.2]
  | inr h =>
      obtain ⟨p, hmode, hperiod⟩ := h
      refine ⟨fun hm => absurd (hmode.symm.trans hm) (by decide), fun _ => ⟨p, now, ?_⟩⟩
      simp [ApiKey.resetWindow, hmode, hperiod, initPeriodicWindow]

theorem windowConsistent_roll {period : QuotaPeriod} {periodEnd : ℤ}
    (helapsed : row.snapshot.elapsedWindow now = some (period, periodEnd)) :
    (row.roll now period periodEnd).WindowConsistent := by
  obtain ⟨hmode, hperiod, _, hnow⟩ := elapsedWindow_eq_some.mp helapsed
  obtain ⟨n, hloop⟩ := rollWindow_while now periodEnd period
  obtain ⟨_, hstop, _, _⟩ := windowLoop_lands hloop hnow
  refine ⟨fun hm => absurd ((show row.quotaMode = .periodic from hmode).symm.trans hm) (by decide),
    fun _ => ⟨period, (rollWindow now periodEnd period).1, hperiod, rfl, ?_⟩⟩
  exact congrArg some hstop

theorem windowConsistent_decision {expire roll : Bool} (h : row.WindowConsistent) :
    ((enforceDecision expire roll now row).elim row (KeyDecision.assign row)).WindowConsistent := by
  rw [enforceDecision]
  split_ifs with hexpire hroll
  · exact h.congr rfl
  · cases helapsed : row.snapshot.elapsedWindow now with
    | none => exact h
    | some window => exact windowConsistent_roll helapsed
  · exact h

/-- A new key is consistent. -/
theorem windowConsistent_create {req : ApiKeyCreate} {userId : ℤ} {mk : ℤ → ApiKey}
    (h : req.row userId now = .ok mk) (id : ℤ) : (mk id).WindowConsistent := by
  obtain ⟨mode, period, hvalid, rfl⟩ := ApiKeyCreate.row_ok h
  exact windowConsistent_fresh hvalid

/-- A PATCH that is accepted keeps the row consistent. -/
theorem windowConsistent_patch {req : ApiKeyUpdate} (h : row.WindowConsistent)
    (hassign : req.assign now row = .ok k) : k.WindowConsistent := by
  rw [ApiKeyUpdate.assign] at hassign
  cases hasked : req.modePeriod row with
  | error e =>
      rw [hasked] at hassign
      cases hassign
  | ok asked =>
      rw [hasked] at hassign
      cases hassign
      have hvalid := ApiKeyUpdate.modePeriod_valid hasked
      dsimp only
      split_ifs with hsame
      · exact h.congr (by simp [ApiKey.windowColumns, ApiKeyUpdate.write, hsame])
      · exact windowConsistent_fresh hvalid

/-- A PATCH with nothing beside it: the row is what the request makes of it, or as it was. -/
theorem updateKey_patch {w : World} {userId keyId : ℤ} (req : ApiKeyUpdate)
    (hrow : w.pg.apiKeys.get? keyId = some row) (howner : row.userId = userId) :
    (updateKey userId keyId req w).1 = req.assign w.now row ∧
      (updateKey userId keyId req w).2.pg.apiKeys.get? keyId =
        some ((req.assign w.now row).toOption.getD row) := by
  rw [updateKey, hrow, ApiKeyUpdate.assign]
  simp only [howner, ne_eq, not_true_eq_false, if_false]
  cases req.modePeriod row with
  | error e => exact ⟨rfl, hrow⟩
  | ok asked =>
      obtain ⟨mode, period⟩ := asked
      simp only [Except.map]
      split_ifs
      · exact ⟨rfl, get?_saveKey hrow rfl⟩
      · exact ⟨rfl, get?_saveKey hrow rfl⟩

/-- A request that is accepted leaves a consistent object. -/
theorem windowConsistent_assign {req : WindowWrite} (h : row.WindowConsistent)
    (hassign : req.assign now row = .ok k) : k.WindowConsistent := by
  cases req with
  | update _ _ req => exact windowConsistent_patch h hassign
  | disable _ _ =>
      cases hassign
      exact h.congr rfl
  | enable _ _ =>
      simp only [WindowWrite.assign, ApiKey.enable] at hassign
      split_ifs at hassign
      cases hassign
      exact h.congr rfl
  | enforce _ =>
      cases hassign
      exact windowConsistent_decision h
  | create _ _ =>
      cases hassign
      exact h
  | sweep =>
      cases hassign
      exact h
  | enforceCached _ =>
      cases hassign
      exact h

/-! ### What a commit does to the table -/

/-- A column that was loaded as it is, or that is written. -/
theorem flushed_eq {α : Type} [DecidableEq α] {loaded assigned current : α}
    (h : assigned = loaded → current = loaded) : flushed loaded assigned current = assigned := by
  rw [flushed]
  split_ifs with heq
  · rw [h heq, heq]
  · rfl

/-- A flush that writes no window column. -/
theorem windowColumns_flush_of_same (h : k.windowColumns = row.windowColumns) (r : ApiKey) :
    (row.flush k r).windowColumns = r.windowColumns := by
  simp only [ApiKey.windowColumns, Prod.mk.injEq] at h
  simp only [ApiKey.windowColumns, ApiKey.flush, h.1, h.2.1, h.2.2.1, h.2.2.2, flushed_same]

/-- A flush that finds the rest as it was loaded. -/
theorem windowColumns_flush_of_found {r : ApiKey} (h : FindsLoaded row k r) :
    (row.flush k r).windowColumns = k.windowColumns := by
  simp only [ApiKey.windowColumns, ApiKey.flush, flushed_eq h.mode, flushed_eq h.period,
    flushed_eq h.start, flushed_eq h.stop]

variable {keys : Table ApiKey}

theorem Consistent.get (h : Consistent keys) {id : ℤ} (hrow : keys.get? id = some row) :
    row.WindowConsistent := h row (Table.get?_eq_some.mp hrow).1

/-- An update that keeps its row consistent keeps the table. -/
theorem Consistent.update (h : Consistent keys) {id : ℤ} {f : RowUpdate ApiKey}
    (hf : ∀ r, keys.get? id = some r → (f.1 r).WindowConsistent) :
    Consistent (keys.update id f) := by
  intro k hk
  rw [Table.rows_update, List.mem_map] at hk
  obtain ⟨r, hr, rfl⟩ := hk
  split
  · next hid => exact hf r (Table.get?_eq_some.mpr ⟨hr, hid⟩)
  · exact h r hr

theorem Consistent.insert (h : Consistent keys) {mk : ℤ → ApiKey}
    (hnew : ∀ id, (mk id).WindowConsistent) (hmk : ∀ id, rowId (mk id) = id) :
    Consistent (keys.insert mk hmk) := by
  intro k hk
  rw [Table.rows_insert, List.mem_append, List.mem_singleton] at hk
  cases hk with
  | inl hk => exact h k hk
  | inr hk =>
      subst hk
      exact hnew _

theorem Consistent.swept (h : Consistent keys) (now : ℤ) (ids : List ℤ) :
    Consistent ((WindowPhase.swept now ids).write keys) := by
  induction ids generalizing keys with
  | nil => exact h
  | cons id ids ih => exact ih (h.update fun r hr => (h.get hr).congr rfl)

/-- What a transaction knows of the rows that it has in hand. -/
def WindowPhase.Sound : WindowPhase → Prop
  | .loaded row => row.WindowConsistent
  | .assigned _ k | .flushed _ k => k.WindowConsistent
  | .inserted mk => ∀ id, (mk id).WindowConsistent
  | _ => True

/-- **A clean commit** keeps the table consistent. -/
theorem consistent_write {l : WindowPhase} (h : Consistent keys) (hsound : l.Sound)
    (hclean : l.Clean keys) : Consistent (l.write keys) := by
  cases l with
  | flushed row k =>
      refine h.update fun r hr => ?_
      cases hclean with
      | inl hsame => exact (h.get hr).congr (windowColumns_flush_of_same hsame r)
      | inr hfound => exact hsound.congr (windowColumns_flush_of_found (hfound r hr))
  | inserted mk =>
      have hnew : ∀ id, ({ mk id with id := id } : ApiKey).WindowConsistent :=
        fun id => (hsound id).congr rfl
      exact h.insert hnew fun _ => rfl
  | swept now ids => exact h.swept now ids
  | _ => exact h

end

/-! ### Every run -/

section
variable {reqs : Fin n → WindowWrite} {s t : WindowNet n} {i : Fin n} {now : ℤ}

theorem sound_ofAssigned {row : ApiKey} {x : Except HttpError ApiKey}
    (h : ∀ k, x = .ok k → k.WindowConsistent) : (WindowPhase.ofAssigned row x).Sound := by
  cases x with
  | error e => trivial
  | ok k =>
      rw [WindowPhase.ofAssigned]
      split_ifs
      · trivial
      · exact h k rfl

theorem write_ofAssigned (row : ApiKey) (x : Except HttpError ApiKey) :
    (WindowPhase.ofAssigned row x).write = id := by
  cases x with
  | error e => rfl
  | ok k =>
      rw [WindowPhase.ofAssigned]
      split_ifs <;> rfl

theorem loadOwned_spec {keys : Table ApiKey} (h : Consistent keys) (userId keyId : ℤ) :
    (loadOwned keys userId keyId).write = id ∧ (loadOwned keys userId keyId).Sound := by
  rw [loadOwned]
  cases hrow : keys.get? keyId with
  | none => exact ⟨rfl, trivial⟩
  | some row =>
      dsimp only
      split_ifs
      · exact ⟨rfl, trivial⟩
      · exact ⟨rfl, h.get hrow⟩

/-- What a statement leaves: what its transaction will write, and rows that are consistent. -/
structure Leaves (i : Fin n) (rows rows' : WindowRows n) (l' : WindowPhase) : Prop where
  pending : rows'.pending i = l'.write
  other : ∀ j, j ≠ i → rows'.pending j = rows.pending j
  sound : l'.Sound

/-- A statement that only reads. -/
theorem Leaves.read {rows : WindowRows n} {l' : WindowPhase} (hpending : rows.pending i = id)
    (h : l'.write = id ∧ l'.Sound) : Leaves i rows rows l' :=
  ⟨hpending.trans h.1.symm, fun _ _ => rfl, h.2⟩

/-- The first statements publish nothing. -/
theorem committed_begin (rows : WindowRows n) (req : WindowWrite) :
    (req.begin now i rows).1.committed = rows.committed := by
  cases req with
  | create userId req =>
      rw [WindowWrite.begin]
      cases req.row userId now <;> rfl
  | _ => rfl

theorem begin_spec {rows : WindowRows n} (hpending : rows.pending i = id)
    (hkeys : Consistent rows.committed) (req : WindowWrite) :
    Leaves i rows (req.begin now i rows).1 (req.begin now i rows).2 := by
  have hview : Consistent (rows.view i) := by
    rw [RowStore.view_eq_committed hpending]
    exact hkeys
  cases req with
  | create userId req =>
      rw [WindowWrite.begin]
      cases hrow : req.row userId now with
      | error e => exact .read hpending ⟨rfl, trivial⟩
      | ok mk =>
          refine ⟨?_, fun j hj => RowStore.pending_insert_other hj, windowConsistent_create hrow⟩
          rw [RowStore.pending_insert, hpending, Function.comp_id]
  | update userId keyId _ => exact .read hpending (loadOwned_spec hview userId keyId)
  | disable userId keyId => exact .read hpending (loadOwned_spec hview userId keyId)
  | enable userId keyId => exact .read hpending (loadOwned_spec hview userId keyId)
  | enforce keyId =>
      refine .read hpending ?_
      rw [WindowWrite.begin]
      cases hrow : (rows.view i).get? keyId with
      | none => exact ⟨rfl, trivial⟩
      | some row => exact ⟨rfl, hview.get hrow⟩
  | enforceCached snap =>
      refine .read hpending ?_
      rw [WindowWrite.begin]
      split_ifs <;> exact ⟨rfl, trivial⟩
  | sweep =>
      refine .read hpending ?_
      rw [WindowWrite.begin]
      split_ifs <;> exact ⟨rfl, trivial⟩

theorem recheck_spec {keys : Table ApiKey} (h : Consistent keys) (asked : ℤ) (expire roll : Bool)
    (req : WindowWrite) :
    (req.recheck keys asked expire roll).write = id ∧
      (req.recheck keys asked expire roll).Sound := by
  cases req with
  | enforceCached snap =>
      rw [WindowWrite.recheck]
      cases hrow : keys.get? snap.id with
      | none => exact ⟨rfl, trivial⟩
      | some row =>
          refine ⟨write_ofAssigned .., sound_ofAssigned fun k hk => ?_⟩
          cases hk
          exact windowConsistent_decision (h.get hrow)
  | _ => exact ⟨rfl, trivial⟩

/-- **What a statement does**: it publishes what its transaction has written, if anything, and
leaves consistent rows in its hands. -/
theorem windowProg_spec {rows rows' : WindowRows n} {l l' : WindowPhase}
    (hpending : rows.pending i = l.write) (hkeys : Consistent rows.committed) (hsound : l.Sound)
    (hprog : windowProg reqs now i rows l = some (rows', l')) :
    Leaves i rows rows' l' ∧ rows'.committed = l.write rows.committed := by
  have hcommit : Leaves i rows (rows.commit i) .done ∧
      (rows.commit i).committed = l.write rows.committed :=
    ⟨⟨RowStore.pending_commit, fun j hj => RowStore.pending_commit_other hj, trivial⟩,
      by rw [RowStore.committed_commit, hpending]⟩
  cases l with
  | start =>
      have hbegin := Option.some.inj hprog
      obtain rfl : ((reqs i).begin now i rows).1 = rows' := congrArg Prod.fst hbegin
      obtain rfl : ((reqs i).begin now i rows).2 = l' := congrArg Prod.snd hbegin
      exact ⟨begin_spec hpending hkeys (reqs i), committed_begin rows (reqs i)⟩
  | loaded row =>
      cases hprog
      exact ⟨.read hpending ⟨write_ofAssigned .., sound_ofAssigned fun k hk =>
        windowConsistent_assign hsound hk⟩, rfl⟩
  | checked asked expire roll =>
      cases hprog
      rw [RowStore.view_eq_committed hpending]
      exact ⟨.read hpending (recheck_spec hkeys asked expire roll (reqs i)), rfl⟩
  | assigned row k =>
      obtain ⟨rows'', hupd, heq⟩ := Option.map_eq_some_iff.mp hprog
      cases heq
      refine ⟨⟨?_, fun j hj => RowStore.pending_update_other hupd hj, hsound⟩,
        RowStore.committed_update hupd⟩
      rw [RowStore.pending_update hupd, hpending]
      rfl
  | found asked =>
      obtain ⟨rows'', hlock, heq⟩ := Option.map_eq_some_iff.mp hprog
      cases heq
      have hlocked : rows''.pending = rows.pending := RowStore.pending_lock hlock
      refine ⟨⟨?_, fun j hj => ?_, trivial⟩, ?_⟩
      · rw [RowStore.pending_insert, hlocked, hpending]
        rfl
      · rw [RowStore.pending_insert_other hj, hlocked]
      · rw [RowStore.committed_insert, (RowStore.lock_eq_some hlock).2]
        rfl
  | flushed row k =>
      cases hprog
      exact hcommit
  | inserted mk =>
      cases hprog
      exact hcommit
  | swept asked ids =>
      cases hprog
      exact hcommit
  | refused e => cases hprog
  | aborted => cases hprog
  | done => cases hprog

/-- What is known of every state of a run whose commits are clean. -/
structure WindowInv (s : WindowNet n) : Prop where
  pending : ∀ i, s.shared.pending i = (s.loc i).write
  sound : ∀ i, (s.loc i).Sound
  keys : Consistent s.shared.committed

theorem windowInv_start {keys : Table ApiKey} (h : Consistent keys) :
    WindowInv (WindowNet.start keys : WindowNet n) := ⟨fun _ => rfl, fun _ => trivial, h⟩

/-- What the others have in hand when one has moved. -/
theorem WindowInv.move {rows : WindowRows n} {l : WindowPhase} (h : WindowInv s)
    (hleaves : Leaves i s.shared rows l) (hkeys : Consistent rows.committed) :
    WindowInv ⟨rows, Function.update s.loc i l⟩ := by
  refine ⟨fun j => ?_, fun j => ?_, hkeys⟩
  · by_cases hj : j = i
    · subst hj
      simp only [Function.update_self]
      exact hleaves.pending
    · simp only [Function.update_of_ne hj]
      exact (hleaves.other j hj).trans (h.pending j)
  · by_cases hj : j = i
    · subst hj
      simp only [Function.update_self]
      exact hleaves.sound
    · simp only [Function.update_of_ne hj]
      exact h.sound j

/-- **One clean step** keeps the rows consistent. -/
theorem windowInv_step {a : WindowLabel n} (hclean : CleanCommit s a) (h : WindowInv s)
    (hstep : windowStep reqs s a = some t) : WindowInv t := by
  cases a with
  | move i now =>
      obtain ⟨rows, l, hprog, rfl⟩ := Net.step_eq_some.mp hstep
      obtain ⟨hleaves, hcommitted⟩ := windowProg_spec (h.pending i) h.keys (h.sound i) hprog
      refine h.move hleaves ?_
      rw [hcommitted]
      exact consistent_write h.keys (h.sound i) hclean
  | rollback i =>
      obtain ⟨rows, l, hprog, rfl⟩ := Net.step_eq_some.mp hstep
      rw [windowRollback] at hprog
      split_ifs at hprog
      cases hprog
      exact h.move ⟨RowStore.pending_rollback, fun j hj => RowStore.pending_rollback_other hj,
        trivial⟩ h.keys

/-- Only a transaction that gets done commits. -/
theorem committed_of_not_done {rows rows' : WindowRows n} {l l' : WindowPhase}
    (hprog : windowProg reqs now i rows l = some (rows', l')) (hdone : l' ≠ .done) :
    rows'.committed = rows.committed := by
  cases l with
  | start =>
      obtain rfl : ((reqs i).begin now i rows).1 = rows' :=
        congrArg Prod.fst (Option.some.inj hprog)
      exact committed_begin rows (reqs i)
  | loaded row =>
      cases hprog
      rfl
  | checked asked expire roll =>
      cases hprog
      rfl
  | assigned row k =>
      obtain ⟨rows'', hupd, heq⟩ := Option.map_eq_some_iff.mp hprog
      cases heq
      exact RowStore.committed_update hupd
  | found asked =>
      obtain ⟨rows'', hlock, heq⟩ := Option.map_eq_some_iff.mp hprog
      cases heq
      rw [RowStore.committed_insert, (RowStore.lock_eq_some hlock).2]
  | flushed row k =>
      cases hprog
      exact absurd rfl hdone
  | inserted mk =>
      cases hprog
      exact absurd rfl hdone
  | swept asked ids =>
      cases hprog
      exact absurd rfl hdone
  | refused e => cases hprog
  | aborted => cases hprog
  | done => cases hprog

/-- A transaction that is done stays done. -/
theorem done_step {a : WindowLabel n} (hdone : s.loc i = .done)
    (hstep : windowStep reqs s a = some t) : t.loc i = .done := by
  cases a with
  | move j now =>
      by_cases hij : i = j
      · subst hij
        rw [windowStep, Net.step, hdone] at hstep
        cases hstep
      · rw [← hdone]
        exact Net.step_loc_other hstep hij
  | rollback j =>
      by_cases hij : i = j
      · subst hij
        rw [windowStep, Net.step, hdone] at hstep
        cases hstep
      · rw [← hdone]
        exact Net.step_loc_other hstep hij

theorem refusedWritesNothing (reqs : Fin n → WindowWrite) (keys : Table ApiKey)
    (labels : List (WindowLabel n)) : RefusedWritesNothing reqs keys labels := by
  intro _ after i now s s' t e _ _ hstep hafter hrefused
  by_cases hdone : s'.loc i = .done
  · have hstays : t.loc i = .done :=
      run_induction (I := fun s : WindowNet n => s.loc i = .done) (fun _ _ _ => done_step) hdone
        hafter
    rw [hstays] at hrefused
    cases hrefused
  · obtain ⟨rows, l, hprog, rfl⟩ := Net.step_eq_some.mp hstep
    refine committed_of_not_done hprog ?_
    simpa only [Function.update_self] using hdone

/-- **The mode and the window of every key agree** in every state of a run whose commits do not
lay a part of a window over another one, and a request that is refused changes nothing. -/
theorem windowConsistent_run (reqs : Fin n → WindowWrite) (keys : Table ApiKey)
    (labels : List (WindowLabel n)) (hkeys : Consistent keys)
    (hclean : Along (windowStep reqs) CleanCommit labels (.start keys)) :
    (∀ prefixes t, prefixes <+: labels → run (windowStep reqs) prefixes (.start keys) = some t →
        Consistent t.shared.committed) ∧
      RefusedWritesNothing reqs keys labels := by
  refine ⟨fun prefixes t hprefix hrun => ?_, refusedWritesNothing reqs keys labels⟩
  have hinv : WindowInv t := run_induction_along (fun _ _ _ => windowInv_step)
    (hclean.of_prefix hprefix) (windowInv_start hkeys) hrun
  exact hinv.keys

end

/-! ### A roll and a change of the period -/

/-- A PATCH of key 3 to weekly windows, and a request with the key. -/
def patchAndRoll : Fin 2 → WindowWrite :=
  ![.update 1 3 ⟨none, none, false, none, some (str "week")⟩, .enforce 3]

/-- First the one, then the other. -/
def patchThenRoll : List (WindowLabel 2) :=
  [.move 0 day, .move 0 day, .move 0 day, .move 0 day,
    .move 1 (8 * day), .move 1 (8 * day), .move 1 (8 * day), .move 1 (8 * day)]

/-- The request has read the key before the PATCH commits. -/
def rollOverPatch : List (WindowLabel 2) :=
  [.move 1 day, .move 0 day, .move 0 day, .move 0 day, .move 0 day, .move 1 day, .move 1 day,
    .move 1 day]

theorem consistent_dailyKey : Consistent (.single dailyKey) := by
  intro k hk
  rw [List.mem_singleton.mp hk]
  exact ⟨fun h => absurd h (by decide), fun _ => ⟨.day, 0, rfl, rfl, rfl⟩⟩

/-- One after the other, they leave a weekly key. -/
theorem windowConsistent_patchThenRoll :
    ∃ t, run (windowStep patchAndRoll) patchThenRoll (.start (.single dailyKey)) = some t ∧
      Consistent t.shared.committed := by
  have hruns : (run (windowStep patchAndRoll) patchThenRoll
      (.start (.single dailyKey))).isSome = true := by
    decide +kernel
  obtain ⟨t, hrun⟩ := Option.isSome_iff_exists.mp hruns
  have hclean : Along (windowStep patchAndRoll) CleanCommit patchThenRoll
      (.start (.single dailyKey)) := by
    decide +kernel
  exact ⟨t, hrun, (windowConsistent_run patchAndRoll (.single dailyKey) patchThenRoll
    consistent_dailyKey hclean).1 patchThenRoll t (List.prefix_refl _) hrun⟩

/-- **A roll of the daily window over the weekly one** leaves a weekly key whose window is a
day. -/
theorem daily_roll_over_week :
    Consistent (.single dailyKey) ∧
      ∃ t, run (windowStep patchAndRoll) rollOverPatch (.start (.single dailyKey)) = some t ∧
        ¬Consistent t.shared.committed := by
  have hcolumns : (run (windowStep patchAndRoll) rollOverPatch (.start (.single dailyKey))).map
      (fun t => t.shared.committed.rows) = some [⟨3, 1, .active, 1000, 0, .periodic, some .week,
        some day, some (2 * day), none⟩] := by
    decide +kernel
  obtain ⟨t, hrun, hrows⟩ := Option.map_eq_some_iff.mp hcolumns
  refine ⟨consistent_dailyKey, t, hrun, fun h => ?_⟩
  have hrow := h ⟨3, 1, .active, 1000, 0, .periodic, some .week, some day, some (2 * day), none⟩
    (by rw [hrows]; exact List.mem_singleton_self _)
  obtain ⟨period, start, hperiod, hstart, hend⟩ := hrow.periodic rfl
  cases hperiod
  cases hstart
  revert hend
  decide

end Llmxy
