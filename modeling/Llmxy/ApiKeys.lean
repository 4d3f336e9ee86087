import Llmxy.Lib.Calendar
import Llmxy.QuotaCache.Basic

/-!
# API keys

The lifecycle of an API key: the quota windows of `app.services.api_key`, the state
machine that the hot path applies to a key before each request, the PATCH of a key and the
row of a new one.  The first two are steps of the world, since they write the key's row and may
drop a counter.

The request body of a PATCH is validated by its schema before it arrives here, which is
why an amount is a natural number.

## Main definitions

* `nextQuotaWindow`, `initPeriodicWindow`, `rollWindow` — the windows.
* `ApiKeySnapshot`, `windowStartEpochFor` — what the hot path knows of a key.
* `enforceKeyStateCached` — expiry and window roll.
* `ApiKeyUpdate`, `updateKey` — the PATCH, `ApiKeyCreate` — the POST.
-/

namespace Llmxy

/-- An `HTTPException`. -/
structure HttpError where
  status : ℕ
  detail : Str
  deriving DecidableEq

/-! ### Windows -/

/-- Given a window start, the window end. -/
def nextQuotaWindow (start : ℤ) : QuotaPeriod → ℤ
  | .day => start + day
  | .week => start + 7 * day
  | .month => nextMonthStart start

/-- The window of a fresh periodic key. -/
def initPeriodicWindow (now : ℤ) (period : QuotaPeriod) : ℤ × ℤ :=
  (now, nextQuotaWindow now period)

/-- The fast-forward loop: while `now` is past the end, the next window. -/
def fastForward (now : ℤ) (period : QuotaPeriod) : ℕ → ℤ × ℤ → ℤ × ℤ
  | 0, window => window
  | n + 1, window =>
      if window.2 ≤ now then fastForward now period n (window.2, nextQuotaWindow window.2 period)
      else window

/-- The window a key is rolled to, from the end of its old one.  After the first
iteration every window is at least a day long, which bounds the loop. -/
def rollWindow (now periodEnd : ℤ) (period : QuotaPeriod) : ℤ × ℤ :=
  fastForward now period (((now - periodEnd) / day).toNat + 2)
    (periodEnd, nextQuotaWindow periodEnd period)

/-! ### Snapshots -/

/-- What the hot path caches of a key. -/
structure ApiKeySnapshot where
  id : ℤ
  userId : ℤ
  status : KeyStatus
  quotaCents : ℤ
  quotaMode : QuotaMode
  quotaPeriod : Option QuotaPeriod
  quotaPeriodStart : Option ℤ
  quotaPeriodEnd : Option ℤ
  expiresAt : Option ℤ
  deriving DecidableEq

/-- `snapshot_from_row`. -/
def ApiKey.snapshot (k : ApiKey) : ApiKeySnapshot where
  id := k.id
  userId := k.userId
  status := k.status
  quotaCents := k.quotaCents
  quotaMode := k.quotaMode
  quotaPeriod := k.quotaPeriod
  quotaPeriodStart := k.quotaPeriodStart
  quotaPeriodEnd := k.quotaPeriodEnd
  expiresAt := k.expiresAt

/-- `int(start.timestamp())`. -/
def epochOf (start : ℤ) : ℤ := start.tdiv sec

/-- The integer that names the current window in the key of its counter: the start of
the window, or 0 for a key without windows. -/
def windowStartEpochFor (snap : ApiKeySnapshot) : ℤ :=
  match snap.quotaMode, snap.quotaPeriodStart with
  | .periodic, some start => epochOf start
  | _, _ => 0

/-- The integer that names the current window of a row. -/
def ApiKey.windowStartEpoch (k : ApiKey) : ℤ := windowStartEpochFor k.snapshot

/-! ### The state machine of the hot path -/

/-- The key has expired and does not say so yet. -/
def ApiKeySnapshot.needsExpire (now : ℤ) (s : ApiKeySnapshot) : Bool :=
  s.status = .active && s.expiresAt.any fun t => t ≤ now

/-- The period and the end of a window that has elapsed. -/
def ApiKeySnapshot.elapsedWindow (now : ℤ) (s : ApiKeySnapshot) : Option (QuotaPeriod × ℤ) :=
  match s.quotaMode, s.quotaPeriod, s.quotaPeriodEnd with
  | .periodic, some period, some periodEnd =>
      if periodEnd ≤ now then some (period, periodEnd) else none
  | _, _, _ => none

/-- The key is in use and its window has elapsed. -/
def ApiKeySnapshot.needsRoll (now : ℤ) (s : ApiKeySnapshot) : Bool :=
  s.status = .active && (s.elapsedWindow now).isSome

/-- Write all columns of a loaded row. -/
def ApiKey.save (k : ApiKey) : RowUpdate ApiKey := ⟨fun r => { k with id := r.id }, fun _ => rfl⟩

/-- The row in its new window, with nothing used. -/
def ApiKey.roll (now : ℤ) (period : QuotaPeriod) (periodEnd : ℤ) (k : ApiKey) : ApiKey :=
  { k with
    quotaPeriodStart := some (rollWindow now periodEnd period).1
    quotaPeriodEnd := some (rollWindow now periodEnd period).2
    usedCents := 0 }

/-- `UPDATE` of one key, committed. -/
def World.saveKey (w : World) (kid : ℤ) (k : ApiKey) : World :=
  { w with pg := { w.pg with apiKeys := w.pg.apiKeys.update kid k.save } }

/-- The key as the hot path sees it before a request: nothing is read while the snapshot
is neither expired nor past its window.  Otherwise the row decides, and a rolled window
drops the counter of the old one. -/
def enforceKeyStateCached (snap : ApiKeySnapshot) (w : World) :
    Except HttpError ApiKeySnapshot × World :=
  if !snap.needsExpire w.now && !snap.needsRoll w.now then (.ok snap, w)
  else
    match w.pg.apiKeys.get? snap.id with
    | none => (.error ⟨401, str "api key not found"⟩, w)
    | some row =>
        if snap.needsExpire w.now && row.snapshot.needsExpire w.now then
          (.error ⟨401, str "api key expired"⟩, w.saveKey snap.id { row with status := .expired })
        else
          -- the roll does not look at the status of the row again
          match if snap.needsRoll w.now then row.snapshot.elapsedWindow w.now else none with
          | none => (.ok row.snapshot, w)
          | some (period, periodEnd) =>
              let rolled := row.roll w.now period periodEnd
              let oldEpoch := (row.quotaPeriodStart.map epochOf).getD 0
              (.ok rolled.snapshot,
                ((applyWindowRoll snap.id oldEpoch).runWith exec (w.saveKey snap.id rolled)).2)

/-! ### The PATCH of a key -/

/-- The body of a PATCH; an absent field is left alone. -/
structure ApiKeyUpdate where
  quotaCents : Option ℕ
  expiresAt : Option ℤ
  /-- Tells "leave alone" from "clear to NULL". -/
  clearExpiresAt : Bool
  quotaMode : Option Str
  quotaPeriod : Option Str

/-- The mode a text names. -/
def parseMode (raw : Str) : Except HttpError QuotaMode :=
  if raw = str "until_depleted" then .ok .untilDepleted
  else if raw = str "periodic" then .ok .periodic
  else .error ⟨400, str "invalid quota_mode: " ++ raw⟩

/-- The period a text names. -/
def parsePeriod (raw : Str) : Except HttpError QuotaPeriod :=
  if raw = str "day" then .ok .day
  else if raw = str "week" then .ok .week
  else if raw = str "month" then .ok .month
  else .error ⟨400, str "invalid quota_period: " ++ raw⟩

def validateModePeriod (mode : QuotaMode) (period : Option QuotaPeriod) : Except HttpError Unit :=
  match mode, period with
  | .periodic, none => .error ⟨400, str "quota_period is required when quota_mode=periodic"⟩
  | .untilDepleted, some _ =>
      .error ⟨400, str "quota_period must be null when quota_mode=until_depleted"⟩
  | _, _ => .ok ()

/-- The mode and the period a PATCH asks for. -/
def ApiKeyUpdate.modePeriod (req : ApiKeyUpdate) (row : ApiKey) :
    Except HttpError (QuotaMode × Option QuotaPeriod) := do
  let mode ← match req.quotaMode with
    | none => pure row.quotaMode
    | some raw => parseMode raw
  let period ← match req.quotaPeriod with
    | none => pure row.quotaPeriod
    | some raw => some <$> parsePeriod raw
  validateModePeriod mode period
  return (mode, period)

/-- The row after a PATCH. -/
def ApiKeyUpdate.write (req : ApiKeyUpdate) (row : ApiKey) (mode : QuotaMode)
    (period : Option QuotaPeriod) : ApiKey :=
  { row with
    quotaCents := (req.quotaCents.map Int.ofNat).getD row.quotaCents
    expiresAt := if req.clearExpiresAt then none else req.expiresAt.or row.expiresAt
    quotaMode := mode
    quotaPeriod := period }

/-- A changed mode or period resets the window and what is used, because the old
window's semantics no longer apply. -/
def ApiKey.resetWindow (now : ℤ) (k : ApiKey) : ApiKey :=
  let window :=
    match k.quotaMode, k.quotaPeriod with
    | .periodic, some period => some (initPeriodicWindow now period)
    | _, _ => none
  { k with
    usedCents := 0
    quotaPeriodStart := window.map Prod.fst
    quotaPeriodEnd := window.map Prod.snd }

/-- What `update_key` assigns, or its refusal. -/
def ApiKeyUpdate.assign (req : ApiKeyUpdate) (now : ℤ) (row : ApiKey) : Except HttpError ApiKey :=
  (req.modePeriod row).map fun p =>
    let row' := req.write row p.1 p.2
    if p.1 = row.quotaMode ∧ p.2 = row.quotaPeriod then row' else row'.resetWindow now

/-- `PATCH /api-keys/{key_id}`.  A changed window drops the counter of window 0. -/
def updateKey (userId keyId : ℤ) (req : ApiKeyUpdate) (w : World) : Except HttpError ApiKey × World :=
  match w.pg.apiKeys.get? keyId with
  | none => (.error ⟨404, str "not found"⟩, w)
  | some row =>
      if row.userId ≠ userId then (.error ⟨404, str "not found"⟩, w)
      else
        match req.modePeriod row with
        | .error e => (.error e, w)
        | .ok (mode, period) =>
            let row' := req.write row mode period
            if mode = row.quotaMode ∧ period = row.quotaPeriod then
              (.ok row', w.saveKey keyId row')
            else
              let row' := row'.resetWindow w.now
              (.ok row', ((applyWindowRoll keyId 0).runWith exec (w.saveKey keyId row')).2)

/-! ### A new key -/

/-- `ApiKeyCreate`. -/
structure ApiKeyCreate where
  quotaCents : ℤ
  expiresAt : Option ℤ
  quotaMode : Option Str
  quotaPeriod : Option Str

/-- The row that `create_key` inserts, or its refusal. -/
def ApiKeyCreate.row (req : ApiKeyCreate) (uid now : ℤ) : Except HttpError (ℤ → ApiKey) := do
  let mode ← match req.quotaMode with
    | none => pure .untilDepleted
    | some raw => parseMode raw
  let period ← match req.quotaPeriod with
    | none => pure none
    | some raw => some <$> parsePeriod raw
  validateModePeriod mode period
  let window := match mode, period with
    | .periodic, some period => some (initPeriodicWindow now period)
    | _, _ => none
  return fun id => ⟨id, uid, .active, req.quotaCents, 0, mode, period, window.map Prod.fst,
    window.map Prod.snd, req.expiresAt⟩

/-! ### What they do to a row -/

/-- A saved row reads as saved. -/
theorem get?_saveKey {w : World} {kid : ℤ} {row k : ApiKey} (hrow : w.pg.apiKeys.get? kid = some row)
    (hid : k.id = row.id) : (w.saveKey kid k).pg.apiKeys.get? kid = some k := by
  show (w.pg.apiKeys.update kid k.save).get? kid = some k
  rw [Table.get?_update_self, hrow, Option.map_some, ApiKey.save]
  simp only [← hid]

/-- **What the state machine does to the world**: nothing, or it marks the key expired,
or it rolls the window and drops a counter. -/
theorem enforceKeyStateCached_cases {snap : ApiKeySnapshot} {w : World} {row : ApiKey}
    (hrow : w.pg.apiKeys.get? snap.id = some row) :
    (enforceKeyStateCached snap w).2 = w ∨
      (enforceKeyStateCached snap w).2 = w.saveKey snap.id { row with status := .expired } ∨
      ∃ period periodEnd oldEpoch, (enforceKeyStateCached snap w).2 =
        ((applyWindowRoll snap.id oldEpoch).runWith exec
          (w.saveKey snap.id (row.roll w.now period periodEnd))).2 := by
  unfold enforceKeyStateCached
  by_cases hidle : (!snap.needsExpire w.now && !snap.needsRoll w.now) = true
  · rw [if_pos hidle]
    exact Or.inl rfl
  · rw [if_neg hidle, hrow]
    dsimp only
    by_cases hexpire : (snap.needsExpire w.now && row.snapshot.needsExpire w.now) = true
    · rw [if_pos hexpire]
      exact Or.inr (Or.inl rfl)
    · rw [if_neg hexpire]
      generalize (if snap.needsRoll w.now = true then row.snapshot.elapsedWindow w.now
        else none) = elapsed
      cases elapsed with
      | none => exact Or.inl rfl
      | some e => exact Or.inr (Or.inr ⟨e.1, e.2, _, rfl⟩)

end Llmxy
