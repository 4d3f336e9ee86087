import Llmxy.ApiKeys
import Llmxy.Lib.WhileLoop

/-!
# Rolling a quota window

A periodic key whose window is over is rolled before its next request: the loop goes through
the windows that have passed, one after the other, until it finds the one that contains the
present.

Each window ends after it starts, which is why the loop stops.  A month may be shorter than a
day at first, since the first window starts at any time; each later one is at least a day long,
which is why the fuel of `rollWindow` is enough.

## Main definitions

* `WindowLoop` — the loop, as a `While`.
* `rollWindow_while` — `rollWindow` computes what the loop ends with.
* `enforceKeyState` — the state machine that a row goes through.
* `enforceKeyState_lands` — the window that it leaves.
-/

namespace Llmxy

/-! ### Windows -/

theorem day_dvd_nextMonthStart (t : ℤ) : day ∣ nextMonthStart t := Dvd.intro_left _ rfl

/-- A window ends after it starts. -/
theorem lt_nextQuotaWindow (start : ℤ) (period : QuotaPeriod) :
    start < nextQuotaWindow start period := by
  cases period with
  | day => simp [nextQuotaWindow, day]
  | week => simp [nextQuotaWindow, day]
  | month => exact lt_nextMonthStart start

/-- The window after the first is at least a day long. -/
theorem add_day_le_nextQuotaWindow (start : ℤ) (period : QuotaPeriod) :
    nextQuotaWindow start period + day ≤
      nextQuotaWindow (nextQuotaWindow start period) period := by
  cases period with
  | day => exact le_rfl
  | week =>
      simp only [nextQuotaWindow, day]
      omega
  | month =>
      obtain ⟨a, ha⟩ := day_dvd_nextMonthStart start
      obtain ⟨b, hb⟩ := day_dvd_nextMonthStart (nextMonthStart start)
      have hlt := lt_nextMonthStart (nextMonthStart start)
      simp only [nextQuotaWindow]
      rw [hb, ha] at hlt ⊢
      rw [day] at hlt ⊢
      omega

/-! ### The loop -/

/-- The window after a window. -/
def nextWindow (period : QuotaPeriod) (window : ℤ × ℤ) : ℤ × ℤ :=
  (window.2, nextQuotaWindow window.2 period)

/-- `while new_end <= now: new_start = new_end; new_end = next_quota_window(new_start, …)`. -/
abbrev WindowLoop (now : ℤ) (period : QuotaPeriod) : ℕ → ℤ × ℤ → ℤ × ℤ → Prop :=
  While (fun window => window.2 ≤ now) (nextWindow period)

theorem fastForward_eq_whileFuel (now : ℤ) (period : QuotaPeriod) (fuel : ℕ) (window : ℤ × ℤ) :
    fastForward now period fuel window =
      whileFuel (fun window => window.2 ≤ now) (nextWindow period) fuel window := by
  induction fuel generalizing window with
  | zero => rfl
  | succ fuel ih => simp only [fastForward, whileFuel, ih, nextWindow]

/-- The iterates of the loop's body are the windows in a row. -/
theorem iterate_nextWindow (period : QuotaPeriod) (start : ℤ) (n : ℕ) :
    (nextWindow period)^[n] (start, nextQuotaWindow start period) =
      ((nextQuotaWindow · period)^[n] start,
        nextQuotaWindow ((nextQuotaWindow · period)^[n] start) period) := by
  induction n generalizing start with
  | zero => rfl
  | succ n ih =>
      rw [Function.iterate_succ_apply, Function.iterate_succ_apply]
      exact ih (nextQuotaWindow start period)

/-- An iteration leaves a day less to go, since the window that it skips is a day long. -/
theorem exists_windowLoop (now start : ℤ) (period : QuotaPeriod) :
    ∃ n window, n ≤ ((now - start) / day).toNat + 1 ∧
      WindowLoop now period n (start, nextQuotaWindow start period) window := by
  let I : ℤ × ℤ → Prop := fun window => window.2 + day ≤ nextQuotaWindow window.2 period
  let variant : ℤ × ℤ → ℕ := fun window => ((now - window.2) / day + 1).toNat
  have hbody : ∀ window : ℤ × ℤ, window.2 ≤ now → I window → I (nextWindow period window) :=
    fun window _ _ => add_day_le_nextQuotaWindow window.2 period
  have hvariant : ∀ window : ℤ × ℤ, window.2 ≤ now → I window →
      variant (nextWindow period window) < variant window := by
    intro window hguard hlong
    simp only [I, variant, nextWindow, day] at hguard hlong ⊢
    omega
  have h0 : I (start, nextQuotaWindow start period) := add_day_le_nextQuotaWindow start period
  obtain ⟨n, window, hn, hloop⟩ := exists_while I variant hbody hvariant h0
  have hlt := lt_nextQuotaWindow start period
  refine ⟨n, window, hn.trans ?_, hloop⟩
  simp only [variant, day] at hlt ⊢
  omega

/-- **The loop stops**, and `rollWindow` is the window that it stops in. -/
theorem rollWindow_while (now periodEnd : ℤ) (period : QuotaPeriod) :
    ∃ n, WindowLoop now period n (periodEnd, nextQuotaWindow periodEnd period)
      (rollWindow now periodEnd period) := by
  obtain ⟨n, window, hn, hloop⟩ := exists_windowLoop now periodEnd period
  have hroll : rollWindow now periodEnd period = window := by
    rw [rollWindow, fastForward_eq_whileFuel]
    exact hloop.whileFuel_eq (by omega)
  exact ⟨n, by rw [hroll]; exact hloop⟩

/-- Where the loop stops: in a window that contains the present, and that is reached from the
first by going from each to the next. -/
theorem windowLoop_lands {now start : ℤ} {period : QuotaPeriod} {n : ℕ} {window : ℤ × ℤ}
    (h : WindowLoop now period n (start, nextQuotaWindow start period) window)
    (hstart : start ≤ now) :
    window.1 = (nextQuotaWindow · period)^[n] start ∧
      window.2 = nextQuotaWindow window.1 period ∧ window.1 ≤ now ∧ now < window.2 := by
  have hiterate := h.iterate
  have hexit := h.not_guard
  have hstarted := h.inv (fun _ hguard _ => hguard) (I := fun window => window.1 ≤ now) hstart
  rw [iterate_nextWindow] at hiterate
  exact ⟨congrArg Prod.fst hiterate, by rw [hiterate], hstarted, not_le.mp hexit⟩

/-! ### The state machine of a row -/

/-- `enforce_key_state`, for the row that the request has loaded. -/
def enforceKeyState (row : ApiKey) (w : World) : Except HttpError ApiKey × World :=
  if row.snapshot.needsExpire w.now then
    (.error ⟨401, str "api key expired"⟩, w.saveKey row.id { row with status := .expired })
  else if row.status = .active then
    match row.snapshot.elapsedWindow w.now with
    | none => (.ok row, w)
    | some (period, periodEnd) =>
        let rolled := row.roll w.now period periodEnd
        (.ok rolled, w.saveKey row.id rolled)
  else (.ok row, w)

section
variable {row : ApiKey} {w : World} {period : QuotaPeriod} {periodEnd : ℤ}

theorem elapsedWindow_eq_some {snap : ApiKeySnapshot} {now : ℤ} :
    snap.elapsedWindow now = some (period, periodEnd) ↔ snap.quotaMode = .periodic ∧
      snap.quotaPeriod = some period ∧ snap.quotaPeriodEnd = some periodEnd ∧ periodEnd ≤ now := by
  rw [ApiKeySnapshot.elapsedWindow]
  constructor
  · intro h
    split at h
    · next hmode hperiod hend =>
        split_ifs at h with hle
        cases h
        exact ⟨hmode, hperiod, hend, hle⟩
    · cases h
  · intro ⟨hmode, hperiod, hend, hle⟩
    simp only [hmode, hperiod, hend, if_pos hle]

/-- An active row whose window is over is rolled, unless it has expired. -/
theorem enforceKeyState_elapsed (hstatus : row.status = .active)
    (helapsed : row.snapshot.elapsedWindow w.now = some (period, periodEnd)) :
    enforceKeyState row w =
      if row.snapshot.needsExpire w.now then
        (.error ⟨401, str "api key expired"⟩, w.saveKey row.id { row with status := .expired })
      else (.ok (row.roll w.now period periodEnd),
        w.saveKey row.id (row.roll w.now period periodEnd)) := by
  simp only [enforceKeyState, if_pos hstatus, helapsed]

/-- What a roll is to leave: the window that contains the present, reached from the old end
window by window, and nothing used in it. -/
structure OnCurrentWindow (now periodEnd : ℤ) (period : QuotaPeriod) (n : ℕ) (key : ApiKey) :
    Prop where
  start : key.quotaPeriodStart = some ((nextQuotaWindow · period)^[n] periodEnd)
  stop : key.quotaPeriodEnd =
    some (nextQuotaWindow ((nextQuotaWindow · period)^[n] periodEnd) period)
  started : (nextQuotaWindow · period)^[n] periodEnd ≤ now
  running : now < nextQuotaWindow ((nextQuotaWindow · period)^[n] periodEnd) period
  used : key.usedCents = 0

/-- **Rolling a window terminates and lands on the current one**: the loop stops, and the key,
unless it is refused as expired, is committed in the window that it stops in. -/
theorem enforceKeyState_lands (row : ApiKey) (w : World) (period : QuotaPeriod) (periodEnd : ℤ)
    (hrow : w.pg.apiKeys.get? row.id = some row) (hstatus : row.status = .active)
    (hmode : row.quotaMode = .periodic) (hperiod : row.quotaPeriod = some period)
    (hend : row.quotaPeriodEnd = some periodEnd) (hnow : periodEnd ≤ w.now) :
    ∃ n, WindowLoop w.now period n (periodEnd, nextQuotaWindow periodEnd period)
        (rollWindow w.now periodEnd period) ∧
      if row.snapshot.needsExpire w.now then
        (enforceKeyState row w).1 = .error ⟨401, str "api key expired"⟩
      else ∃ key, (enforceKeyState row w).1 = .ok key ∧
        (enforceKeyState row w).2.pg.apiKeys.get? row.id = some key ∧
        OnCurrentWindow w.now periodEnd period n key := by
  obtain ⟨n, hloop⟩ := rollWindow_while w.now periodEnd period
  obtain ⟨hstart, hstop, hstarted, hrunning⟩ := windowLoop_lands hloop hnow
  rw [hstop] at hrunning
  rw [hstart] at hstop hstarted hrunning
  refine ⟨n, hloop, ?_⟩
  rw [enforceKeyState_elapsed hstatus (elapsedWindow_eq_some.mpr ⟨hmode, hperiod, hend, hnow⟩)]
  by_cases hexpired : row.snapshot.needsExpire w.now = true
  · rw [if_pos hexpired, if_pos hexpired]
  · rw [if_neg hexpired, if_neg hexpired]
    exact ⟨_, rfl, get?_saveKey hrow rfl, congrArg some hstart, congrArg some hstop, hstarted,
      hrunning, rfl⟩

end

/-- A key of monthly windows, the first of which began at noon of 31 January 1970. -/
def monthlyKey : ApiKey :=
  ⟨3, 1, .active, 1000, 70, .periodic, some .month, some (30 * day + day / 2), some (31 * day),
    none⟩

/-- The world with that key, on 5 March. -/
def monthlyWorld : World where
  redis := ⟨.empty, .empty, .empty⟩
  pg := { oneSubPg 100 0 with apiKeys := .single monthlyKey }
  now := 63 * day

/-- February has passed. -/
theorem enforceKeyState_lands_march :
    ∃ n, WindowLoop (63 * day) .month n (31 * day, 59 * day)
        (rollWindow (63 * day) (31 * day) .month) ∧
      if monthlyKey.snapshot.needsExpire (63 * day) then
        (enforceKeyState monthlyKey monthlyWorld).1 = .error ⟨401, str "api key expired"⟩
      else ∃ key, (enforceKeyState monthlyKey monthlyWorld).1 = .ok key ∧
        (enforceKeyState monthlyKey monthlyWorld).2.pg.apiKeys.get? 3 = some key ∧
        OnCurrentWindow (63 * day) (31 * day) .month n key :=
  enforceKeyState_lands monthlyKey monthlyWorld .month (31 * day) rfl rfl rfl rfl rfl (by decide)

end Llmxy
