import Llmxy.ApiKeys.Windows

/-!
# The hot path and the row

`enforce_key_state_cached` looks at a snapshot first, which may be older than the row, and at
the row only when the snapshot says that there is something to do.  It is to do what
`enforce_key_state` does to the row, or nothing.

The roll asks the snapshot whether the key is active, and does not ask the row again, nor
whether the row has expired.  So a key that was disabled, or whose expiry was brought forward,
after the snapshot was taken is given a new window with nothing used.

## Main definitions

* `RefinesRow` — what is promised.
* `RollsClosedKey` — the snapshot asks for a roll that the row does not.
* `enforceKeyStateCached_refines_iff` — the promise is kept otherwise, and only then.
-/

namespace Llmxy

/-- What is promised of a call with a snapshot of the row. -/
structure RefinesRow (row : ApiKey) (snap : ApiKeySnapshot) (w : World) : Prop where
  /-- The row is left alone, or as the state machine of the row leaves it. -/
  left : (enforceKeyStateCached snap w).2.pg.apiKeys.get? row.id = some row ∨
    (enforceKeyStateCached snap w).2.pg.apiKeys.get? row.id =
      (enforceKeyState row w).2.pg.apiKeys.get? row.id
  expired : (enforceKeyStateCached snap w).1 = .error ⟨401, str "api key expired"⟩ →
    (enforceKeyState row w).1 = .error ⟨401, str "api key expired"⟩
  /-- An answer that the row had a part in is a snapshot of the row, which names the counter of
  its window. -/
  fresh : ∀ answer, (snap.needsExpire w.now || snap.needsRoll w.now) = true →
    (enforceKeyStateCached snap w).1 = .ok answer →
    ∃ key, (enforceKeyStateCached snap w).2.pg.apiKeys.get? row.id = some key ∧
      answer = key.snapshot ∧ windowStartEpochFor answer = key.windowStartEpoch

/-- The snapshot asks for a roll of a window that is over, while the row is not active, or has
an expiry that has passed and that the snapshot does not know of. -/
def RollsClosedKey (now : ℤ) (snap : ApiKeySnapshot) (row : ApiKey) : Prop :=
  snap.needsRoll now = true ∧ (row.snapshot.elapsedWindow now).isSome = true ∧
    (row.status ≠ .active ∨
      row.snapshot.needsExpire now = true ∧ snap.needsExpire now = false)

section
variable {snap : ApiKeySnapshot} {row : ApiKey} {w : World}

/-! ### The four ways of a call -/

/-- A snapshot with nothing to do is the answer. -/
theorem enforceKeyStateCached_idle
    (hidle : (snap.needsExpire w.now || snap.needsRoll w.now) = false) :
    enforceKeyStateCached snap w = (.ok snap, w) := by
  rw [Bool.or_eq_false_iff] at hidle
  simp [enforceKeyStateCached, hidle]

/-- The row and the snapshot have expired. -/
theorem enforceKeyStateCached_expired (hrow : w.pg.apiKeys.get? snap.id = some row)
    (hsnap : snap.needsExpire w.now = true) (hexpire : row.snapshot.needsExpire w.now = true) :
    enforceKeyStateCached snap w =
      (.error ⟨401, str "api key expired"⟩, w.saveKey snap.id { row with status := .expired }) := by
  simp [enforceKeyStateCached, hrow, hsnap, hexpire]

/-- The row decides, and nothing is to be done. -/
theorem enforceKeyStateCached_kept (hrow : w.pg.apiKeys.get? snap.id = some row)
    (hbusy : (snap.needsExpire w.now || snap.needsRoll w.now) = true)
    (hexpire : (snap.needsExpire w.now && row.snapshot.needsExpire w.now) = false)
    (hroll : snap.needsRoll w.now = false ∨ row.snapshot.elapsedWindow w.now = none) :
    enforceKeyStateCached snap w = (.ok row.snapshot, w) := by
  have hbusy' : (!snap.needsExpire w.now && !snap.needsRoll w.now) = false := by
    rw [← Bool.not_or, hbusy, Bool.not_true]
  have helapsed : (if snap.needsRoll w.now = true then row.snapshot.elapsedWindow w.now
      else none) = none := by
    cases hroll with
    | inl hroll => simp [hroll]
    | inr helapsed => simp [helapsed]
  simp only [enforceKeyStateCached, hbusy', hrow, hexpire, helapsed]
  rfl

/-- The row is rolled. -/
theorem enforceKeyStateCached_rolled (hrow : w.pg.apiKeys.get? snap.id = some row)
    (hexpire : (snap.needsExpire w.now && row.snapshot.needsExpire w.now) = false)
    (hroll : snap.needsRoll w.now = true) {period : QuotaPeriod} {periodEnd : ℤ}
    (helapsed : row.snapshot.elapsedWindow w.now = some (period, periodEnd)) :
    (enforceKeyStateCached snap w).1 = .ok (row.roll w.now period periodEnd).snapshot ∧
      (enforceKeyStateCached snap w).2.pg.apiKeys.get? snap.id =
        some (row.roll w.now period periodEnd) := by
  have hcall : enforceKeyStateCached snap w = (.ok (row.roll w.now period periodEnd).snapshot,
      ((applyWindowRoll snap.id ((row.quotaPeriodStart.map epochOf).getD 0)).runWith exec
        (w.saveKey snap.id (row.roll w.now period periodEnd))).2) := by
    simp only [enforceKeyStateCached, hrow, hexpire, hroll, helapsed, Bool.not_true,
      Bool.and_false, Bool.false_eq_true, if_false, if_true]
  rw [hcall]
  exact ⟨rfl, get?_saveKey hrow rfl⟩

/-! ### When a call refines the row -/

/-- A roll moves the end of the window, so the row is not what it was. -/
theorem roll_ne {period : QuotaPeriod} {periodEnd : ℤ}
    (helapsed : row.snapshot.elapsedWindow w.now = some (period, periodEnd)) :
    row.roll w.now period periodEnd ≠ row := by
  obtain ⟨_, _, hend, hnow⟩ := elapsedWindow_eq_some.mp helapsed
  obtain ⟨n, hloop⟩ := rollWindow_while w.now periodEnd period
  obtain ⟨_, _, _, hrunning⟩ := windowLoop_lands hloop hnow
  intro h
  have hsame : some (rollWindow w.now periodEnd period).2 = row.quotaPeriodEnd :=
    congrArg ApiKey.quotaPeriodEnd h
  rw [show row.quotaPeriodEnd = some periodEnd from hend, Option.some.injEq] at hsame
  omega

/-- A roll that the row does not ask for, against what the row asks for. -/
theorem not_refines_of_closed (hrow : w.pg.apiKeys.get? row.id = some row) (hid : snap.id = row.id)
    (hclosed : RollsClosedKey w.now snap row) : ¬RefinesRow row snap w := by
  obtain ⟨hroll, helapsed, hclosed⟩ := hclosed
  obtain ⟨⟨period, periodEnd⟩, helapsed⟩ := Option.isSome_iff_exists.mp helapsed
  have hne := roll_ne helapsed
  have hexpire : (snap.needsExpire w.now && row.snapshot.needsExpire w.now) = false := by
    cases hclosed with
    | inl hstatus => simp [ApiKeySnapshot.needsExpire, ApiKey.snapshot, hstatus]
    | inr hexpire => simp [hexpire.2]
  have hrolled := (enforceKeyStateCached_rolled (by rw [hid]; exact hrow) hexpire hroll helapsed).2
  rw [hid] at hrolled
  intro h
  have hleft := h.left
  rw [hrolled, Option.some.injEq] at hleft
  cases hleft with
  | inl hleft => exact hne hleft
  | inr hleft =>
      cases hclosed with
      | inl hstatus =>
          -- the state machine leaves a row that is not active alone
          have hkept : enforceKeyState row w = (.ok row, w) := by
            simp [enforceKeyState, ApiKeySnapshot.needsExpire, ApiKey.snapshot, hstatus]
          rw [hkept, hrow, Option.some.injEq] at hleft
          exact hne hleft
      | inr hexpire =>
          -- it marks an expired row, and does not move its window
          have hmarked : (enforceKeyState row w).2.pg.apiKeys.get? row.id =
              some { row with status := .expired } := by
            rw [enforceKeyState, if_pos hexpire.1]
            exact get?_saveKey hrow rfl
          rw [hmarked, Option.some.injEq] at hleft
          refine hne ?_
          have hstart := congrArg ApiKey.quotaPeriodStart hleft
          have hend := congrArg ApiKey.quotaPeriodEnd hleft
          have hused := congrArg ApiKey.usedCents hleft
          simp only [ApiKey.roll] at hstart hend hused ⊢
          rw [hstart, hend, hused]

/-- Any other call refines the row. -/
theorem refines_of_not_closed (hrow : w.pg.apiKeys.get? row.id = some row) (hid : snap.id = row.id)
    (hclosed : ¬RollsClosedKey w.now snap row) : RefinesRow row snap w := by
  have hsnaprow : w.pg.apiKeys.get? snap.id = some row := by
    rw [hid]
    exact hrow
  by_cases hbusy : (snap.needsExpire w.now || snap.needsRoll w.now) = true
  swap
  · have hidle := enforceKeyStateCached_idle (Bool.eq_false_of_not_eq_true hbusy)
    refine ⟨.inl ?_, fun h => ?_, fun _ h => absurd h hbusy⟩
    · rw [hidle]
      exact hrow
    · rw [hidle] at h
      cases h
  cases hexpire : snap.needsExpire w.now && row.snapshot.needsExpire w.now with
  | true =>
      obtain ⟨hsnap, hexpire⟩ := Bool.and_eq_true_iff.mp hexpire
      have hcall := enforceKeyStateCached_expired hsnaprow hsnap hexpire
      have hmachine : enforceKeyState row w = (.error ⟨401, str "api key expired"⟩,
          w.saveKey row.id { row with status := .expired }) := by
        rw [enforceKeyState, if_pos hexpire]
      refine ⟨.inr ?_, fun _ => by rw [hmachine], fun _ _ h => ?_⟩
      · rw [hcall, hmachine, hid]
      · rw [hcall] at h
        cases h
  | false =>
      by_cases hroll : snap.needsRoll w.now = true ∧
          (row.snapshot.elapsedWindow w.now).isSome = true
      · obtain ⟨hroll, helapsed⟩ := hroll
        have hactive : row.status = .active ∧ row.snapshot.needsExpire w.now = false := by
          constructor
          · by_contra hstatus
            exact hclosed ⟨hroll, helapsed, .inl hstatus⟩
          · by_contra hrow'
            rw [Bool.not_eq_false] at hrow'
            rw [hrow', Bool.and_true] at hexpire
            exact hclosed ⟨hroll, helapsed, .inr ⟨hrow', hexpire⟩⟩
        obtain ⟨⟨period, periodEnd⟩, helapsed⟩ := Option.isSome_iff_exists.mp helapsed
        obtain ⟨hanswer, hleft⟩ := enforceKeyStateCached_rolled hsnaprow hexpire hroll helapsed
        rw [hid] at hleft
        have hmachine : (enforceKeyState row w).2.pg.apiKeys.get? row.id =
            some (row.roll w.now period periodEnd) := by
          rw [enforceKeyState_elapsed hactive.1 helapsed, hactive.2, if_neg Bool.false_ne_true]
          exact get?_saveKey hrow rfl
        refine ⟨.inr (hleft.trans hmachine.symm), fun h => ?_, fun answer _ h => ⟨_, hleft, ?_⟩⟩
        · rw [hanswer] at h
          cases h
        · rw [hanswer, Except.ok.injEq] at h
          subst h
          exact ⟨rfl, rfl⟩
      · have hkept : snap.needsRoll w.now = false ∨ row.snapshot.elapsedWindow w.now = none := by
          simpa [imp_iff_not_or] using hroll
        have hcall := enforceKeyStateCached_kept hsnaprow hbusy hexpire hkept
        refine ⟨.inl ?_, fun h => ?_, fun answer _ h => ⟨row, ?_, ?_⟩⟩
        · rw [hcall]
          exact hrow
        · rw [hcall] at h
          cases h
        · rw [hcall]
          exact hrow
        · rw [hcall, Except.ok.injEq] at h
          subst h
          exact ⟨rfl, rfl⟩

end

/-- **When a call on a snapshot refines the state machine of the row**: unless it rolls a key
that is not active, or that has expired since. -/
theorem enforceKeyStateCached_refines_iff (old row : ApiKey) (w : World) (hid : old.id = row.id)
    (hrow : w.pg.apiKeys.get? row.id = some row) :
    RefinesRow row old.snapshot w ↔ ¬RollsClosedKey w.now old.snapshot row :=
  ⟨fun h hclosed => not_refines_of_closed hrow hid hclosed h, refines_of_not_closed hrow hid⟩

/-- The snapshot of an active key rolls its window. -/
theorem enforceKeyStateCached_refines_march :
    RefinesRow monthlyKey monthlyKey.snapshot monthlyWorld :=
  (enforceKeyStateCached_refines_iff monthlyKey monthlyKey monthlyWorld rfl rfl).mpr
    fun h => h.2.2.elim (fun h => h rfl) fun h => absurd h.1 (by decide)

/-- The key has been disabled since its snapshot was taken. -/
def disabledWorld : World :=
  { monthlyWorld with
    pg := { monthlyWorld.pg with apiKeys := .single { monthlyKey with status := .disabled } } }

/-- Its row gets the window of March, with nothing used. -/
theorem disabled_key_rolled :
    ¬RefinesRow { monthlyKey with status := .disabled } monthlyKey.snapshot disabledWorld := by
  intro h
  have hleft := h.left
  revert hleft
  decide +kernel

end Llmxy
