import Llmxy.ApiKeys.Modes

/-!
# The settings that a key can be edited to

A PATCH leaves alone what it does not mention, and there is no way to mention that a period is
to be removed.  The mode and the period that result are validated together.

## Main definitions

* `CreateAccepts` — the settings that a new key can have.
* `Edited` — a row after a PATCH to a setting.
* `EditableTo` — some PATCH leaves the key so.
-/

namespace Llmxy

/-- A key can be created with this mode and period. -/
def CreateAccepts (mode : QuotaMode) (period : Option QuotaPeriod) : Prop :=
  ∃ (req : ApiKeyCreate) (userId now : ℤ) (mk : ℤ → ApiKey), req.row userId now = .ok mk ∧
    ∀ id, (mk id).quotaMode = mode ∧ (mk id).quotaPeriod = period

/-- The row has the mode and the period, a window that is consistent with them, and nothing used
if they have changed. -/
structure Edited (row k : ApiKey) (mode : QuotaMode) (period : Option QuotaPeriod) : Prop where
  held : k.quotaMode = mode ∧ k.quotaPeriod = period
  used : mode ≠ row.quotaMode ∨ period ≠ row.quotaPeriod → k.usedCents = 0
  window : k.WindowConsistent

/-- **Some PATCH of its owner is accepted** and leaves the key with the mode and the period. -/
def EditableTo (w : World) (keyId : ℤ) (row : ApiKey) (mode : QuotaMode)
    (period : Option QuotaPeriod) : Prop :=
  ∃ req k, (updateKey row.userId keyId req w).1 = .ok k ∧
    (updateKey row.userId keyId req w).2.pg.apiKeys.get? keyId = some k ∧ Edited row k mode period

/-! ### Requests -/

def modeText : QuotaMode → Str
  | .untilDepleted => str "until_depleted"
  | .periodic => str "periodic"

def periodText : QuotaPeriod → Str
  | .day => str "day"
  | .week => str "week"
  | .month => str "month"

theorem parseMode_modeText (mode : QuotaMode) : parseMode (modeText mode) = .ok mode := by
  cases mode <;> rfl

theorem parsePeriod_periodText (period : QuotaPeriod) :
    parsePeriod (periodText period) = .ok period := by
  cases period <;> rfl

/-- A PATCH of the mode and the period, as far as they can be mentioned. -/
def settingPatch (mode : QuotaMode) (period : Option QuotaPeriod) : ApiKeyUpdate :=
  ⟨none, none, false, some (modeText mode), period.map periodText⟩

theorem validateModePeriod_of_valid {mode : QuotaMode} {period : Option QuotaPeriod}
    (h : ValidModePeriod mode period) : validateModePeriod mode period = .ok () := by
  obtain ⟨rfl, rfl⟩ | ⟨p, rfl, rfl⟩ := h <;> rfl

section
variable {row k : ApiKey} {now : ℤ} {mode : QuotaMode} {period : Option QuotaPeriod}

/-- New keys have the valid settings. -/
theorem createAccepts_iff : CreateAccepts mode period ↔ ValidModePeriod mode period := by
  constructor
  · rintro ⟨req, userId, now, mk, hrow, hmk⟩
    obtain ⟨mode', period', hvalid, rfl⟩ := ApiKeyCreate.row_ok hrow
    obtain ⟨rfl, rfl⟩ := hmk 0
    exact hvalid
  · intro hvalid
    refine ⟨⟨0, none, some (modeText mode), period.map periodText⟩, 0, 0, ?_⟩
    obtain ⟨rfl, rfl⟩ | ⟨p, rfl, rfl⟩ := hvalid
    · exact ⟨_, rfl, fun _ => ⟨rfl, rfl⟩⟩
    · cases p with
      | day => exact ⟨_, rfl, fun _ => ⟨rfl, rfl⟩⟩
      | week => exact ⟨_, rfl, fun _ => ⟨rfl, rfl⟩⟩
      | month => exact ⟨_, rfl, fun _ => ⟨rfl, rfl⟩⟩

/-- A PATCH of a setting, where the row has no period that it fails to mention. -/
theorem modePeriod_settingPatch (hvalid : ValidModePeriod mode period)
    (hperiod : period = none → row.quotaPeriod = none) :
    (settingPatch mode period).modePeriod row = .ok (mode, period) := by
  obtain ⟨rfl, rfl⟩ | ⟨p, rfl, rfl⟩ := hvalid
  · show (do
      let period ← (pure row.quotaPeriod : Except HttpError (Option QuotaPeriod))
      validateModePeriod .untilDepleted period
      return (QuotaMode.untilDepleted, period)) = _
    rw [hperiod rfl]
    rfl
  · cases p <;> rfl

/-- A period is never removed. -/
theorem modePeriod_keeps_period {req : ApiKeyUpdate} (h : req.modePeriod row = .ok (mode, period))
    (hperiod : row.quotaPeriod ≠ none) : period ≠ none := by
  obtain ⟨-, hasked, -⟩ := ApiKeyUpdate.modePeriod_ok h
  rw [ApiKeyUpdate.askedPeriod] at hasked
  cases hreq : req.quotaPeriod with
  | none =>
      rw [hreq] at hasked
      cases hasked
      exact hperiod
  | some raw =>
      rw [hreq, Option.elim_some] at hasked
      cases hparsed : parsePeriod raw with
      | error e =>
          rw [hparsed] at hasked
          cases hasked
      | ok p =>
          rw [hparsed] at hasked
          cases hasked
          exact Option.some_ne_none p

/-- A key with windows keeps them. -/
theorem modePeriod_stays_periodic {req : ApiKeyUpdate} (h : row.WindowConsistent)
    (hasked : req.modePeriod row = .ok (mode, period)) (hperiodic : row.quotaMode = .periodic) :
    mode = .periodic := by
  obtain ⟨p, _, hp, -⟩ := h.periodic hperiodic
  obtain ⟨-, hnone⟩ | ⟨_, hmode, -⟩ := ApiKeyUpdate.modePeriod_valid hasked
  · exact absurd hnone (modePeriod_keeps_period hasked (by rw [hp]; nofun))
  · exact hmode

/-- What an accepted PATCH makes of a row. -/
theorem assign_edited (now : ℤ) {req : ApiKeyUpdate} (h : row.WindowConsistent)
    (hasked : req.modePeriod row = .ok (mode, period)) :
    ∃ k, req.assign now row = .ok k ∧ Edited row k mode period := by
  obtain ⟨k, hassign⟩ : ∃ k, req.assign now row = .ok k := by
    rw [ApiKeyUpdate.assign, hasked]
    exact ⟨_, rfl⟩
  refine ⟨k, hassign, ?_⟩
  have hwindow := windowConsistent_patch h hassign
  rw [ApiKeyUpdate.assign, hasked] at hassign
  cases hassign
  dsimp only at hwindow ⊢
  split_ifs at hwindow ⊢ with hsame
  · refine ⟨⟨rfl, rfl⟩, fun hchanged => ?_, hwindow⟩
    exact absurd hsame (by tauto)
  · exact ⟨⟨rfl, rfl⟩, fun _ => rfl, hwindow⟩

/-- The row after a PATCH that comes at some time, whether it is accepted or not. -/
def ApiKey.patched (row : ApiKey) (patch : ℤ × ApiKeyUpdate) : ApiKey :=
  (patch.2.assign patch.1 row).toOption.getD row

theorem patched_stays_periodic (patch : ℤ × ApiKeyUpdate) (h : row.WindowConsistent)
    (hperiodic : row.quotaMode = .periodic) :
    (row.patched patch).WindowConsistent ∧ (row.patched patch).quotaMode = .periodic := by
  rw [ApiKey.patched]
  cases hasked : patch.2.modePeriod row with
  | error e =>
      rw [ApiKeyUpdate.assign, hasked]
      exact ⟨h, hperiodic⟩
  | ok asked =>
      obtain ⟨k, hassign, hedited⟩ := assign_edited patch.1 h hasked
      rw [hassign]
      exact ⟨hedited.window, hedited.held.1.trans (modePeriod_stays_periodic h hasked hperiodic)⟩

/-- No number of PATCHes takes the windows off a key. -/
theorem patches_stay_periodic (patches : List (ℤ × ApiKeyUpdate)) (h : row.WindowConsistent)
    (hperiodic : row.quotaMode = .periodic) :
    (patches.foldl ApiKey.patched row).quotaMode = .periodic := by
  induction patches generalizing row with
  | nil => exact hperiodic
  | cons patch patches ih =>
      obtain ⟨h', hperiodic'⟩ := patched_stays_periodic patch h hperiodic
      exact ih h' hperiodic'

/-- **A key can be edited to a setting** that a new key can have, unless it would have to give up
its windows. -/
theorem editableTo_iff {w : World} {keyId : ℤ} (hrow : w.pg.apiKeys.get? keyId = some row)
    (h : row.WindowConsistent) (hcreate : CreateAccepts mode period) :
    EditableTo w keyId row mode period ↔
      ¬(row.quotaMode = .periodic ∧ mode = .untilDepleted) := by
  have hvalid := createAccepts_iff.mp hcreate
  constructor
  · rintro ⟨req, k, hok, -, hedited⟩ ⟨hperiodic, hmode⟩
    rw [(updateKey_patch _ hrow rfl).1] at hok
    cases hasked : req.modePeriod row with
    | error e =>
        rw [ApiKeyUpdate.assign, hasked] at hok
        cases hok
    | ok asked =>
        obtain ⟨k', hassign, hasked'⟩ := assign_edited w.now h hasked
        cases hassign.symm.trans hok
        have hstays := modePeriod_stays_periodic h hasked hperiodic
        cases hstays.symm.trans (hasked'.held.1.symm.trans (hedited.held.1.trans hmode))
  · intro hkeeps
    have hperiod : period = none → row.quotaPeriod = none := by
      intro hnone
      obtain ⟨hmode, -⟩ | ⟨p, -, hsome⟩ := hvalid
      · cases hrowMode : row.quotaMode with
        | untilDepleted => exact (h.untilDepleted hrowMode).1
        | periodic => exact absurd ⟨hrowMode, hmode⟩ hkeeps
      · cases hnone.symm.trans hsome
    obtain ⟨k, hassign, hedited⟩ :=
      assign_edited w.now h (modePeriod_settingPatch hvalid hperiod)
    obtain ⟨hok, hget⟩ := updateKey_patch (settingPatch mode period) hrow rfl
    rw [hassign] at hok hget
    exact ⟨settingPatch mode period, k, hok, hget, hedited⟩

end

/-! ### A daily key -/

/-- A world with a key of daily windows. -/
def dailyWorld : World :=
  ⟨⟨Store.empty, Store.empty, Store.empty⟩, { oneSubPg 0 0 with apiKeys := .single dailyKey }, 0⟩

theorem dailyKey_consistent : dailyKey.WindowConsistent :=
  consistent_dailyKey dailyKey (List.mem_singleton_self _)

/-- The key can be edited to weekly windows. -/
theorem daily_editableTo_week : EditableTo dailyWorld 3 dailyKey .periodic (some .week) :=
  (editableTo_iff rfl dailyKey_consistent (createAccepts_iff.mpr (.inr ⟨.week, rfl, rfl⟩))).mpr
    fun h => nomatch h.2

/-- It cannot be edited to a key without windows, which a new key can be. -/
theorem daily_not_editableTo_untilDepleted :
    CreateAccepts .untilDepleted none ∧ dailyKey.WindowConsistent ∧
      dailyWorld.pg.apiKeys.get? 3 = some dailyKey ∧
      ¬EditableTo dailyWorld 3 dailyKey .untilDepleted none := by
  refine ⟨createAccepts_iff.mpr (.inl ⟨rfl, rfl⟩), dailyKey_consistent, rfl, ?_⟩
  rintro ⟨req, k, hok, -, hedited⟩
  rw [(updateKey_patch _ rfl rfl).1] at hok
  have hstays := (patched_stays_periodic (dailyWorld.now, req) dailyKey_consistent rfl).2
  rw [ApiKey.patched, hok] at hstays
  cases hstays.symm.trans hedited.held.1

end Llmxy
