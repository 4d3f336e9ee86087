import Llmxy.QuotaCache.Basic

/-!
# Which commands the quota code issues

Every program of the quota cache reads, takes locks and sends one or two pipelines.
Each lemma below says of one program that it obeys a discipline on commands (`C`) as
soon as its own pipelines do, where these may be built from replies that satisfy `A`.
An invariant of the cache then needs one argument for each pipeline and none for the
control flow.

## Main definitions

* `Cmd.Quiet` — commands that write neither a quota key nor a table.
* `obeys_hasQuotaFast`, `obeys_invalidateUserQuota`, `obeys_applyCharge`.
-/

namespace Llmxy

/-- The command writes neither a quota key nor a table. -/
def Cmd.Quiet : Cmd → Prop
  | .get _ | .zrange _ | .setNX _ _ | .now | .getUser _ | .getKey _ | .selectSubs _ _ => True
  | .pipe _ | .scanDel | .charge _ _ _ _ _ | .warnPersistentMiss => False

/-- The command reads a key, a table or the clock. -/
def Cmd.IsRead : Cmd → Prop
  | .get _ | .zrange _ | .now | .getUser _ | .getKey _ | .selectSubs _ _ => True
  | .setNX _ _ | .pipe _ | .scanDel | .charge _ _ _ _ _ | .warnPersistentMiss => False

theorem Cmd.IsRead.quiet {c : Cmd} (h : c.IsRead) : c.Quiet := by
  cases c <;> trivial

variable {A : (c : Cmd) → c.Reply → Prop} {C : Cmd → Prop} {α : Type}

theorem obeys_ask_bind {c : Cmd} {f : c.Reply → QProc α} :
    (ask c >>= f).Obeys A C ↔ C c ∧ ∀ r, A c r → (f r).Obeys A C := Iff.rfl

theorem obeys_ask {c : Cmd} : (ask c).Obeys A C ↔ C c := by
  constructor
  · exact fun h => h.1
  · exact fun h => ⟨h, fun _ _ => trivial⟩

theorem obeys_hydrateUserQuota {uid : ℤ} (hquiet : ∀ c : Cmd, c.Quiet → C c)
    (hpipe : ∀ user now subs, A (.getUser uid) (some user) → A .now now →
      A (.selectSubs uid now) subs → C (.pipe (hydrateWrites user subs now))) :
    (hydrateUserQuota uid).Obeys A C := by
  rw [hydrateUserQuota, obeys_ask_bind]
  refine ⟨hquiet _ trivial, fun gotLock _ => ?_⟩
  cases gotLock with
  | false => trivial
  | true =>
      rw [if_pos rfl, obeys_ask_bind]
      refine ⟨hquiet _ trivial, fun row hrow => ?_⟩
      cases row with
      | none => trivial
      | some user =>
          apply obeys_ask_bind.mpr
          refine ⟨hquiet _ trivial, fun now hnow => ?_⟩
          apply obeys_ask_bind.mpr
          refine ⟨hquiet _ trivial, fun subs hsubs => ?_⟩
          exact obeys_ask.mpr (hpipe user now subs hrow hnow hsubs)

theorem obeys_hydrateKeyUsed {kid ws : ℤ} (hread : ∀ c : Cmd, c.IsRead → C c)
    (hpipe : ∀ row, A (.getKey kid) (some row) →
      C (.pipe [.set (.kused kid ws) row.usedCents subqTtlFallback])) :
    (hydrateKeyUsed kid ws).Obeys A C := by
  rw [hydrateKeyUsed, obeys_ask_bind]
  refine ⟨hread _ trivial, fun row hrow => ?_⟩
  cases row with
  | none => trivial
  | some row => exact obeys_ask.mpr (hpipe row hrow)

theorem obeys_checkSubs (hread : ∀ c : Cmd, c.IsRead → C c) (sids : List ℤ) :
    (checkSubs sids).Obeys A C := by
  induction sids with
  | nil => trivial
  | cons sid sids ih =>
      rw [checkSubs, obeys_ask_bind]
      refine ⟨hread _ trivial, fun v _ => ?_⟩
      cases v with
      | none => trivial
      | some iv =>
          dsimp only
          split_ifs
          · trivial
          · trivial
          · exact ih

theorem obeys_check (hread : ∀ c : Cmd, c.IsRead → C c) (uid kid quota ws : ℤ) :
    (check uid kid quota ws).Obeys A C := by
  rw [check, obeys_ask_bind]
  refine ⟨hread _ trivial, fun used _ => ?_⟩
  cases checkKey quota used with
  | some r => trivial
  | none =>
      apply obeys_ask_bind.mpr
      refine ⟨hread _ trivial, fun sids _ => ?_⟩
      apply Proc.obeys_bind (obeys_checkSubs hread sids)
      intro r
      cases r with
      | some r => trivial
      | none => exact obeys_ask_bind.mpr ⟨hread _ trivial, fun _ _ => trivial⟩

theorem obeys_hasQuotaFast {uid kid ws : ℤ} (quota : ℤ) (hquiet : ∀ c : Cmd, c.Quiet → C c)
    (hwarn : C .warnPersistentMiss) (huser : (hydrateUserQuota uid).Obeys A C)
    (hkey : (hydrateKeyUsed kid ws).Obeys A C) :
    (hasQuotaFast uid kid quota ws).Obeys A C := by
  rw [hasQuotaFast]
  apply Proc.obeys_bind (obeys_check (fun c hc => hquiet c hc.quiet) uid kid quota ws)
  intro r
  split_ifs
  · trivial
  · apply Proc.obeys_bind huser
    intro _
    apply Proc.obeys_bind hkey
    intro _
    apply Proc.obeys_bind (obeys_check (fun c hc => hquiet c hc.quiet) uid kid quota ws)
    intro r'
    split_ifs
    · exact obeys_ask_bind.mpr ⟨hwarn, fun _ _ => trivial⟩
    · trivial

theorem obeys_invalidateUserQuota {uid : ℤ} (hread : ∀ c : Cmd, c.IsRead → C c)
    (hpipe : ∀ sids, C (.pipe (invalidateWrites uid sids))) :
    (invalidateUserQuota uid).Obeys A C := by
  rw [invalidateUserQuota, obeys_ask_bind]
  exact ⟨hread _ trivial, fun sids _ => obeys_ask.mpr (hpipe sids)⟩

theorem obeys_applyCharge {uid cost ws : ℤ} {kid : Option ℤ} {breakdown : List Share}
    (hpipe : 0 < cost → C (.pipe (chargeWrites uid kid cost ws breakdown))) :
    (applyCharge uid kid cost ws breakdown).Obeys A C := by
  unfold applyCharge
  split_ifs with hc
  · trivial
  · exact obeys_ask.mpr (hpipe (not_le.mp hc))

/-! ### Which writes the pipelines hold -/

theorem mem_hydrateWrites {user : User} {subs : List Subscription} {now : ℤ} {x : Write} :
    x ∈ hydrateWrites user subs now ↔
      x = .set (.wallet user.id) user.balanceCents walletTtl ∨ x = .delUsubs user.id ∨
        subs ≠ [] ∧ (x = .zadd user.id (subs.map fun s => (s.currentPeriodEnd, s.id)) ∨
          x = .expireUsubs user.id usubsTtl) ∨
        ∃ s ∈ subs, x = .set (.subq s.id) s.remainingCents (subqTtl now s.currentPeriodEnd) := by
  by_cases hempty : subs = []
  · subst hempty
    simp [hydrateWrites]
  · simp only [hydrateWrites, List.isEmpty_iff, if_false, List.mem_append, List.mem_cons,
      List.not_mem_nil, or_false, List.mem_map, ne_eq, hempty, not_false_eq_true, true_and,
      eq_comm (b := x)]
    tauto

theorem mem_invalidateWrites {uid : ℤ} {sids : List ℤ} {x : Write} :
    x ∈ invalidateWrites uid sids ↔
      x = .del (.wallet uid) ∨ x = .delUsubs uid ∨ ∃ sid ∈ sids, x = .del (.subq sid) := by
  simp only [invalidateWrites, List.mem_append, List.mem_cons, List.not_mem_nil, or_false,
    List.mem_map, eq_comm (b := x)]
  tauto

/-- The mirror of a share takes a positive amount from a counter of funds. -/
theorem mem_shareWrites {uid : ℤ} {b : Share} {x : Write} (h : x ∈ shareWrites uid b) :
    ∃ k n, 0 < n ∧ (k = .wallet uid ∨ ∃ sid, k = .subq sid) ∧ x = .decrIfExists k n := by
  obtain ⟨kind, ident, amount⟩ := b
  by_cases ha : amount ≤ 0
  · cases kind with
    | sub => simp [shareWrites, ha] at h
    | wallet => simp [shareWrites, ha] at h
  · cases kind with
    | sub =>
        simp only [shareWrites, if_neg ha, List.mem_singleton] at h
        exact ⟨_, amount, by omega, Or.inr ⟨ident, rfl⟩, h⟩
    | wallet =>
        simp only [shareWrites, if_neg ha, List.mem_singleton] at h
        exact ⟨_, amount, by omega, Or.inl rfl, h⟩

/-- The mirror of a charge takes positive amounts from counters of funds, and adds the cost
to the used counter of the key. -/
theorem mem_chargeWrites {uid cost ws : ℤ} {kid : Option ℤ} {breakdown : List Share} {x : Write}
    (h : x ∈ chargeWrites uid kid cost ws breakdown) :
    (∃ k n, 0 < n ∧ (k = .wallet uid ∨ ∃ sid, k = .subq sid) ∧ x = .decrIfExists k n) ∨
      ∃ kid, x = .incrBy (.kused kid ws) cost := by
  rcases List.mem_append.mp h with hx | hx
  · obtain ⟨b, -, hx⟩ := List.mem_flatMap.mp hx
    exact Or.inl (mem_shareWrites hx)
  · cases kid with
    | none => cases hx
    | some kid => exact Or.inr ⟨kid, List.mem_singleton.mp hx⟩

end Llmxy
