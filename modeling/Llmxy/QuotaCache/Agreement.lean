import Llmxy.QuotaCache.Run

/-!
# The fast check against the authoritative one

From a cold cache `has_quota_fast` misses, hydrates and checks again, so its answer
is the check over the hydrated keys.  That check reads the same funds as
`has_quota`, with one difference: a wallet below zero counts as cache drift, hence
as a miss, and a second miss allows the request.

## Main definitions

* `Cold` — the user's and the key's quota keys are absent and the lock is free.
* `verdict_of_hydrated` — the check over a hydrated cache.
* `hasQuotaFast_agrees_iff` — exactly when the two checks agree.
-/

namespace Llmxy

/-- The rows are there, none of their quota keys is cached, and no hydration lock
is held. -/
structure Cold (w : World) (user : User) (key : ApiKey) (ws : ℤ) : Prop where
  userRow : w.pg.users.get? user.id = some user
  keyRow : w.pg.apiKeys.get? key.id = some key
  lock : w.redis.lock.get w.now (.hydr user.id) = none
  wallet : w.wallet user.id = none
  kused : w.kused key.id ws = none
  usubs : w.redis.usubs.get w.now user.id = none

variable {w : World} {user : User} {key : ApiKey} {ws : ℤ}

/-- A cold cache is a miss. -/
theorem verdict_of_cold (h : Cold w user key ws) (quota : ℤ) :
    verdict w user.id key.id quota ws = miss := by
  have hmem : w.members user.id = [] := by simp [World.members, h.usubs]
  unfold verdict checkKey
  rw [h.kused, h.wallet, hmem]
  split_ifs
  · rfl
  · rfl

/-- Over counters that are all there and not negative, the loop answers ok exactly
when one of them is positive. -/
theorem subsVerdict_of_nonneg {sids : List ℤ}
    (h : ∀ sid ∈ sids, ∃ v, w.subq sid = some v ∧ 0 ≤ v) :
    subsVerdict w sids =
      if sids.any (fun sid => 0 < (w.subq sid).getD 0) then some okFast else none := by
  induction sids with
  | nil => rfl
  | cons sid sids ih =>
      obtain ⟨v, hv, hnn⟩ := h sid List.mem_cons_self
      simp only [subsVerdict, hv, if_neg (not_lt.mpr hnn), List.any_cons, Option.getD_some]
      by_cases hpos : 0 < v
      · simp [hpos]
      · simp only [hpos, decide_false, Bool.false_or]
        exact ih fun s hs => h s (List.mem_cons_of_mem _ hs)

/-- The subscriptions of `active_subscriptions` are the open ones with something
left. -/
theorem activeSubscriptions_isEmpty {pg : Pg} {userId now : ℤ} :
    (activeSubscriptions pg userId now).isEmpty = true ↔
      ∀ s ∈ openSubscriptions pg userId now, ¬ 0 < s.remainingCents := by
  have hmem : ∀ s, s ∈ activeSubscriptions pg userId now ↔
      s ∈ openSubscriptions pg userId now ∧ 0 < s.remainingCents := by
    intro s
    simp [activeSubscriptions, openSubscriptions, Table.mem_select, Subscription.isActive,
      Subscription.isOpen, and_assoc]
  rw [List.isEmpty_iff, List.eq_nil_iff_forall_not_mem]
  constructor
  · intro h s hs hpos
    exact h s ((hmem s).mpr ⟨hs, hpos⟩)
  · intro h s hs
    exact h s ((hmem s).mp hs).1 ((hmem s).mp hs).2

/-- The check over a hydrated cache. -/
theorem verdict_of_hydrated (hf : FundsHydrated w user) (hk : w.kused key.id ws = some key.usedCents)
    (hnn : ∀ s ∈ openSubscriptions w.pg user.id w.now, 0 ≤ s.remainingCents) :
    verdict w user.id key.id key.quotaCents ws =
      if key.exceeded then keyExceeded
      else if (activeSubscriptions w.pg user.id w.now).isEmpty then
        checkWallet (some user.balanceCents)
      else okFast := by
  have hkey : checkKey key.quotaCents (w.kused key.id ws) =
      if key.exceeded then some keyExceeded else none := by
    simp only [checkKey, hk, ApiKey.exceeded, Bool.and_eq_true, decide_eq_true_eq]
    split_ifs <;> first | rfl | tauto
  have hsub : ∀ sid ∈ w.members user.id, ∃ s ∈ openSubscriptions w.pg user.id w.now,
      s.id = sid ∧ w.subq sid = some s.remainingCents := by
    intro sid hsid
    obtain ⟨s, hs, rfl⟩ := List.mem_map.mp ((hf.members sid).mp hsid)
    exact ⟨s, hs, rfl, hf.subq s hs⟩
  have hknown : ∀ sid ∈ w.members user.id, ∃ v, w.subq sid = some v ∧ 0 ≤ v := by
    intro sid hsid
    obtain ⟨s, hs, -, hv⟩ := hsub sid hsid
    exact ⟨s.remainingCents, hv, hnn s hs⟩
  have hloop := subsVerdict_of_nonneg hknown
  have hany : (w.members user.id).any (fun sid => 0 < (w.subq sid).getD 0) = true ↔
      ¬ (activeSubscriptions w.pg user.id w.now).isEmpty = true := by
    rw [activeSubscriptions_isEmpty, List.any_eq_true]
    push Not
    constructor
    · rintro ⟨sid, hsid, hpos⟩
      obtain ⟨s, hs, -, hv⟩ := hsub sid hsid
      exact ⟨s, hs, by simpa [hv] using hpos⟩
    · rintro ⟨s, hs, hpos⟩
      exact ⟨s.id, (hf.members s.id).mpr (List.mem_map.mpr ⟨s, hs, rfl⟩), by
        simpa [hf.subq s hs] using hpos⟩
  rw [verdict, hkey]
  by_cases hex : key.exceeded = true
  · simp [hex]
  · rw [if_neg hex, if_neg hex]
    simp only
    rw [hloop, hf.wallet]
    by_cases hempty : (activeSubscriptions w.pg user.id w.now).isEmpty = true
    · rw [if_neg (fun h => hany.mp h hempty), if_pos hempty]
    · rw [if_pos (hany.mpr hempty), if_neg hempty]

/-- The cache after the two hydrations of a miss. -/
theorem hydrated_of_cold (h : Cold w user key ws) :
    let w₁ := ((hydrateUserQuota user.id).runWith exec w).2
    let w₂ := ((hydrateKeyUsed key.id ws).runWith exec w₁).2
    w₂.pg = w.pg ∧ w₂.now = w.now ∧ FundsHydrated w₂ user ∧
      w₂.kused key.id ws = some key.usedCents := by
  intro w₁ w₂
  have hw₁ : w₁ = _ := congrArg Prod.snd (runWith_hydrateUserQuota h.lock h.userRow)
  have hpg : w₁.pg = w.pg := by rw [hw₁]
  have hnow : w₁.now = w.now := by rw [hw₁]
  have hw₂ : w₂ = _ := congrArg Prod.snd
    (runWith_hydrateKeyUsed ws (show w₁.pg.apiKeys.get? key.id = some key by rw [hpg]; exact h.keyRow))
  obtain ⟨hf, -⟩ := fundsHydrated_hydrateWrites
    { w.redis with lock := w.redis.lock.set w.now (.hydr user.id) () hydrLockTtl } w.pg w.now user
  rw [show (⟨_, w.pg, w.now⟩ : World) = w₁ from hw₁.symm] at hf
  -- the key's counter is another key than those of the user's funds
  have hother : ∀ k, k ≠ .kused key.id ws →
      w₂.redis.counter.get w₂.now k = w₁.redis.counter.get w₁.now k := by
    intro k hk
    rw [hw₂]
    exact Store.get_set_other hk
  refine ⟨by rw [hw₂, hpg], by rw [hw₂, hnow], ⟨?_, ?_, ?_⟩, ?_⟩
  · exact (hother _ (by simp)).trans hf.wallet
  · rw [hw₂]
    exact hf.members
  · intro s hs
    rw [hw₂] at hs
    exact (hother _ (by simp)).trans (hf.subq s hs)
  · rw [hw₂]
    exact (Store.get_set (by decide)).trans (if_pos rfl)

/-- **The fast check agrees with the authoritative one**, from a cold cache, exactly
unless it runs into the drift rule: the key has budget left, no subscription has
quota left, and the wallet is below zero. -/
theorem hasQuotaFast_agrees_iff (hcold : Cold w user key ws)
    (hnn : ∀ s ∈ w.pg.subscriptions.rows, s.userId = user.id → 0 ≤ s.remainingCents) :
    (((hasQuotaFast user.id key.id key.quotaCents ws).runWith exec w).1.1 = true ↔
        (hasQuota w.pg user (some key) w.now).1 = true) ↔
      key.exceeded = true ∨ (activeSubscriptions w.pg user.id w.now).isEmpty = false ∨
        0 ≤ user.balanceCents := by
  obtain ⟨hpg, hnow, hf, hk⟩ := hydrated_of_cold hcold
  have hopen : ∀ s ∈ openSubscriptions w.pg user.id w.now, 0 ≤ s.remainingCents := by
    intro s hs
    obtain ⟨hrow, hact⟩ := Table.mem_select.mp hs
    exact hnn s hrow (by simp only [Subscription.isOpen, Bool.and_eq_true,
      decide_eq_true_eq] at hact; exact hact.1.1)
  have hv := verdict_of_hydrated hf hk (by rw [hpg, hnow]; exact hopen)
  rw [hpg, hnow] at hv
  rw [runWith_hasQuotaFast, verdict_of_cold hcold, if_neg (by decide)]
  simp only [hv, hasQuota, Option.any_some]
  by_cases hex : key.exceeded = true
  · simp [hex]
  · by_cases hempty : (activeSubscriptions w.pg user.id w.now).isEmpty = true
    · simp only [hex, hempty, if_true]
      rcases lt_trichotomy user.balanceCents 0 with hneg | hzero | hpos
      · simp [checkWallet, hneg, not_lt.mpr hneg.le]
      · simp [checkWallet, hzero]
      · simp [checkWallet, hpos, not_lt.mpr hpos.le, hpos.le]
    · simp only [Bool.not_eq_true] at hempty
      simp [hex, hempty]

/-- A fresh Redis beside a database. -/
def coldWorld (pg : Pg) : World := ⟨⟨Store.empty, Store.empty, Store.empty⟩, pg, 0⟩

theorem hasQuotaFast_agrees_coldWorld :
    (((hasQuotaFast 1 3 0 0).runWith exec (coldWorld (oneSubPg 5 0))).1.1 = true ↔
        (hasQuota (oneSubPg 5 0) (userOne 5) (some keyThree) 0).1 = true) ↔
      keyThree.exceeded = true ∨ (activeSubscriptions (oneSubPg 5 0) 1 0).isEmpty = false ∨
        (0 : ℤ) ≤ 5 :=
  @hasQuotaFast_agrees_iff (coldWorld (oneSubPg 5 0)) (userOne 5) keyThree 0
    ⟨by decide, by decide, rfl, rfl, rfl, rfl⟩ (by decide)

/-- A user whose last charge overdrew the wallet by one cent is refused by
`has_quota` and allowed by the fast check. -/
theorem hasQuotaFast_allows_overdrawn :
    Cold (coldWorld (oneSubPg (-1) 0)) (userOne (-1)) keyThree 0 ∧
      (∀ s ∈ (oneSubPg (-1) 0).subscriptions.rows, 0 ≤ s.remainingCents) ∧
      ((hasQuotaFast 1 3 0 0).runWith exec (coldWorld (oneSubPg (-1) 0))).1 = (true, []) ∧
      hasQuota (oneSubPg (-1) 0) (userOne (-1)) (some keyThree) 0 =
        (false, str "no active subscription and insufficient balance") :=
  ⟨⟨by decide, by decide, rfl, rfl, rfl, rfl⟩, by decide, by decide, by decide⟩

end Llmxy
