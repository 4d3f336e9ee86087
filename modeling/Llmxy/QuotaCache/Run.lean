import Llmxy.Billing.Charge
import Llmxy.QuotaCache.Basic

/-!
# The quota code run alone

What the programs of the quota cache do when nothing happens in between: the check
reads the cache and changes nothing, and a hydration leaves in the cache what the
tables hold.

## Main definitions

* `World.wallet`, `World.subq`, `World.kused`, `World.members` — what the cache
  answers now.
* `verdict` — the check as a function of these answers, `runWith_check`.
* `hasQuotaFast_fst` — the answer of the hot path, by the verdict of its last check.
* `runWith_hydrateUserQuota`, `runWith_hydrateKeyUsed` — the cache after hydration.
-/

namespace Llmxy

namespace World

/-- The cached wallet of a user. -/
def wallet (w : World) (uid : ℤ) : Option ℤ := w.redis.counter.get w.now (.wallet uid)

/-- The cached remaining quota of a subscription. -/
def subq (w : World) (sid : ℤ) : Option ℤ := w.redis.counter.get w.now (.subq sid)

/-- The cached used counter of a key. -/
def kused (w : World) (kid ws : ℤ) : Option ℤ := w.redis.counter.get w.now (.kused kid ws)

/-- The cached subscription ids of a user, in the order of the set. -/
def members (w : World) (uid : ℤ) : List ℤ :=
  ((w.redis.usubs.get w.now uid).getD []).map Prod.snd

/-- The cached subscriptions of a user with the ends of their periods. -/
def entries (w : World) (uid : ℤ) : Zset := (w.redis.usubs.get w.now uid).getD []

end World

/-- What the loop over cached subscriptions answers. -/
def subsVerdict (w : World) : List ℤ → Option (Bool × Str)
  | [] => none
  | sid :: rest =>
      match w.subq sid with
      | none => some miss
      | some iv => if iv < 0 then some miss else if 0 < iv then some okFast else subsVerdict w rest

/-- What a check answers. -/
def verdict (w : World) (userId keyId keyQuotaCents ws : ℤ) : Bool × Str :=
  match checkKey keyQuotaCents (w.kused keyId ws) with
  | some r => r
  | none =>
      match subsVerdict w (w.members userId) with
      | some r => r
      | none => checkWallet (w.wallet userId)

theorem runWith_checkSubs (w : World) (sids : List ℤ) :
    (checkSubs sids).runWith exec w = (subsVerdict w sids, w) := by
  induction sids with
  | nil => rfl
  | cons sid sids ih =>
      simp only [checkSubs, ask, Proc.cmd_bind, Proc.runWith_call, exec, subsVerdict]
      rw [← World.subq]
      cases w.subq sid with
      | none => rfl
      | some iv =>
          simp only
          split_ifs
          · rfl
          · rfl
          · exact ih

/-- A check answers by the verdict and changes nothing. -/
theorem runWith_check (w : World) (userId keyId keyQuotaCents ws : ℤ) :
    (check userId keyId keyQuotaCents ws).runWith exec w =
      (verdict w userId keyId keyQuotaCents ws, w) := by
  simp only [check, ask, Proc.cmd_bind, Proc.runWith_call, exec, verdict]
  rw [← World.kused]
  cases checkKey keyQuotaCents (w.kused keyId ws) with
  | some r => rfl
  | none =>
      simp only [Proc.runWith_call, exec]
      rw [Proc.runWith_bind, runWith_checkSubs]
      rw [← World.members]
      cases subsVerdict w (w.members userId) with
      | some r => rfl
      | none => rfl

/-- The second answer: a persistent miss is allowed. -/
def retried (v : Bool × Str) : Bool × Str := if v.2 = miss.2 then okFast else v

@[simp] theorem miss_fst : miss.1 = false := rfl
@[simp] theorem keyExceeded_fst : keyExceeded.1 = false := rfl
@[simp] theorem noFunds_fst : noFunds.1 = false := rfl
@[simp] theorem okFast_fst : okFast.1 = true := rfl

@[simp] theorem retried_miss : retried miss = okFast := by decide
@[simp] theorem retried_keyExceeded : retried keyExceeded = keyExceeded := by decide
@[simp] theorem retried_noFunds : retried noFunds = noFunds := by decide
@[simp] theorem retried_okFast : retried okFast = okFast := by decide

/-- The hot path: a verdict other than a miss stands; after a miss the hydrations
run and the second verdict stands unless it is a miss again. -/
theorem runWith_hasQuotaFast (w : World) (userId keyId keyQuotaCents ws : ℤ) :
    (hasQuotaFast userId keyId keyQuotaCents ws).runWith exec w =
      if (verdict w userId keyId keyQuotaCents ws).1 = true ∨
          (verdict w userId keyId keyQuotaCents ws).2 ≠ miss.2 then
        (verdict w userId keyId keyQuotaCents ws, w)
      else
        let w₁ := ((hydrateUserQuota userId).runWith exec w).2
        let w₂ := ((hydrateKeyUsed keyId ws).runWith exec w₁).2
        (retried (verdict w₂ userId keyId keyQuotaCents ws), w₂) := by
  rw [hasQuotaFast, Proc.runWith_bind, runWith_check]
  by_cases h : (verdict w userId keyId keyQuotaCents ws).1 = true ∨
      (verdict w userId keyId keyQuotaCents ws).2 ≠ miss.2
  · rw [if_pos h, if_pos (by simpa using h)]
    rfl
  · rw [if_neg h, if_neg (by simpa using h)]
    simp only [Proc.runWith_bind, runWith_check, retried]
    split_ifs
    · rfl
    · rfl

theorem checkKey_eq_some {quota : ℤ} {used : Option ℤ} {r : Bool × Str}
    (h : checkKey quota used = some r) : r = miss ∨ r = keyExceeded := by
  unfold checkKey at h
  split_ifs at h
  cases used with
  | none => exact Or.inl (Option.some.inj h).symm
  | some u =>
      by_cases hu : quota ≤ u
      · simp only [if_pos hu, Option.some.injEq] at h
        exact Or.inr h.symm
      · simp only [if_neg hu] at h
        cases h

theorem subsVerdict_eq_some {w : World} {sids : List ℤ} {r : Bool × Str}
    (h : subsVerdict w sids = some r) : r = miss ∨ r = okFast := by
  induction sids with
  | nil => cases h
  | cons sid sids ih =>
      rw [subsVerdict] at h
      cases hv : w.subq sid with
      | none =>
          rw [hv] at h
          exact Or.inl (Option.some.inj h).symm
      | some iv =>
          rw [hv] at h
          dsimp only at h
          split_ifs at h
          · exact Or.inl (Option.some.inj h).symm
          · exact Or.inr (Option.some.inj h).symm
          · exact ih h

/-- The four answers of a check. -/
theorem verdict_cases (w : World) (userId keyId keyQuotaCents ws : ℤ) :
    verdict w userId keyId keyQuotaCents ws = miss ∨
      verdict w userId keyId keyQuotaCents ws = keyExceeded ∨
      verdict w userId keyId keyQuotaCents ws = noFunds ∨
      verdict w userId keyId keyQuotaCents ws = okFast := by
  unfold verdict
  cases hk : checkKey keyQuotaCents (w.kused keyId ws) with
  | some r =>
      rcases checkKey_eq_some hk with rfl | rfl
      · exact Or.inl rfl
      · exact Or.inr (Or.inl rfl)
  | none =>
      cases hs : subsVerdict w (w.members userId) with
      | some r =>
          rcases subsVerdict_eq_some hs with rfl | rfl
          · exact Or.inl rfl
          · exact Or.inr (Or.inr (Or.inr rfl))
      | none =>
          dsimp only
          unfold checkWallet
          cases w.wallet userId with
          | none => exact Or.inl rfl
          | some wv =>
              dsimp only
              split_ifs
              · exact Or.inl rfl
              · exact Or.inr (Or.inr (Or.inr rfl))
              · exact Or.inr (Or.inr (Or.inl rfl))

/-- The answer of the hot path is the verdict of its last check, a miss being
allowed. -/
theorem hasQuotaFast_fst (w : World) (userId keyId keyQuotaCents ws : ℤ) :
    ((hasQuotaFast userId keyId keyQuotaCents ws).runWith exec w).1 =
      retried (verdict ((hasQuotaFast userId keyId keyQuotaCents ws).runWith exec w).2
        userId keyId keyQuotaCents ws) := by
  rw [runWith_hasQuotaFast]
  split_ifs with hv
  · rcases verdict_cases w userId keyId keyQuotaCents ws with h | h | h | h
    · rw [h] at hv
      simp at hv
    · simp [h]
    · simp [h]
    · simp [h]
  · rfl

/-! ### Hydration -/

/-- An insertion replaces the entry of its member. -/
theorem mem_zinsert_iff {z : Zset} {x y : ℤ × ℤ} :
    y ∈ zinsert z x ↔ y = x ∨ y ∈ z ∧ y.2 ≠ x.2 := by
  simp only [zinsert, List.mem_orderedInsert, List.mem_filter, decide_eq_true_eq]

theorem mem_zinsert {z : Zset} {x : ℤ × ℤ} {y : ℤ} :
    y ∈ (zinsert z x).map Prod.snd ↔ y = x.2 ∨ y ∈ z.map Prod.snd := by
  simp only [List.mem_map, mem_zinsert_iff]
  constructor
  · rintro ⟨p, hp | ⟨hp, -⟩, rfl⟩
    · exact Or.inl (by rw [hp])
    · exact Or.inr ⟨p, hp, rfl⟩
  · rintro (rfl | ⟨p, hp, rfl⟩)
    · exact ⟨x, Or.inl rfl, rfl⟩
    · by_cases h : p.2 = x.2
      · exact ⟨x, Or.inl rfl, h.symm⟩
      · exact ⟨p, Or.inr ⟨hp, h⟩, rfl⟩

theorem mem_zadd {mapping : List (ℤ × ℤ)} {z : Zset} {y : ℤ} :
    y ∈ (mapping.foldl zinsert z).map Prod.snd ↔ y ∈ mapping.map Prod.snd ∨ y ∈ z.map Prod.snd := by
  induction mapping generalizing z with
  | nil => simp
  | cons x mapping ih =>
      rw [List.foldl_cons, ih, mem_zinsert, List.map_cons, List.mem_cons]
      tauto

theorem mem_of_mem_zadd {mapping : List (ℤ × ℤ)} {z : Zset} {y : ℤ × ℤ}
    (h : y ∈ mapping.foldl zinsert z) : y ∈ mapping ∨ y ∈ z := by
  induction mapping generalizing z with
  | nil => exact Or.inr h
  | cons x mapping ih =>
      rcases ih h with hy | hy
      · exact Or.inl (List.mem_cons_of_mem _ hy)
      · rcases mem_zinsert_iff.mp hy with rfl | ⟨hy, -⟩
        · exact Or.inl List.mem_cons_self
        · exact Or.inr hy

theorem subqTtl_pos (now periodEnd : ℤ) : 0 < subqTtl now periodEnd := by
  have hsec : (0 : ℤ) < 60 * sec := by decide
  exact lt_min (hsec.trans_le (le_max_left _ _)) (by decide)

/-- The `subq` writes of a hydration: each listed subscription has its own key. -/
theorem get_setSubqs {now : ℤ} {subs : List Subscription} (hnd : (subs.map (·.id)).Nodup) :
    ∀ (r : Redis),
      (∀ s ∈ subs, (r.writes now (subs.map fun s =>
        .set (.subq s.id) s.remainingCents (subqTtl now s.currentPeriodEnd))).counter.get now
          (.subq s.id) = some s.remainingCents) ∧
      (∀ k, (∀ s ∈ subs, k ≠ .subq s.id) → (r.writes now (subs.map fun s =>
        .set (.subq s.id) s.remainingCents (subqTtl now s.currentPeriodEnd))).counter.get now k =
          r.counter.get now k) ∧
      (r.writes now (subs.map fun s =>
        .set (.subq s.id) s.remainingCents (subqTtl now s.currentPeriodEnd))).usubs = r.usubs := by
  induction subs with
  | nil => intro r; exact ⟨fun _ h => absurd h List.not_mem_nil, fun _ _ => rfl, rfl⟩
  | cons x subs ih =>
      intro r
      obtain ⟨hx, hnd⟩ := List.nodup_cons.mp hnd
      obtain ⟨hin, hout, husubs⟩ := ih hnd (r.write now
        (.set (.subq x.id) x.remainingCents (subqTtl now x.currentPeriodEnd)))
      refine ⟨?_, ?_, husubs⟩
      · intro s hs
        rcases List.mem_cons.mp hs with rfl | hs
        · refine (hout (.subq s.id) fun t ht h => ?_).trans ?_
          · exact hx (List.mem_map.mpr ⟨t, ht, (CounterKey.subq.inj h).symm⟩)
          · exact (Store.get_set (subqTtl_pos now s.currentPeriodEnd)).trans (if_pos rfl)
        · exact hin s hs
      · intro k hk
        refine (hout k fun s hs => hk s (List.mem_cons_of_mem _ hs)).trans ?_
        exact Store.get_set_other (hk x List.mem_cons_self)

/-- The open subscriptions of a user, as the hydration query lists them. -/
def openSubscriptions (pg : Pg) (userId now : ℤ) : List Subscription :=
  pg.subscriptions.select (Subscription.isOpen userId now)

theorem nodup_openSubscriptions (pg : Pg) (userId now : ℤ) :
    ((openSubscriptions pg userId now).map (·.id)).Nodup :=
  (pg.subscriptions.nodup).sublist (List.filter_sublist.map _)

/-- The cache holds what the tables hold, for one user. -/
structure FundsHydrated (w : World) (user : User) : Prop where
  wallet : w.wallet user.id = some user.balanceCents
  members : ∀ sid, sid ∈ w.members user.id ↔
    sid ∈ (openSubscriptions w.pg user.id w.now).map (·.id)
  subq : ∀ s ∈ openSubscriptions w.pg user.id w.now, w.subq s.id = some s.remainingCents

/-- What the pipeline of a hydration leaves in the cache. -/
theorem fundsHydrated_hydrateWrites (r : Redis) (pg : Pg) (now : ℤ) (user : User) :
    let w : World :=
      ⟨r.writes now (hydrateWrites user (openSubscriptions pg user.id now) now), pg, now⟩
    FundsHydrated w user ∧
      ∀ kid ws, w.kused kid ws = r.counter.get now (.kused kid ws) := by
  intro w
  have hnd := nodup_openSubscriptions pg user.id now
  by_cases hsubs : openSubscriptions pg user.id now = []
  · have hw : w.redis = (r.write now (.set (.wallet user.id) user.balanceCents walletTtl)).write now
        (.delUsubs user.id) := by
      show r.writes now (hydrateWrites user (openSubscriptions pg user.id now) now) = _
      rw [hsubs]; rfl
    refine ⟨⟨?_, ?_, ?_⟩, ?_⟩
    · simp only [World.wallet, hw]
      exact (Store.get_set (by decide)).trans (if_pos rfl)
    · intro sid
      show sid ∈ ((w.redis.usubs.get now user.id).getD []).map Prod.snd ↔ _
      rw [hw, show openSubscriptions w.pg user.id w.now = [] from hsubs]
      simp [Redis.write]
    · intro s hs
      exact absurd (hsubs ▸ hs) List.not_mem_nil
    · intro kid ws
      simp only [World.kused, hw]
      exact Store.get_set_other (by simp)
  · -- the first four writes set the wallet and rebuild the set; the rest are the counters
    set subs := openSubscriptions pg user.id now with hsubsdef
    let r₄ := r.writes now [.set (.wallet user.id) user.balanceCents walletTtl, .delUsubs user.id,
      .zadd user.id (subs.map fun s => (s.currentPeriodEnd, s.id)), .expireUsubs user.id usubsTtl]
    have hw : w.redis = r₄.writes now (subs.map fun s =>
        .set (.subq s.id) s.remainingCents (subqTtl now s.currentPeriodEnd)) := by
      show r.writes now (hydrateWrites user subs now) = _
      rw [hydrateWrites, if_neg (by simpa using hsubs)]
      rfl
    obtain ⟨hin, hout, husubs⟩ := get_setSubqs hnd r₄
    refine ⟨⟨?_, ?_, ?_⟩, ?_⟩
    · simp only [World.wallet, hw]
      rw [show w.now = now from rfl, hout _ (by simp)]
      exact (Store.get_set (by decide)).trans (if_pos rfl)
    · intro sid
      show sid ∈ ((w.redis.usubs.get now user.id).getD []).map Prod.snd ↔ sid ∈ subs.map (·.id)
      rw [hw, husubs]
      have hset : r₄.usubs.get now user.id =
          some ((subs.map fun s => (s.currentPeriodEnd, s.id)).foldl zinsert []) := by
        show Store.get (Store.expire (Redis.write now ((r.write now _).write now _) _).usubs
          now user.id usubsTtl) now user.id = _
        rw [Store.get_expire (by decide)]
        simp [Redis.write, Store.get_alterOrCreate]
      rw [hset, Option.getD_some, mem_zadd, List.map_map]
      simp
    · intro s hs
      simp only [World.subq, hw]
      exact hin s hs
    · intro kid ws
      simp only [World.kused, hw]
      rw [show w.now = now from rfl, hout _ (by simp)]
      exact Store.get_set_other (by simp)

/-- A hydration of a user whose row is there and whose lock is free. -/
theorem runWith_hydrateUserQuota {w : World} {user : User}
    (hlock : w.redis.lock.get w.now (.hydr user.id) = none)
    (huser : w.pg.users.get? user.id = some user) :
    (hydrateUserQuota user.id).runWith exec w = ((), { w with
      redis := { w.redis with
        lock := w.redis.lock.set w.now (.hydr user.id) () hydrLockTtl }.writes w.now
          (hydrateWrites user (openSubscriptions w.pg user.id w.now) w.now) }) := by
  have hset : exec (.setNX (.hydr user.id) hydrLockTtl) w = (true, { w with
      redis := { w.redis with
        lock := w.redis.lock.set w.now (.hydr user.id) () hydrLockTtl } }) := by
    simp only [exec, Store.setNX_of_free hlock]
  simp only [hydrateUserQuota, ask, Proc.cmd_bind, Proc.runWith_call, hset, if_true]
  simp only [exec, huser]
  rfl

/-- A hydration of a key whose row is there. -/
theorem runWith_hydrateKeyUsed {w : World} {key : ApiKey} (ws : ℤ)
    (hkey : w.pg.apiKeys.get? key.id = some key) :
    (hydrateKeyUsed key.id ws).runWith exec w = ((), { w with
      redis := w.redis.write w.now (.set (.kused key.id ws) key.usedCents subqTtlFallback) }) := by
  simp only [hydrateKeyUsed, ask, Proc.cmd_bind, Proc.runWith_call, exec]
  rw [hkey]
  rfl

end Llmxy
