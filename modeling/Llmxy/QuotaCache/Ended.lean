import Llmxy.QuotaCache.Mirror

/-!
# Ended subscriptions

`has_quota` counts the subscriptions whose period is not over.  The hydration asks the
same of the rows it loads and stores the end of the period as the score of the set, but
the check reads the ids alone: once listed, a subscription authorises requests for as
long as its counter is positive and the keys live.

The history of a cache is a run of hydrations, checks, committed changes with their
mirrors, and time.  The set always records the ends of the periods that are in the
tables.  A subscription that authorises a request is therefore still open, provided that
no renewal comes a whole period too late, and that time never reaches the end of a listed
subscription whose positive counter and set outlive it.

## Main definitions

* `QuotaCall`, `quotaCallStep` — the history of the cache.
* `authorisingSub`, `AuthorisedBy` — the subscription that authorises a request.
* `CacheCurrent` — what the cache lists is recorded and not over.
* `QuotaCall.OnTime` — the calls that keep that.
* `authorised_open` — who authorises a request has not ended.
-/

namespace Llmxy

/-- The world after a program has run alone. -/
def World.after (w : World) (p : QProc Unit) : World := (p.runWith exec w).2

/-- A call of the quota code, or a committed change with its mirror. -/
inductive QuotaCall where
  | hydrate (uid : ℤ)
  | check (uid kid quota ws : ℤ)
  | mirror (uid : ℤ) (op : MirrorOp)
  deriving DecidableEq

/-- The world after a call. -/
def QuotaCall.exec (w : World) : QuotaCall → World
  | .hydrate uid => w.after (hydrateUserQuota uid)
  | .check uid kid quota ws => w.after (do let _ ← hasQuotaFast uid kid quota ws)
  | .mirror uid op => op.exec uid w

/-- Calls always complete. -/
def quotaCallStep (w : World) (call : QuotaCall) : Option World := some (call.exec w)

/-- The subscription at which the loop of the check answers ok. -/
def authorisingSub (w : World) : List ℤ → Option ℤ
  | [] => none
  | sid :: rest =>
      match w.subq sid with
      | none => none
      | some iv => if iv < 0 then none else if 0 < iv then some sid else authorisingSub w rest

/-- The last check of `has_quota_fast` answers ok because of a subscription. -/
def AuthorisedBy (w : World) (uid kid quota ws sid : ℤ) : Prop :=
  let w' := ((hasQuotaFast uid kid quota ws).runWith exec w).2
  checkKey quota (w'.kused kid ws) = none ∧ authorisingSub w' (w'.members uid) = some sid

/-- The period of the user's subscription ends at `periodEnd`. -/
def PeriodEnd (pg : Pg) (uid sid periodEnd : ℤ) : Prop :=
  ∃ s, pg.subscriptions.get? sid = some s ∧ s.userId = uid ∧ s.currentPeriodEnd = periodEnd

/-- **The cache is current.**  The sets record the ends of the periods that are in the
tables, and what is listed with something left is not over. -/
structure CacheCurrent (w : World) : Prop where
  recorded : ∀ uid, ∀ e ∈ w.entries uid, PeriodEnd w.pg uid e.2 e.1
  current : ∀ uid, ∀ e ∈ w.entries uid, w.Reads (.subq e.2) fun v => 0 < v → w.now < e.1

/-- The call comes in time.  A renewal starts a period that is not over already, and time
passes the end of no listed subscription whose set and positive counter live on. -/
def QuotaCall.OnTime (w : World) : QuotaCall → Prop
  | .mirror uid (.renew sid) =>
      ∀ sub, w.pg.subscriptions.get? sid = some sub → sub.userId = uid →
        (renewSubscription sub w.now w.pg).1.2 = str "renewed" →
        w.now < nextMonthStart sub.currentPeriodEnd
  | .mirror _ (.wait d) =>
      ∀ uid, ∀ e ∈ (w.wait d).entries uid, (w.wait d).Reads (.subq e.2) fun v =>
        0 < v → w.now + d < e.1
  | _ => True

variable {w : World} {uid : ℤ}

/-! ### Who authorises -/

/-- The loop answers ok exactly when there is such a subscription. -/
theorem subsVerdict_eq_okFast {sids : List ℤ} :
    subsVerdict w sids = some okFast ↔ (authorisingSub w sids).isSome := by
  have hmiss : miss ≠ okFast := by decide
  induction sids with
  | nil => simp [subsVerdict, authorisingSub]
  | cons sid sids ih =>
      rw [subsVerdict, authorisingSub]
      cases w.subq sid with
      | none => simpa using hmiss
      | some iv =>
          dsimp only
          split_ifs
          · simpa using hmiss
          · simp
          · exact ih

/-- The authorising subscription is listed and has something left. -/
theorem mem_of_authorisingSub {sids : List ℤ} {sid : ℤ} (h : authorisingSub w sids = some sid) :
    sid ∈ sids ∧ ∃ v, w.subq sid = some v ∧ 0 < v := by
  induction sids with
  | nil => cases h
  | cons s sids ih =>
      rw [authorisingSub] at h
      cases hv : w.subq s with
      | none =>
          rw [hv] at h
          cases h
      | some iv =>
          rw [hv] at h
          dsimp only at h
          split_ifs at h with hneg hpos
          · cases h
            exact ⟨List.mem_cons_self, iv, hv, hpos⟩
          · obtain ⟨hmem, hleft⟩ := ih h
            exact ⟨List.mem_cons_of_mem _ hmem, hleft⟩

/-! ### Writes -/

/-- A write that lists only what is not over, and puts something into the counter of no
subscription that is. -/
structure Write.KeepsCurrent (pg : Pg) (now : ℤ) (x : Write) : Prop where
  listed : ∀ uid m, x = .zadd uid m → ∀ e ∈ m, PeriodEnd pg uid e.2 e.1 ∧ now < e.1
  counter : ∀ uid sid periodEnd, PeriodEnd pg uid sid periodEnd →
    x.Keeps (.subq sid) fun v => 0 < v → now < periodEnd

/-- **One write** that keeps the cache current. -/
theorem cacheCurrent_write {x : Write} (hx : x.KeepsCurrent w.pg w.now) (h : CacheCurrent w) :
    CacheCurrent (w.write x) := by
  constructor
  · intro uid e he
    rcases mem_entries_write he with he | ⟨m, rfl, hm⟩
    · exact h.recorded uid e he
    · exact (hx.listed uid m rfl e hm).1
  · intro uid e he
    rcases mem_entries_write he with he | ⟨m, rfl, hm⟩
    · exact reads_write (hx.counter uid e.2 e.1 (h.recorded uid e he)) (h.current uid e he)
    · exact fun _ _ _ => (hx.listed uid m rfl e hm).2

theorem cacheCurrent_writes {ws : List Write} (hws : ∀ x ∈ ws, x.KeepsCurrent w.pg w.now)
    (h : CacheCurrent w) : CacheCurrent (w.writes ws) := by
  induction ws generalizing w with
  | nil => exact h
  | cons x ws ih =>
      rw [World.writes_cons]
      apply ih
      · exact fun y hy => hws y (List.mem_cons_of_mem _ hy)
      · exact cacheCurrent_write (hws x List.mem_cons_self) h

section
variable {pg : Pg} {now : ℤ}

/-- A write to no set and to no counter of a subscription. -/
theorem keepsCurrent_of_other {x : Write} (hset : ∀ uid m, x ≠ .zadd uid m)
    (hkeep : ∀ sid (P : ℤ → Prop), x.Keeps (.subq sid) P) : x.KeepsCurrent pg now :=
  ⟨fun uid m hx => absurd hx (hset uid m), fun _ sid _ _ => hkeep sid _⟩

/-- A counter of a subscription that is not over. -/
theorem keepsCurrent_setSubq {sub : Subscription} {v ttl : ℤ}
    (hsub : pg.subscriptions.get? sub.id = some sub) (hopen : now < sub.currentPeriodEnd) :
    (Write.set (.subq sub.id) v ttl).KeepsCurrent pg now := by
  constructor
  · intro uid m hx
    cases hx
  · rintro uid sid periodEnd ⟨s, hs, -, rfl⟩ heq _
    cases heq
    rw [hsub, Option.some.injEq] at hs
    rw [← hs]
    exact hopen

/-- An entry of a subscription that is not over. -/
theorem keepsCurrent_zadd {m : List (ℤ × ℤ)}
    (hm : ∀ e ∈ m, PeriodEnd pg uid e.2 e.1 ∧ now < e.1) :
    (Write.zadd uid m).KeepsCurrent pg now := by
  constructor
  · rintro uid m ⟨rfl, rfl⟩
    exact hm
  · exact fun _ _ _ _ => trivial

/-- **A hydration** lists the open subscriptions and sets their counters. -/
theorem keepsCurrent_hydrateWrites {user : User} {subs : List Subscription} {x : Write}
    (hsubs : ∀ s ∈ subs, pg.subscriptions.get? s.id = some s ∧ s.userId = user.id ∧
      now < s.currentPeriodEnd) (hx : x ∈ hydrateWrites user subs now) :
    x.KeepsCurrent pg now := by
  rcases mem_hydrateWrites.mp hx with rfl | rfl | ⟨-, rfl | rfl⟩ | ⟨s, hs, rfl⟩
  · exact keepsCurrent_of_other (by simp) fun sid P => fun h => absurd h (by simp)
  · exact keepsCurrent_of_other (by simp) fun sid P => trivial
  · apply keepsCurrent_zadd
    intro e he
    obtain ⟨s, hs, rfl⟩ := List.mem_map.mp he
    obtain ⟨hget, huser, hopen⟩ := hsubs s hs
    exact ⟨⟨s, hget, huser, rfl⟩, hopen⟩
  · exact keepsCurrent_of_other (by simp) fun sid P => trivial
  · exact keepsCurrent_setSubq (hsubs s hs).1 (hsubs s hs).2.2

/-- **The mirror of a charge** only takes from the counters of subscriptions. -/
theorem keepsCurrent_chargeWrites {kid : Option ℤ} {cost ws : ℤ} {breakdown : List Share}
    {x : Write} (hx : x ∈ chargeWrites uid kid cost ws breakdown) : x.KeepsCurrent pg now := by
  rcases mem_chargeWrites hx with ⟨k, n, hn, -, rfl⟩ | ⟨kid, rfl⟩
  · constructor
    · intro uid m hx
      cases hx
    · intro uid sid periodEnd _ _ v hv hpos
      exact hv (by omega)
  · exact keepsCurrent_of_other (by simp) fun sid P => fun h => absurd h (by simp)

end

/-! ### Programs of the read path -/

/-- A command whose pipeline keeps the cache current. -/
def currentCommand (pg : Pg) (now : ℤ) : Cmd → Prop
  | .pipe ws => ∀ x ∈ ws, x.KeepsCurrent pg now
  | .charge _ _ _ _ _ | .scanDel => False
  | _ => True

/-- What the tables and the clock answer. -/
def currentReply (pg : Pg) (now : ℤ) : (c : Cmd) → c.Reply → Prop
  | .getUser u, r => ∀ x, r = some x → x.id = u
  | .selectSubs u t, r => ∀ s ∈ r, pg.subscriptions.get? s.id = some s ∧ s.userId = u ∧
      t < s.currentPeriodEnd
  | .now, r => r = now
  | _, _ => True

/-- The cache is current, over these tables and at this time. -/
def CurrentAt (pg : Pg) (now : ℤ) (w : World) : Prop := CacheCurrent w ∧ w.pg = pg ∧ w.now = now

theorem exec_current {pg : Pg} {now : ℤ} (c : Cmd) (w : World) (hc : currentCommand pg now c)
    (h : CurrentAt pg now w) : CurrentAt pg now (exec c w).2 ∧ currentReply pg now c (exec c w).1 := by
  obtain ⟨hcur, rfl, rfl⟩ := h
  have hself : CurrentAt w.pg w.now w := ⟨hcur, rfl, rfl⟩
  cases c with
  | get k => exact ⟨hself, trivial⟩
  | zrange u => exact ⟨hself, trivial⟩
  | setNX l ttl => exact ⟨⟨⟨hcur.recorded, hcur.current⟩, rfl, rfl⟩, trivial⟩
  | pipe ws => exact ⟨⟨cacheCurrent_writes hc hcur, rfl, rfl⟩, trivial⟩
  | scanDel => cases hc
  | now => exact ⟨hself, rfl⟩
  | getUser u => exact ⟨hself, fun x hx => (Table.get?_eq_some.mp hx).2⟩
  | getKey kid => exact ⟨hself, trivial⟩
  | selectSubs u t =>
      refine ⟨hself, ?_⟩
      intro s hs
      obtain ⟨hrow, hopen⟩ := Table.mem_select.mp hs
      simp only [Subscription.isOpen, Bool.and_eq_true, decide_eq_true_eq] at hopen
      exact ⟨Table.get?_eq_some.mpr ⟨hrow, rfl⟩, hopen.1.1, hopen.2⟩
  | charge payer kid cost refId note => cases hc
  | warnPersistentMiss => exact ⟨hself, trivial⟩

section
variable {pg : Pg} {now : ℤ}

theorem currentCommand_of_quiet (c : Cmd) (hc : c.Quiet) : currentCommand pg now c := by
  cases c with
  | pipe ws => cases hc
  | scanDel => cases hc
  | charge payer kid cost refId note => cases hc
  | _ => trivial

theorem obeys_current_hydrate :
    (hydrateUserQuota uid).Obeys (currentReply pg now) (currentCommand pg now) := by
  apply obeys_hydrateUserQuota currentCommand_of_quiet
  rintro user t subs huser rfl hsubs x hx
  have hid : user.id = uid := huser user rfl
  apply keepsCurrent_hydrateWrites _ hx
  rw [hid]
  exact hsubs

theorem obeys_current_hasQuotaFast (kid quota ws : ℤ) :
    (hasQuotaFast uid kid quota ws).Obeys (currentReply pg now) (currentCommand pg now) := by
  apply obeys_hasQuotaFast quota currentCommand_of_quiet trivial obeys_current_hydrate
  apply obeys_hydrateKeyUsed fun c hc => currentCommand_of_quiet c hc.quiet
  intro row _ x hx
  rw [List.mem_singleton.mp hx]
  exact keepsCurrent_of_other (by simp) fun sid P => fun h => absurd h (by simp)

end

theorem currentAt_hasQuotaFast (h : CacheCurrent w) (kid quota ws : ℤ) :
    CurrentAt w.pg w.now ((hasQuotaFast uid kid quota ws).runWith exec w).2 :=
  Proc.runWith_of_obeys exec_current (obeys_current_hasQuotaFast kid quota ws) ⟨h, rfl, rfl⟩

/-! ### Committed changes -/

/-- Changes of the tables that keep the recorded ends. -/
theorem cacheCurrent_pg {pg : Pg} (hpg : ∀ uid sid periodEnd, PeriodEnd w.pg uid sid periodEnd →
    PeriodEnd pg uid sid periodEnd) (h : CacheCurrent w) : CacheCurrent { w with pg := pg } :=
  ⟨fun uid e he => hpg _ _ _ (h.recorded uid e he), h.current⟩

theorem cacheCurrent_charge {kid : Option ℤ} {cost ws : ℤ} {refId note : Option Str}
    (h : CacheCurrent w) : CacheCurrent ((MirrorOp.charge kid cost ws refId note).exec uid w) := by
  cases htxn : chargeTxn w.pg uid kid cost refId note w.now with
  | none =>
      simp only [MirrorOp.exec, htxn]
      exact h
  | some r =>
      obtain ⟨breakdown, pg⟩ := r
      simp only [MirrorOp.exec, htxn]
      by_cases hc : 0 < cost
      · rw [applyCharge, if_neg (not_le.mpr hc), World.mirror_pipe]
        apply cacheCurrent_writes fun x hx => keepsCurrent_chargeWrites hx
        apply cacheCurrent_pg _ h
        rintro uid' sid periodEnd ⟨s, hs, huser, rfl⟩
        have hget := get?_drainTable (drain (sources w.pg uid w.now) cost) w.pg.subscriptions sid
        rw [← chargeTxn_subscriptions hc htxn, hs, Option.map_some] at hget
        exact ⟨_, hget, huser, rfl⟩
      · obtain ⟨-, -, -, hsubs⟩ := chargeTxn_of_nonpos (not_lt.mp hc) htxn
        rw [applyCharge, if_pos (not_lt.mp hc), World.mirror_pure]
        apply cacheCurrent_pg _ h
        rintro uid' sid periodEnd ⟨s, hs, hrest⟩
        exact ⟨s, hsubs ▸ hs, hrest⟩

theorem cacheCurrent_topup {amount : ℤ} {refId note : Option Str} (h : CacheCurrent w) :
    CacheCurrent ((MirrorOp.topup amount refId note).exec uid w) := by
  cases hexec : (WalletOp.topup uid amount refId note).exec w.pg with
  | none =>
      simp only [MirrorOp.exec, hexec]
      exact h
  | some pg =>
      simp only [MirrorOp.exec, hexec]
      obtain ⟨user, -, hcommit⟩ := Option.bind_eq_some_iff.mp hexec
      have hsubs : pg.subscriptions = w.pg.subscriptions := by
        rw [commitTo_eq_some hcommit, topupWallet]
      have hpg : CacheCurrent { w with pg := pg } := by
        apply cacheCurrent_pg _ h
        rintro uid' sid periodEnd ⟨s, hs, hrest⟩
        exact ⟨s, hsubs ▸ hs, hrest⟩
      by_cases hle : amount ≤ 0
      · rw [applyTopup, if_pos hle, World.mirror_pure]
        exact hpg
      · rw [applyTopup, if_neg hle, World.mirror_pipe]
        apply cacheCurrent_writes _ hpg
        intro x hx
        rw [List.mem_singleton.mp hx]
        exact keepsCurrent_of_other (by simp) fun sid P => fun hk => absurd hk (by simp)

section
variable {pg : Pg} {sub : Subscription}

/-- A listed subscription that changed is the user's own. -/
theorem periodEnd_other {uid' sid periodEnd : ℤ}
    (hown : ∀ s, w.pg.subscriptions.get? sub.id = some s → s.userId = uid)
    (hother : ∀ k, k ≠ sub.id → pg.subscriptions.get? k = w.pg.subscriptions.get? k)
    (hne : uid' = uid → sid ≠ sub.id) (h : PeriodEnd w.pg uid' sid periodEnd) :
    PeriodEnd pg uid' sid periodEnd := by
  obtain ⟨s, hs, huser, hend⟩ := h
  have hsid : sid ≠ sub.id := by
    rintro rfl
    exact hne (huser.symm.trans (hown s hs)) rfl
  exact ⟨s, (hother sid hsid).trans hs, huser, hend⟩

/-- **The mirror of a grant or a renewal** lists the subscription with its new end. -/
theorem cacheCurrent_grantWrites (h : CacheCurrent w)
    (hsub : pg.subscriptions.get? sub.id = some sub) (huser : sub.userId = uid)
    (hown : ∀ s, w.pg.subscriptions.get? sub.id = some s → s.userId = uid)
    (hother : ∀ k, k ≠ sub.id → pg.subscriptions.get? k = w.pg.subscriptions.get? k)
    (hopen : w.now < sub.currentPeriodEnd) :
    CacheCurrent (World.writes { w with pg := pg }
      (grantWrites uid sub.id sub.remainingCents sub.currentPeriodEnd w.now)) := by
  let w₁ : World := { w with pg := pg }
  have hlisted : CacheCurrent (w₁.write (.zadd uid [(sub.currentPeriodEnd, sub.id)])) := by
    constructor
    · intro uid' e he
      rcases mem_entries_zadd he with ⟨rfl, rfl⟩ | ⟨he, hne⟩
      · exact ⟨sub, hsub, huser, rfl⟩
      · exact periodEnd_other hown hother hne (h.recorded uid' e he)
    · intro uid' e he
      rcases mem_entries_zadd he with ⟨rfl, rfl⟩ | ⟨he, -⟩
      · exact fun _ _ _ => hopen
      · exact h.current uid' e he
  show CacheCurrent ((w₁.write (.zadd uid [(sub.currentPeriodEnd, sub.id)])).writes
    [.expireUsubs uid (max 3600 (grantTtl w.now sub.currentPeriodEnd) * sec),
      .set (.subq sub.id) sub.remainingCents (subqTtl w.now sub.currentPeriodEnd)])
  apply cacheCurrent_writes _ hlisted
  intro x hx
  rcases List.mem_cons.mp hx with rfl | hx
  · exact keepsCurrent_of_other (by simp) fun sid P => trivial
  · rw [List.mem_singleton.mp hx]
    exact keepsCurrent_setSubq hsub hopen

/-- The mirror of the end of a subscription takes it off the list. -/
theorem cacheCurrent_expireWrites (h : CacheCurrent w)
    (hown : ∀ s, w.pg.subscriptions.get? sub.id = some s → s.userId = uid)
    (hother : ∀ k, k ≠ sub.id → pg.subscriptions.get? k = w.pg.subscriptions.get? k) :
    CacheCurrent (World.writes { w with pg := pg } [.zrem uid sub.id, .del (.subq sub.id)]) := by
  let w₁ : World := { w with pg := pg }
  have hunlisted : CacheCurrent (w₁.write (.zrem uid sub.id)) := by
    constructor
    · intro uid' e he
      obtain ⟨he, hne⟩ := mem_entries_zrem he
      exact periodEnd_other hown hother hne (h.recorded uid' e he)
    · intro uid' e he
      exact h.current uid' e (mem_entries_zrem he).1
  have hdel : (Write.del (.subq sub.id)).KeepsCurrent pg w.now :=
    keepsCurrent_of_other (by simp) fun sid P => trivial
  exact cacheCurrent_write hdel hunlisted

end

/-- The first period of a new subscription is not over. -/
theorem lt_initialPeriodEnd (plan : Plan) (now : ℤ) : now < initialPeriodEnd plan now := by
  unfold initialPeriodEnd
  by_cases hone : plan.planType = str "one_time"
  · rw [if_pos hone, day]
    have hdays : 1 ≤ max 1 (if plan.durationDays = 0 then 30 else plan.durationDays) :=
      le_max_left _ _
    omega
  · rw [if_neg hone]
    exact lt_nextMonthStart now

theorem cacheCurrent_grant {planId : ℤ} {refId : Option Str} (h : CacheCurrent w) :
    CacheCurrent ((MirrorOp.grant planId refId).exec uid w) := by
  cases htxn : grantTxn w.pg uid planId refId w.now with
  | none =>
      simp only [MirrorOp.exec, htxn]
      exact h
  | some r =>
      obtain ⟨sub, pg⟩ := r
      simp only [MirrorOp.exec, htxn]
      obtain ⟨user, plan, hfresh, huid, -, hget⟩ := grantTxn_eq_some htxn
      have hsub := hget sub.id
      rw [if_pos rfl] at hsub
      have hnew : w.pg.subscriptions.get? sub.id = none := by
        apply Table.get?_eq_none.mpr
        intro r hr hid
        apply w.pg.subscriptions.nextId_notMem
        rw [hfresh] at hid
        exact List.mem_map.mpr ⟨r, hr, hid⟩
      apply cacheCurrent_grantWrites h hsub huid
      · intro s hs
        rw [hnew] at hs
        cases hs
      · intro k hk
        rw [hget, if_neg hk]
      · rw [hfresh]
        exact lt_initialPeriodEnd plan w.now

theorem cacheCurrent_renew {sid : ℤ} (h : CacheCurrent w)
    (hontime : (QuotaCall.mirror uid (.renew sid)).OnTime w) :
    CacheCurrent ((MirrorOp.renew sid).exec uid w) := by
  cases htxn : renewTxn w.pg uid sid w.now with
  | none =>
      simp only [MirrorOp.exec, htxn]
      exact h
  | some r =>
      obtain ⟨sub', pg⟩ := r
      simp only [MirrorOp.exec, htxn]
      obtain ⟨sub, hsub, huid, rfl, huid', hget, hother, hcase⟩ := renewTxn_eq_some htxn
      have hown : ∀ s, w.pg.subscriptions.get? sub'.id = some s → s.userId = uid := by
        intro s hs
        rw [hsub, Option.some.injEq] at hs
        rw [← hs, huid]
      rcases hcase with ⟨hstatus, -, -⟩ | ⟨plan, user, -, -, hrenew, -, hreason⟩
      · rw [mirrorRenewal, if_neg hstatus]
        exact cacheCurrent_expireWrites h hown hother
      · have hactive : sub'.status = str "active" := by rw [hrenew]; rfl
        rw [mirrorRenewal, if_pos hactive]
        apply cacheCurrent_grantWrites h hget huid' hown hother
        rw [hrenew]
        exact hontime sub hsub huid hreason

theorem cacheCurrent_evict {key : EvictedKey} (h : CacheCurrent w) :
    CacheCurrent ((MirrorOp.evict key).exec uid w) := by
  cases key with
  | wallet => exact cacheCurrent_write (keepsCurrent_of_other (by simp) fun _ _ => trivial) h
  | usubs => exact cacheCurrent_write (keepsCurrent_of_other (by simp) fun _ _ => trivial) h
  | subq sid => exact cacheCurrent_write (keepsCurrent_of_other (by simp) fun _ _ => trivial) h

/-! ### Runs -/

/-- **A call** that comes in time keeps the cache current. -/
theorem cacheCurrent_step {call : QuotaCall} (hontime : call.OnTime w) (h : CacheCurrent w) :
    CacheCurrent (call.exec w) := by
  cases call with
  | hydrate uid => exact (Proc.runWith_of_obeys exec_current obeys_current_hydrate ⟨h, rfl, rfl⟩).1
  | check uid kid quota ws =>
      rw [QuotaCall.exec, World.after, Proc.runWith_bind]
      exact (currentAt_hasQuotaFast h kid quota ws).1
  | mirror uid op =>
      cases op with
      | charge kid cost ws refId note => exact cacheCurrent_charge h
      | topup amount refId note => exact cacheCurrent_topup h
      | grant planId refId => exact cacheCurrent_grant h
      | renew sid => exact cacheCurrent_renew h hontime
      | evict key => exact cacheCurrent_evict h
      | wait d => exact ⟨fun uid e he => h.recorded uid e (mem_entries_wait he), hontime⟩

/-- **An ended subscription authorises nothing**: in every history that starts without
listed subscriptions and whose calls come in time, the subscription that authorises a
request is one of the user's and its period is not over. -/
theorem authorised_open {calls : List QuotaCall} {w₀ : World} {kid quota ws sid : ℤ}
    (hcold : ∀ uid, w₀.entries uid = [])
    (hontime : Along quotaCallStep (fun w call => call.OnTime w) calls w₀)
    (hrun : run quotaCallStep calls w₀ = some w) (hauth : AuthorisedBy w uid kid quota ws sid) :
    ∃ s, w.pg.subscriptions.get? sid = some s ∧ s.userId = uid ∧ w.now < s.currentPeriodEnd := by
  have hcur : CacheCurrent w := by
    apply run_induction_along _ hontime _ hrun
    · intro w call w' hcall h hstep
      cases hstep
      exact cacheCurrent_step hcall h
    · constructor
      · intro uid e he
        rw [hcold] at he
        cases he
      · intro uid e he
        rw [hcold] at he
        cases he
  obtain ⟨hcur', hpg, hnow⟩ := @currentAt_hasQuotaFast w uid hcur kid quota ws
  obtain ⟨-, hsub⟩ := hauth
  obtain ⟨hmem, v, hv, hpos⟩ := mem_of_authorisingSub hsub
  obtain ⟨e, he, rfl⟩ := List.mem_map.mp hmem
  obtain ⟨s, hs, huser, hend⟩ := hcur'.recorded uid e he
  have hopen := hcur'.current uid e he v hv hpos
  rw [hpg] at hs
  rw [hnow, ← hend] at hopen
  exact ⟨s, hs, huser, hopen⟩

instance {kid quota ws sid : ℤ} : Decidable (AuthorisedBy w uid kid quota ws sid) :=
  inferInstanceAs (Decidable (_ ∧ _))

/-- User 1 with subscription 7, which ends after 100 seconds, cached for 50. -/
def halfwayWorld : World :=
  (run quotaCallStep [.hydrate 1, .mirror 1 (.wait 50000000)] (coldWorld (oneSubPg 5 100))).get rfl

theorem authorised_open_halfwayWorld :
    AuthorisedBy halfwayWorld 1 3 0 0 7 ∧
      ∃ s, halfwayWorld.pg.subscriptions.get? 7 = some s ∧ s.userId = 1 ∧
        halfwayWorld.now < s.currentPeriodEnd := by
  have hauth : AuthorisedBy halfwayWorld 1 3 0 0 7 := by decide +kernel
  refine ⟨hauth, ?_⟩
  apply authorised_open (fun _ => rfl) _ (Option.some_get _).symm hauth
  refine ⟨trivial, ?_⟩
  intro w₁ h₁
  cases h₁
  refine ⟨?_, fun _ _ => trivial⟩
  intro uid e he v _ _
  by_cases hu : uid = 1
  · subst hu
    have hentries : (((QuotaCall.hydrate 1).exec (coldWorld (oneSubPg 5 100))).wait
        50000000).entries 1 = [(100000000, 7)] := by decide +kernel
    rw [hentries] at he
    rw [List.mem_singleton.mp he]
    decide +kernel
  · -- the hydration lists for user 1 only
    let w₀ := coldWorld (oneSubPg 5 100)
    let locked : World := { w₀ with redis := { w₀.redis with
      lock := w₀.redis.lock.set w₀.now (.hydr 1) () hydrLockTtl } }
    have hlisted : e.2 ∈ (locked.writes
        (hydrateWrites (userOne 5) (openSubscriptions w₀.pg 1 w₀.now) w₀.now)).members uid := by
      have hhydrated := @runWith_hydrateUserQuota w₀ (userOne 5) rfl rfl
      have hworld := congrArg (fun r => e.2 ∈ r.2.members uid) hhydrated
      exact hworld.mp (mem_members_wait (List.mem_map_of_mem he))
    rcases mem_members_writes hlisted with hcold | ⟨m, hm, -⟩
    · cases hcold
    · rcases mem_hydrateWrites.mp hm with h | h | ⟨-, h | h⟩ | ⟨s, -, h⟩
      · cases h
      · cases h
      · exact absurd (Write.zadd.inj h).1 hu
      · cases h
      · cases h

/-- Subscription 7 ends after 100 seconds and still authorises a request 100 seconds
later. -/
theorem ended_subscription_authorises :
    ∃ calls w, run quotaCallStep calls (coldWorld (oneSubPg 5 100)) = some w ∧
      ((hasQuotaFast 1 3 0 0).runWith exec w).1 = okFast ∧ AuthorisedBy w 1 3 0 0 7 ∧
      ¬ ∃ s, w.pg.subscriptions.get? 7 = some s ∧ w.now < s.currentPeriodEnd := by
  refine ⟨[.hydrate 1, .mirror 1 (.wait 200000000)], _, rfl, by decide +kernel, by decide +kernel, ?_⟩
  rintro ⟨s, hs, hopen⟩
  have hend : s.currentPeriodEnd = 100000000 := by
    obtain ⟨hmem, -⟩ := Table.get?_eq_some.mp hs
    rw [List.mem_singleton.mp hmem]
  rw [hend] at hopen
  exact absurd hopen (by decide +kernel)

end Llmxy
