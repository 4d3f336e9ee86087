import Llmxy.Billing.LostUpdate
import Llmxy.QuotaCache.Agreement
import Llmxy.QuotaCache.Writes

/-!
# The mirrors of the cached funds

Each change of a user's funds in PostgreSQL has a helper that repeats it in the cache.
The operations on one user run one after the other, and keys expire or are evicted in
between.  The cached funds should be absent or exact: the wallet and each subscription
hold what the tables hold, and while the wallet is cached the set lists the user's
active subscriptions.

The helpers for a charge, a grant and the end of a subscription keep that.  The mirror of
a top-up creates an evicted wallet from zero; the price of a renewal is mirrored nowhere;
and the set may expire or be evicted before the wallet.

## Main definitions

* `MirrorOp`, `MirrorOp.exec`, `mirrorStep` — the operations.
* `Mirrored` — the cached funds are absent or exact.
* `MirrorOp.Faithful` — the operations that keep that.
* `mirrored_exec_iff` — one operation, `mirrored_run_iff` — every run.
-/

namespace Llmxy

/-- What may be evicted. -/
inductive EvictedKey where
  | wallet
  | usubs
  | subq (sid : ℤ)
  deriving DecidableEq

/-- A change of a user's funds with its mirror, or the loss of keys. -/
inductive MirrorOp where
  | charge (kid : Option ℤ) (cost ws : ℤ) (refId note : Option Str)
  | topup (amount : ℤ) (refId note : Option Str)
  | grant (planId : ℤ) (refId : Option Str)
  /-- A renewal, which may end the subscription instead. -/
  | renew (sid : ℤ)
  | evict (key : EvictedKey)
  /-- Time passes, and keys expire. -/
  | wait (microseconds : ℕ)
  deriving DecidableEq

/-- The transaction of a grant: load, `grant_subscription`, commit.  Answers the new
subscription. -/
def grantTxn (pg : Pg) (uid planId : ℤ) (refId : Option Str) (now : ℤ) :
    Option (Subscription × Pg) :=
  (pg.users.get? uid).bind fun user =>
    (pg.plans.get? planId).bind fun plan =>
      (pg.commitTo (grantSubscription user plan refId now pg)).map fun after =>
        (freshSubscription user plan now pg.subscriptions.nextId, after)

/-- The transaction of a renewal.  Answers the subscription afterwards. -/
def renewTxn (pg : Pg) (uid sid now : ℤ) : Option (Subscription × Pg) :=
  ((pg.subscriptions.get? sid).filter (·.userId = uid)).bind fun _ =>
    ((WalletOp.renew sid now).exec pg).bind fun after =>
      (after.subscriptions.get? sid).map fun sub => (sub, after)

/-- The mirror of a renewal, or of the end of the subscription. -/
def mirrorRenewal (uid : ℤ) (sub : Subscription) : QProc Unit :=
  if sub.status = str "active" then applyRenew uid sub.id sub.remainingCents sub.currentPeriodEnd
  else applySubExpire uid sub.id

/-- Commit the tables, then run the mirror. -/
def World.mirror (w : World) (pg : Pg) (p : QProc Unit) : World :=
  (p.runWith exec { w with pg := pg }).2

/-- The world after an operation. -/
def MirrorOp.exec (uid : ℤ) (w : World) : MirrorOp → World
  | .charge kid cost ws refId note =>
      match chargeTxn w.pg uid kid cost refId note w.now with
      | none => w
      | some (breakdown, pg) => w.mirror pg (applyCharge uid kid cost ws breakdown)
  | .topup amount refId note =>
      match (WalletOp.topup uid amount refId note).exec w.pg with
      | none => w
      | some pg => w.mirror pg (applyTopup uid amount)
  | .grant planId refId =>
      match grantTxn w.pg uid planId refId w.now with
      | none => w
      | some (sub, pg) =>
          w.mirror pg (applyGrant uid sub.id sub.remainingCents sub.currentPeriodEnd)
  | .renew sid =>
      match renewTxn w.pg uid sid w.now with
      | none => w
      | some (sub, pg) => w.mirror pg (mirrorRenewal uid sub)
  | .evict .wallet => w.write (.del (.wallet uid))
  | .evict .usubs => w.write (.delUsubs uid)
  | .evict (.subq sid) => w.write (.del (.subq sid))
  | .wait d => w.wait d

/-- Operations always complete. -/
def mirrorStep (uid : ℤ) (w : World) (op : MirrorOp) : Option World := some (op.exec uid w)

/-- The subscription is one of the user's and its status is active. -/
def ActiveSub (pg : Pg) (uid sid : ℤ) : Prop :=
  ∃ s, pg.subscriptions.get? sid = some s ∧ s.userId = uid ∧ s.status = str "active"

/-- The set lists exactly the user's active subscriptions. -/
def World.ListsActive (w : World) (uid : ℤ) : Prop :=
  ∀ sid, sid ∈ w.members uid ↔ ActiveSub w.pg uid sid

/-- **Absent or exact.**  The cached funds of the user are what the tables hold. -/
structure Mirrored (uid : ℤ) (w : World) : Prop where
  wallet : w.Reads (.wallet uid) fun v => w.pg.wallet uid = some v
  subq : ∀ sid s, w.pg.subscriptions.get? sid = some s → s.userId = uid →
    w.Reads (.subq sid) (· = s.remainingCents)
  listed : w.wallet uid ≠ none → w.ListsActive uid

/-- The operation is mirrored faithfully: a top-up finds the wallet cached, or finds it at
zero with the set complete; a reversed top-up and a paid renewal find it absent; and the
set is not lost before the wallet. -/
def MirrorOp.Faithful (uid : ℤ) (w : World) : MirrorOp → Prop
  | .charge _ _ _ _ _ | .grant _ _ => True
  | .topup amount refId note =>
      ((WalletOp.topup uid amount refId note).exec w.pg).isSome →
        (0 < amount → w.wallet uid ≠ none ∨ w.pg.wallet uid = some 0 ∧ w.ListsActive uid) ∧
        (amount < 0 → w.wallet uid = none)
  | .renew sid =>
      ∀ sub plan, w.pg.subscriptions.get? sid = some sub → sub.userId = uid →
        w.pg.plans.get? sub.planId = some plan → 0 < plan.priceCents →
        (renewSubscription sub w.now w.pg).1.2 = str "renewed" →
        ((WalletOp.renew sid w.now).exec w.pg).isSome → w.wallet uid = none
  | .evict .usubs => w.wallet uid = none ∨ ∀ sid, ¬ ActiveSub w.pg uid sid
  | .evict _ => True
  | .wait d => (w.wait d).wallet uid = none ∨ (w.wait d).members uid ≠ [] ∨
      ∀ sid, ¬ ActiveSub w.pg uid sid

variable {uid : ℤ} {w : World}

/-! ### Charges -/

/-- What the shares of a breakdown take from a cached counter. -/
def takenFrom (uid : ℤ) (k : CounterKey) (breakdown : List Share) : ℤ :=
  ((breakdown.filter fun b => 0 < b.2.2 &&
    (match b.1 with | .sub => CounterKey.subq b.2.1 | .wallet => .wallet uid) = k).map (·.2.2)).sum

/-- The shares of a charge are taken from the counters that are cached. -/
theorem counter_shareWrites (breakdown : List Share) (k : CounterKey) :
    (w.writes (breakdown.flatMap (shareWrites uid))).redis.counter.get w.now k =
      (w.redis.counter.get w.now k).map (· - takenFrom uid k breakdown) := by
  induction breakdown generalizing w with
  | nil =>
      simp only [List.flatMap_nil, World.writes_nil, takenFrom, List.filter_nil, List.map_nil,
        List.sum_nil, sub_zero]
      exact Option.map_id'.symm
  | cons b rest ih =>
      obtain ⟨kind, sid, amount⟩ := b
      rw [List.flatMap_cons, World.writes_append]
      by_cases hpos : 0 < amount
      · -- the share is one write
        obtain ⟨k', hk', hwrite⟩ : ∃ k', (match kind with
              | .sub => CounterKey.subq sid | .wallet => .wallet uid) = k' ∧
            shareWrites uid (kind, sid, amount) = [.decrIfExists k' amount] := by
          cases kind with
          | sub => exact ⟨_, rfl, by simp [shareWrites, not_le.mpr hpos]⟩
          | wallet => exact ⟨_, rfl, by simp [shareWrites, not_le.mpr hpos]⟩
        rw [hwrite]
        have htail := @ih (w.write (.decrIfExists k' amount))
        refine htail.trans ?_
        by_cases hk : k' = k
        · subst hk
          rw [show (w.write (.decrIfExists k' amount)).now = w.now from rfl, counter_decr,
            Option.map_map, takenFrom, takenFrom, List.filter_cons_of_pos (by simp [hpos, hk'])]
          congr 1
          funext v
          simp only [Function.comp_apply, List.map_cons, List.sum_cons]
          omega
        · rw [show (w.write (.decrIfExists k' amount)).now = w.now from rfl,
            counter_write_other (x := .decrIfExists k' amount) hk, takenFrom, takenFrom,
            List.filter_cons_of_neg (by simp [hk', hk])]
      · have hwrite : shareWrites uid (kind, sid, amount) = [] := by
          cases kind with
          | sub => simp [shareWrites, not_lt.mp hpos]
          | wallet => simp [shareWrites, not_lt.mp hpos]
        rw [hwrite, World.writes_nil, ih, takenFrom, takenFrom,
          List.filter_cons_of_neg (by simp [hpos])]

theorem takenFrom_append (k : CounterKey) (bd bd' : List Share) :
    takenFrom uid k (bd ++ bd') = takenFrom uid k bd + takenFrom uid k bd' := by
  simp [takenFrom]

/-- A drain takes nothing from the wallet. -/
theorem takenFrom_wallet_drain (ds : List (ℤ × ℤ)) :
    takenFrom uid (.wallet uid) (ds.map subShare) = 0 := by
  have hnone : (ds.map subShare).filter (fun b => 0 < b.2.2 &&
      (match b.1 with | .sub => CounterKey.subq b.2.1 | .wallet => .wallet uid) =
        CounterKey.wallet uid) = [] := by
    apply List.filter_eq_nil_iff.mpr
    intro b hb
    obtain ⟨d, -, rfl⟩ := List.mem_map.mp hb
    simp [subShare]
  rw [takenFrom, hnone]
  rfl

/-- A drain takes from each subscription what it names. -/
theorem takenFrom_subq_drain {ds : List (ℤ × ℤ)} (hpos : ∀ d ∈ ds, 0 < d.2) (sid : ℤ) :
    takenFrom uid (.subq sid) (ds.map subShare) =
      ((ds.filter fun d => d.1 = sid).map Prod.snd).sum := by
  induction ds with
  | nil => rfl
  | cons d ds ih =>
      have hd := hpos d List.mem_cons_self
      have htail := ih fun e he => hpos e (List.mem_cons_of_mem _ he)
      rw [List.map_cons, takenFrom]
      rw [takenFrom] at htail
      by_cases hk : d.1 = sid
      · rw [List.filter_cons_of_pos (by simp [subShare, hd, hk]),
          List.filter_cons_of_pos (by simp [hk]), List.map_cons, List.sum_cons, htail]
        rfl
      · rw [List.filter_cons_of_neg (by simp [subShare, hk]),
          List.filter_cons_of_neg (by simp [hk]), htail]

/-- What the mirror of a charge leaves of the wallet and of each subscription. -/
theorem counter_chargeWrites {kid : Option ℤ} {cost ws : ℤ} (breakdown : List Share)
    {k : CounterKey} (hk : ∀ kid ws, k ≠ .kused kid ws) :
    (w.writes (chargeWrites uid kid cost ws breakdown)).redis.counter.get w.now k =
      (w.redis.counter.get w.now k).map (· - takenFrom uid k breakdown) := by
  rw [chargeWrites.eq_def, World.writes_append, ← counter_shareWrites]
  apply counter_writes_other
  intro x hx
  cases kid with
  | none => cases hx
  | some kid =>
      rw [List.mem_singleton.mp hx]
      exact fun h => hk _ _ h.symm

theorem members_chargeWrites (kid : Option ℤ) (cost ws : ℤ) (breakdown : List Share) :
    (w.writes (chargeWrites uid kid cost ws breakdown)).members uid = w.members uid := by
  apply members_counters
  intro x hx
  rcases mem_chargeWrites hx with ⟨k, n, -, -, rfl⟩ | ⟨kid, rfl⟩
  · exact ⟨k, rfl⟩
  · exact ⟨_, rfl⟩

/-- The active subscriptions do not depend on what is left of them. -/
theorem activeSub_drainTable {pg pg' : Pg} {ds : List (ℤ × ℤ)}
    (h : pg'.subscriptions = drainTable pg.subscriptions ds) (sid : ℤ) :
    ActiveSub pg' uid sid ↔ ActiveSub pg uid sid := by
  rw [ActiveSub, h, get?_drainTable]
  constructor
  · rintro ⟨s, hs, hu, hst⟩
    obtain ⟨r, hr, rfl⟩ := Option.map_eq_some_iff.mp hs
    exact ⟨r, hr, hu, hst⟩
  · rintro ⟨r, hr, hu, hst⟩
    refine ⟨{ r with remainingCents := r.remainingCents -
      ((ds.filter fun d => d.1 = sid).map Prod.snd).sum }, ?_, hu, hst⟩
    rw [hr, Option.map_some]

/-- What a charge leaves of the subscriptions. -/
theorem chargeTxn_subscriptions {pg after : Pg} {cost now : ℤ} {kid : Option ℤ}
    {refId note : Option Str} {breakdown : List Share} (hc : 0 < cost)
    (h : chargeTxn pg uid kid cost refId note now = some (breakdown, after)) :
    after.subscriptions = drainTable pg.subscriptions (drain (sources pg uid now) cost) := by
  obtain ⟨user, huser, -, -, hsubs⟩ := chargeTxn_eq_some h
  have hid : user.id = uid := (Table.get?_eq_some.mp huser).2
  rw [hsubs, pgAfter, if_pos hc, chargedPg, ← hid]
  rfl

/-- What is mirrored stays mirrored when nothing of it changes. -/
theorem mirrored_congr {w' : World} (husers : w'.pg.wallet uid = w.pg.wallet uid)
    (hsubs : w'.pg.subscriptions = w.pg.subscriptions)
    (hcounter : ∀ k, (∀ kid ws, k ≠ .kused kid ws) →
      w'.redis.counter.get w'.now k = w.redis.counter.get w.now k)
    (hmembers : w'.members uid = w.members uid) (h : Mirrored uid w) : Mirrored uid w' := by
  refine ⟨?_, ?_, ?_⟩
  · intro v hv
    rw [hcounter _ (by simp)] at hv
    rw [husers]
    exact h.wallet v hv
  · intro sid s hs hu v hv
    rw [hcounter _ (by simp)] at hv
    rw [hsubs] at hs
    exact h.subq sid s hs hu v hv
  · intro hwallet sid
    rw [hmembers, ActiveSub, hsubs]
    apply h.listed
    rwa [World.wallet, hcounter _ (by simp)] at hwallet

/-- What a charge takes from the wallet and from each subscription. -/
theorem takenFrom_charged (pg : Pg) {cost : ℤ} (now : ℤ) (hc : 0 < cost) :
    takenFrom uid (.wallet uid) (chargedShares pg uid cost now) =
        shortfall (sources pg uid now) cost ∧
      ∀ sid, takenFrom uid (.subq sid) (chargedShares pg uid cost now) =
        (((drain (sources pg uid now) cost).filter fun d => d.1 = sid).map Prod.snd).sum := by
  have hnn := shortfall_nonneg (sources pg uid now) hc.le
  constructor
  · rw [chargedShares, takenFrom_append, takenFrom_wallet_drain, zero_add]
    by_cases hpos : 0 < shortfall (sources pg uid now) cost
    · simp [takenFrom, hpos]
    · simp only [takenFrom, if_neg hpos, List.filter_nil, List.map_nil, List.sum_nil]
      omega
  · intro sid
    rw [chargedShares, takenFrom_append, takenFrom_subq_drain (drain_pos _ _)]
    by_cases hpos : 0 < shortfall (sources pg uid now) cost
    · simp [takenFrom, hpos]
    · simp [takenFrom, hpos]

@[simp] theorem World.mirror_pure (pg : Pg) : w.mirror pg (pure ()) = { w with pg := pg } := rfl

@[simp] theorem World.mirror_pipe (pg : Pg) (ws : List Write) :
    w.mirror pg (ask (.pipe ws)) = World.writes { w with pg := pg } ws := rfl

/-- **A charge** is mirrored faithfully: each share is taken from the row and from the
cached counter alike. -/
theorem mirrored_charge {kid : Option ℤ} {cost ws : ℤ} {refId note : Option Str}
    (h : Mirrored uid w) : Mirrored uid ((MirrorOp.charge kid cost ws refId note).exec uid w) := by
  cases htxn : chargeTxn w.pg uid kid cost refId note w.now with
  | none =>
      simp only [MirrorOp.exec, htxn]
      exact h
  | some r =>
      obtain ⟨breakdown, pg⟩ := r
      simp only [MirrorOp.exec, htxn]
      by_cases hc : 0 < cost
      · obtain ⟨user, row, huser, rfl, husers, -, -, -⟩ := chargeTxn_logs hc htxn
        have hsubs := chargeTxn_subscriptions hc htxn
        obtain ⟨hwallet, hsubq⟩ := @takenFrom_charged uid w.pg cost w.now hc
        rw [applyCharge, if_neg (not_le.mpr hc), World.mirror_pipe]
        refine ⟨?_, ?_, ?_⟩
        · intro v hv
          replace hv := (counter_chargeWrites _ (by simp)).symm.trans hv
          obtain ⟨v', hv', rfl⟩ := Option.map_eq_some_iff.mp hv
          have hold := h.wallet v' hv'
          show (pg.users.get? uid).map User.balanceCents = _
          rw [husers, Table.get?_update_self, Option.map_map, hwallet]
          rw [Pg.wallet] at hold
          obtain ⟨u, hu, rfl⟩ := Option.map_eq_some_iff.mp hold
          rw [hu]
          rfl
        · intro sid s hs hu v hv
          replace hv := (counter_chargeWrites _ (by simp)).symm.trans hv
          obtain ⟨v', hv', rfl⟩ := Option.map_eq_some_iff.mp hv
          replace hs : pg.subscriptions.get? sid = some s := hs
          rw [hsubs, get?_drainTable] at hs
          obtain ⟨r, hr, rfl⟩ := Option.map_eq_some_iff.mp hs
          rw [h.subq sid r hr hu v' hv', hsubq]
        · intro hcached sid
          rw [members_chargeWrites]
          have hlisted : w.ListsActive uid := by
            apply h.listed
            intro hnone
            apply hcached
            refine (counter_chargeWrites _ (by simp)).trans ?_
            exact Option.map_eq_none_iff.mpr hnone
          exact (hlisted sid).trans (activeSub_drainTable hsubs sid).symm
      · obtain ⟨-, husers, -, hsubs⟩ := chargeTxn_of_nonpos (not_lt.mp hc) htxn
        rw [applyCharge, if_pos (not_lt.mp hc), World.mirror_pure]
        refine mirrored_congr ?_ hsubs (fun _ _ => rfl) rfl h
        show (pg.users.get? uid).map User.balanceCents = _
        rw [husers]
        rfl

/-! ### Top-ups -/

/-- **A top-up** is mirrored faithfully exactly when the increment finds the wallet
cached, or would have found it at zero. -/
theorem mirrored_topup_iff {amount : ℤ} {refId note : Option Str} (h : Mirrored uid w) :
    Mirrored uid ((MirrorOp.topup amount refId note).exec uid w) ↔
      (MirrorOp.topup amount refId note).Faithful uid w := by
  cases hexec : (WalletOp.topup uid amount refId note).exec w.pg with
  | none => simpa [MirrorOp.exec, MirrorOp.Faithful, hexec] using h
  | some pg =>
      simp only [MirrorOp.exec, MirrorOp.Faithful, hexec, Option.isSome_some, true_implies]
      obtain ⟨user, huser, hcommit⟩ := Option.bind_eq_some_iff.mp hexec
      have hid : user.id = uid := (Table.get?_eq_some.mp huser).2
      have hpg := commitTo_eq_some hcommit
      rw [hid] at hpg
      have hb : w.pg.wallet uid = some user.balanceCents := by
        rw [Pg.wallet, huser, Option.map_some]
      have hb' : pg.wallet uid = some (user.balanceCents + amount) := by
        rw [hpg, Pg.wallet, topupWallet, Table.get?_update_self, huser]
        rfl
      have hsubs : pg.subscriptions = w.pg.subscriptions := by rw [hpg, topupWallet]
      have hactive : ∀ sid, ActiveSub pg uid sid ↔ ActiveSub w.pg uid sid := by
        intro sid
        rw [ActiveSub, hsubs, ActiveSub]
      by_cases hle : amount ≤ 0
      · -- nothing is mirrored
        rw [applyTopup, if_pos hle, World.mirror_pure]
        have hpos : ¬ 0 < amount := not_lt.mpr hle
        constructor
        · intro h'
          refine ⟨fun hpos' => absurd hpos' hpos, fun hneg => ?_⟩
          by_contra hcached
          obtain ⟨v, hv⟩ := Option.ne_none_iff_exists'.mp hcached
          have hold := h.wallet v hv
          have hnew := h'.wallet v hv
          rw [hb, Option.some.injEq] at hold
          simp only [hb', Option.some.injEq] at hnew
          omega
        · rintro ⟨-, hneg⟩
          refine ⟨?_, ?_, ?_⟩
          · intro v hv
            have hzero : amount = 0 := by
              by_contra hne
              have hnone := hneg (lt_of_le_of_ne hle hne)
              rw [World.wallet] at hnone
              rw [hnone] at hv
              cases hv
            have hold := h.wallet v hv
            simpa [hb', hzero, hb] using hold
          · intro sid s hs hu v hv
            simp only [hsubs] at hs
            exact h.subq sid s hs hu v hv
          · intro hcached sid
            exact (h.listed hcached sid).trans (hactive sid).symm
      · have hpos : 0 < amount := not_le.mp hle
        rw [applyTopup, if_neg hle, World.mirror_pipe]
        let w₁ : World := { w with pg := pg }
        show Mirrored uid (w₁.write (.incrBy (.wallet uid) amount)) ↔ _
        have hwallet : (w₁.write (.incrBy (.wallet uid) amount)).wallet uid =
            some ((w.wallet uid).getD 0 + amount) := counter_incr amount
        have hother : ∀ k, k ≠ .wallet uid →
            (w₁.write (.incrBy (.wallet uid) amount)).redis.counter.get w.now k =
              w.redis.counter.get w.now k :=
          fun k hk => counter_write_other fun h => hk h.symm
        have hmembers : (w₁.write (.incrBy (.wallet uid) amount)).members uid = w.members uid :=
          members_counter ⟨.wallet uid, rfl⟩
        constructor
        · intro h'
          refine ⟨fun _ => ?_, fun hneg => absurd hneg (by omega)⟩
          by_cases hcached : w.wallet uid = none
          · apply Or.inr
            have hnew := h'.wallet _ hwallet
            have hlisted := h'.listed (by simp [hwallet])
            rw [hcached, Option.getD_none, zero_add] at hnew
            have hzero : user.balanceCents + amount = amount := by
              exact Option.some.inj (hb'.symm.trans hnew)
            refine ⟨?_, fun sid => ?_⟩
            · rw [hb]
              congr 1
              omega
            · rw [← hmembers]
              exact (hlisted sid).trans (hactive sid)
          · exact Or.inl hcached
        · rintro ⟨hfound, -⟩
          refine ⟨?_, ?_, ?_⟩
          · intro v hv
            have hv' : (w.wallet uid).getD 0 + amount = v := Option.some.inj (hwallet.symm.trans hv)
            show pg.wallet uid = some v
            rw [hb', ← hv']
            congr 2
            rcases hfound hpos with hcached | ⟨hzero, -⟩
            · obtain ⟨b, hb₀⟩ := Option.ne_none_iff_exists'.mp hcached
              have hold := h.wallet b hb₀
              rw [hb, Option.some.injEq] at hold
              rw [hb₀, Option.getD_some, hold]
            · rw [hb, Option.some.injEq] at hzero
              cases hcached : w.wallet uid with
              | none => rw [Option.getD_none, hzero]
              | some b =>
                  have hold := h.wallet b hcached
                  rw [hb, Option.some.injEq] at hold
                  rw [Option.getD_some, hold]
          · intro sid s hs hu v hv
            replace hv := (hother (.subq sid) (by simp)).symm.trans hv
            replace hs : pg.subscriptions.get? sid = some s := hs
            rw [hsubs] at hs
            exact h.subq sid s hs hu v hv
          · intro _ sid
            rw [hmembers]
            refine Iff.trans ?_ (hactive sid).symm
            rcases hfound hpos with hcached | ⟨-, hlisted⟩
            · exact h.listed hcached sid
            · exact hlisted sid

/-! ### Grants and renewals -/

section
variable {pg : Pg} {sid : ℤ} {sub : Subscription}

/-- The other subscriptions are as active as before. -/
theorem activeSub_other (hother : ∀ k, k ≠ sid → pg.subscriptions.get? k =
      w.pg.subscriptions.get? k) {k : ℤ} (hk : k ≠ sid) :
    ActiveSub pg uid k ↔ ActiveSub w.pg uid k := by
  rw [ActiveSub, hother k hk, ActiveSub]

/-- The mirror of a grant or a renewal leaves the cached funds exact exactly when the
cached wallet still is. -/
theorem mirrored_grantWrites_iff (h : Mirrored uid w) (hsub : pg.subscriptions.get? sid = some sub)
    (huser : sub.userId = uid) (hstatus : sub.status = str "active")
    (hother : ∀ k, k ≠ sid → pg.subscriptions.get? k = w.pg.subscriptions.get? k) :
    Mirrored uid (World.writes { w with pg := pg }
        (grantWrites uid sid sub.remainingCents sub.currentPeriodEnd w.now)) ↔
      ∀ v, w.wallet uid = some v → pg.wallet uid = some v := by
  let w₁ : World := { w with pg := pg }
  let w₂ := w₁.write (.zadd uid [(sub.currentPeriodEnd, sid)])
  let w₃ := w₂.write (.expireUsubs uid (max 3600 (grantTtl w.now sub.currentPeriodEnd) * sec))
  let w₄ := w₃.write (.set (.subq sid) sub.remainingCents (subqTtl w.now sub.currentPeriodEnd))
  show Mirrored uid w₄ ↔ _
  have hset : w₄.redis.counter.get w.now (.subq sid) = some sub.remainingCents :=
    counter_set (subqTtl_pos _ _)
  have hcounter : ∀ k, k ≠ .subq sid →
      w₄.redis.counter.get w.now k = w.redis.counter.get w.now k :=
    fun k hk => counter_write_other fun h => hk h.symm
  have hmembers : ∀ k, k ∈ w₄.members uid ↔ k = sid ∨ k ∈ w.members uid := by
    intro k
    have hset : w₄.members uid = w₃.members uid := members_counter ⟨.subq sid, rfl⟩
    have hexpire : w₃.members uid = w₂.members uid := by
      apply members_expire
      have hle : 3600 ≤ max 3600 (grantTtl w.now sub.currentPeriodEnd) := le_max_left _ _
      rw [sec]
      omega
    have hadd := @mem_members_zadd w₁ uid [(sub.currentPeriodEnd, sid)] k
    rw [hset, hexpire]
    simp only [List.map_cons, List.map_nil, List.mem_singleton] at hadd
    exact hadd
  constructor
  · intro h' v hv
    exact h'.wallet v ((hcounter _ (by simp)).trans hv)
  · intro hwallet
    refine ⟨?_, ?_, ?_⟩
    · intro v hv
      exact hwallet v ((hcounter _ (by simp)).symm.trans hv)
    · intro k s hs hu v hv
      replace hs : pg.subscriptions.get? k = some s := hs
      by_cases hk : k = sid
      · subst hk
        rw [hsub] at hs
        cases hs
        exact Option.some.inj (hv.symm.trans hset)
      · rw [hother k hk] at hs
        replace hv := (hcounter (.subq k) (by simpa using hk)).symm.trans hv
        exact h.subq k s hs hu v hv
    · intro hcached k
      rw [hmembers]
      by_cases hk : k = sid
      · subst hk
        exact iff_of_true (Or.inl rfl) ⟨sub, hsub, huser, hstatus⟩
      · refine Iff.trans ?_ (activeSub_other hother hk).symm
        rw [or_iff_right hk]
        apply h.listed
        intro hnone
        exact hcached ((hcounter _ (by simp)).trans hnone)

/-- The mirror of the end of a subscription keeps the cached funds exact. -/
theorem mirrored_expireWrites (h : Mirrored uid w) (hsub : pg.subscriptions.get? sid = some sub)
    (hstatus : sub.status ≠ str "active") (husers : pg.users = w.pg.users)
    (hother : ∀ k, k ≠ sid → pg.subscriptions.get? k = w.pg.subscriptions.get? k) :
    Mirrored uid (World.writes { w with pg := pg } [.zrem uid sid, .del (.subq sid)]) := by
  let w₁ : World := { w with pg := pg }
  let w₂ := (w₁.write (.zrem uid sid)).write (.del (.subq sid))
  show Mirrored uid w₂
  have hdel : w₂.redis.counter.get w.now (.subq sid) = none :=
    @counter_del (w₁.write (.zrem uid sid)) _
  have hcounter : ∀ k, k ≠ .subq sid →
      w₂.redis.counter.get w.now k = w.redis.counter.get w.now k :=
    fun k hk => counter_write_other fun h => hk h.symm
  refine ⟨?_, ?_, ?_⟩
  · intro v hv
    show (pg.users.get? uid).map User.balanceCents = some v
    rw [husers]
    exact h.wallet v ((hcounter _ (by simp)).symm.trans hv)
  · intro k s hs hu v hv
    replace hs : pg.subscriptions.get? k = some s := hs
    by_cases hk : k = sid
    · subst hk
      cases hdel.symm.trans hv
    · rw [hother k hk] at hs
      replace hv := (hcounter (.subq k) (by simpa using hk)).symm.trans hv
      exact h.subq k s hs hu v hv
  · intro hcached k
    have hmembers : k ∈ w₂.members uid ↔ k ∈ w.members uid ∧ k ≠ sid := by
      have hdel : w₂.members uid = (w₁.write (.zrem uid sid)).members uid :=
        members_counter ⟨.subq sid, rfl⟩
      rw [hdel]
      exact @mem_members_zrem w₁ uid sid k
    rw [hmembers]
    by_cases hk : k = sid
    · subst hk
      refine iff_of_false (fun h => h.2 rfl) ?_
      rintro ⟨s, hs, -, hst⟩
      replace hs : pg.subscriptions.get? k = some s := hs
      rw [hsub] at hs
      cases hs
      exact hstatus hst
    · refine Iff.trans ?_ (activeSub_other hother hk).symm
      rw [and_iff_left hk]
      apply h.listed
      intro hnone
      exact hcached ((hcounter _ (by simp)).trans hnone)

theorem get?_saveSub (pg : Pg) (sub : Subscription) (k : ℤ) :
    (pg.saveSub sub).subscriptions.get? k =
      if k = sub.id then (pg.subscriptions.get? k).map sub.save.1 else pg.subscriptions.get? k :=
  Table.get?_update _ _ _ _

/-- What a grant writes: the next subscription, active and with the full quota. -/
theorem grantTxn_eq_some {pg after : Pg} {planId now : ℤ} {refId : Option Str}
    (h : grantTxn pg uid planId refId now = some (sub, after)) :
    ∃ user plan, sub = freshSubscription user plan now pg.subscriptions.nextId ∧
      sub.userId = uid ∧ after.users = pg.users ∧
      ∀ k, after.subscriptions.get? k =
        if k = sub.id then some sub else pg.subscriptions.get? k := by
  obtain ⟨user, huser, h⟩ := Option.bind_eq_some_iff.mp h
  obtain ⟨plan, -, h⟩ := Option.bind_eq_some_iff.mp h
  obtain ⟨after', hcommit, heq⟩ := Option.map_eq_some_iff.mp h
  cases heq
  have hafter := commitTo_eq_some hcommit
  refine ⟨user, plan, rfl, (Table.get?_eq_some.mp huser).2, ?_, ?_⟩
  · rw [hafter]
    rfl
  · intro k
    rw [hafter]
    refine (Table.get?_insert _ _ (fun _ => rfl) k).trans ?_
    by_cases hk : k = pg.subscriptions.nextId
    · subst hk
      rfl
    · rw [if_neg hk]
      exact (if_neg hk).symm

/-- What a renewal writes: the subscription ends or is past due, or its next period is paid
from the wallet. -/
theorem renewTxn_eq_some {pg after : Pg} {sid now : ℤ} {sub' : Subscription}
    (h : renewTxn pg uid sid now = some (sub', after)) :
    ∃ sub, pg.subscriptions.get? sid = some sub ∧ sub.userId = uid ∧
      sub'.id = sid ∧ sub'.userId = uid ∧ after.subscriptions.get? sid = some sub' ∧
      (∀ k, k ≠ sid → after.subscriptions.get? k = pg.subscriptions.get? k) ∧
      ((sub'.status ≠ str "active" ∧ after.users = pg.users ∧
          (renewSubscription sub now pg).1.2 ≠ str "renewed") ∨
        ∃ plan user, pg.plans.get? sub.planId = some plan ∧ pg.users.get? uid = some user ∧
          sub' = sub.renew plan now ∧ after.users = (payRenewal sub plan pg).users ∧
          (renewSubscription sub now pg).1.2 = str "renewed") := by
  obtain ⟨sub, hrow, h⟩ := Option.bind_eq_some_iff.mp h
  obtain ⟨hsub, huid⟩ := Option.filter_eq_some_iff.mp hrow
  replace huid : sub.userId = uid := by simpa using huid
  have hid : sub.id = sid := (Table.get?_eq_some.mp hsub).2
  obtain ⟨after', hexec, h⟩ := Option.bind_eq_some_iff.mp h
  obtain ⟨row, hget, heq⟩ := Option.map_eq_some_iff.mp h
  cases heq
  have hafter : after = (renewSubscription sub now pg).2 := by
    obtain ⟨sub₂, hsub₂, hcommit⟩ := Option.bind_eq_some_iff.mp hexec
    rw [hsub, Option.some.injEq] at hsub₂
    subst hsub₂
    exact commitTo_eq_some hcommit
  -- the row afterwards is the one that was saved
  have hsaved : ∀ (tables : Pg) (saved : Subscription), after = tables.saveSub saved →
      tables.subscriptions = pg.subscriptions → saved.id = sid →
      sub' = saved ∧
        ∀ k, k ≠ sid → after.subscriptions.get? k = pg.subscriptions.get? k := by
    intro tables saved hafter htables hid'
    constructor
    · rw [hafter, get?_saveSub, if_pos hid'.symm, htables, hsub, Option.map_some,
        Subscription.save_val, hid, ← hid', Option.some.injEq] at hget
      exact hget.symm
    · intro k hk
      rw [hafter, get?_saveSub, if_neg (hid' ▸ hk), htables]
  refine ⟨sub, hsub, huid, ?_⟩
  rcases renewSubscription_cases sub now pg with
    ⟨saved, hres, hid', huid', -, hstatus, hreason⟩ | ⟨plan, user, hplan, huser, hres⟩
  · obtain ⟨rfl, hother⟩ := hsaved pg saved (hafter.trans hres) rfl (hid'.trans hid)
    refine ⟨hid'.trans hid, huid'.trans huid, hget, hother, Or.inl ⟨hstatus, ?_, hreason⟩⟩
    rw [hafter, hres]
    rfl
  · have hsubs : (payRenewal sub plan pg).subscriptions = pg.subscriptions := by
      unfold payRenewal
      split_ifs <;> rfl
    obtain ⟨rfl, hother⟩ := hsaved (payRenewal sub plan pg) (sub.renew plan now)
      (by rw [hafter, hres]) hsubs hid
    refine ⟨hid, huid, hget, hother, Or.inr ⟨plan, user, hplan, huid ▸ huser, rfl, ?_, ?_⟩⟩
    · rw [hafter, hres]
      rfl
    · rw [hres]

/-- A renewal of the user's subscription that commits answers. -/
theorem renewTxn_isSome {pg : Pg} {sid now : ℤ} (hsub : pg.subscriptions.get? sid = some sub)
    (huid : sub.userId = uid) (hexec : ((WalletOp.renew sid now).exec pg).isSome) :
    (renewTxn pg uid sid now).isSome := by
  obtain ⟨after, hafter⟩ := Option.isSome_iff_exists.mp hexec
  have hsaved : ∀ tables saved, after = Pg.saveSub tables saved →
      tables.subscriptions = pg.subscriptions → (after.subscriptions.get? sid).isSome := by
    intro tables saved hafter htables
    rw [hafter, get?_saveSub, htables, hsub]
    split_ifs
    · rfl
    · rfl
  have hget : (after.subscriptions.get? sid).isSome := by
    obtain ⟨sub₂, hsub₂, hcommit⟩ := Option.bind_eq_some_iff.mp hafter
    rw [hsub, Option.some.injEq] at hsub₂
    subst hsub₂
    rcases renewSubscription_cases sub now pg with ⟨saved, hres, -⟩ | ⟨plan, user, -, -, hres⟩
    · exact hsaved pg saved ((commitTo_eq_some hcommit).trans hres) rfl
    · apply hsaved (payRenewal sub plan pg) (sub.renew plan now)
      · rw [commitTo_eq_some hcommit, hres]
      · unfold payRenewal
        split_ifs <;> rfl
  rw [renewTxn, hsub, Option.filter_some, if_pos (by simpa using huid), Option.bind_some, hafter,
    Option.bind_some, Option.isSome_map]
  exact hget

end

/-- **A grant** is mirrored faithfully. -/
theorem mirrored_grant {planId : ℤ} {refId : Option Str} (h : Mirrored uid w) :
    Mirrored uid ((MirrorOp.grant planId refId).exec uid w) := by
  cases hexec : grantTxn w.pg uid planId refId w.now with
  | none =>
      simp only [MirrorOp.exec, hexec]
      exact h
  | some r =>
      obtain ⟨sub, pg⟩ := r
      simp only [MirrorOp.exec, hexec]
      obtain ⟨user, plan, hfresh, huid, husers, hget⟩ := grantTxn_eq_some hexec
      have hsub := hget sub.id
      rw [if_pos rfl] at hsub
      apply (mirrored_grantWrites_iff h hsub huid (by rw [hfresh]; rfl) ?_).mpr
      · intro v hv
        rw [Pg.wallet, husers]
        exact h.wallet v hv
      · intro k hk
        rw [hget, if_neg hk]

/-- **A renewal** is mirrored faithfully exactly when it takes nothing from a wallet that
is cached. -/
theorem mirrored_renew_iff {sid : ℤ} (h : Mirrored uid w) :
    Mirrored uid ((MirrorOp.renew sid).exec uid w) ↔ (MirrorOp.renew sid).Faithful uid w := by
  cases htxn : renewTxn w.pg uid sid w.now with
  | none =>
      simp only [MirrorOp.exec, htxn]
      refine iff_of_true h ?_
      intro sub plan hsub huid _ _ _ hexec
      have hsome := renewTxn_isSome hsub huid hexec
      rw [htxn] at hsome
      cases hsome
  | some r =>
      obtain ⟨sub', pg⟩ := r
      obtain ⟨sub, hsub, huid, hid, huid', hget, hother, hcase⟩ := renewTxn_eq_some htxn
      simp only [MirrorOp.exec, htxn]
      rcases hcase with ⟨hstatus, husers, hreason⟩ | ⟨plan, user, hplan, huser, hrenew, husers, hreason⟩
      · -- the subscription ends, or is past due
        rw [mirrorRenewal, if_neg hstatus, applySubExpire, World.mirror_pipe, hid]
        refine iff_of_true (mirrored_expireWrites h hget hstatus husers hother) ?_
        intro sub₂ plan hsub₂ _ _ _ hrenewed
        rw [hsub, Option.some.injEq] at hsub₂
        subst hsub₂
        exact absurd hrenewed hreason
      · -- the period is renewed
        have hactive : sub'.status = str "active" := by rw [hrenew]; rfl
        rw [mirrorRenewal, if_pos hactive, hid]
        refine (mirrored_grantWrites_iff h hget huid' hactive hother).trans ?_
        have hb : w.pg.wallet uid = some user.balanceCents := by
          rw [Pg.wallet, huser, Option.map_some]
        by_cases hprice : 0 < plan.priceCents
        · have hb' : pg.wallet uid = some (user.balanceCents - plan.priceCents) := by
            rw [Pg.wallet, husers, payRenewal, if_pos hprice, huid]
            simp [moveWallet, huser, sub_eq_add_neg]
          have hexec : ((WalletOp.renew sid w.now).exec w.pg).isSome := by
            obtain ⟨_, -, hbind⟩ := Option.bind_eq_some_iff.mp htxn
            obtain ⟨after, hafter, -⟩ := Option.bind_eq_some_iff.mp hbind
            rw [hafter]
            rfl
          constructor
          · intro hwallet _ _ _ _ _ _ _ _
            by_contra hcached
            obtain ⟨v, hv⟩ := Option.ne_none_iff_exists'.mp hcached
            have hold := h.wallet v hv
            have hnew := hwallet v hv
            rw [hb, Option.some.injEq] at hold
            rw [hb', Option.some.injEq] at hnew
            omega
          · intro hfaithful v hv
            have hnone := hfaithful sub plan hsub huid hplan hprice hreason hexec
            rw [hnone] at hv
            cases hv
        · have hb' : pg.wallet uid = w.pg.wallet uid := by
            rw [Pg.wallet, husers, payRenewal, if_neg hprice, Pg.wallet]
          refine iff_of_true ?_ ?_
          · intro v hv
            rw [hb']
            exact h.wallet v hv
          · intro sub₂ plan₂ hsub₂ _ hplan₂ hprice₂
            rw [hsub, Option.some.injEq] at hsub₂
            subst hsub₂
            rw [hplan, Option.some.injEq] at hplan₂
            subst hplan₂
            exact absurd hprice₂ hprice

/-! ### Lost keys -/

/-- Losing the set, or keys of which only the set matters. -/
theorem mirrored_lost_iff {w' : World} (h : Mirrored uid w) (hpg : w'.pg = w.pg)
    (hcounter : ∀ k v, w'.redis.counter.get w'.now k = some v →
      w.redis.counter.get w.now k = some v)
    (hmembers : w'.members uid = w.members uid ∨ w'.members uid = []) :
    Mirrored uid w' ↔
      w'.wallet uid = none ∨ w'.members uid ≠ [] ∨ ∀ sid, ¬ ActiveSub w.pg uid sid := by
  constructor
  · intro h'
    by_cases hcached : w'.wallet uid = none
    · exact Or.inl hcached
    · apply Or.inr
      by_cases hnil : w'.members uid = []
      · apply Or.inr
        intro sid hactive
        have hsid := (h'.listed hcached sid).mpr (hpg ▸ hactive)
        rw [hnil] at hsid
        cases hsid
      · exact Or.inl hnil
  · intro hset
    refine ⟨?_, ?_, ?_⟩
    · intro v hv
      rw [hpg]
      exact h.wallet v (hcounter _ v hv)
    · intro sid s hs hu v hv
      rw [hpg] at hs
      exact h.subq sid s hs hu v (hcounter _ v hv)
    · intro hcached sid
      have hlisted : w.ListsActive uid := by
        apply h.listed
        obtain ⟨v, hv⟩ := Option.ne_none_iff_exists'.mp hcached
        intro hnone
        rw [World.wallet, hcounter _ v hv] at hnone
        cases hnone
      rw [hpg]
      rcases hmembers with hsame | hnil
      · rw [hsame]
        exact hlisted sid
      · rcases hset with hnone | hne | hnothing
        · exact absurd hnone hcached
        · exact absurd hnil hne
        · rw [hnil]
          exact iff_of_false List.not_mem_nil (hnothing sid)

theorem mirrored_wait_iff {d : ℕ} (h : Mirrored uid w) :
    Mirrored uid ((MirrorOp.wait d).exec uid w) ↔ (MirrorOp.wait d).Faithful uid w := by
  have hnow : w.now ≤ (w.wait d).now := by simp [World.wait]
  apply @mirrored_lost_iff uid w (w.wait d) h rfl fun k v hv => Store.get_le hnow hv
  show ((w.redis.usubs.get (w.wait d).now uid).getD []).map Prod.snd = _ ∨
    ((w.redis.usubs.get (w.wait d).now uid).getD []).map Prod.snd = []
  cases hz : w.redis.usubs.get (w.wait d).now uid with
  | none => exact Or.inr rfl
  | some z =>
      apply Or.inl
      rw [World.members, Store.get_le hnow hz]

theorem mirrored_evict_iff {key : EvictedKey} (h : Mirrored uid w) :
    Mirrored uid ((MirrorOp.evict key).exec uid w) ↔ (MirrorOp.evict key).Faithful uid w := by
  have hdel : ∀ k k' v, (w.write (.del k)).redis.counter.get w.now k' = some v →
      w.redis.counter.get w.now k' = some v := by
    intro k k' v hv
    by_cases hk : k = k'
    · subst hk
      rw [counter_del] at hv
      cases hv
    · rwa [counter_write_other (x := .del k) hk] at hv
  cases key with
  | wallet =>
      refine iff_of_true ?_ trivial
      apply (@mirrored_lost_iff uid w (w.write (.del (.wallet uid))) h rfl (hdel _) (Or.inl rfl)).mpr
      exact Or.inl counter_del
  | usubs =>
      have hlost := @mirrored_lost_iff uid w (w.write (.delUsubs uid)) h rfl (fun _ _ hv => hv)
        (Or.inr members_delUsubs)
      refine hlost.trans ?_
      rw [members_delUsubs]
      simp [MirrorOp.Faithful, World.wallet, World.write, Redis.write]
  | subq sid =>
      refine iff_of_true ?_ trivial
      refine ⟨?_, ?_, ?_⟩
      · exact fun v hv => h.wallet v (hdel _ _ v hv)
      · exact fun k s hs hu v hv => h.subq k s hs hu v (hdel _ _ v hv)
      · intro hcached
        apply h.listed
        intro hnone
        apply hcached
        exact (counter_write_other (x := .del (.subq sid)) (by simp [Write.Touches])).trans hnone

/-! ### Runs -/

/-- **One operation** leaves the cached funds absent or exact exactly when it is mirrored
faithfully. -/
theorem mirrored_exec_iff (op : MirrorOp) (h : Mirrored uid w) :
    Mirrored uid (op.exec uid w) ↔ op.Faithful uid w := by
  cases op with
  | charge kid cost ws refId note => exact iff_of_true (mirrored_charge h) trivial
  | topup amount refId note => exact mirrored_topup_iff h
  | grant planId refId => exact iff_of_true (mirrored_grant h) trivial
  | renew sid => exact mirrored_renew_iff h
  | evict key => exact mirrored_evict_iff h
  | wait d => exact mirrored_wait_iff h

/-- **The cached funds are absent or exact** in every state of a run exactly when every
operation of the run is mirrored faithfully. -/
theorem mirrored_run_iff {ops : List MirrorOp} (h : Mirrored uid w) :
    (∀ ops' w', ops' <+: ops → run (mirrorStep uid) ops' w = some w' → Mirrored uid w') ↔
      Along (mirrorStep uid) (MirrorOp.Faithful uid) ops w := by
  refine forall_prefix_iff_along (J := fun _ => True) (fun _ _ _ _ _ => trivial)
    (fun _ _ hstuck => nomatch hstuck) ?_ ops trivial h
  intro w op w' _ h hstep
  cases hstep
  exact mirrored_exec_iff op h

/-- Nothing is cached. -/
theorem mirrored_coldWorld (pg : Pg) : Mirrored uid (coldWorld pg) := by
  refine ⟨?_, ?_, ?_⟩
  · intro v hv
    cases hv
  · intro sid s _ _ v hv
    cases hv
  · intro hcached
    exact absurd rfl hcached

/-- User 1 with a wallet of 5 and subscription 7, both cached. -/
def warmWorld : World :=
  (coldWorld (oneSubPg 5 100)).writes (hydrateWrites (userOne 5)
    (openSubscriptions (oneSubPg 5 100) 1 0) 0)

theorem mirrored_warmWorld : Mirrored 1 warmWorld := by
  have honly : ∀ sid s, warmWorld.pg.subscriptions.get? sid = some s → sid = 7 ∧
      s.remainingCents = 100 ∧ s.userId = 1 ∧ s.status = str "active" := by
    intro sid s hs
    obtain ⟨hmem, hid⟩ := Table.get?_eq_some.mp hs
    rw [List.mem_singleton.mp hmem] at hid ⊢
    exact ⟨hid.symm, rfl, rfl, rfl⟩
  refine ⟨?_, ?_, ?_⟩
  · intro v hv
    rw [show warmWorld.redis.counter.get warmWorld.now (.wallet 1) = some 5 by decide +kernel] at hv
    cases hv
    decide +kernel
  · intro sid s hs _ v hv
    obtain ⟨rfl, hrem, -, -⟩ := honly sid s hs
    rw [show warmWorld.redis.counter.get warmWorld.now (.subq 7) = some 100 by decide +kernel] at hv
    rw [hrem]
    exact (Option.some.inj hv).symm
  · intro _ sid
    rw [show warmWorld.members 1 = [7] by decide +kernel, List.mem_singleton]
    constructor
    · rintro rfl
      exact ⟨⟨7, 1, 1, 0, 0, 100000000, str "active", 100, false, none, none, none⟩,
        by decide +kernel, rfl, rfl⟩
    · rintro ⟨s, hs, -, -⟩
      exact (honly sid s hs).1

/-- A charge, the eviction of a counter and a top-up that finds the wallet cached. -/
theorem mirrored_run_warmWorld :
    Mirrored 1 ((MirrorOp.topup 10 none none).exec 1 ((MirrorOp.evict (.subq 7)).exec 1
      ((MirrorOp.charge (some 3) 30 0 none none).exec 1 warmWorld))) := by
  apply (@mirrored_run_iff 1 warmWorld [.charge (some 3) 30 0 none none, .evict (.subq 7),
    .topup 10 none none] mirrored_warmWorld).mpr ?_ _ _ List.prefix_rfl rfl
  refine ⟨trivial, ?_⟩
  intro w₁ h₁
  cases h₁
  refine ⟨trivial, ?_⟩
  intro w₂ h₂
  cases h₂
  refine ⟨?_, fun _ _ => trivial⟩
  intro _
  refine ⟨fun _ => Or.inl (by decide +kernel), fun h => absurd h (by decide)⟩

/-- A top-up of 10 cents makes an evicted wallet of 5 read as 10. -/
theorem topup_resurrects_wallet :
    Mirrored 1 (coldWorld (oneSubPg 5 0)) ∧
      ¬ Mirrored 1 ((MirrorOp.topup 10 none none).exec 1 (coldWorld (oneSubPg 5 0))) := by
  refine ⟨mirrored_coldWorld _, ?_⟩
  intro h
  have hwallet := h.wallet 10 (by decide +kernel)
  exact absurd hwallet (by decide +kernel)

end Llmxy
