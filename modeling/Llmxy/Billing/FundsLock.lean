import Llmxy.Billing.Refund
import Llmxy.Lib.Machine
import Llmxy.Lib.RowLock

/-!
# Billing under row locks

Transactions on the users and the subscriptions under READ COMMITTED: the rows they
lock, and `charge_user` and `refund_to_sources` statement by statement.  `SELECT … FOR UPDATE` takes its snapshot
when it starts; after waiting for the locks it reads the rows of that snapshot again and
keeps those that still qualify.

A machine of such transactions moves one of them by one statement, at an instant that
the label brings, or rolls one back.  The counter of the API key is a row that none of
the transactions reads, and is left out.

## Main definitions

* `FundsKey`, `FundsRows`, `FundsLabel`, `fundsStep` — the machine.
* `Subscription.flush` — the flush of a modified object.
* `ChargePhase`, `chargeProg` — `charge_user`.
* `RefundPhase`, `refundProg` — `refund_to_sources`.
* `Took`, `ChargeInv`, `chargeProg_spec` — what an open charge has done.
-/

namespace Llmxy

/-- The rows that billing locks. -/
inductive FundsKey where
  | user (id : ℤ)
  | sub (id : ℤ)
  deriving DecidableEq

/-- What a lock protects. -/
def FundsKey.row : FundsKey → Pg → Option User × Option Subscription
  | .user id, pg => (pg.users.get? id, none)
  | .sub id, pg => (none, pg.subscriptions.get? id)

/-- The shared tables. -/
abbrev FundsRows (n : ℕ) := RowStore FundsKey (Fin n) Pg

/-- The next statement of a transaction, with its time, or a rollback. -/
inductive FundsLabel (n : ℕ) where
  | move (i : Fin n) (now : ℤ)
  | rollback (i : Fin n)
  deriving DecidableEq

variable {n : ℕ}

/-- One step of transactions that run `prog`; `abort` says where a rollback leaves one. -/
def fundsStep {lam : Type} (prog : ℤ → Fin n → FundsRows n → lam → Option (FundsRows n × lam))
    (abort : lam → Option lam) (s : Net (Fin n) (FundsRows n) lam) :
    FundsLabel n → Option (Net (Fin n) (FundsRows n) lam)
  | .move i now => Net.step (prog now) s i
  | .rollback i => Net.step (fun i rows l => (abort l).map fun l => (rows.rollback i, l)) s i

section
variable {lam : Type} {prog : ℤ → Fin n → FundsRows n → lam → Option (FundsRows n × lam)}
  {abort : lam → Option lam} {s t : Net (Fin n) (FundsRows n) lam} {i : Fin n}

theorem fundsStep_move {now : ℤ} : fundsStep prog abort s (.move i now) = some t ↔
    ∃ rows l, prog now i s.shared (s.loc i) = some (rows, l) ∧
      t = ⟨rows, Function.update s.loc i l⟩ :=
  Net.step_eq_some

theorem fundsStep_rollback : fundsStep prog abort s (.rollback i) = some t ↔
    ∃ l, abort (s.loc i) = some l ∧ t = ⟨s.shared.rollback i, Function.update s.loc i l⟩ := by
  simp only [fundsStep, Net.step, Option.map_map, Option.map_eq_some_iff, Function.comp_apply]
  exact exists_congr fun l => and_congr_right fun _ => eq_comm

end

/-- What each transaction knows of its own rows survives a step of one of them. -/
theorem forall_phase_update {lam : Type} {P : Fin n → FundsRows n → lam → Prop}
    {rows rows' : FundsRows n} {loc : Fin n → lam} {i : Fin n} {l : lam}
    (hkept : ∀ j l, P j rows l → RowStore.Kept FundsKey.row j rows rows' → P j rows' l)
    (h : ∀ j, P j rows (loc j)) (hrows : ∀ j, j ≠ i → RowStore.Kept FundsKey.row j rows rows')
    (hi : P i rows' l) (j : Fin n) : P j rows' (Function.update loc i l j) := by
  by_cases hj : j = i
  · subst hj
    rwa [Function.update_self]
  · rw [Function.update_of_ne hj]
    exact hkept j _ (h j) (hrows j hj)

/-- A column of an object that was loaded, assigned and flushed over the row: it is written
only if its value has changed. -/
def flushed {α : Type} [DecidableEq α] (loaded assigned current : α) : α :=
  if assigned = loaded then current else assigned

/-- The flush of a subscription that was loaded as `loaded` and is now `sub`. -/
def Subscription.flush (loaded sub : Subscription) : RowUpdate Subscription :=
  ⟨fun row => {
    id := row.id
    userId := flushed loaded.userId sub.userId row.userId
    planId := flushed loaded.planId sub.planId row.planId
    startAt := flushed loaded.startAt sub.startAt row.startAt
    currentPeriodStart := flushed loaded.currentPeriodStart sub.currentPeriodStart
      row.currentPeriodStart
    currentPeriodEnd := flushed loaded.currentPeriodEnd sub.currentPeriodEnd row.currentPeriodEnd
    status := flushed loaded.status sub.status row.status
    remainingCents := flushed loaded.remainingCents sub.remainingCents row.remainingCents
    cancelAtPeriodEnd := flushed loaded.cancelAtPeriodEnd sub.cancelAtPeriodEnd
      row.cancelAtPeriodEnd
    canceledAt := flushed loaded.canceledAt sub.canceledAt row.canceledAt
    lastRenewalAt := flushed loaded.lastRenewalAt sub.lastRenewalAt row.lastRenewalAt
    lastRenewalError := flushed loaded.lastRenewalError sub.lastRenewalError row.lastRenewalError },
    fun _ => rfl⟩

section
variable {α : Type} [DecidableEq α]

@[simp] theorem flushed_same (loaded current : α) : flushed loaded loaded current = current :=
  if_pos rfl

@[simp] theorem flushed_current (loaded assigned : α) : flushed loaded assigned loaded = assigned := by
  unfold flushed
  split_ifs with h
  · exact h.symm
  · rfl

theorem flushed_of_ne {loaded assigned : α} (h : assigned ≠ loaded) (current : α) :
    flushed loaded assigned current = assigned := if_neg h

end

/-- Over the row that was loaded, the flush writes the object back. -/
theorem Subscription.flush_loaded (loaded sub : Subscription) :
    (Subscription.flush loaded sub).1 loaded = { sub with id := loaded.id } := by
  simp [Subscription.flush]

/-! ### Charging -/

/-- Where a call of `charge_user` stands. -/
inductive ChargePhase where
  | begun
  /-- The locking `SELECT` has found these subscriptions and waits for them. -/
  | waiting (ids : List ℤ) (now : ℤ)
  /-- The locked subscriptions have been drained of these amounts. -/
  | drained (held : List (ℤ × ℤ))
  | returned (breakdown : List Share) (walletAfter : Option ℤ)
  deriving DecidableEq

/-- The locked rows that still qualify, as sources. -/
def lockedSources (pg : Pg) (ids : List ℤ) (uid now : ℤ) : List (ℤ × ℤ) :=
  ((ids.filterMap pg.subscriptions.get?).filter (Subscription.isActive uid now)).map fun s =>
    (s.id, s.remainingCents)

/-- Take from each source. -/
def drainSubs (held : List (ℤ × ℤ)) (cost : ℤ) (pg : Pg) : Pg :=
  { pg with subscriptions := drainTable pg.subscriptions (drain held cost) }

/-- The breakdown of a charge against these sources. -/
def takenShares (held : List (ℤ × ℤ)) (cost : ℤ) : List Share :=
  (drain held cost).map subShare ++
    if 0 < shortfall held cost then [(.wallet, 0, shortfall held cost)] else []

/-- Log a charge, after the wallet has paid `fromWallet`. -/
def payAndLog (user : User) (cost fromWallet : ℤ) (breakdown : List Share)
    (refId note : Option Str) (pg : Pg) : Pg :=
  let users := if 0 < fromWallet then
      pg.users.update user.id (User.setBalance (· - fromWallet))
    else pg.users
  let after := if 0 < fromWallet then ((users.get? user.id).map User.balanceCents).getD 0
    else user.balanceCents
  { pg with
    users := users
    balanceTx := pg.balanceTx ++ [{
      userId := user.id
      type := .consume
      amountCents := -cost
      balanceAfter := after
      refId := refId
      note := orNone (fullNote note (breakdown.map showTaken)) }] }

/-- The statements of `charge_user`.  A row of the user that is gone raises, which leaves
nothing but a rollback. -/
def chargeProg (user : User) (cost : ℤ) (refId note : Option Str) (now : ℤ) (i : Fin n)
    (rows : FundsRows n) : ChargePhase → Option (FundsRows n × ChargePhase)
  | .begun =>
      if cost ≤ 0 then some (rows, .returned [] none)
      else some (rows, .waiting ((activeSubscriptions (rows.view i) user.id now).map (·.id)) now)
  | .waiting ids asked =>
      (rows.lock i (ids.map .sub)).map fun rows =>
        let held := lockedSources (rows.view i) ids user.id asked
        (rows.insert i (drainSubs held cost), .drained held)
  | .drained held =>
      let short := shortfall held cost
      let pay := payAndLog user cost short (takenShares held cost) refId note
      if 0 < short then
        (rows.update i (.user user.id) pay).bind fun rows =>
          ((rows.view i).users.get? user.id).map fun row =>
            (rows, .returned (takenShares held cost) (some row.balanceCents))
      else some (rows.insert i pay, .returned (takenShares held cost) none)
  | .returned _ _ => none

/-! ### Refunding -/

/-- Where a call of `refund_to_sources` stands. -/
inductive RefundPhase where
  | begun
  /-- The locking `SELECT` has found these subscriptions and waits for them. -/
  | waiting (ids : List ℤ) (now : ℤ)
  /-- The wallet and the subscriptions are to get these amounts. -/
  | split (toWallet : ℤ) (toSubs : List (ℤ × ℤ))
  | returned (walletAfter : Option ℤ)
  deriving DecidableEq

/-- Refill the subscriptions and log a refund, after the wallet has got its part. -/
def creditAndLog (user : User) (toWallet : ℤ) (toSubs : List (ℤ × ℤ)) (refId note : Option Str)
    (pg : Pg) : Pg :=
  let users := if 0 < toWallet then
      pg.users.update user.id (User.setBalance (· + toWallet))
    else pg.users
  let after := if 0 < toWallet then ((users.get? user.id).map User.balanceCents).getD 0
    else user.balanceCents
  { pg with
    users := users
    subscriptions := refillTable pg.subscriptions toSubs
    balanceTx := pg.balanceTx ++ [{
      userId := user.id
      type := .refund
      amountCents := toWallet + (toSubs.map Prod.snd).sum
      balanceAfter := after
      refId := refId
      note := orNone (fullNote note (showGiven toWallet toSubs)) }] }

/-- The statements of `refund_to_sources`. -/
def refundProg (user : User) (breakdown : List Share) (refundCents : ℤ) (refId note : Option Str)
    (now : ℤ) (i : Fin n) (rows : FundsRows n) : RefundPhase → Option (FundsRows n × RefundPhase)
  | .begun =>
      if refundCents ≤ 0 ∨ breakdown.isEmpty then some (rows, .returned none)
      else if walletShare breakdown < refundCents then
        some (rows, .waiting ((activeSubscriptions (rows.view i) user.id now).map (·.id)) now)
      else
        let r := refundSplit [] breakdown refundCents
        some (rows, .split r.1 r.2)
  | .waiting ids asked =>
      (rows.lock i (ids.map .sub)).map fun rows =>
        let active := (lockedSources (rows.view i) ids user.id asked).map Prod.fst
        let r := refundSplit active breakdown refundCents
        (rows, .split r.1 r.2)
  | .split toWallet toSubs =>
      let credit := creditAndLog user toWallet toSubs refId note
      if 0 < toWallet then
        (rows.update i (.user user.id) credit).bind fun rows =>
          ((rows.view i).users.get? user.id).map fun row =>
            (rows, .returned (some row.balanceCents))
      else some (rows.insert i credit, .returned none)
  | .returned _ => none

/-! ### What a charge has done -/

/-- The deductions from subscriptions that a breakdown lists. -/
def subTakes (breakdown : List Share) : List (ℤ × ℤ) :=
  breakdown.filterMap fun share => if share.1 = .sub then some share.2 else none

/-- What a breakdown lists for one subscription. -/
def takenOf (sid : ℤ) (breakdown : List Share) : ℤ :=
  (((subTakes breakdown).filter fun d => d.1 = sid).map Prod.snd).sum

/-- An open transaction that has taken these amounts: the subscriptions it drains are
locked, and were active. -/
structure Took (rows : FundsRows n) (i : Fin n) (ds : List (ℤ × ℤ)) : Prop where
  subs : ∀ pg, (rows.pending i pg).subscriptions = drainTable pg.subscriptions ds
  plans : ∀ pg, (rows.pending i pg).plans = pg.plans
  log : ∀ pg, ∃ logged, (rows.pending i pg).balanceTx = pg.balanceTx ++ logged ∧
    ∀ row ∈ logged, row.type = .consume
  held : ∀ d ∈ ds, rows.holder (.sub d.1) = some i ∧
    ∃ sub, rows.committed.subscriptions.get? d.1 = some sub ∧ sub.status = str "active"

/-- Where a charge stands, it has done this. -/
def ChargeInv (cost : ℤ) (rows : FundsRows n) (i : Fin n) : ChargePhase → Prop
  | .begun | .waiting _ _ => rows.pending i = id
  | .drained held => Took rows i (drain held cost)
  | .returned breakdown _ => Took rows i (subTakes breakdown)

variable {rows rows' : FundsRows n} {i : Fin n} {ds : List (ℤ × ℤ)} {cost : ℤ} {c c' : ChargePhase}

theorem Took.kept (h : Took rows i ds) (hk : RowStore.Kept FundsKey.row i rows rows') :
    Took rows' i ds := by
  refine ⟨?_, ?_, ?_, ?_⟩
  · rw [hk.pending]
    exact h.subs
  · rw [hk.pending]
    exact h.plans
  · rw [hk.pending]
    exact h.log
  · intro d hd
    obtain ⟨hheld, hsub⟩ := h.held d hd
    have hrow : rows'.committed.subscriptions.get? d.1 = rows.committed.subscriptions.get? d.1 :=
      congrArg Prod.snd (hk.row _ hheld)
    rw [hrow]
    exact ⟨hk.holder _ hheld, hsub⟩

theorem took_nil (h : rows.pending i = id) : Took rows i [] := by
  refine ⟨?_, ?_, ?_, fun d hd => nomatch hd⟩
  · intro pg
    rw [h]
    rfl
  · intro pg
    rw [h]
    rfl
  · intro pg
    rw [h]
    exact ⟨[], (List.append_nil _).symm, fun row hrow => nomatch hrow⟩

theorem ChargeInv.kept (h : ChargeInv cost rows i c)
    (hk : RowStore.Kept FundsKey.row i rows rows') : ChargeInv cost rows' i c := by
  cases c with
  | begun => exact hk.pending.trans h
  | waiting ids asked => exact hk.pending.trans h
  | drained held => exact Took.kept h hk
  | returned breakdown after => exact Took.kept h hk

theorem subTakes_takenShares (held : List (ℤ × ℤ)) (cost : ℤ) :
    subTakes (takenShares held cost) = drain held cost := by
  have hsubs : ∀ ds : List (ℤ × ℤ), subTakes (ds.map subShare) = ds := by
    intro ds
    induction ds with
    | nil => rfl
    | cons d ds ih => exact congrArg (d :: ·) ih
  rw [takenShares, subTakes, List.filterMap_append, ← subTakes, hsubs]
  split_ifs <;> simp

theorem mem_lockedSources {pg : Pg} {ids : List ℤ} {uid now : ℤ} {s : ℤ × ℤ}
    (h : s ∈ lockedSources pg ids uid now) :
    s.1 ∈ ids ∧ ∃ sub, pg.subscriptions.get? s.1 = some sub ∧ sub.status = str "active" := by
  obtain ⟨sub, hsub, rfl⟩ := List.mem_map.mp h
  obtain ⟨hfound, hactive⟩ := List.mem_filter.mp hsub
  obtain ⟨id, hid, hget⟩ := List.mem_filterMap.mp hfound
  have heq : sub.id = id := (Table.get?_eq_some.mp hget).2
  rw [heq]
  exact ⟨hid, sub, hget, (Subscription.isActive_iff.mp hactive).2.1⟩

theorem drained_held {held : List (ℤ × ℤ)} {d : ℤ × ℤ} (hd : d ∈ drain held cost) :
    ∃ s ∈ held, s.1 = d.1 := by
  obtain ⟨s, hs, heq, -⟩ := exists_of_mem_drain hd
  exact ⟨s, hs, heq⟩

/-- Only the drained subscriptions change. -/
theorem row_drainSubs {held : List (ℤ × ℤ)} {k : FundsKey} (h : ∀ s ∈ held, k ≠ .sub s.1) (pg : Pg) :
    k.row (drainSubs held cost pg) = k.row pg := by
  cases k with
  | user id => rfl
  | sub id =>
      have hnot : id ∉ held.map Prod.fst := by
        intro hmem
        obtain ⟨s, hs, rfl⟩ := List.mem_map.mp hmem
        exact h s hs rfl
      have hget : (drainTable pg.subscriptions (drain held cost)).get? id =
          pg.subscriptions.get? id := by
        rw [get?_drainTable, filter_drain_eq_nil hnot]
        simp
      exact congrArg (Prod.mk none) hget

/-- Only the row of the user changes, and only if the wallet pays. -/
theorem row_payAndLog {user : User} {fromWallet : ℤ} {bd : List Share} {refId note : Option Str}
    {k : FundsKey} (h : 0 < fromWallet → k ≠ .user user.id) (pg : Pg) :
    k.row (payAndLog user cost fromWallet bd refId note pg) = k.row pg := by
  cases k with
  | sub id => rfl
  | user id =>
      simp only [FundsKey.row, payAndLog]
      split_ifs with hpays
      · have hne : id ≠ user.id := fun heq => h hpays (by rw [heq])
        rw [Table.get?_update_of_ne hne]
      · rfl

private theorem took_pay {rows : FundsRows n} {f : Pg → Pg} (h : Took rows i ds)
    (hpending : rows'.pending i = f ∘ rows.pending i)
    (hsubs : ∀ pg, (f pg).subscriptions = pg.subscriptions) (hplans : ∀ pg, (f pg).plans = pg.plans)
    (hlog : ∀ pg, ∃ row, (f pg).balanceTx = pg.balanceTx ++ [row] ∧ row.type = .consume)
    (hq : rows'.committed = rows.committed)
    (hholder : ∀ k, rows.holder k = some i → rows'.holder k = some i) : Took rows' i ds := by
  refine ⟨?_, ?_, ?_, ?_⟩
  · intro pg
    rw [hpending, Function.comp_apply, hsubs]
    exact h.subs pg
  · intro pg
    rw [hpending, Function.comp_apply, hplans]
    exact h.plans pg
  · intro pg
    obtain ⟨logged, hlogged, hconsume⟩ := h.log pg
    obtain ⟨row, hrow, htype⟩ := hlog (rows.pending i pg)
    rw [hpending, Function.comp_apply, hrow, hlogged, List.append_assoc]
    refine ⟨_, rfl, fun x hx => ?_⟩
    rcases List.mem_append.mp hx with hx | hx
    · exact hconsume x hx
    · rw [List.mem_singleton.mp hx, htype]
  · intro d hd
    rw [hq]
    exact ⟨hholder _ (h.held d hd).1, (h.held d hd).2⟩

/-- **A statement of a charge** publishes nothing, writes only what the charge holds, and
keeps its invariant. -/
theorem chargeProg_spec {user : User} {refId note : Option Str} {now : ℤ}
    (howned : RowStore.Owned FundsKey.row rows) (hinv : ChargeInv cost rows i c)
    (h : chargeProg user cost refId note now i rows c = some (rows', c')) :
    RowStore.Quiet i rows rows' ∧ RowStore.Owned FundsKey.row rows' ∧ ChargeInv cost rows' i c' := by
  cases c with
  | begun =>
      simp only [chargeProg] at h
      split_ifs at h <;> cases h
      · exact ⟨.refl i rows, howned, took_nil hinv⟩
      · exact ⟨.refl i rows, howned, hinv⟩
  | waiting ids asked =>
      obtain ⟨locked, hlock, heq⟩ := Option.map_eq_some_iff.mp h
      cases heq
      have hview : locked.view i = locked.committed :=
        RowStore.view_eq_committed (by rw [RowStore.pending_lock hlock, hinv])
      have hholds : ∀ s ∈ lockedSources (locked.view i) ids user.id asked,
          locked.holder (.sub s.1) = some i := fun s hs =>
        RowStore.holder_lock hlock (List.mem_map_of_mem (mem_lockedSources hs).1)
      refine ⟨(RowStore.quiet_lock hlock).trans (RowStore.quiet_insert ..), ?_, ?_⟩
      · refine (howned.lock hlock).write fun k hk pg => row_drainSubs (fun s hs heq => ?_) pg
        rw [heq] at hk
        exact hk (hholds s hs)
      · have hpending : (locked.insert i (drainSubs (lockedSources (locked.view i) ids user.id asked)
            cost)).pending i = drainSubs (lockedSources (locked.view i) ids user.id asked) cost := by
          rw [RowStore.pending_insert, RowStore.pending_lock hlock, hinv]
          rfl
        refine ⟨?_, ?_, ?_, ?_⟩
        · intro pg
          rw [hpending]
          rfl
        · intro pg
          rw [hpending]
          rfl
        · intro pg
          rw [hpending]
          exact ⟨[], (List.append_nil _).symm, fun row hrow => nomatch hrow⟩
        · intro d hd
          obtain ⟨s, hs, heq⟩ := drained_held hd
          rw [← heq]
          refine ⟨hholds s hs, ?_⟩
          have hsub := (mem_lockedSources hs).2
          rw [hview] at hsub
          exact hsub
  | drained held =>
      have hret : ∀ {pay : ℤ} {rows' : FundsRows n},
          rows'.pending i = payAndLog user cost pay (takenShares held cost) refId note ∘
            rows.pending i →
          rows'.committed = rows.committed →
          (∀ k, rows.holder k = some i → rows'.holder k = some i) →
          Took rows' i (subTakes (takenShares held cost)) := by
        intro pay rows' hpending hq hholder
        rw [subTakes_takenShares]
        exact took_pay hinv hpending (fun _ => rfl) (fun _ => rfl) (fun _ => ⟨_, rfl, rfl⟩) hq hholder
      simp only [chargeProg] at h
      split_ifs at h with hpays
      · obtain ⟨paid, hupd, hrow⟩ := Option.bind_eq_some_iff.mp h
        obtain ⟨row, -, heq⟩ := Option.map_eq_some_iff.mp hrow
        cases heq
        refine ⟨RowStore.quiet_update hupd, howned.update hupd fun k hk pg =>
          row_payAndLog (fun _ => hk) pg, ?_⟩
        refine hret (RowStore.pending_update hupd) (RowStore.committed_update hupd) ?_
        intro k hk
        rw [(RowStore.update_eq_some hupd).2]
        by_cases hkk : k = .user user.id
        · simp [hkk]
        · simpa [Function.update_of_ne hkk] using hk
      · cases h
        refine ⟨RowStore.quiet_insert .., howned.write fun k _ pg =>
          row_payAndLog (fun h => absurd h hpays) pg, ?_⟩
        exact hret RowStore.pending_insert rfl fun _ hk => hk
  | returned breakdown after => cases h

/-! ### One charge alone -/

/-- The subscriptions that a `SELECT` has just found all qualify. -/
theorem lockedSources_active (pg : Pg) (uid now : ℤ) :
    lockedSources pg ((activeSubscriptions pg uid now).map (·.id)) uid now = sources pg uid now := by
  have hfound : ((activeSubscriptions pg uid now).map (·.id)).filterMap pg.subscriptions.get? =
      activeSubscriptions pg uid now := by
    rw [List.filterMap_map]
    refine (List.filterMap_congr fun x hx => ?_).trans List.filterMap_some
    exact (mem_activeSubscriptions.mp hx).1
  have hactive : (activeSubscriptions pg uid now).filter (Subscription.isActive uid now) =
      activeSubscriptions pg uid now :=
    List.filter_eq_self.mpr fun x hx => (mem_activeSubscriptions.mp hx).2
  rw [lockedSources, hfound, hactive, sources]

/-- `charge_user` alone on the tables moves the subscriptions and the wallet as
`chargedPg` says, and returns its breakdown. -/
theorem chargeProg_alone {pg : Pg} {user : User} {cost : ℤ} (refId note : Option Str) (now : ℤ)
    (hc : 0 < cost) (hu : pg.users.get? user.id = some user) :
    (run (fundsStep (chargeProg user cost refId note) fun _ => none)
        (List.replicate 3 (.move (0 : Fin 1) now)) ⟨.idle pg, fun _ => .begun⟩).map
      (fun s => ((s.shared.view 0).subscriptions, (s.shared.view 0).users,
        match s.loc 0 with
        | .returned breakdown _ => breakdown
        | _ => [])) =
    some ((chargedPg (.start pg user none) cost now).subscriptions,
      (chargedPg (.start pg user none) cost now).users, chargedShares pg user.id cost now) := by
  have hsources := lockedSources_active pg user.id now
  by_cases hshort : 0 < shortfall (sources pg user.id now) cost
  · simp [List.replicate, run_cons, fundsStep, Net.step, chargeProg, RowStore.idle, RowStore.view,
      RowStore.lock, RowStore.update, RowStore.insert, not_le.mpr hc, hsources, hshort, hu,
      payAndLog, drainSubs, takenShares, chargedShares, chargedPg, Sess.start]
  · have hzero : shortfall (sources pg user.id now) cost = 0 :=
      le_antisymm (not_lt.mp hshort) (shortfall_nonneg _ hc.le)
    simp [List.replicate, run_cons, fundsStep, Net.step, chargeProg, RowStore.idle, RowStore.view,
      RowStore.lock, RowStore.insert, not_le.mpr hc, hsources, hzero, payAndLog, drainSubs,
      takenShares, chargedShares, chargedPg, Sess.start]
    exact (Table.update_eq_self fun r _ => by simp).symm

/-- What the wallet covers asks no subscription. -/
theorem refundSplit_wallet {breakdown : List Share} {refundCents : ℤ}
    (h : refundCents ≤ walletShare breakdown) (active : List ℤ) :
    refundSplit active breakdown refundCents = (refundCents, []) := by
  simp [refundSplit, min_eq_right h]

/-- `refund_to_sources` alone on the tables moves the subscriptions and the wallet as
`refundSplit` says. -/
theorem refundProg_alone {pg : Pg} {user : User} {breakdown : List Share} {refundCents : ℤ}
    (refId note : Option Str) (now : ℤ) (hr : 0 < refundCents) (hbd : breakdown ≠ [])
    (hu : pg.users.get? user.id = some user) :
    let r := refundSplit ((activeSubscriptions pg user.id now).map (·.id)) breakdown refundCents
    ∃ k, (run (fundsStep (refundProg user breakdown refundCents refId note) fun _ => none)
        (List.replicate k (.move (0 : Fin 1) now)) ⟨.idle pg, fun _ => .begun⟩).map
      (fun s => ((s.shared.view 0).subscriptions, (s.shared.view 0).users)) =
    some (refillTable pg.subscriptions r.2,
      if 0 < r.1 then pg.users.update user.id (User.setBalance (· + r.1)) else pg.users) := by
  intro r
  have hsources := lockedSources_active pg user.id now
  have hids : (sources pg user.id now).map Prod.fst =
      (activeSubscriptions pg user.id now).map (·.id) := by
    rw [sources, List.map_map]
    rfl
  have hbegun : ¬ (refundCents ≤ 0 ∨ breakdown.isEmpty = true) := by
    simp [not_le.mpr hr, hbd]
  by_cases hsubs : walletShare breakdown < refundCents
  · refine ⟨3, ?_⟩
    by_cases hpos : 0 < r.1
    · simp [r, List.replicate, run_cons, fundsStep, Net.step, refundProg, RowStore.idle,
        RowStore.view, RowStore.lock, RowStore.update, not_le.mpr hr, hbd, hsubs, hsources, hids,
        hpos, hu, creditAndLog]
    · simp [r, List.replicate, run_cons, fundsStep, Net.step, refundProg, RowStore.idle,
        RowStore.view, RowStore.lock, RowStore.insert, not_le.mpr hr, hbd, hsubs, hsources, hids,
        hpos, creditAndLog]
  · refine ⟨2, ?_⟩
    have hr₁ : r = (refundCents, []) := refundSplit_wallet (not_lt.mp hsubs) _
    simp [hr₁, refundSplit_wallet (not_lt.mp hsubs), List.replicate, run_cons, fundsStep, Net.step,
      refundProg, RowStore.idle, RowStore.view, RowStore.update, not_le.mpr hr, hbd, hsubs, hr, hu,
      creditAndLog]

end Llmxy
