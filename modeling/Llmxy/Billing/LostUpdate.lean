import Llmxy.Billing.Replay
import Llmxy.Lib.RowLock
import Mathlib.Algebra.BigOperators.Fin
import Mathlib.Algebra.BigOperators.Group.Finset.Basic

/-!
# Concurrent transactions on a wallet

Each operation of `WalletOp` runs as a transaction of four statements as far as the
`users` table is concerned: it loads the row, decides from it and from the other tables
what to write, updates the row, and commits.  `Net.step (walletProg …)` interleaves them
under READ COMMITTED with row locks, and any transaction may be rolled back instead.

What the statements of a transaction see of the other tables is a parameter of the
machine, so it may be anything that the other transactions leave there.

A transaction that adds to the row cannot lose what others commit.  The adjustment
assigns a value it has computed from the row it loaded, and what was committed since is
lost: `lostCents` adds these amounts up along a run.

## Main definitions

* `WalletWrite`, `WalletOp.decide` — the `UPDATE` of the wallet.
* `WalletPhase`, `walletProg`, `walletNetStep` — the transactions.
* `lostCents` — what the adjustments of a run have lost.
* `balance_run` — the wallet after any run.
* `walletUpdates_kept_iff` — when no update is lost.
-/

namespace Llmxy

/-- What a transaction does to the row of the user. -/
inductive WalletWrite where
  /-- There is nothing to update. -/
  | keep
  /-- `balance_cents = balance_cents + d`. -/
  | add (d : ℤ)
  /-- `balance_cents = v`, the flush of an assigned attribute. -/
  | put (v : ℤ)
  deriving DecidableEq

/-- The table after the write. -/
def WalletWrite.apply (uid : ℤ) (w : WalletWrite) (t : Table User) : Table User :=
  match w with
  | .keep => t
  | .add d => t.update uid (User.setBalance (· + d))
  | .put v => t.update uid (User.setBalance fun _ => v)

/-- What the write changes in the balance that the transaction has read. -/
def WalletWrite.delta (user : User) : WalletWrite → ℤ
  | .keep => 0
  | .add d => d
  | .put v => v - user.balanceCents

/-- `UPDATE … + d`, which is only issued for an amount that is positive. -/
def addIfPos (amount d : ℤ) : WalletWrite := if 0 < amount then .add d else .keep

/-- The user whose wallet an operation moves. -/
def WalletOp.owner (pg : Pg) : WalletOp → Option ℤ
  | .charge uid _ _ _ _ _ | .refund uid _ _ _ _ _ _ | .topup uid _ _ _ | .subscribe uid _ _
  | .cancel uid _ _ _ | .adjust uid _ _ => some uid
  | .renew sid _ => (pg.subscriptions.get? sid).map (·.userId)

/-- What a transaction that has loaded its user decides to write, from the tables that its
statements see. -/
def WalletOp.decide (user : User) (pg : Pg) : WalletOp → WalletWrite
  | .charge _ _ cost _ _ now =>
      if cost ≤ 0 then .keep
      else
        let remaining := shortfall (sources pg user.id now) cost
        addIfPos remaining (-remaining)
  | .refund _ _ breakdown cents _ _ now =>
      if cents ≤ 0 ∨ breakdown = [] then .keep
      else
        let walletRefund :=
          (refundSplit ((activeSubscriptions pg user.id now).map (·.id)) breakdown cents).1
        addIfPos walletRefund walletRefund
  | .topup _ amount _ _ => .add amount
  | .subscribe _ planId now =>
      match (subscribeWithBalance user planId now pg).1, pg.plans.get? planId with
      | .ok _ _ _, some plan => addIfPos plan.priceCents (-plan.priceCents)
      | _, _ => .keep
  | .renew sid now =>
      match pg.subscriptions.get? sid with
      | none => .keep
      | some sub =>
          if (renewSubscription sub now pg).1.2 = str "renewed" then
            match pg.plans.get? sub.planId with
            | none => .keep
            | some plan => addIfPos plan.priceCents (-plan.priceCents)
          else .keep
  | .cancel _ sid atPeriodEnd now =>
      match (cancelSubscription user sid atPeriodEnd now pg).1 with
      | .immediate _ amount _ => addIfPos amount amount
      | _ => .keep
  | .adjust _ amount _ =>
      -- the attribute is flushed only if its value has changed
      if adjustedBalance user amount = user.balanceCents then .keep
      else .put (adjustedBalance user amount)

/-- Where a transaction stands. -/
inductive WalletPhase where
  | start
  | loaded (user : User)
  | decided (user : User) (w : WalletWrite)
  | written (user : User) (w : WalletWrite)
  | committed (user : User) (w : WalletWrite)
  | rolledBack
  deriving DecidableEq

variable {n : ℕ}

/-- The shared rows of the user table. -/
abbrev UserRows (n : ℕ) := RowStore ℤ (Fin n) (Table User)

/-- The statements of transaction `i`, where `seen i` is what it sees of the other
tables. -/
def walletProg (ops : Fin n → WalletOp) (seen : Fin n → Pg) (i : Fin n) (rows : UserRows n) :
    WalletPhase → Option (UserRows n × WalletPhase)
  | .start => (((ops i).owner (seen i)).bind (rows.view i).get?).map fun user => (rows, .loaded user)
  | .loaded user =>
      some (rows, .decided user ((ops i).decide user { seen i with users := rows.view i }))
  | .decided user w =>
      if w = .keep then some (rows, .written user w)
      else (rows.update i user.id (w.apply user.id)).map fun rows => (rows, .written user w)
  | .written user w => some (rows.commit i, .committed user w)
  | .committed _ _ | .rolledBack => none

/-- The transactions on one user table. -/
abbrev WalletNet (n : ℕ) := Net (Fin n) (UserRows n) WalletPhase

/-- The next statement of a transaction, or its rollback. -/
inductive TxnLabel (n : ℕ) where
  | move (i : Fin n)
  | rollback (i : Fin n)
  deriving DecidableEq

/-- A transaction that has not ended is rolled back. -/
def rollbackProg (i : Fin n) (rows : UserRows n) : WalletPhase → Option (UserRows n × WalletPhase)
  | .committed _ _ | .rolledBack => none
  | _ => some (rows.rollback i, .rolledBack)

/-- One step of the system. -/
def walletNetStep (ops : Fin n → WalletOp) (seen : Fin n → Pg) (s : WalletNet n) :
    TxnLabel n → Option (WalletNet n)
  | .move i => Net.step (walletProg ops seen) s i
  | .rollback i => Net.step rollbackProg s i

/-- No transaction has begun. -/
def WalletNet.start (t : Table User) : WalletNet n := ⟨.idle t, fun _ => .start⟩

/-- The wallet that new transactions read. -/
def WalletNet.balance (s : WalletNet n) (uid : ℤ) : Option ℤ :=
  (s.shared.committed.get? uid).map User.balanceCents

/-- What a committed transaction was to add to the wallet of `uid`. -/
def WalletPhase.delta (uid : ℤ) : WalletPhase → ℤ
  | .committed user w => if user.id = uid then w.delta user else 0
  | _ => 0

/-- What a step loses for the wallet of `uid`: when an assignment commits, what the
wallet has gained since it was read. -/
def lostBy (uid : ℤ) (s : WalletNet n) : TxnLabel n → ℤ
  | .move i =>
      match s.loc i with
      | .written user (.put _) =>
          if user.id = uid then (s.balance uid).getD 0 - user.balanceCents else 0
      | _ => 0
  | .rollback _ => 0

/-- What the adjustments of a run have overwritten. -/
def lostCents (ops : Fin n → WalletOp) (seen : Fin n → Pg) (uid : ℤ) :
    List (TxnLabel n) → WalletNet n → ℤ
  | [], _ => 0
  | a :: as, s =>
      lostBy uid s a + ((walletNetStep ops seen s a).map (lostCents ops seen uid as)).getD 0

/-! ### The invariant -/

/-- What the commit of a transaction will do. -/
def TxnInv (pending : Table User → Table User) : WalletPhase → Prop
  | .written user w => pending = w.apply user.id
  | _ => pending = id

variable {ops : Fin n → WalletOp} {seen : Fin n → Pg} {s t : WalletNet n} {i j : Fin n} {uid : ℤ}

/-- Every transaction has written what it has decided. -/
def NetInv (s : WalletNet n) : Prop := ∀ i, TxnInv (s.shared.pending i) (s.loc i)

theorem netInv_start (t : Table User) : NetInv (WalletNet.start t : WalletNet n) := fun _ => rfl

/-- A step that publishes nothing. -/
private theorem balance_of_silent {rows : UserRows n} {l : WalletPhase}
    (hinv : NetInv s) (hc : rows.committed = s.shared.committed)
    (hp : ∀ j, j ≠ i → rows.pending j = s.shared.pending j) (hi : TxnInv (rows.pending i) l)
    (hl : l.delta uid = 0) (hs : (s.loc i).delta uid = 0) :
    let t : WalletNet n := ⟨rows, Function.update s.loc i l⟩
    NetInv t ∧ t.balance uid = s.balance uid ∧ ∀ j, (t.loc j).delta uid = (s.loc j).delta uid := by
  refine ⟨fun j => ?_, by rw [WalletNet.balance, hc, WalletNet.balance], fun j => ?_⟩
  · by_cases hj : j = i
    · subst hj
      simpa using hi
    · simpa [Function.update_of_ne hj, hp j hj] using hinv j
  · by_cases hj : j = i
    · subst hj
      simp [hl, hs]
    · simp [Function.update_of_ne hj]

/-- The balance after a write, from the balance before. -/
def WalletWrite.balanceAfter (b : ℤ) : WalletWrite → ℤ
  | .keep => b
  | .add d => b + d
  | .put v => v

theorem get?_apply (w : WalletWrite) (k : ℤ) (t : Table User) :
    ((w.apply k t).get? uid).map User.balanceCents =
      ((t.get? uid).map User.balanceCents).map fun b => if k = uid then w.balanceAfter b else b := by
  by_cases hk : k = uid
  · subst hk
    simp only [if_true]
    cases w with
    | keep => exact Option.map_id'.symm
    | add d =>
        simp only [WalletWrite.apply, Table.get?_update_self, Option.map_map]
        rfl
    | put v =>
        simp only [WalletWrite.apply, Table.get?_update_self, Option.map_map]
        rfl
  · have hne : uid ≠ k := fun h => hk h.symm
    have hsame : (w.apply k t).get? uid = t.get? uid := by
      cases w with
      | keep => rfl
      | add d => exact Table.get?_update_of_ne hne
      | put v => exact Table.get?_update_of_ne hne
    simp only [if_neg hk, hsame]
    exact Option.map_id'.symm

/-- What a write of the row makes of its balance is its delta, less what has been gained
since the row was read. -/
theorem balanceAfter_eq (w : WalletWrite) (user : User) (b : ℤ) :
    w.balanceAfter b = b + w.delta user -
      (match w with | .put _ => b - user.balanceCents | _ => 0) := by
  cases w with
  | keep => simp [WalletWrite.balanceAfter, WalletWrite.delta]
  | add d => simp [WalletWrite.balanceAfter, WalletWrite.delta]
  | put v =>
      simp only [WalletWrite.balanceAfter, WalletWrite.delta]
      omega

/-- **One step** changes the wallet by the delta of the transaction that commits, less
what it overwrites. -/
theorem balance_step {a : TxnLabel n} {b : ℤ} (hinv : NetInv s) (hb : s.balance uid = some b)
    (h : walletNetStep ops seen s a = some t) :
    NetInv t ∧ t.balance uid = some (b + (∑ j, (t.loc j).delta uid - ∑ j, (s.loc j).delta uid) -
      lostBy uid s a) := by
  have hsilent : ∀ {i : Fin n} {rows : UserRows n} {l : WalletPhase},
      rows.committed = s.shared.committed → (∀ j, j ≠ i → rows.pending j = s.shared.pending j) →
      TxnInv (rows.pending i) l → l.delta uid = 0 → (s.loc i).delta uid = 0 →
      lostBy uid s a = 0 →
      let t : WalletNet n := ⟨rows, Function.update s.loc i l⟩
      NetInv t ∧ t.balance uid =
        some (b + (∑ j, (t.loc j).delta uid - ∑ j, (s.loc j).delta uid) - lostBy uid s a) := by
    intro i rows l hc hp hi hl hs hlost
    obtain ⟨hinv', hbal, hdelta⟩ := balance_of_silent hinv hc hp hi hl hs
    refine ⟨hinv', ?_⟩
    rw [hbal, hb, Finset.sum_congr rfl fun j _ => hdelta j, hlost]
    simp
  cases a with
  | rollback i =>
      obtain ⟨rows, l, hprog, rfl⟩ := Net.step_eq_some.mp h
      cases hl : s.loc i with
      | committed user w =>
          rw [hl] at hprog
          cases hprog
      | rolledBack =>
          rw [hl] at hprog
          cases hprog
      | _ =>
          rw [hl] at hprog
          cases hprog
          exact hsilent rfl (fun j hj => RowStore.pending_rollback_other hj)
            RowStore.pending_rollback rfl (by rw [hl]; rfl) rfl
  | move i =>
      obtain ⟨rows, l, hprog, rfl⟩ := Net.step_eq_some.mp h
      have hi := hinv i
      cases hl : s.loc i with
      | start =>
          rw [hl] at hprog hi
          obtain ⟨user, -, heq⟩ := Option.map_eq_some_iff.mp hprog
          cases heq
          exact hsilent rfl (fun _ _ => rfl) hi rfl (by rw [hl]; rfl) (by simp [lostBy, hl])
      | loaded user =>
          rw [hl] at hprog hi
          cases hprog
          exact hsilent rfl (fun _ _ => rfl) hi rfl (by rw [hl]; rfl) (by simp [lostBy, hl])
      | decided user w =>
          rw [hl] at hprog hi
          simp only [walletProg] at hprog
          split_ifs at hprog with hkeep
          · cases hprog
            subst hkeep
            exact hsilent rfl (fun _ _ => rfl) hi rfl (by rw [hl]; rfl) (by simp [lostBy, hl])
          · obtain ⟨rows', hupd, heq⟩ := Option.map_eq_some_iff.mp hprog
            cases heq
            refine hsilent (RowStore.committed_update hupd)
              (fun j hj => RowStore.pending_update_other hupd hj) ?_ rfl (by rw [hl]; rfl)
              (by simp [lostBy, hl])
            rw [TxnInv, RowStore.pending_update hupd, hi]
            rfl
      | written user w =>
          rw [hl] at hprog hi
          cases hprog
          refine ⟨fun j => ?_, ?_⟩
          · by_cases hj : j = i
            · subst hj
              simp [TxnInv]
            · simpa [Function.update_of_ne hj, RowStore.pending_commit_other hj] using hinv j
          · have hbal : WalletNet.balance ⟨s.shared.commit i, Function.update s.loc i
                (.committed user w)⟩ uid = some (if user.id = uid then w.balanceAfter b else b) := by
              rw [WalletNet.balance, RowStore.committed_commit, hi, get?_apply]
              rw [WalletNet.balance] at hb
              rw [hb, Option.map_some]
            rw [hbal, Net.sum_update (by rw [hl]; rfl), add_sub_cancel_left]
            congr 1
            by_cases hu : user.id = uid
            · rw [if_pos hu, balanceAfter_eq w user b]
              cases w <;> simp [lostBy, hl, hu, hb, WalletPhase.delta]
            · rw [if_neg hu]
              cases w <;> simp [lostBy, hl, hu, WalletPhase.delta]
      | committed user w =>
          rw [hl] at hprog
          cases hprog
      | rolledBack =>
          rw [hl] at hprog
          cases hprog

/-- **The wallet after any run** is what it was, plus what the committed transactions were
to add, less what the adjustments have overwritten. -/
theorem balance_run {as : List (TxnLabel n)} :
    ∀ {s t : WalletNet n} {b : ℤ}, NetInv s → s.balance uid = some b →
      run (walletNetStep ops seen) as s = some t →
      t.balance uid = some (b + (∑ j, (t.loc j).delta uid - ∑ j, (s.loc j).delta uid) -
        lostCents ops seen uid as s) := by
  induction as with
  | nil =>
      intro s t b _ hb hrun
      cases hrun
      rw [hb, lostCents]
      simp
  | cons a as ih =>
      intro s t b hinv hb hrun
      obtain ⟨s', hstep, hrun⟩ := run_cons_eq_some.mp hrun
      obtain ⟨hinv', hb'⟩ := balance_step hinv hb hstep
      rw [ih hinv' hb' hrun, lostCents, hstep, Option.map_some, Option.getD_some]
      congr 1
      omega

/-- **No wallet update is lost** exactly when what the adjustments have overwritten adds
up to nothing. -/
theorem walletUpdates_kept_iff {t : Table User} {user : User}
    (huser : t.get? user.id = some user) {as : List (TxnLabel n)} {s : WalletNet n}
    (hrun : run (walletNetStep ops seen) as (WalletNet.start t) = some s) :
    s.balance user.id = some (user.balanceCents + ∑ i, (s.loc i).delta user.id) ↔
      lostCents ops seen user.id as (WalletNet.start t) = 0 := by
  have hb : (WalletNet.start t : WalletNet n).balance user.id = some user.balanceCents := by
    show (t.get? user.id).map User.balanceCents = _
    rw [huser, Option.map_some]
  have hzero : ∑ i, ((WalletNet.start t : WalletNet n).loc i).delta user.id = 0 :=
    Finset.sum_eq_zero fun i _ => rfl
  rw [balance_run (netInv_start t) hb hrun, hzero, sub_zero, Option.some.injEq]
  omega

/-- An admin adds 20 cents to a wallet of 5 while a top-up of 30 commits. -/
def adjustDuringTopup : Fin 2 → WalletOp := ![.adjust 1 20 none, .topup 1 30 none none]

/-- The adjustment runs before the top-up: nothing is lost. -/
def adjustedFirst : WalletNet 2 :=
  (run (walletNetStep adjustDuringTopup fun _ => oneSubPg 5 0)
    [.move 0, .move 0, .move 0, .move 0, .move 1, .move 1, .move 1, .move 1]
    (WalletNet.start (.single (userOne 5)))).get (by decide)

theorem walletUpdates_kept_adjustedFirst :
    adjustedFirst.balance 1 = some (5 + ∑ i, (adjustedFirst.loc i).delta 1) :=
  (@walletUpdates_kept_iff 2 adjustDuringTopup (fun _ => oneSubPg 5 0) (.single (userOne 5))
    (userOne 5) (by decide) _ _ (Option.some_get (by decide)).symm).mpr (by decide)

/-- The adjustment loads the row before the top-up commits: the wallet ends at 25, not at
55. -/
theorem adjust_overwrites_topup :
    (run (walletNetStep adjustDuringTopup fun _ => oneSubPg 5 0)
        [.move 0, .move 1, .move 1, .move 1, .move 1, .move 0, .move 0, .move 0]
        (WalletNet.start (.single (userOne 5)))).map
      (fun s => (WalletNet.balance s 1, 5 + ∑ i, (s.loc i).delta 1)) = some (some 25, 55) := by
  decide

/-! ### One transaction alone -/

section
variable {pg after : Pg} {user : User}

theorem users_addIfPos (t : Table User) (k : ℤ) {amount d : ℤ} (h : amount ≤ 0 → d = 0) :
    (addIfPos amount d).apply k t = t.update k (User.setBalance (· + d)) := by
  unfold addIfPos
  split_ifs with hpos
  · rfl
  · rw [h (not_lt.mp hpos), WalletWrite.apply, Table.update_eq_self]
    intro r _
    simp

theorem users_renew {sid now : ℤ} {sub : Subscription} (hsub : pg.subscriptions.get? sid = some sub)
    (huser : pg.users.get? sub.userId = some user) :
    (renewSubscription sub now pg).2.users =
      ((WalletOp.renew sid now).decide user pg).apply user.id pg.users := by
  have hid : user.id = sub.userId := (Table.get?_eq_some.mp huser).2
  simp only [WalletOp.decide, hsub]
  rcases renewSubscription_cases sub now pg with ⟨sub', hres, -, -, -, -, hreason⟩ |
    ⟨plan, user', hplan, -, hres⟩
  · rw [if_neg hreason, hres]
    rfl
  · rw [hres, if_pos rfl, hplan, hid]
    simp only [payRenewal, addIfPos]
    split_ifs <;> rfl

theorem users_cancel {sid now : ℤ} {atPeriodEnd : Bool} :
    (cancelSubscription user sid atPeriodEnd now pg).2.users =
      ((WalletOp.cancel user.id sid atPeriodEnd now).decide user pg).apply user.id pg.users := by
  simp only [WalletOp.decide]
  unfold cancelSubscription
  cases (pg.subscriptions.get? sid).filter (·.userId = user.id) with
  | none => rfl
  | some sub =>
      dsimp only
      split_ifs with hconflict hend hscheduled hrefund
      · rfl
      · rfl
      · rfl
      · simp only [addIfPos, if_pos hrefund]
        rfl
      · simp only [addIfPos, if_neg hrefund]
        rfl

theorem users_subscribe {planId now : ℤ} :
    (subscribeWithBalance user planId now pg).2.users =
      ((WalletOp.subscribe user.id planId now).decide user pg).apply user.id pg.users := by
  simp only [WalletOp.decide]
  unfold subscribeWithBalance
  cases hplan : (pg.plans.get? planId).filter (·.active) with
  | none => rfl
  | some plan =>
      have hrow : pg.plans.get? planId = some plan := (Option.filter_eq_some_iff.mp hplan).1
      dsimp only
      cases (pg.subscriptions.select fun s =>
          s.isOpen user.id now && s.planId = plan.id).head? with
      | some existing => rfl
      | none =>
          dsimp only
          cases purchaseLimitReached pg user plan with
          | some limit => rfl
          | none =>
              dsimp only
              split_ifs with hshort hprice
              · rfl
              · simp only [hrow, addIfPos, if_pos hprice]
                rfl
              · simp only [hrow, addIfPos, if_neg hprice]
                rfl

/-- What is committed for the user whose row is read first. -/
theorem committed_of_user {uid : ℤ} {f : User → Pg}
    (h : ((pg.users.get? uid).bind fun user => pg.commitTo (f user)) = some after)
    (huser : pg.users.get? uid = some user) : after = f user := by
  rw [huser] at h
  exact commitTo_eq_some h

/-- **The write a transaction decides on** is what the operation alone does to the
wallets. -/
theorem users_exec {op : WalletOp} (hexec : op.exec pg = some after)
    (howner : (op.owner pg).bind pg.users.get? = some user) :
    after.users = (op.decide user pg).apply user.id pg.users := by
  cases op with
  | charge uid kid cost refId note now =>
      obtain ⟨⟨bd, after'⟩, htxn, heq⟩ := Option.map_eq_some_iff.mp hexec
      cases heq
      have hid : user.id = uid := (Table.get?_eq_some.mp howner).2
      subst hid
      by_cases hc : 0 < cost
      · obtain ⟨-, -, -, -, husers, -⟩ := chargeTxn_logs hc htxn
        have hnn := shortfall_nonneg (sources pg user.id now) hc.le
        rw [husers, WalletOp.decide, if_neg (not_le.mpr hc)]
        refine Eq.trans ?_ (users_addIfPos pg.users user.id fun hle => ?_).symm
        · simp only [sub_eq_add_neg]
        · omega
      · obtain ⟨-, husers, -, -⟩ := chargeTxn_of_nonpos (not_lt.mp hc) htxn
        rw [husers, WalletOp.decide, if_pos (not_lt.mp hc)]
        rfl
  | refund uid kid breakdown cents refId note now =>
      obtain ⟨⟨m, after'⟩, htxn, heq⟩ := Option.map_eq_some_iff.mp hexec
      cases heq
      have hid : user.id = uid := (Table.get?_eq_some.mp howner).2
      subst hid
      by_cases hc : cents ≤ 0 ∨ breakdown = []
      · rw [(refundTxn_of_nothing hc htxn).1, WalletOp.decide, if_pos hc]
        rfl
      · obtain ⟨hpos, hbd⟩ := not_or.mp hc
        obtain ⟨-, -, -, husers, -⟩ := refundTxn_logs (not_le.mp hpos) hbd htxn
        rw [husers, WalletOp.decide, if_neg hc]
        simp only [addIfPos]
        split_ifs <;> rfl
  | topup uid amount refId note =>
      rw [committed_of_user hexec howner]
      rfl
  | subscribe uid planId now =>
      rw [committed_of_user hexec howner]
      exact users_subscribe
  | renew sid now =>
      obtain ⟨sub, hsub, hcommit⟩ := Option.bind_eq_some_iff.mp hexec
      simp only [WalletOp.owner, hsub, Option.map_some, Option.bind_some] at howner
      rw [commitTo_eq_some hcommit]
      exact users_renew hsub howner
  | cancel uid sid atPeriodEnd now =>
      rw [committed_of_user hexec howner]
      exact users_cancel
  | adjust uid amount note =>
      rw [committed_of_user hexec howner, WalletOp.decide]
      split_ifs with hsame
      · show pg.users.update _ _ = pg.users
        rw [hsame]
        apply Table.update_eq_self
        intro r hr
        have hid : user.id = uid := (Table.get?_eq_some.mp howner).2
        rw [hid] at hr
        have heq : some user = some r := howner.symm.trans hr
        cases heq
        rfl
      · rfl

/-- A transaction alone leaves the wallets as the operation does. -/
theorem walletProg_alone {op : WalletOp} (hexec : op.exec pg = some after)
    (howner : (op.owner pg).bind pg.users.get? = some user) :
    (run (walletNetStep (fun _ : Fin 1 => op) fun _ => pg)
        [.move 0, .move 0, .move 0, .move 0] (WalletNet.start pg.users)).map
      (·.shared.committed) = some after.users := by
  rw [users_exec hexec howner]
  by_cases hkeep : op.decide user pg = .keep
  · simp [run_cons, walletNetStep, Net.step, walletProg, WalletNet.start, RowStore.view,
      RowStore.idle, RowStore.commit, howner, hkeep, WalletWrite.apply]
  · simp [run_cons, walletNetStep, Net.step, walletProg, WalletNet.start, RowStore.view,
      RowStore.idle, RowStore.commit, RowStore.update, howner, hkeep]

end

end Llmxy
