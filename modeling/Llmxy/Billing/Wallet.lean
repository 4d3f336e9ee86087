import Llmxy.Billing.Charge
import Llmxy.Billing.Credit
import Llmxy.Lib.Machine

/-!
# Everything that moves a wallet

The endpoints of `api.v1.plans`, `api.v1.subscriptions` and `api.v1.admin.users` that
write `balance_cents`, the renewal of `app.services.billing`, and the two transactions
of a session, as operations on the tables.  The row a request loads is read from the
tables it is applied to, and `none` is a transaction that commits nothing: the request
was refused, a row is gone, or PostgreSQL rejected a row of the balance log.

Each of the seven changes the wallet by an `UPDATE` that adds to the column, except the
admin's adjustment, which assigns the clamped sum it has computed.

## Main definitions

* `moveWallet` — add to a wallet, with the `BalanceTx` row that says so.
* `renewSubscription`, `cancelSubscription`, `subscribeWithBalance`, `adjustBalance`.
* `WalletOp`, `WalletOp.exec` — the seven operations.
-/

namespace Llmxy

/-- Add an amount to the wallet, which may be negative, with its `BalanceTx` row. -/
def moveWallet (userId : ℤ) (type : BalanceTxType) (amount : ℤ) (refId note : Option Str)
    (pg : Pg) : Pg :=
  let users := pg.users.update userId (User.setBalance (· + amount))
  { pg with
    users := users
    balanceTx := pg.balanceTx ++ [{
      userId := userId
      type := type
      amountCents := amount
      balanceAfter := ((users.get? userId).map User.balanceCents).getD 0
      refId := refId
      note := note }] }

theorem topupWallet_eq (userId amount : ℤ) (refId note : Option Str) (pg : Pg) :
    topupWallet userId amount refId note pg = moveWallet userId .topup amount refId note pg := rfl

/-- The row that a movement of a wallet logs. -/
theorem balanceTx_moveWallet (userId : ℤ) (type : BalanceTxType) (amount : ℤ)
    (refId note : Option Str) (pg : Pg) :
    ∃ row, (moveWallet userId type amount refId note pg).balanceTx = pg.balanceTx ++ [row] ∧
      row.type = type ∧ row.refId = refId :=
  ⟨_, rfl, rfl, rfl⟩

/-- Write a loaded subscription back. -/
def Pg.saveSub (pg : Pg) (sub : Subscription) : Pg :=
  { pg with subscriptions := pg.subscriptions.update sub.id sub.save }

/-! ### Renewal -/

/-- `sub.status = "expired"`, with the reason in `last_renewal_error`. -/
def Subscription.expire (reason : Option Str) (sub : Subscription) : Subscription :=
  { sub with status := str "expired", lastRenewalError := reason }

/-- The next period of a subscription, with the full quota. -/
def Subscription.renew (plan : Plan) (now : ℤ) (sub : Subscription) : Subscription :=
  { sub with
    currentPeriodStart := sub.currentPeriodEnd
    currentPeriodEnd := nextMonthStart sub.currentPeriodEnd
    remainingCents := plan.quotaCents
    status := str "active"
    lastRenewalAt := some now
    lastRenewalError := none }

/-- What the wallet pays for a renewal. -/
def payRenewal (sub : Subscription) (plan : Plan) (pg : Pg) : Pg :=
  if 0 < plan.priceCents then
    moveWallet sub.userId .consume (-plan.priceCents) (some (str "sub#" ++ showInt sub.id))
      (some (str "plan " ++ plan.code ++ str " renewal")) pg
  else pg

/-- Attempt to renew a subscription whose period has ended.  A subscription that is not
renewed is closed, or past due while the wallet is short. -/
def renewSubscription (sub : Subscription) (now : ℤ) (pg : Pg) : (Bool × Str) × Pg :=
  match pg.plans.get? sub.planId with
  | none => ((false, str "plan deleted"), pg.saveSub (sub.expire (some (str "plan deleted"))))
  | some plan =>
      if sub.cancelAtPeriodEnd then
        ((true, str "canceled at period end"), pg.saveSub { sub with
          status := str "expired"
          canceledAt := some (sub.canceledAt.getD now)
          remainingCents := 0 })
      else if plan.planType = str "one_time" then
        ((true, str "one-time plan expired"),
          pg.saveSub { sub.expire none with remainingCents := 0 })
      else
        match (pg.users.get? sub.userId).filter (·.status = .active) with
        | none =>
            ((false, str "user inactive"), pg.saveSub (sub.expire (some (str "user inactive"))))
        | some user =>
            let price := plan.priceCents
            let balance := user.balanceCents
            if balance < price then
              let reason := str "insufficient balance (" ++ showInt balance ++ str " < " ++
                showInt price ++ str ")"
              ((false, reason), pg.saveSub { sub with
                status := str "past_due"
                remainingCents := 0
                lastRenewalError := some reason })
            else ((true, str "renewed"), (payRenewal sub plan pg).saveSub (sub.renew plan now))

/-- The two outcomes of a renewal: the subscription is closed or past due, or its period
is paid and renewed. -/
theorem renewSubscription_cases (sub : Subscription) (now : ℤ) (pg : Pg) :
    (∃ sub', (renewSubscription sub now pg).2 = pg.saveSub sub' ∧ sub'.id = sub.id ∧
      sub'.userId = sub.userId ∧
      (sub'.remainingCents = sub.remainingCents ∨ sub'.remainingCents = 0) ∧
      sub'.status ≠ str "active" ∧ (renewSubscription sub now pg).1.2 ≠ str "renewed") ∨
    ∃ plan user, pg.plans.get? sub.planId = some plan ∧ pg.users.get? sub.userId = some user ∧
      renewSubscription sub now pg =
        ((true, str "renewed"), (payRenewal sub plan pg).saveSub (sub.renew plan now)) := by
  have hexpired : str "expired" ≠ str "active" := by decide
  have hpastDue : str "past_due" ≠ str "active" := by decide
  have hdeleted : str "plan deleted" ≠ str "renewed" := by decide
  have hcanceled : str "canceled at period end" ≠ str "renewed" := by decide
  have honeTime : str "one-time plan expired" ≠ str "renewed" := by decide
  have hinactive : str "user inactive" ≠ str "renewed" := by decide
  unfold renewSubscription
  cases hplan : pg.plans.get? sub.planId with
  | none => exact Or.inl ⟨_, rfl, rfl, rfl, Or.inl rfl, hexpired, hdeleted⟩
  | some plan =>
      dsimp only
      by_cases hcancel : sub.cancelAtPeriodEnd = true
      · rw [if_pos hcancel]
        exact Or.inl ⟨_, rfl, rfl, rfl, Or.inr rfl, hexpired, hcanceled⟩
      · rw [if_neg hcancel]
        by_cases hone : plan.planType = str "one_time"
        · rw [if_pos hone]
          exact Or.inl ⟨_, rfl, rfl, rfl, Or.inr rfl, hexpired, honeTime⟩
        · rw [if_neg hone]
          cases huser : (pg.users.get? sub.userId).filter (·.status = .active) with
          | none => exact Or.inl ⟨_, rfl, rfl, rfl, Or.inl rfl, hexpired, hinactive⟩
          | some user =>
              dsimp only
              by_cases hshort : user.balanceCents < plan.priceCents
              · rw [if_pos hshort]
                refine Or.inl ⟨_, rfl, rfl, rfl, Or.inr rfl, hpastDue, ?_⟩
                intro h
                exact absurd (congrArg List.head? h) (by simp [str])
              · rw [if_neg hshort]
                exact Or.inr ⟨plan, user, rfl, (Option.filter_eq_some_iff.mp huser).1, rfl⟩

/-! ### Cancelling -/

/-- The answers of a cancellation. -/
inductive CancelResponse where
  | notFound
  | conflict (status : Str)
  | alreadyScheduled (subscriptionId currentPeriodEnd : ℤ)
  | scheduled (subscriptionId currentPeriodEnd : ℤ)
  | immediate (subscriptionId refundCents balanceCents : ℤ)
  deriving DecidableEq

/-- The price of the unused share of the quota. -/
def prorated (plan : Option Plan) (remainingCents : ℤ) : ℤ :=
  match plan with
  | none => 0
  | some plan =>
      if 0 < plan.priceCents && 0 < plan.quotaCents then
        max 0 (min (plan.priceCents * remainingCents / plan.quotaCents) plan.priceCents)
      else 0

/-- Cancel a subscription of the user: at the end of the period, or now with a refund
of the unused quota to the wallet. -/
def cancelSubscription (user : User) (subId : ℤ) (atPeriodEnd : Bool) (now : ℤ) (pg : Pg) :
    CancelResponse × Pg :=
  match (pg.subscriptions.get? subId).filter (·.userId = user.id) with
  | none => (.notFound, pg)
  | some sub =>
      if sub.status ≠ str "active" && sub.status ≠ str "past_due" then (.conflict sub.status, pg)
      else if atPeriodEnd then
        if sub.cancelAtPeriodEnd then (.alreadyScheduled sub.id sub.currentPeriodEnd, pg)
        else
          (.scheduled sub.id sub.currentPeriodEnd,
            pg.saveSub { sub with cancelAtPeriodEnd := true, canceledAt := some now })
      else
        let plan := pg.plans.get? sub.planId
        let refund := prorated plan sub.remainingCents
        let pg := pg.saveSub { sub with
          status := str "canceled"
          cancelAtPeriodEnd := true
          canceledAt := some now
          remainingCents := 0
          currentPeriodEnd := now }
        if 0 < refund then
          (.immediate sub.id refund (user.balanceCents + refund),
            moveWallet user.id .refund refund (some (showInt sub.id))
              (some (str "refund sub#" ++ showInt sub.id ++ str " plan " ++
                (plan.map Plan.code).getD [])) pg)
        else (.immediate sub.id refund user.balanceCents, pg)

/-- A cancellation writes an open row, and may refund. -/
theorem cancelSubscription_cases (user : User) (subId : ℤ) (atPeriodEnd : Bool) (now : ℤ)
    (pg : Pg) :
    (cancelSubscription user subId atPeriodEnd now pg).2 = pg ∨
    ∃ sub sub', pg.subscriptions.get? subId = some sub ∧
      (sub.status = str "active" ∨ sub.status = str "past_due") ∧
      ((cancelSubscription user subId atPeriodEnd now pg).2 = pg.saveSub sub' ∨
        ∃ cents refId note, (cancelSubscription user subId atPeriodEnd now pg).2 =
          moveWallet user.id .refund cents refId note (pg.saveSub sub')) ∧
      sub'.id = sub.id ∧
      (sub'.remainingCents = sub.remainingCents ∨ sub'.remainingCents = 0) := by
  unfold cancelSubscription
  cases hsub : (pg.subscriptions.get? subId).filter (·.userId = user.id) with
  | none => exact Or.inl rfl
  | some sub =>
      have hget : pg.subscriptions.get? subId = some sub := (Option.filter_eq_some_iff.mp hsub).1
      dsimp only
      split_ifs with hclosed hend hscheduled hrefund
      · exact Or.inl rfl
      · exact Or.inl rfl
      all_goals
        have hopen : sub.status = str "active" ∨ sub.status = str "past_due" := by
          simp only [Bool.and_eq_true, decide_eq_true_eq] at hclosed
          tauto
      · exact Or.inr ⟨sub, _, hget, hopen, Or.inl rfl, rfl, Or.inl rfl⟩
      · exact Or.inr ⟨sub, _, hget, hopen, Or.inr ⟨_, _, _, rfl⟩, rfl, Or.inr rfl⟩
      · exact Or.inr ⟨sub, _, hget, hopen, Or.inl rfl, rfl, Or.inr rfl⟩

/-! ### Subscribing -/

/-- The answers of a subscription paid from the wallet. -/
inductive SubscribeResponse where
  | planNotFound
  | alreadySubscribed (subscriptionId currentPeriodEnd : ℤ)
  | purchaseLimitReached (used limit : ℤ)
  | insufficientBalance (balanceCents priceCents shortfallCents planId : ℤ)
  | ok (orderId subscriptionId balanceCents : ℤ)
  deriving DecidableEq

/-- How often the user has bought the plan, when that is limited and used up. -/
def purchaseLimitReached (pg : Pg) (user : User) (plan : Plan) : Option (ℤ × ℤ) :=
  if plan.planType = str "one_time" then
    plan.maxPurchasesPerUser.bind fun limit =>
      let used : ℤ := (pg.subscriptions.select fun s =>
        s.userId = user.id && s.planId = plan.id).length
      if limit ≤ used then some (used, limit) else none
  else none

/-- The order row of a plan paid from the wallet. -/
def walletOrder (user : User) (plan : Plan) (now oid : ℤ) : Order where
  id := oid
  userId := user.id
  planId := some plan.id
  amountCents := plan.priceCents
  channel := .manual
  status := .paid
  providerOrderId := some (str "wallet-" ++ showInt user.id)
  paidAt := some now

/-- Subscribe to a plan by deducting its price from the wallet. -/
def subscribeWithBalance (user : User) (planId now : ℤ) (pg : Pg) : SubscribeResponse × Pg :=
  match (pg.plans.get? planId).filter (·.active) with
  | none => (.planNotFound, pg)
  | some plan =>
      match (pg.subscriptions.select fun s => s.isOpen user.id now && s.planId = plan.id).head? with
      | some existing => (.alreadySubscribed existing.id existing.currentPeriodEnd, pg)
      | none =>
          match purchaseLimitReached pg user plan with
          | some (used, limit) => (.purchaseLimitReached used limit, pg)
          | none =>
              let price := plan.priceCents
              let balance := user.balanceCents
              if 0 < price && balance < price then
                (.insufficientBalance balance price (price - balance) plan.id, pg)
              else
                let orderId := pg.orders.nextId
                let refId := some (showInt orderId)
                let orders := pg.orders.insert (walletOrder user plan now) fun _ => rfl
                let pg := { pg with orders := orders }
                let subId := pg.subscriptions.nextId
                if 0 < price then
                  let pg := moveWallet user.id .consume (-price) refId
                    (some (str "plan " ++ plan.code ++ str " sub (wallet)")) pg
                  (.ok orderId subId (balance - price), grantSubscription
                    { user with balanceCents := balance - price } plan refId now pg)
                else (.ok orderId subId balance, grantSubscription user plan refId now pg)

/-- The order of a subscription, placed. -/
def placeWalletOrder (user : User) (plan : Plan) (now : ℤ) (pg : Pg) : Pg :=
  { pg with orders := pg.orders.insert (walletOrder user plan now) fun _ => rfl }

/-- What the wallet pays for a subscription. -/
def paySubscription (user : User) (plan : Plan) (refId : Option Str) (pg : Pg) : Pg :=
  if 0 < plan.priceCents then
    moveWallet user.id .consume (-plan.priceCents) refId
      (some (str "plan " ++ plan.code ++ str " sub (wallet)")) pg
  else pg

/-- A payment leaves the other tables and the ids of the users. -/
theorem paySubscription_frame (user : User) (plan : Plan) (refId : Option Str) (pg : Pg) :
    (paySubscription user plan refId pg).subscriptions = pg.subscriptions ∧
    (paySubscription user plan refId pg).plans = pg.plans ∧
    (paySubscription user plan refId pg).orders = pg.orders ∧
    ∀ uid, ((paySubscription user plan refId pg).users.get? uid).isSome =
      (pg.users.get? uid).isSome := by
  unfold paySubscription
  split_ifs
  · exact ⟨rfl, rfl, rfl, fun uid => Table.isSome_get?_update _ _ _ _⟩
  · exact ⟨rfl, rfl, rfl, fun _ => rfl⟩

/-- The two outcomes of a subscription: the request is refused, or every check has passed
and the plan is ordered, paid and granted. -/
theorem subscribeWithBalance_cases (user : User) (planId now : ℤ) (pg : Pg) :
    (subscribeWithBalance user planId now pg).2 = pg ∨
    ∃ plan payer, pg.plans.get? planId = some plan ∧
      pg.subscriptions.select (fun s => s.isOpen user.id now && s.planId = plan.id) = [] ∧
      purchaseLimitReached pg user plan = none ∧
      (0 < plan.priceCents → plan.priceCents ≤ user.balanceCents) ∧
      payer.id = user.id ∧
      (subscribeWithBalance user planId now pg).2 =
        grantSubscription payer plan (some (showInt pg.orders.nextId)) now
          (paySubscription user plan (some (showInt pg.orders.nextId))
            (placeWalletOrder user plan now pg)) := by
  unfold subscribeWithBalance
  cases hplan : (pg.plans.get? planId).filter (·.active) with
  | none => exact Or.inl rfl
  | some plan =>
      dsimp only
      cases hopen : pg.subscriptions.select fun s =>
          s.isOpen user.id now && s.planId = plan.id with
      | cons existing rest => exact Or.inl rfl
      | nil =>
          dsimp only [List.head?_nil]
          cases hlimit : purchaseLimitReached pg user plan with
          | some limit => exact Or.inl rfl
          | none =>
              dsimp only
              split_ifs with hshort hprice
              · exact Or.inl rfl
              · refine Or.inr ⟨plan, { user with balanceCents := user.balanceCents - plan.priceCents },
                  (Option.filter_eq_some_iff.mp hplan).1, hopen, hlimit, ?_, rfl, ?_⟩
                · intro _
                  simpa [hprice] using hshort
                · rw [paySubscription, if_pos hprice]
                  rfl
              · refine Or.inr ⟨plan, user, (Option.filter_eq_some_iff.mp hplan).1, hopen, hlimit,
                  fun h => absurd h hprice, rfl, ?_⟩
                rw [paySubscription, if_neg hprice]
                rfl

/-! ### Adjusting -/

/-- What an adjustment makes of a wallet. -/
def adjustedBalance (user : User) (amountCents : ℤ) : ℤ := max (user.balanceCents + amountCents) 0

/-- The row an adjustment logs. -/
def adjustRow (user : User) (amountCents : ℤ) (note : Option Str) : BalanceTx where
  userId := user.id
  type := if 0 ≤ amountCents then .grant else .refund
  amountCents := amountCents
  balanceAfter := adjustedBalance user amountCents
  refId := none
  note := some ((note.bind orNone).getD (str "admin adjust"))

/-- The admin's adjustment: the sum is computed from the loaded row, kept from going
negative, and assigned. -/
def adjustBalance (user : User) (amountCents : ℤ) (note : Option Str) (pg : Pg) : Pg :=
  { pg with
    users := pg.users.update user.id (User.setBalance fun _ => adjustedBalance user amountCents)
    balanceTx := pg.balanceTx ++ [adjustRow user amountCents note] }

/-! ### The operations -/

/-- The operations that move a wallet, each with its request and its time. -/
inductive WalletOp where
  | charge (uid : ℤ) (kid : Option ℤ) (cost : ℤ) (refId note : Option Str) (now : ℤ)
  | refund (uid : ℤ) (kid : Option ℤ) (breakdown : List Share) (refundCents : ℤ)
      (refId note : Option Str) (now : ℤ)
  | topup (uid amount : ℤ) (refId note : Option Str)
  | subscribe (uid planId now : ℤ)
  | renew (sid now : ℤ)
  | cancel (uid sid : ℤ) (atPeriodEnd : Bool) (now : ℤ)
  | adjust (uid amount : ℤ) (note : Option Str)
  deriving DecidableEq

/-- `db.commit()` of a transaction that has led from `pg` to `after`. -/
def Pg.commitTo (pg after : Pg) : Option Pg :=
  if (after.balanceTx.drop pg.balanceTx.length).all (BalanceTx.fits after) then some after else none

/-- What commits has its rows accepted. -/
theorem commitTo_eq_some {pg after after' : Pg} (h : pg.commitTo after' = some after) :
    after = after' := by
  unfold Pg.commitTo at h
  split_ifs at h
  exact (Option.some.inj h).symm

/-- One transaction, alone on the tables. -/
def WalletOp.exec (pg : Pg) : WalletOp → Option Pg
  | .charge uid kid cost refId note now => (chargeTxn pg uid kid cost refId note now).map Prod.snd
  | .refund uid kid breakdown refundCents refId note now =>
      (refundTxn pg uid kid breakdown refundCents refId note now).map Prod.snd
  | .topup uid amount refId note =>
      (pg.users.get? uid).bind fun user => pg.commitTo (topupWallet user.id amount refId note pg)
  | .subscribe uid planId now =>
      (pg.users.get? uid).bind fun user => pg.commitTo (subscribeWithBalance user planId now pg).2
  | .renew sid now =>
      (pg.subscriptions.get? sid).bind fun sub => pg.commitTo (renewSubscription sub now pg).2
  | .cancel uid sid atPeriodEnd now =>
      (pg.users.get? uid).bind fun user =>
        pg.commitTo (cancelSubscription user sid atPeriodEnd now pg).2
  | .adjust uid amount note =>
      (pg.users.get? uid).bind fun user => pg.commitTo (adjustBalance user amount note pg)

/-- A transaction that commits nothing leaves the tables as they are. -/
def walletStep (pg : Pg) (op : WalletOp) : Option Pg := some ((op.exec pg).getD pg)

/-- The wallet of a user. -/
def Pg.wallet (pg : Pg) (uid : ℤ) : Option ℤ := (pg.users.get? uid).map User.balanceCents

end Llmxy
