import Llmxy.Billing.Basic
import Llmxy.Lib.Calendar

/-!
# Crediting a user

`topup_wallet` and `grant_subscription` as what they write to the tables.  The
wallet of the loaded user is assigned the value `RETURNING` gave, which the flush
writes back over the same value, so one update says it.

## Main definitions

* `initialPeriodEnd` — the first period of a new subscription.
* `topupWallet`, `grantSubscription`.
-/

namespace Llmxy

/-- First period end for a fresh subscription: the next month, or the lifetime of a
one-time plan. -/
def initialPeriodEnd (plan : Plan) (now : ℤ) : ℤ :=
  if plan.planType = str "one_time" then
    now + max 1 (if plan.durationDays = 0 then 30 else plan.durationDays) * day
  else nextMonthStart now

/-- Add an amount to the wallet, with its `BalanceTx` row. -/
def topupWallet (userId amount : ℤ) (refId note : Option Str) (pg : Pg) : Pg :=
  let users := pg.users.update userId (User.setBalance (· + amount))
  { pg with
    users := users
    balanceTx := pg.balanceTx ++ [{
      userId := userId
      type := .topup
      amountCents := amount
      balanceAfter := ((users.get? userId).map User.balanceCents).getD 0
      refId := refId
      note := note }] }

/-- A new subscription: full quota for the first period. -/
def freshSubscription (user : User) (plan : Plan) (now sid : ℤ) : Subscription where
  id := sid
  userId := user.id
  planId := plan.id
  startAt := now
  currentPeriodStart := now
  currentPeriodEnd := initialPeriodEnd plan now
  status := str "active"
  remainingCents := plan.quotaCents
  cancelAtPeriodEnd := false
  canceledAt := none
  lastRenewalAt := none
  lastRenewalError := none

/-- Create an active subscription, with its `BalanceTx` row. -/
def grantSubscription (user : User) (plan : Plan) (refId : Option Str) (now : ℤ) (pg : Pg) : Pg :=
  { pg with
    subscriptions := pg.subscriptions.insert (freshSubscription user plan now) fun _ => rfl
    balanceTx := pg.balanceTx ++ [{
      userId := user.id
      type := .grant
      amountCents := plan.quotaCents
      balanceAfter := user.balanceCents
      refId := refId
      note := some (str "plan " ++ plan.code ++ str " sub#" ++
        showInt pg.subscriptions.nextId) }] }

@[simp] theorem rows_grantSubscription (user : User) (plan : Plan) (refId : Option Str) (now : ℤ)
    (pg : Pg) : (grantSubscription user plan refId now pg).subscriptions.rows =
      pg.subscriptions.rows ++ [freshSubscription user plan now pg.subscriptions.nextId] := rfl

end Llmxy
