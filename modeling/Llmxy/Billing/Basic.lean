import Llmxy.Db.Session
import Mathlib.Data.List.Sort

/-!
# Billing

The functions of `app.services.billing` that look at or move a user's money.  Each
works on the session it is called in; the current time is an argument.

`BalanceTx` notes are built from the same shares that are returned, so the
breakdown texts are the shares printed (`showTaken`, `showGiven`).

## Main definitions

* `calcCostCents`, `activeSubscriptions`, `hasQuota`.
* `chargeUser`, `refundToSources`, `topupWallet`, `grantSubscription`.
* `chargeTxn`, `refundTxn` — the two that run in a session, with its commit.
-/

namespace Llmxy

/-- Where a share of a charge was taken from. -/
inductive SourceKind where
  | sub | wallet
  deriving DecidableEq

/-- `(kind, ident, amount)`: `ident` is the subscription id, or 0 for the wallet. -/
abbrev Share := SourceKind × ℤ × ℤ

/-- Rates are micro-cents per 1K tokens.  The quotient is the exact one, which the
true division of the source is up to 2^53 micro-cents; it is rounded up. -/
def calcCostCents (model : Option Model) (promptTokens completionTokens : ℤ) : ℤ :=
  match model with
  | none => 0
  | some m =>
      let micro := promptTokens * m.promptRate + completionTokens * m.completionRate
      (micro + 9999999) / 10000000

/-- The filter of `active_subscriptions`. -/
def Subscription.isActive (userId now : ℤ) (s : Subscription) : Bool :=
  s.userId = userId && s.status = str "active" && now < s.currentPeriodEnd && 0 < s.remainingCents

/-- The filter of the hydration query and of a new subscription: unlike
`active_subscriptions` it keeps the subscriptions without remaining quota. -/
def Subscription.isOpen (userId now : ℤ) (s : Subscription) : Bool :=
  s.userId = userId && s.status = str "active" && now < s.currentPeriodEnd

/-- Active subscriptions with remaining quota, ordered by the end of the period. -/
def activeSubscriptions (pg : Pg) (userId now : ℤ) : List Subscription :=
  (pg.subscriptions.select (Subscription.isActive userId now)).insertionSort
    fun a b => a.currentPeriodEnd ≤ b.currentPeriodEnd

/-- The per-key spending cap. -/
def ApiKey.exceeded (k : ApiKey) : Bool := 0 < k.quotaCents && k.quotaCents ≤ k.usedCents

/-- Can the user spend?  Either a subscription with remaining quota or a positive
wallet, under the per-key cap. -/
def hasQuota (pg : Pg) (user : User) (apiKey : Option ApiKey) (now : ℤ) : Bool × Str :=
  if apiKey.any ApiKey.exceeded then (false, str "api key quota exceeded")
  else if (activeSubscriptions pg user.id now).isEmpty then
    if 0 < user.balanceCents then (true, [])
    else (false, str "no active subscription and insufficient balance")
  else (true, [])

/-! ### Charging -/

/-- The loop of `charge_user`: what each subscription gives, what is left to pay,
and the session after the updates. -/
def chargeLoop : List Subscription → ℤ → Sess → List Share × ℤ × Sess
  | [], remaining, s => ([], remaining, s)
  | sub :: rest, remaining, s =>
      if remaining ≤ 0 then ([], remaining, s)
      else
        let take := min sub.remainingCents remaining
        if take ≤ 0 then chargeLoop rest remaining s
        else
          let r := chargeLoop rest (remaining - take) (s.updateSub sub.id (· - take))
          ((.sub, sub.id, take) :: r.1, r.2)

/-- The part the subscriptions did not cover falls back to the wallet.  Answers
the share, the wallet afterwards and the session. -/
def chargeWallet (remaining : ℤ) (s : Sess) : Option (List Share × ℤ × Sess) :=
  if 0 < remaining then
    (s.updateUser (· - remaining)).map fun r =>
      ([(.wallet, 0, remaining)], r.1, r.2.assignBalance r.1)
  else some ([], s.user.balance.value, s)

/-- The per-key counter: a bulk `UPDATE`, then the same increment in Python. -/
def chargeKey (cost : ℤ) (s : Sess) : Sess :=
  match s.apiKey with
  | none => s
  | some k => (s.updateKey k (· + cost)).assignUsed (· + cost)

/-- One entry of the note of a charge. -/
def showTaken : Share → Str
  | (.sub, sid, take) => str "sub#" ++ showInt sid ++ str ":-" ++ showInt take
  | (.wallet, _, n) => str "wallet:-" ++ showInt n

/-- `f"{note} [{';'.join(parts)}]".strip()`, or the bare note without parts. -/
def fullNote (note : Option Str) (parts : List Str) : Str :=
  let base := note.getD []
  if parts.isEmpty then base
  else strip (base ++ str " [" ++ join (str ";") parts ++ str "]")

/-- `s or None`. -/
def orNone (s : Str) : Option Str := if s.isEmpty then none else some s

/-- Deduct a cost: active subscriptions first, the wallet for the rest.  `none` is
the exception of an update of a user row that is gone. -/
def chargeUser (cost : ℤ) (refId note : Option Str) (now : ℤ) (s : Sess) :
    Option (List Share × Sess) :=
  if cost ≤ 0 then some ([], s)
  else
    let r := chargeLoop (activeSubscriptions s.pg s.user.id now) cost s
    (chargeWallet r.2.1 r.2.2).map fun w =>
      let structured := r.1 ++ w.1
      let s := chargeKey cost w.2.2
      (structured, (s.addTx {
        userId := s.user.id
        type := .consume
        amountCents := -cost
        balanceAfter := w.2.1
        refId := refId
        note := orNone (fullNote note (structured.map showTaken)) }).flush)

/-! ### Refunding -/

/-- The loop of `refund_to_sources`: what goes back to the wallet and what to each
subscription, where `active` are the ids of the active subscriptions. -/
def refundLoop (active : List ℤ) : List Share → ℤ → ℤ × List (ℤ × ℤ)
  | [], _ => (0, [])
  | (kind, sid, amt) :: rest, rem =>
      if kind ≠ .sub ∨ rem ≤ 0 then refundLoop active rest rem
      else
        let give := min amt rem
        let r := refundLoop active rest (rem - give)
        if sid ∈ active then (r.1, (sid, give) :: r.2) else (give + r.1, r.2)

/-- The wallet's part of a breakdown. -/
def walletShare (breakdown : List Share) : ℤ :=
  ((breakdown.filter fun b => b.1 = .wallet).map fun b => b.2.2).sum

/-- How a refund is split: what the wallet gets and what each subscription gets. -/
def refundSplit (active : List ℤ) (breakdown : List Share) (refundCents : ℤ) : ℤ × List (ℤ × ℤ) :=
  let walletRefund := min (walletShare breakdown) refundCents
  let rem := refundCents - walletRefund
  if 0 < rem then
    let r := refundLoop active breakdown rem
    (walletRefund + r.1, r.2)
  else (walletRefund, [])

/-- Refund the wallet.  Answers the wallet afterwards. -/
def refundWallet (amount : ℤ) (s : Sess) : Option (ℤ × Sess) :=
  if 0 < amount then
    (s.updateUser (· + amount)).map fun r => (r.1, r.2.assignBalance r.1)
  else some (s.user.balance.value, s)

/-- Reverse the per-key counter: a bulk `UPDATE`, then the same in Python, where it
is kept from going negative. -/
def refundKey (total : ℤ) (s : Sess) : Sess :=
  match s.apiKey with
  | none => s
  | some k =>
      if 0 < total then (s.updateKey k (· - total)).assignUsed fun v => max 0 (v - total) else s

/-- The parts of the note of a refund. -/
def showGiven (wallet : ℤ) (subs : List (ℤ × ℤ)) : List Str :=
  (if 0 < wallet then [str "wallet:+" ++ showInt wallet] else []) ++
    subs.map fun g => str "sub#" ++ showInt g.1 ++ str ":+" ++ showInt g.2

/-- Return money to the sources a charge drained: the wallet first, then the
subscriptions that are still active; the share of any other subscription goes to
the wallet. -/
def refundToSources (breakdown : List Share) (refundCents : ℤ) (refId note : Option Str)
    (now : ℤ) (s : Sess) : Option (ℤ × Sess) :=
  if refundCents ≤ 0 ∨ breakdown.isEmpty then some (0, s)
  else
    let r := refundSplit ((activeSubscriptions s.pg s.user.id now).map (·.id)) breakdown refundCents
    (refundWallet r.1 s).map fun w =>
      let s := r.2.foldl (fun s g => s.updateSub g.1 (· + g.2)) w.2
      let total := r.1 + (r.2.map Prod.snd).sum
      let s := refundKey total s
      (total, (s.addTx {
        userId := s.user.id
        type := .refund
        amountCents := total
        balanceAfter := w.1
        refId := refId
        note := orNone (fullNote note (showGiven r.1 r.2)) }).flush)

/-! ### Transactions -/

/-- The transaction of a charge: load, `charge_user`, commit.  `none` when a row is
gone or the commit is rolled back. -/
def chargeTxn (pg : Pg) (uid : ℤ) (kid : Option ℤ) (cost : ℤ) (refId note : Option Str)
    (now : ℤ) : Option (List Share × Pg) :=
  (pg.users.get? uid).bind fun user =>
    (chargeUser cost refId note now (Sess.start pg user (kid.bind pg.apiKeys.get?))).bind fun r =>
      r.2.commit.map fun pg => (r.1, pg)

/-- The transaction of a refund: load, `refund_to_sources`, commit. -/
def refundTxn (pg : Pg) (uid : ℤ) (kid : Option ℤ) (breakdown : List Share) (refundCents : ℤ)
    (refId note : Option Str) (now : ℤ) : Option (ℤ × Pg) :=
  (pg.users.get? uid).bind fun user =>
    (refundToSources breakdown refundCents refId note now
        (Sess.start pg user (kid.bind pg.apiKeys.get?))).bind fun r =>
      r.2.commit.map fun pg => (r.1, pg)

/-! ### One user -/

/-- User 1 with a wallet. -/
def userOne (balance : ℤ) : User := ⟨1, balance, .active⟩

/-- Key 3 of user 1, unlimited and unused. -/
def keyThree : ApiKey := ⟨3, 1, .active, 0, 0, .untilDepleted, none, none, none, none⟩

/-- The user with that key and one active subscription that ends at `100 * 10^6`. -/
def oneSubPg (balance remaining : ℤ) : Pg where
  users := .single (userOne balance)
  apiKeys := .single keyThree
  plans := .empty
  subscriptions := .single ⟨7, 1, 1, 0, 0, 100000000, str "active", remaining,
    false, none, none, none⟩
  orders := .empty
  models := .empty
  balanceTx := []
  usageLogs := []

/-- The wallet of user 1 and what subscription 7 has left. -/
def Pg.fundsOfOne (pg : Pg) : Option ℤ × Option ℤ :=
  ((pg.users.get? 1).map User.balanceCents, (pg.subscriptions.get? 7).map (·.remainingCents))

end Llmxy
