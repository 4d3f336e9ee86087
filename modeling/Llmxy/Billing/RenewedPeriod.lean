import Llmxy.Billing.Wallet

/-!
# The period that a renewal sells

A renewal starts the next period where the old one ended, and ends it at the first of the month
after that.  When the renewal comes late (the subscription was past due, or the worker was down)
the new period may be over before it is paid for.

## Main definitions

* `Renewable` — the subscription is one that the wallet pays for.
* `SellsUsablePeriod` — what is promised of a renewal.
* `renewSubscription_usable_iff` — when it is kept.
-/

namespace Llmxy

/-- The subscription goes on, its user is active, and the wallet covers the price. -/
def Renewable (pg : Pg) (sub : Subscription) (plan : Plan) : Prop :=
  sub.cancelAtPeriodEnd = false ∧ ∃ user, pg.users.get? sub.userId = some user ∧
    user.status = .active ∧ plan.priceCents ≤ user.balanceCents

/-- What is promised of a subscription that is renewed. -/
structure RenewedFor (pg after : Pg) (sub : Subscription) (plan : Plan) (now : ℤ) (user : User)
    (user' : User) (sub' : Subscription) : Prop where
  userBefore : pg.users.get? sub.userId = some user
  userAfter : after.users.get? sub.userId = some user'
  subAfter : after.subscriptions.get? sub.id = some sub'
  paid : user'.balanceCents = user.balanceCents - plan.priceCents
  nonneg : 0 ≤ user.balanceCents → 0 ≤ user'.balanceCents
  quota : sub'.remainingCents = plan.quotaCents
  next : sub.currentPeriodEnd ≤ sub'.currentPeriodStart
  started : sub'.currentPeriodStart ≤ now
  usable : now < sub'.currentPeriodEnd

/-- What is promised of a renewal: one that is paid gives a period that contains the present, and
one that the wallet cannot pay leaves the wallet and the period. -/
structure SellsUsablePeriod (pg : Pg) (sub : Subscription) (plan : Plan) (now : ℤ)
    (result : (Bool × Str) × Pg) : Prop where
  renewed : result.1.2 = str "renewed" →
    ∃ user user' sub', RenewedFor pg result.2 sub plan now user user' sub'
  short : startsWith (str "insufficient balance") result.1.2 = true →
    result.2.users = pg.users ∧ ∃ sub', result.2.subscriptions.get? sub.id = some sub' ∧
      sub'.currentPeriodStart = sub.currentPeriodStart ∧
      sub'.currentPeriodEnd = sub.currentPeriodEnd

section
variable {pg : Pg} {sub : Subscription} {plan : Plan} {user : User} {now : ℤ}

theorem get?_saveSub_self (hget : pg.subscriptions.get? sub.id = some sub) {sub' : Subscription}
    (hid : sub'.id = sub.id) : (pg.saveSub sub').subscriptions.get? sub.id = some sub' := by
  rw [Pg.saveSub, hid, Table.get?_update_self, hget, Option.map_some, Subscription.save_val, ← hid]

/-- An outcome that is neither of the two promises nothing. -/
theorem sellsUsablePeriod_other {ok : Bool} {note : Str} {after : Pg}
    (hrenewed : note ≠ str "renewed")
    (hshort : startsWith (str "insufficient balance") note = false) :
    SellsUsablePeriod pg sub plan now ((ok, note), after) :=
  ⟨fun h => absurd h hrenewed, fun h => absurd (hshort.symm.trans h) Bool.false_ne_true⟩

/-- A renewal that went through is no shortage. -/
theorem startsWith_insufficient_renewed :
    startsWith (str "insufficient balance") (str "renewed") = false := by
  decide

/-- The wallet after a renewal, which pays nothing when the price is not positive. -/
theorem get?_users_payRenewal (plan : Plan) (huser : pg.users.get? sub.userId = some user) :
    (payRenewal sub plan pg).users.get? sub.userId =
      some { user with balanceCents := user.balanceCents - max 0 plan.priceCents } := by
  rw [payRenewal]
  split
  · next h =>
      rw [moveWallet, Table.get?_update_self, huser, Option.map_some, User.setBalance_val,
        max_eq_right h.le, sub_eq_add_neg]
  · next h => rw [huser, max_eq_left (not_lt.mp h), sub_zero]

/-- A renewal that is paid keeps the promise exactly when the price is not negative and the next
month after the old period is not over. -/
theorem renewed_usable_iff (hget : pg.subscriptions.get? sub.id = some sub)
    (huser : pg.users.get? sub.userId = some user) (hprice : plan.priceCents ≤ user.balanceCents)
    (hend : sub.currentPeriodEnd ≤ now) :
    SellsUsablePeriod pg sub plan now
        ((true, str "renewed"), (payRenewal sub plan pg).saveSub (sub.renew plan now)) ↔
      0 ≤ plan.priceCents ∧ now < nextMonthStart sub.currentPeriodEnd := by
  have hpaid := get?_users_payRenewal plan huser
  have hsubs : (payRenewal sub plan pg).subscriptions = pg.subscriptions := by
    rw [payRenewal]
    split <;> rfl
  have hrow : ((payRenewal sub plan pg).saveSub (sub.renew plan now)).subscriptions.get? sub.id =
      some (sub.renew plan now) := get?_saveSub_self (by rw [hsubs]; exact hget) rfl
  constructor
  · intro h
    obtain ⟨user₀, user', sub', hsold⟩ := h.renewed rfl
    have huser₀ := hsold.userBefore
    have huser' := hsold.userAfter
    have hsub' := hsold.subAfter
    rw [huser, Option.some.injEq] at huser₀
    rw [show ((payRenewal sub plan pg).saveSub (sub.renew plan now)).users =
      (payRenewal sub plan pg).users from rfl, hpaid, Option.some.injEq] at huser'
    rw [hrow, Option.some.injEq] at hsub'
    subst huser₀ huser' hsub'
    have hbalance : user.balanceCents - max 0 plan.priceCents =
        user.balanceCents - plan.priceCents := hsold.paid
    exact ⟨by omega, hsold.usable⟩
  · intro ⟨h0, hlt⟩
    refine ⟨fun _ => ⟨user, _, _, huser, hpaid, hrow, ?_, ?_, rfl, le_rfl, hend, hlt⟩,
      fun h => ?_⟩
    · rw [max_eq_right h0]
    · intro _
      rw [max_eq_right h0]
      simp only
      omega
    · exact absurd (startsWith_insufficient_renewed.symm.trans h) Bool.false_ne_true

end

/-- **When a renewal sells a usable period**: when the wallet pays for it, the price is not
negative and the month after the old end is not over. -/
theorem renewSubscription_usable_iff (pg : Pg) (sub : Subscription) (plan : Plan) (now : ℤ)
    (hget : pg.subscriptions.get? sub.id = some sub)
    (hplan : pg.plans.get? sub.planId = some plan) (hrecurring : plan.planType ≠ str "one_time")
    (hend : sub.currentPeriodEnd ≤ now) :
    SellsUsablePeriod pg sub plan now (renewSubscription sub now pg) ↔
      (Renewable pg sub plan →
        0 ≤ plan.priceCents ∧ now < nextMonthStart sub.currentPeriodEnd) := by
  rw [renewSubscription, hplan]
  dsimp only
  cases hcancel : sub.cancelAtPeriodEnd with
  | true =>
      rw [if_pos rfl]
      refine iff_of_true (sellsUsablePeriod_other (by decide) (by decide)) fun h => ?_
      rw [Renewable, hcancel] at h
      cases h.1
  | false =>
      rw [if_neg (by simp), if_neg hrecurring]
      cases huser : (pg.users.get? sub.userId).filter (·.status = .active) with
      | none =>
          rw [Option.filter_eq_none_iff] at huser
          dsimp only
          refine iff_of_true (sellsUsablePeriod_other (by decide) (by decide)) ?_
          intro ⟨_, user, hrow, hactive, _⟩
          exact absurd hactive (by simpa using huser user hrow)
      | some user =>
          obtain ⟨hrow, hactive⟩ := Option.filter_eq_some_iff.mp huser
          have hactive : user.status = .active := by simpa using hactive
          dsimp only
          by_cases hshort : user.balanceCents < plan.priceCents
          · rw [if_pos hshort]
            refine iff_of_true
              ⟨fun h => ?_, fun _ => ⟨rfl, _, get?_saveSub_self hget rfl, rfl, rfl⟩⟩ ?_
            · exact absurd (congrArg List.head? h) (by simp [str])
            · intro ⟨_, user', hrow', _, hprice⟩
              rw [hrow, Option.some.injEq] at hrow'
              subst hrow'
              omega
          · rw [if_neg hshort, renewed_usable_iff hget hrow (not_lt.mp hshort) hend]
            have hrenewable : Renewable pg sub plan :=
              ⟨hcancel, user, hrow, hactive, not_lt.mp hshort⟩
            exact ⟨fun h _ => h, fun h => h hrenewable⟩

/-- A plan of 10 cents a month. -/
def monthlyPlan : Plan := ⟨1, str "p", str "recurring", 10, 50, 30, none, true⟩

/-- User 1 with 100 cents, whose subscription ended at the start of 1970. -/
def lateSub : Subscription :=
  ⟨7, 1, 1, 0, 0, 0, str "past_due", 0, false, none, none, none⟩

/-- The database with that subscription. -/
def latePg : Pg :=
  { oneSubPg 100 0 with plans := .single monthlyPlan, subscriptions := .single lateSub }

/-- Paid for in March, the period ended in February. -/
theorem renewSubscription_late :
    (renewSubscription lateSub (60 * day) latePg).1.2 = str "renewed" ∧
      ((renewSubscription lateSub (60 * day) latePg).2.users.get? 1).map (·.balanceCents) =
        some 90 ∧
      ((renewSubscription lateSub (60 * day) latePg).2.subscriptions.get? 7).map
        (·.currentPeriodEnd) = some (31 * day) := by
  decide +kernel

/-- Paid for in time. -/
theorem renewSubscription_in_time :
    SellsUsablePeriod latePg lateSub monthlyPlan (3 * day)
      (renewSubscription lateSub (3 * day) latePg) :=
  (renewSubscription_usable_iff latePg lateSub monthlyPlan (3 * day) rfl rfl (by decide)
    (by decide)).mpr fun _ => ⟨by decide, by decide⟩

end Llmxy
