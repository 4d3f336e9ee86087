import Llmxy.Billing.Credit
import Llmxy.Lib.Machine
import Llmxy.Lib.RowLock
import Mathlib.Data.Finset.Card
import Mathlib.Data.Fintype.Basic
import Mathlib.Tactic.Ring

/-!
# Payment callbacks

`payment_callback` reads the order without a lock, and on an order that is not paid
it marks it paid, credits the user and commits.  The mark and the credit take row
locks, but the check of the status came before them, in a read: two callbacks that
both read before either commits both credit.

## Main definitions

* `Callback`, `CallbackPhase`, `callbackProg` — one callback, statement by statement.
* `CreditedTimes` — the order's credit has been applied so many times.
* `creditedTimes_run` — what any run has credited.
* `credited_once_iff` — when concurrent callbacks credit exactly once.
-/

namespace Llmxy

/-- What a callback request brings: its provider's order id, the channel it came in
by, and the time. -/
structure Callback where
  providerOrderId : Option Str
  channel : Str
  now : ℤ

/-- What a callback answers. -/
inductive CallbackResponse where
  | ok
  | alreadyPaid
  | orderNotFound
  | serverError
  deriving DecidableEq

/-- Where a callback stands. -/
inductive CallbackPhase where
  | start
  | read (order : Order)
  | marked (order : Order)
  | credited
  | done (response : CallbackResponse)
  deriving DecidableEq

/-- The rows a callback locks. -/
inductive OrderLock where
  | order (id : ℤ)
  | user (id : ℤ)
  deriving DecidableEq

/-- The shared tables. -/
abbrev OrderRows (n : ℕ) := RowStore OrderLock (Fin n) Pg

/-- `order.status = paid`, with the time and the provider's id. -/
def Order.setPaid (cb : Callback) : RowUpdate Order :=
  ⟨fun o => { o with
      status := .paid
      paidAt := some cb.now
      providerOrderId := cb.providerOrderId }, fun _ => rfl⟩

/-- The order is marked paid. -/
def markPaid (orderId : ℤ) (cb : Callback) (pg : Pg) : Pg :=
  { pg with orders := pg.orders.update orderId (Order.setPaid cb) }

/-- The plan an order buys, if it names one and the plan still exists. -/
def orderPlan (pg : Pg) (order : Order) : Option Plan :=
  (order.planId.filter (· ≠ 0)).bind pg.plans.get?

/-- `f"order#{order.id} {channel}"`. -/
def topupNote (order : Order) (cb : Callback) : Option Str :=
  some (str "order#" ++ showInt order.id ++ str " " ++ cb.channel)

variable {n : ℕ}

/-- The statements of callback `i` for one order. -/
def callbackProg (orderId : ℤ) (cb : Fin n → Callback) (i : Fin n) (rows : OrderRows n) :
    CallbackPhase → Option (OrderRows n × CallbackPhase)
  | .start =>
      match (rows.view i).orders.get? orderId with
      | none => some (rows, .done .orderNotFound)
      | some order =>
          if order.status = .paid then some (rows, .done .alreadyPaid)
          else some (rows, .read order)
  | .read order =>
      (rows.update i (.order order.id) (markPaid order.id (cb i))).map fun rows =>
        (rows, .marked order)
  | .marked order =>
      match (rows.view i).users.get? order.userId with
      | none => some (rows.rollback i, .done .serverError)
      | some user =>
          match orderPlan (rows.view i) order with
          | some plan =>
              some (rows.insert i
                (grantSubscription user plan (some (showInt order.id)) (cb i).now), .credited)
          | none =>
              (rows.update i (.user user.id) (topupWallet user.id order.amountCents
                (some (showInt order.id)) (topupNote order (cb i)))).map fun rows =>
                (rows, .credited)
  | .credited => some (rows.commit i, .done .ok)
  | .done _ => none

/-- The callbacks on one database. -/
abbrev OrderNet (n : ℕ) := Net (Fin n) (OrderRows n) CallbackPhase

/-- No callback has run. -/
def OrderNet.start (pg : Pg) : OrderNet n := ⟨.idle pg, fun _ => .start⟩

/-- The credit of an order has been applied `k` times: `k` rows in the balance log,
and `k` subscriptions of its plan or `k` times the amount in the wallet. -/
structure CreditedTimes (before : Pg) (order : Order) (k : ℕ) (pg : Pg) : Prop where
  log : pg.balanceTx.length = before.balanceTx.length + k
  users : pg.users = before.users.update order.userId (User.setBalance
    (· + (if (orderPlan before order).isSome then 0 else k) * order.amountCents))
  subscriptions : ∃ granted, pg.subscriptions.rows = before.subscriptions.rows ++ granted ∧
    granted.length = (if (orderPlan before order).isSome then k else 0) ∧
    ∀ s ∈ granted, s.userId = order.userId ∧ some s.planId = order.planId

/-! ### What a commit adds -/

/-- The credit of an order, applied to the tables. -/
def creditOrder (before : Pg) (order : Order) (cb : Callback) (user : User) : Pg → Pg :=
  match orderPlan before order with
  | some plan => grantSubscription user plan (some (showInt order.id)) cb.now
  | none =>
      topupWallet order.userId order.amountCents (some (showInt order.id)) (topupNote order cb)

section
variable {before pg : Pg} {order : Order} {k : ℕ} {user : User} {cb : Callback}

theorem creditedTimes_zero : CreditedTimes before order 0 before := by
  refine ⟨rfl, ?_, [], by simp, by simp, by simp⟩
  exact (Table.update_eq_self fun r _ => by simp).symm

/-- The rows a credit leaves alone. -/
theorem creditOrder_frame (before : Pg) (order : Order) (cb : Callback) (user : User) (pg : Pg) :
    (creditOrder before order cb user pg).orders = pg.orders ∧
    (creditOrder before order cb user pg).plans = pg.plans := by
  unfold creditOrder
  cases orderPlan before order <;> exact ⟨rfl, rfl⟩

/-- One more credit. -/
theorem CreditedTimes.credit (h : CreditedTimes before order k pg) (hu : user.id = order.userId) :
    CreditedTimes before order (k + 1)
      (creditOrder before order cb user (markPaid order.id cb pg)) := by
  obtain ⟨hlog, husers, granted, hrows, hlen, hmem⟩ := h
  unfold creditOrder
  cases hplan : orderPlan before order with
  | some plan =>
      have hid : some plan.id = order.planId := by
        obtain ⟨p, hp, hget⟩ := Option.bind_eq_some_iff.mp hplan
        have hp' := (Option.filter_eq_some_iff.mp hp).1
        rw [hp', ← (Table.get?_eq_some.mp hget).2]
        rfl
      simp only [hplan, Option.isSome_some, if_true] at husers hlen
      refine ⟨?_, ?_, granted ++ [freshSubscription user plan cb.now pg.subscriptions.nextId],
        ?_, ?_, ?_⟩
      · simp [grantSubscription, markPaid, hlog, add_assoc]
      · simpa [hplan, grantSubscription, markPaid] using husers
      · rw [← List.append_assoc, ← hrows]
        rfl
      · simp [hplan, hlen]
      · intro s hs
        rcases List.mem_append.mp hs with hs | hs
        · exact hmem s hs
        · rw [List.mem_singleton.mp hs]
          exact ⟨hu, hid⟩
  | none =>
      simp only [hplan, Option.isSome_none, if_false, Bool.false_eq_true] at husers hlen
      refine ⟨?_, ?_, granted, hrows, ?_, hmem⟩
      · simp [topupWallet, markPaid, hlog, add_assoc]
      · simp only [topupWallet, markPaid, husers, hplan, Option.isSome_none, if_false,
          Bool.false_eq_true]
        refine Table.update_update _ _ _ _ _ fun r => ?_
        simp only [User.setBalance_val, User.mk.injEq, true_and, and_true]
        push_cast
        ring
      · simpa [hplan] using hlen

end

/-! ### The invariant -/

/-- How far a callback that read an unpaid order has come: 1 to 4.  Other callbacks
are at 0 or, answered, at 5. -/
def CallbackPhase.rank : CallbackPhase → ℕ
  | .start => 0
  | .read _ => 1
  | .marked _ => 2
  | .credited => 3
  | .done .ok => 4
  | .done _ => 5

/-- The callbacks that have committed a credit. -/
def OrderNet.okCount (s : OrderNet n) : ℕ :=
  (Finset.univ.filter fun i => s.loc i = .done .ok).card

/-- Where one callback stands. -/
def CallbackInv (before : Pg) (order : Order) (cb : Callback) (pending : Pg → Pg) :
    CallbackPhase → Prop
  | .start => pending = id
  | .read o => o = order ∧ pending = id
  | .marked o => o = order ∧ pending = markPaid order.id cb
  | .credited => ∃ user : User, user.id = order.userId ∧
      pending = creditOrder before order cb user ∘ markPaid order.id cb
  | .done _ => pending = id

/-- The tables hold one credit for each callback that answered ok, and the order is
paid from the first on. -/
structure OrderInv (before : Pg) (order : Order) (cb : Fin n → Callback) (s : OrderNet n) :
    Prop where
  credited : CreditedTimes before order s.okCount s.shared.committed
  plans : s.shared.committed.plans = before.plans
  unpaid : s.okCount = 0 → s.shared.committed.orders.get? order.id = some order
  paid : 0 < s.okCount → ∃ o, s.shared.committed.orders.get? order.id = some o ∧ o.status = .paid
  callback : ∀ i, CallbackInv before order (cb i) (s.shared.pending i) (s.loc i)

section
variable {before : Pg} {order : Order} {cb : Fin n → Callback} {s t : OrderNet n} {i j : Fin n}

theorem okCount_start : (OrderNet.start before : OrderNet n).okCount = 0 := by
  simp [OrderNet.okCount, OrderNet.start]

theorem orderInv_start (h : before.orders.get? order.id = some order) :
    OrderInv before order cb (OrderNet.start before) where
  credited := by rw [okCount_start]; exact creditedTimes_zero
  plans := rfl
  unpaid := fun _ => h
  paid := fun hpos => by rw [okCount_start] at hpos; exact absurd hpos (lt_irrefl 0)
  callback := fun _ => rfl

/-- A step that commits no credit. -/
private theorem orderInv_of_silent {rows : OrderRows n} {l : CallbackPhase}
    (hinv : OrderInv before order cb s) (hs : s.loc i ≠ .done .ok) (hl : l ≠ .done .ok)
    (hc : rows.committed = s.shared.committed)
    (hp : ∀ j, j ≠ i → rows.pending j = s.shared.pending j)
    (hi : CallbackInv before order (cb i) (rows.pending i) l) :
    OrderInv before order cb ⟨rows, Function.update s.loc i l⟩ := by
  have hcount : OrderNet.okCount ⟨rows, Function.update s.loc i l⟩ = s.okCount := by
    refine congrArg Finset.card (Finset.filter_congr fun j _ => ?_)
    by_cases hj : j = i
    · subst hj; simp [hs, hl]
    · simp [Function.update_of_ne hj]
  refine ⟨?_, ?_, ?_, ?_, fun j => ?_⟩
  · rw [hcount]; exact hc ▸ hinv.credited
  · exact hc ▸ hinv.plans
  · rw [hcount]; exact hc ▸ hinv.unpaid
  · rw [hcount]; exact hc ▸ hinv.paid
  · by_cases hj : j = i
    · subst hj; simpa using hi
    · simpa [Function.update_of_ne hj, hp j hj] using hinv.callback j

/-- The user an order names is there, as its foreign key promises. -/
theorem OrderInv.user_row {u : User} (hinv : OrderInv before order cb s)
    (hu : before.users.get? order.userId = some u) :
    ∃ user, s.shared.committed.users.get? order.userId = some user ∧ user.id = order.userId := by
  have hsome : (s.shared.committed.users.get? order.userId).isSome := by
    rw [hinv.credited.users, Table.get?_update_self, hu]
    rfl
  obtain ⟨user, huser⟩ := Option.isSome_iff_exists.mp hsome
  exact ⟨user, huser, (Table.get?_eq_some.mp huser).2⟩

/-- **One statement of one callback.** -/
theorem orderInv_step {u : User} (hu : before.users.get? order.userId = some u)
    (hunpaid : order.status ≠ .paid) (hinv : OrderInv before order cb s) (h : Net.step (callbackProg order.id cb) s i = some t) :
    OrderInv before order cb t ∧
      (t.loc i).rank =
        if (s.loc i).rank = 0 ∧ 0 < s.okCount then 5 else (s.loc i).rank + 1 := by
  obtain ⟨rows, l, hprog, rfl⟩ := Net.step_eq_some.mp h
  have hi := hinv.callback i
  simp only [Function.update_self]
  cases hl : s.loc i with
  | start =>
      rw [hl] at hprog hi
      have hview : s.shared.view i = s.shared.committed := RowStore.view_eq_committed hi
      simp only [callbackProg, hview] at hprog
      by_cases hcount : s.okCount = 0
      · rw [hinv.unpaid hcount] at hprog
        simp only [if_neg hunpaid, Option.some.injEq, Prod.mk.injEq] at hprog
        obtain ⟨rfl, rfl⟩ := hprog
        exact ⟨orderInv_of_silent hinv (by simp [hl]) (by simp) rfl (fun _ _ => rfl) ⟨rfl, hi⟩,
          by simp [CallbackPhase.rank, hcount]⟩
      · obtain ⟨o, ho, hpaid⟩ := hinv.paid (Nat.pos_of_ne_zero hcount)
        rw [ho] at hprog
        simp only [hpaid, if_true, Option.some.injEq, Prod.mk.injEq] at hprog
        obtain ⟨rfl, rfl⟩ := hprog
        exact ⟨orderInv_of_silent hinv (by simp [hl]) (by simp) rfl (fun _ _ => rfl) hi,
          by simp [CallbackPhase.rank, Nat.pos_of_ne_zero hcount]⟩
  | read o =>
      rw [hl] at hprog hi
      obtain ⟨rfl, hpend⟩ := hi
      obtain ⟨rows', hupd, heq⟩ := Option.map_eq_some_iff.mp hprog
      cases heq
      refine ⟨orderInv_of_silent hinv (by simp [hl]) (by simp) (RowStore.committed_update hupd)
        (fun j hj => RowStore.pending_update_other hupd hj) ⟨rfl, ?_⟩, by simp [CallbackPhase.rank]⟩
      rw [RowStore.pending_update hupd, hpend]
      rfl
  | marked o =>
      rw [hl] at hprog hi
      obtain ⟨rfl, hpend⟩ := hi
      obtain ⟨user, huser, hid⟩ := hinv.user_row hu
      have hplan : orderPlan (s.shared.view i) o = orderPlan before o := by
        simp only [orderPlan, RowStore.view, hpend, markPaid, hinv.plans]
      have hrow : (s.shared.view i).users.get? o.userId = some user := by
        rw [RowStore.view, hpend]; exact huser
      simp only [callbackProg, hrow, hplan] at hprog
      cases hcase : orderPlan before o with
      | some plan =>
          rw [hcase] at hprog
          cases hprog
          refine ⟨orderInv_of_silent hinv (by simp [hl]) (by simp) rfl
            (fun j hj => RowStore.pending_insert_other hj) ⟨user, hid, ?_⟩,
            by simp [CallbackPhase.rank]⟩
          rw [RowStore.pending_insert, hpend, creditOrder, hcase]
      | none =>
          rw [hcase] at hprog
          obtain ⟨rows', hupd, heq⟩ := Option.map_eq_some_iff.mp hprog
          cases heq
          refine ⟨orderInv_of_silent hinv (by simp [hl]) (by simp) (RowStore.committed_update hupd)
            (fun j hj => RowStore.pending_update_other hupd hj) ⟨user, hid, ?_⟩,
            by simp [CallbackPhase.rank]⟩
          rw [RowStore.pending_update hupd, hpend, creditOrder, hcase, hid]
  | credited =>
      rw [hl] at hprog hi
      obtain ⟨user, hid, hpend⟩ := hi
      cases hprog
      refine ⟨?_, by simp [CallbackPhase.rank]⟩
      have hcount : OrderNet.okCount ⟨s.shared.commit i, Function.update s.loc i (.done .ok)⟩ =
          s.okCount + 1 := by
        rw [OrderNet.okCount, OrderNet.okCount, ← Finset.card_insert_of_notMem (a := i)]
        · congr 1
          ext j
          by_cases hj : j = i
          · subst hj; simp
          · simp [hj]
        · simp [hl]
      have hcommitted : (s.shared.commit i).committed =
          creditOrder before order (cb i) user (markPaid order.id (cb i) s.shared.committed) := by
        rw [RowStore.committed_commit, hpend]; rfl
      obtain ⟨horders, hplans⟩ := creditOrder_frame before order (cb i) user
        (markPaid order.id (cb i) s.shared.committed)
      refine ⟨?_, ?_, ?_, ?_, fun j => ?_⟩
      · rw [hcount, hcommitted]; exact hinv.credited.credit hid
      · rw [hcommitted, hplans]; exact hinv.plans
      · rw [hcount]; intro h; exact absurd h (Nat.succ_ne_zero _)
      · intro _
        have hthere : ∃ o, s.shared.committed.orders.get? order.id = some o := by
          rcases Nat.eq_zero_or_pos s.okCount with h0 | hpos
          · exact ⟨order, hinv.unpaid h0⟩
          · obtain ⟨o, ho, -⟩ := hinv.paid hpos
            exact ⟨o, ho⟩
        obtain ⟨o, ho⟩ := hthere
        rw [hcommitted, horders]
        exact ⟨(Order.setPaid (cb i)).1 o, by simp [markPaid, ho], rfl⟩
      · by_cases hj : j = i
        · subst hj
          simp [CallbackInv]
        · simp only [Function.update_of_ne hj, RowStore.pending_commit_other hj]
          exact hinv.callback j
  | done r =>
      rw [hl] at hprog
      cases hprog

theorem orderInv_run {u : User} (hrow : before.orders.get? order.id = some order)
    (hu : before.users.get? order.userId = some u) (hunpaid : order.status ≠ .paid)
    {as : List (Fin n)}
    (hrun : run (Net.step (callbackProg order.id cb)) as (OrderNet.start before) = some s) :
    OrderInv before order cb s :=
  run_induction (fun _ _ _ hinv h => (orderInv_step hu hunpaid hinv h).1) (orderInv_start hrow) hrun

/-- **What any run of callbacks has credited**: once for each callback that answered
ok. -/
theorem creditedTimes_run {u : User} (hrow : before.orders.get? order.id = some order)
    (hu : before.users.get? order.userId = some u) (hunpaid : order.status ≠ .paid)
    {as : List (Fin n)}
    (hrun : run (Net.step (callbackProg order.id cb)) as (OrderNet.start before) = some s) :
    CreditedTimes before order s.okCount s.shared.committed :=
  (orderInv_run hrow hu hunpaid hrun).credited

/-! ### Who credits -/

/-- The callback has read the order unpaid, so it credits or has credited. -/
def OrderNet.Engaged (s : OrderNet n) (i : Fin n) : Prop :=
  1 ≤ (s.loc i).rank ∧ (s.loc i).rank ≤ 4

/-- A callback that moves has not answered. -/
theorem rank_lt_of_step (h : Net.step (callbackProg order.id cb) s i = some t) :
    (s.loc i).rank < 4 := by
  obtain ⟨rows, l, hprog, -⟩ := Net.step_eq_some.mp h
  cases hl : s.loc i with
  | done r => rw [hl] at hprog; cases hprog
  | _ => simp [CallbackPhase.rank]

/-- Who is engaged stays engaged; a callback becomes engaged by reading before the
first commit. -/
theorem engaged_step {u : User} (hu : before.users.get? order.userId = some u)
    (hunpaid : order.status ≠ .paid) (hinv : OrderInv before order cb s)
    (h : Net.step (callbackProg order.id cb) s i = some t) (j : Fin n) :
    t.Engaged j ↔ s.Engaged j ∨ (j = i ∧ (s.loc i).rank = 0 ∧ s.okCount = 0) := by
  have hlt := rank_lt_of_step h
  obtain ⟨-, hrank⟩ := orderInv_step hu hunpaid hinv h
  by_cases hj : j = i
  · subst hj
    unfold OrderNet.Engaged
    rw [hrank]
    split_ifs with hcase
    · obtain ⟨h0, hpos⟩ := hcase
      omega
    · by_cases h0 : (s.loc j).rank = 0
      · have : s.okCount = 0 := by
          by_contra hne
          exact hcase ⟨h0, Nat.pos_of_ne_zero hne⟩
        omega
      · omega
  · rw [OrderNet.Engaged, Net.step_loc_other h hj]
    simp [hj, OrderNet.Engaged]

/-- In a finished run the engaged callbacks are those that answered ok. -/
theorem okCount_eq_one_iff (hdone : ∀ i, ∃ r, s.loc i = .done r) :
    s.okCount = 1 ↔ ∃ i, ∀ j, s.Engaged j ↔ j = i := by
  have hok : ∀ j, s.Engaged j ↔ s.loc j = .done .ok := by
    intro j
    obtain ⟨r, hr⟩ := hdone j
    rw [OrderNet.Engaged, hr]
    cases r <;> simp [CallbackPhase.rank]
  rw [OrderNet.okCount, Finset.card_eq_one]
  refine exists_congr fun i => ?_
  rw [Finset.ext_iff]
  simp [hok]

theorem rank_eq_four {l : CallbackPhase} : l.rank = 4 ↔ l = .done .ok := by
  cases l with
  | done r => cases r <;> simp [CallbackPhase.rank]
  | _ => simp [CallbackPhase.rank]

theorem okCount_eq_zero_iff : s.okCount = 0 ↔ ∀ j, (s.loc j).rank ≠ 4 := by
  simp [OrderNet.okCount, Finset.filter_eq_empty_iff, rank_eq_four]

theorem engaged_run {u : User} (hu : before.users.get? order.userId = some u)
    (hunpaid : order.status ≠ .paid) {as : List (Fin n)} (hinv : OrderInv before order cb s)
    (hrun : run (Net.step (callbackProg order.id cb)) as s = some t) (h : s.Engaged j) :
    t.Engaged j :=
  (run_induction (I := fun s => OrderInv before order cb s ∧ s.Engaged j)
    (fun _ _ _ hs hstep => ⟨(orderInv_step hu hunpaid hs.1 hstep).1,
      (engaged_step hu hunpaid hs.1 hstep j).mpr (Or.inl hs.2)⟩) ⟨hinv, h⟩ hrun).2

/-- While only `i` has moved, and only `i` may ever be engaged, the next labels are
all `i`, until `i` has answered. -/
private theorem replicate_prefix {u : User} (hu : before.users.get? order.userId = some u)
    (hunpaid : order.status ≠ .paid) (hdone : ∀ j, ∃ r, t.loc j = .done r)
    (honly : ∀ j, t.Engaged j → j = i) :
    ∀ (m : ℕ) {as : List (Fin n)} {s : OrderNet n}, OrderInv before order cb s →
      (∀ j, j ≠ i → (s.loc j).rank = 0) → (s.loc i).rank + m = 4 →
      run (Net.step (callbackProg order.id cb)) as s = some t → List.replicate m i <+: as := by
  intro m
  induction m with
  | zero => intro as s _ _ _ _; exact List.nil_prefix
  | succ m ih =>
      intro as s hinv hother hrank hrun
      have hcount : s.okCount = 0 := by
        refine okCount_eq_zero_iff.mpr fun j => ?_
        by_cases hj : j = i
        · subst hj; omega
        · rw [hother j hj]; decide
      cases as with
      | nil =>
          -- `i` has not answered, so the run cannot be over
          cases hrun
          obtain ⟨r, hr⟩ := hdone i
          rw [hr] at hrank
          cases r <;> simp [CallbackPhase.rank] at hrank <;> omega
      | cons a as =>
          obtain ⟨s', hstep, hrun'⟩ := run_cons_eq_some.mp hrun
          obtain ⟨hinv', hrank'⟩ := orderInv_step hu hunpaid hinv hstep
          have ha : a = i := by
            by_contra hne
            have heng : OrderNet.Engaged s' a :=
              (engaged_step hu hunpaid hinv hstep a).mpr (Or.inr ⟨rfl, hother a hne, hcount⟩)
            exact hne (honly a (engaged_run hu hunpaid hinv' hrun' heng))
          subst ha
          rw [if_neg (by omega)] at hrank'
          refine List.cons_prefix_cons.mpr ⟨rfl, ih hinv' (fun j hj => ?_) (by omega) hrun'⟩
          rw [Net.step_loc_other hstep hj]
          exact hother j hj

/-- Running `i` alone takes it from reading the order to its answer. -/
private theorem run_replicate {u : User} (hu : before.users.get? order.userId = some u)
    (hunpaid : order.status ≠ .paid) :
    ∀ (m : ℕ) {s : OrderNet n}, OrderInv before order cb s →
      (∀ j, j ≠ i → (s.loc j).rank = 0) → (s.loc i).rank + m = 4 →
      run (Net.step (callbackProg order.id cb)) (List.replicate m i) s = some t →
      OrderInv before order cb t ∧ (∀ j, j ≠ i → (t.loc j).rank = 0) ∧ (t.loc i).rank = 4 := by
  intro m
  induction m with
  | zero =>
      intro s hinv hother hrank hrun
      cases hrun
      exact ⟨hinv, hother, by omega⟩
  | succ m ih =>
      intro s hinv hother hrank hrun
      obtain ⟨s', hstep, hrun'⟩ := run_cons_eq_some.mp hrun
      obtain ⟨hinv', hrank'⟩ := orderInv_step hu hunpaid hinv hstep
      have hcount : s.okCount = 0 := by
        refine okCount_eq_zero_iff.mpr fun j => ?_
        by_cases hj : j = i
        · subst hj; omega
        · rw [hother j hj]; decide
      rw [if_neg (by omega)] at hrank'
      refine ih hinv' (fun j hj => ?_) (by omega) hrun'
      rw [Net.step_loc_other hstep hj]
      exact hother j hj

/-- **A paid order credits exactly once** in a run of concurrent callbacks that all
finish exactly when the callback that reads first also commits before any other
reads. -/
theorem credited_once_iff {u : User} (hrow : before.orders.get? order.id = some order)
    (hu : before.users.get? order.userId = some u) (hpending : order.status = .pending)
    {as : List (Fin n)}
    (hrun : run (Net.step (callbackProg order.id cb)) as (OrderNet.start before) = some s)
    (hdone : ∀ i, ∃ r, s.loc i = .done r) :
    CreditedTimes before order 1 s.shared.committed ↔ ∃ i, [i, i, i, i] <+: as := by
  have hunpaid : order.status ≠ .paid := by rw [hpending]; decide
  have hstart : OrderInv before order cb (OrderNet.start before) := orderInv_start hrow
  have hcount : CreditedTimes before order 1 s.shared.committed ↔ s.okCount = 1 := by
    have hcredited := creditedTimes_run hrow hu hunpaid hrun
    constructor
    · intro h
      have := hcredited.log.symm.trans h.log
      omega
    · intro h
      rw [h] at hcredited
      exact hcredited
  rw [hcount, okCount_eq_one_iff hdone]
  constructor
  · rintro ⟨i, hi⟩
    exact ⟨i, replicate_prefix hu hunpaid hdone (fun j hj => (hi j).mp hj) 4 hstart
      (fun _ _ => rfl) rfl hrun⟩
  · rintro ⟨i, rest, rfl⟩
    obtain ⟨s₄, hrun₄, hrest⟩ := run_append_eq_some.mp hrun
    obtain ⟨hinv₄, hother, hrank⟩ :=
      run_replicate hu hunpaid 4 hstart (fun _ _ => rfl) rfl hrun₄
    -- from here on the order is paid, so nobody else becomes engaged
    have hpaid : ∀ s : OrderNet n, (s.loc i).rank = 4 → s.okCount ≠ 0 := fun s h h0 =>
      okCount_eq_zero_iff.mp h0 i h
    refine ⟨i, (run_induction (I := fun s => OrderInv before order cb s ∧ (s.loc i).rank = 4 ∧
      ∀ j, s.Engaged j ↔ j = i) ?_ ⟨hinv₄, hrank, fun j => ?_⟩ hrest).2.2⟩
    · rintro s a t ⟨hinv, hi, heng⟩ hstep
      have hai : i ≠ a := by
        rintro rfl
        have := rank_lt_of_step hstep
        omega
      refine ⟨(orderInv_step hu hunpaid hinv hstep).1, ?_, fun j => ?_⟩
      · rw [Net.step_loc_other hstep hai]
        exact hi
      · rw [engaged_step hu hunpaid hinv hstep j, heng j]
        simp [hpaid s hi]
    · by_cases hj : j = i
      · subst hj
        simp [OrderNet.Engaged, hrank]
      · simp [OrderNet.Engaged, hother j hj, hj]

end

/-- Order 5 of user 1: a top-up of 100 cents that waits for its payment. -/
def pendingOrder : Order := ⟨5, 1, none, 100, .stripe, .pending, none, none⟩

/-- The user and the order. -/
def pendingOrderPg : Pg := { oneSubPg 0 0 with orders := .single pendingOrder }

/-- A Stripe callback. -/
def stripeCallback : Callback := ⟨some (str "pi_1"), str "stripe", 10⟩

/-- The second callback arrives after the first has committed. -/
def retriedCallback : OrderNet 2 :=
  (run (Net.step (callbackProg 5 fun _ => stripeCallback)) [0, 0, 0, 0, 1]
    (OrderNet.start pendingOrderPg)).get (by decide)

theorem credited_once_of_retry : CreditedTimes pendingOrderPg pendingOrder 1
    retriedCallback.shared.committed :=
  (@credited_once_iff 2 pendingOrderPg pendingOrder (fun _ => stripeCallback) retriedCallback
    (userOne 0) (by decide) (by decide) rfl [0, 0, 0, 0, 1] (Option.some_get (by decide)).symm
    (by
      intro i
      match i with
      | 0 => exact ⟨.ok, by decide⟩
      | 1 => exact ⟨.alreadyPaid, by decide⟩)).mpr ⟨0, by decide⟩

/-- Two callbacks that both read the pending order: the wallet gets 200 cents for an
order of 100. -/
theorem credited_twice :
    (run (Net.step (callbackProg 5 fun _ : Fin 2 => stripeCallback)) [0, 1, 0, 0, 0, 1, 1, 1]
        (OrderNet.start pendingOrderPg)).map
      (fun s => (s.shared.committed.fundsOfOne.1, s.shared.committed.balanceTx.length,
        decide (∀ i, s.loc i = .done .ok))) = some (some 200, 2, true) := by
  decide

end Llmxy
