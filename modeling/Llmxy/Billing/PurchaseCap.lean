import Llmxy.Billing.Wallet
import Llmxy.Orders

/-!
# Ways to acquire a plan

Four entry points create subscription rows through `grant_subscription`: the wallet
(`subscribe_with_balance`), a paid order (`create_order`, `payment_callback`), a sign-up
and the backfill of the seed script.  A one-time plan may cap the purchases of one user.
The wallet and the backfill count the user's rows before they grant, and a new user has
none.  The two halves of an order count nothing.

Each entry point is an operation on the tables, run to its end before the next one
begins.

## Main definitions

* `createOrder`, `payOrder`, `signUp`, `seedBackfill` — the entry points.
* `Acquisition`, `acquire` — one of them, and the machine that runs them.
* `purchases` — the subscription rows of a user for a plan.
* `purchases_capped_iff` — when the cap holds in every state of a run.
-/

namespace Llmxy

/-! ### Orders -/

/-- `get_provider`: the providers are named by their channels. -/
def getProvider (channel : Str) : Option PaymentChannel :=
  [PaymentChannel.alipay, .wechat, .stripe].find? fun provider => provider.value = channel

/-- The answers of `create_order`. -/
inductive OrderResponse where
  | unsupportedChannel (channel : Str)
  | planNotFound
  | amountNotPositive
  | created (orderId : ℤ)
  | serverError
  deriving DecidableEq

/-- An order that waits for its payment. -/
def freshOrder (user : User) (planId : Option ℤ) (amountCents : ℤ) (channel : PaymentChannel)
    (oid : ℤ) : Order where
  id := oid
  userId := user.id
  planId := planId
  amountCents := amountCents
  channel := channel
  status := .pending
  providerOrderId := none
  paidAt := none

/-- Insert a pending order, whose plan is a foreign key. -/
def placeOrder (user : User) (planId : Option ℤ) (amountCents : ℤ) (channel : PaymentChannel)
    (pg : Pg) : OrderResponse × Pg :=
  if amountCents ≤ 0 then (.amountNotPositive, pg)
  else if pg.plans.refers planId then
    (.created pg.orders.nextId, { pg with
      orders := pg.orders.insert (freshOrder user planId amountCents channel) fun _ => rfl })
  else (.serverError, pg)

/-- Order a plan at its price, or a top-up of an amount. -/
def createOrder (user : User) (planId : Option ℤ) (amountCents : ℤ) (channel : Str) (pg : Pg) :
    OrderResponse × Pg :=
  match getProvider channel with
  | none => (.unsupportedChannel channel, pg)
  | some provider =>
      match planId.filter (· ≠ 0) with
      | none => placeOrder user planId amountCents provider pg
      | some id =>
          match (pg.plans.get? id).filter (·.active) with
          | none => (.planNotFound, pg)
          | some plan => placeOrder user planId plan.priceCents provider pg

/-- A payment callback, alone on the tables. -/
def payOrder (orderId : ℤ) (cb : Callback) (pg : Pg) : CallbackResponse × Pg :=
  match pg.orders.get? orderId with
  | none => (.orderNotFound, pg)
  | some order =>
      if order.status = .paid then (.alreadyPaid, pg)
      else
        match pg.users.get? order.userId with
        | none => (.serverError, pg)
        | some user => (.ok, creditOrder pg order cb user (markPaid order.id cb pg))

/-- A callback that runs alone, statement by statement, does what `payOrder` says. -/
theorem callbackProg_alone (orderId : ℤ) (cb : Callback) (pg : Pg) :
    ∃ as, (run (Net.step (callbackProg orderId fun _ : Fin 1 => cb)) as (OrderNet.start pg)).map
        (fun s => (s.loc 0, s.shared.committed)) =
      some (.done (payOrder orderId cb pg).1, (payOrder orderId cb pg).2) := by
  unfold payOrder
  cases horder : pg.orders.get? orderId with
  | none =>
      refine ⟨[0], ?_⟩
      simp [run_cons, Net.step, OrderNet.start, callbackProg, RowStore.view, horder]
  | some order =>
      by_cases hpaid : order.status = .paid
      · refine ⟨[0], ?_⟩
        simp [run_cons, Net.step, OrderNet.start, callbackProg, RowStore.view, horder, hpaid]
      · cases huser : pg.users.get? order.userId with
        | none =>
            refine ⟨[0, 0, 0], ?_⟩
            simp [run_cons, Net.step, OrderNet.start, callbackProg, RowStore.view, RowStore.idle,
              RowStore.update, horder, hpaid, huser, markPaid, RowStore.rollback]
        | some user =>
            have hid : user.id = order.userId := (Table.get?_eq_some.mp huser).2
            have hrow : (markPaid order.id cb pg).users.get? order.userId = some user := huser
            have hplan : orderPlan (markPaid order.id cb pg) order = orderPlan pg order := rfl
            refine ⟨[0, 0, 0, 0], ?_⟩
            cases hcase : orderPlan pg order <;>
              simp [run_cons, Net.step, OrderNet.start, callbackProg, RowStore.view, RowStore.idle,
                RowStore.update, RowStore.insert, RowStore.commit, horder, hpaid, huser, hrow, hplan,
                hcase, creditOrder, hid]

/-! ### Free plans -/

/-- The active plan of code `free`; codes are unique. -/
def freePlan (pg : Pg) : Option Plan :=
  pg.plans.rows.find? fun p => p.code = str "free" && p.active

/-- Insert a user. -/
def insertUser (pg : Pg) : Pg :=
  { pg with users := pg.users.insert (fun uid => ⟨uid, 0, .active⟩) fun _ => rfl }

/-- Grant the free plan, if there is one with a quota. -/
def grantSignupFreePlan (user : User) (now : ℤ) (pg : Pg) : Pg :=
  match freePlan pg with
  | none => pg
  | some free =>
      if 0 < free.quotaCents then grantSubscription user free (some (str "signup-free")) now pg
      else pg

/-- Register a user, whose address is new. -/
def signUp (now : ℤ) (pg : Pg) : Pg :=
  grantSignupFreePlan ⟨pg.users.nextId, 0, .active⟩ now (insertUser pg)

/-- The subscription rows of a user for a plan, whatever their status. -/
def purchases (pg : Pg) (uid planId : ℤ) : ℤ :=
  (pg.subscriptions.select fun s => s.userId = uid && s.planId = planId).length

/-- Grant the free plan to a user who has not used up its cap. -/
def backfillUser (free : Plan) (now : ℤ) (pg : Pg) (user : User) : Pg :=
  if free.maxPurchasesPerUser.any fun limit => limit ≤ purchases pg user.id free.id then pg
  else grantSubscription user free (some (str "seed-backfill")) now pg

/-- The backfill of the seed script: one grant of the free plan for every user. -/
def seedBackfill (now : ℤ) (pg : Pg) : Pg :=
  match freePlan pg with
  | none => pg
  | some free =>
      if 0 < free.quotaCents then pg.users.rows.foldl (backfillUser free now) pg else pg

/-! ### Runs -/

/-- The ways to acquire a plan, each with its request and its time. -/
inductive Acquisition where
  | subscribe (uid planId now : ℤ)
  | createOrder (uid : ℤ) (planId : Option ℤ) (amountCents : ℤ) (channel : Str)
  | callback (orderId : ℤ) (cb : Callback)
  | signUp (now : ℤ)
  | seedBackfill (now : ℤ)

/-- One of them, alone on the tables. -/
def Acquisition.exec (pg : Pg) : Acquisition → Pg
  | .subscribe uid planId now => ((WalletOp.subscribe uid planId now).exec pg).getD pg
  | .createOrder uid planId amountCents channel =>
      ((pg.users.get? uid).map fun user =>
        (Llmxy.createOrder user planId amountCents channel pg).2).getD pg
  | .callback orderId cb => (payOrder orderId cb pg).2
  | .signUp now => Llmxy.signUp now pg
  | .seedBackfill now => Llmxy.seedBackfill now pg

/-- The machine of a sequential run. -/
def acquire (pg : Pg) (a : Acquisition) : Option Pg := some (a.exec pg)

/-- Not the payment of an order for the plan by a user who has bought it `k` times. -/
def Acquisition.WithinCap (uid : ℤ) (plan : Plan) (k : ℤ) (pg : Pg) : Acquisition → Prop
  | .callback orderId _ => ∀ order ∈ pg.orders.get? orderId, order.status ≠ .paid →
      order.userId = uid → orderPlan pg order = some plan → purchases pg uid plan.id < k
  | _ => True

instance (uid : ℤ) (plan : Plan) (k : ℤ) (pg : Pg) (a : Acquisition) :
    Decidable (a.WithinCap uid plan k pg) :=
  match a with
  | .callback orderId _ => inferInstanceAs (Decidable (∀ order ∈ pg.orders.get? orderId,
      order.status ≠ .paid → order.userId = uid → orderPlan pg order = some plan →
        purchases pg uid plan.id < k))
  | .subscribe _ _ _ | .createOrder _ _ _ _ | .signUp _ | .seedBackfill _ => isTrue trivial

/-- The foreign keys to the users. -/
structure UserRefs (pg : Pg) : Prop where
  subscriptions : ∀ s ∈ pg.subscriptions.rows, (pg.users.get? s.userId).isSome
  orders : ∀ o ∈ pg.orders.rows, (pg.users.get? o.userId).isSome

/-! ### What an acquisition adds -/

section
variable {pg after : Pg} {plan p : Plan} {uid k now : ℤ} {user : User}

theorem purchases_congr (h : after.subscriptions = pg.subscriptions) (uid planId : ℤ) :
    purchases after uid planId = purchases pg uid planId := by
  rw [purchases, purchases, h]

/-- A grant adds one row. -/
theorem purchases_grant (user : User) (p : Plan) (refId : Option Str) (now : ℤ) (pg : Pg)
    (uid planId : ℤ) :
    purchases (grantSubscription user p refId now pg) uid planId =
      purchases pg uid planId + if user.id = uid ∧ p.id = planId then 1 else 0 := by
  rw [purchases, Table.select, rows_grantSubscription, List.filter_append, List.length_append,
    Nat.cast_add, purchases, Table.select]
  by_cases h : user.id = uid ∧ p.id = planId
  · simp [freshSubscription, h]
  · rw [if_neg h]
    simpa [freshSubscription] using h

/-- A grant to a user of the database keeps the foreign keys. -/
theorem UserRefs.grant (h : UserRefs pg) (hu : (pg.users.get? user.id).isSome) (p : Plan)
    (refId : Option Str) (now : ℤ) : UserRefs (grantSubscription user p refId now pg) where
  subscriptions := by
    intro s hs
    rcases List.mem_append.mp hs with hs | hs
    · exact h.subscriptions s hs
    · rw [List.mem_singleton.mp hs]
      exact hu
  orders := h.orders

/-- Neither the columns of a user nor those of an order are foreign keys. -/
theorem UserRefs.keep (h : UserRefs pg)
    (husers : ∀ uid, (after.users.get? uid).isSome = (pg.users.get? uid).isSome)
    (hsubs : after.subscriptions = pg.subscriptions)
    (horders : ∀ o ∈ after.orders.rows, (pg.users.get? o.userId).isSome) : UserRefs after where
  subscriptions := by
    intro s hs
    rw [husers]
    exact h.subscriptions s (hsubs ▸ hs)
  orders := by
    intro o ho
    rw [husers]
    exact horders o ho

/-- What every acquisition keeps: the plans, and the foreign keys to the users. -/
structure AcquisitionInv (plan : Plan) (pg : Pg) : Prop where
  refs : UserRefs pg
  plan : pg.plans.get? plan.id = some plan

variable {planId : ℤ}

theorem AcquisitionInv.subscribe (h : AcquisitionInv plan pg) (hu : pg.users.get? user.id = some user)
    (planId now : ℤ) : AcquisitionInv plan (subscribeWithBalance user planId now pg).2 := by
  rcases subscribeWithBalance_cases user planId now pg with heq | ⟨p, payer, hbought⟩
  · rw [heq]
    exact h
  · obtain ⟨-, -, -, -, hpayer, heq⟩ := hbought
    obtain ⟨hsubs, hplans, horders, husers⟩ :=
      paySubscription_frame user p (some (showInt pg.orders.nextId))
        (placeWalletOrder user p now pg)
    have husers' : ∀ uid, ((paySubscription user p
        (some (showInt pg.orders.nextId)) (placeWalletOrder user p now pg)).users.get? uid).isSome = (pg.users.get? uid).isSome :=
      husers
    have hpaid : UserRefs (paySubscription user p (some (showInt pg.orders.nextId))
        (placeWalletOrder user p now pg)) := by
      refine h.refs.keep husers' hsubs ?_
      intro o ho
      rw [horders] at ho
      rcases List.mem_append.mp ho with ho | ho
      · exact h.refs.orders o ho
      · rw [List.mem_singleton.mp ho]
        exact Option.isSome_of_eq_some hu
    rw [heq]
    refine ⟨hpaid.grant ?_ p _ now, ?_⟩
    · rw [hpayer, husers', hu]
      rfl
    · exact (congrArg (fun t : Table Plan => t.get? plan.id) hplans).trans h.plan

/-- The wallet counts before it grants. -/
theorem purchases_subscribe (h : AcquisitionInv plan pg) (htype : plan.planType = str "one_time")
    (hcap : plan.maxPurchasesPerUser = some k) (h0 : purchases pg uid plan.id ≤ k) :
    purchases (subscribeWithBalance user planId now pg).2 uid plan.id ≤ k := by
  rcases subscribeWithBalance_cases user planId now pg with heq | ⟨p, payer, hbought⟩
  · rw [heq]
    exact h0
  · obtain ⟨hp, -, hlimit, -, hpayer, heq⟩ := hbought
    obtain ⟨hsubs, -⟩ := paySubscription_frame user p (some (showInt pg.orders.nextId))
        (placeWalletOrder user p now pg)
    have hsubs' : (paySubscription user p (some (showInt pg.orders.nextId))
        (placeWalletOrder user p now pg)).subscriptions =
        pg.subscriptions := hsubs
    rw [heq, purchases_grant, purchases_congr hsubs']
    split_ifs with hsame
    · obtain ⟨huid, hpid⟩ := hsame
      have hplan : p = plan := by
        have hid : planId = plan.id := (Table.get?_eq_some.mp hp).2.symm.trans hpid
        rw [hid, h.plan] at hp
        exact (Option.some.inj hp).symm
      subst hplan
      rw [purchaseLimitReached, if_pos htype, hcap, Option.bind_some] at hlimit
      rw [hpayer] at huid
      rw [huid] at hlimit
      have hless : ¬ k ≤ purchases pg uid p.id := by
        intro hk
        have hreached := (if_pos hk).symm.trans hlimit
        cases hreached
      omega
    · simpa using h0

/-- Placing an order changes the orders alone. -/
theorem placeOrder_cases (user : User) (planId : Option ℤ) (amountCents : ℤ)
    (channel : PaymentChannel) (pg : Pg) :
    (placeOrder user planId amountCents channel pg).2 = pg ∨
      (placeOrder user planId amountCents channel pg).2 = { pg with
        orders := pg.orders.insert (freshOrder user planId amountCents channel) fun _ => rfl } := by
  unfold placeOrder
  split_ifs
  · exact Or.inl rfl
  · exact Or.inr rfl
  · exact Or.inl rfl

/-- Ordering a plan changes the orders alone: it adds a pending one of the channel. -/
theorem createOrder_cases (user : User) (planId : Option ℤ) (amountCents : ℤ) (channel : Str)
    (pg : Pg) : (createOrder user planId amountCents channel pg).2 = pg ∨
    ∃ cents provider, getProvider channel = some provider ∧
      (createOrder user planId amountCents channel pg).2 = { pg with
        orders := pg.orders.insert (freshOrder user planId cents provider) fun _ => rfl } := by
  unfold createOrder
  cases getProvider channel with
  | none => exact Or.inl rfl
  | some provider =>
      have hplaced : ∀ cents, (placeOrder user planId cents provider pg).2 = pg ∨
          ∃ cents' provider', some provider = some provider' ∧
            (placeOrder user planId cents provider pg).2 = { pg with
              orders := pg.orders.insert (freshOrder user planId cents' provider')
                fun _ => rfl } := fun cents =>
        (placeOrder_cases user planId cents provider pg).imp id fun h => ⟨cents, provider, rfl, h⟩
      dsimp only
      cases planId.filter (· ≠ 0) with
      | none => exact hplaced amountCents
      | some id =>
          dsimp only
          cases (pg.plans.get? id).filter (·.active) with
          | none => exact Or.inl rfl
          | some plan => exact hplaced plan.priceCents

theorem AcquisitionInv.createOrder (h : AcquisitionInv plan pg)
    (hu : pg.users.get? user.id = some user) (planId : Option ℤ) (amountCents : ℤ)
    (channel : Str) : AcquisitionInv plan (createOrder user planId amountCents channel pg).2 ∧
      (createOrder user planId amountCents channel pg).2.subscriptions = pg.subscriptions := by
  rcases createOrder_cases user planId amountCents channel pg with
    heq | ⟨cents, provider, -, heq⟩
  · rw [heq]
    exact ⟨h, rfl⟩
  · rw [heq]
    refine ⟨⟨h.refs.keep (fun _ => rfl) rfl ?_, h.plan⟩, rfl⟩
    intro o ho
    rcases List.mem_append.mp ho with ho | ho
    · exact h.refs.orders o ho
    · rw [List.mem_singleton.mp ho]
      exact Option.isSome_of_eq_some hu

/-- What a callback does to the tables: nothing, or the order is marked and credited. -/
theorem payOrder_cases (orderId : ℤ) (cb : Callback) (pg : Pg) :
    (payOrder orderId cb pg).2 = pg ∧
      (∀ order ∈ pg.orders.get? orderId, order.status ≠ .paid →
        (pg.users.get? order.userId).isSome = false) ∨
    ∃ order user, pg.orders.get? orderId = some order ∧ order.status ≠ .paid ∧
      pg.users.get? order.userId = some user ∧
      (payOrder orderId cb pg).2 = creditOrder pg order cb user (markPaid order.id cb pg) := by
  unfold payOrder
  cases horder : pg.orders.get? orderId with
  | none => exact Or.inl ⟨rfl, by simp⟩
  | some order =>
      dsimp only
      by_cases hpaid : order.status = .paid
      · rw [if_pos hpaid]
        exact Or.inl ⟨rfl, by simp [hpaid]⟩
      · rw [if_neg hpaid]
        cases huser : pg.users.get? order.userId with
        | none => exact Or.inl ⟨rfl, by simp [huser]⟩
        | some user => exact Or.inr ⟨order, user, rfl, hpaid, huser, rfl⟩

/-- Marking an order keeps the user it names. -/
theorem UserRefs.markPaid (h : UserRefs pg) (orderId : ℤ) (cb : Callback) :
    UserRefs (markPaid orderId cb pg) := by
  refine h.keep (fun _ => rfl) rfl ?_
  intro o ho
  obtain ⟨r, hr, rfl⟩ := List.mem_map.mp ho
  have := h.orders r hr
  split_ifs <;> exact this

theorem AcquisitionInv.payOrder (h : AcquisitionInv plan pg) (orderId : ℤ) (cb : Callback) :
    AcquisitionInv plan (payOrder orderId cb pg).2 := by
  rcases payOrder_cases orderId cb pg with ⟨heq, -⟩ | ⟨order, user, -, -, huser, heq⟩
  · rw [heq]
    exact h
  · rw [heq]
    have hmarked := h.refs.markPaid order.id cb
    have hid : user.id = order.userId := (Table.get?_eq_some.mp huser).2
    have hplan : (Llmxy.markPaid order.id cb pg).plans.get? plan.id = some plan := h.plan
    unfold creditOrder
    cases orderPlan pg order with
    | some p =>
        refine ⟨hmarked.grant ?_ p _ _, hplan⟩
        rw [hid]
        exact Option.isSome_of_eq_some huser
    | none =>
        refine ⟨hmarked.keep (fun uid => Table.isSome_get?_update _ _ _ _) rfl ?_, hplan⟩
        exact hmarked.orders

/-- A callback counts nothing. -/
theorem purchases_payOrder_iff (h : AcquisitionInv plan pg) (orderId : ℤ) (cb : Callback)
    (h0 : purchases pg uid plan.id ≤ k) :
    purchases (payOrder orderId cb pg).2 uid plan.id ≤ k ↔
      (Acquisition.callback orderId cb).WithinCap uid plan k pg := by
  rcases payOrder_cases orderId cb pg with ⟨heq, hnone⟩ | ⟨order, user, horder, hunpaid, huser, heq⟩
  · rw [heq]
    refine iff_of_true h0 ?_
    intro order horder hunpaid huid
    have huser := hnone order horder hunpaid
    rw [h.refs.orders order (Table.get?_eq_some.mp horder).1] at huser
    cases huser
  · have hid : user.id = order.userId := (Table.get?_eq_some.mp huser).2
    have hcap : (Acquisition.callback orderId cb).WithinCap uid plan k pg ↔
        (order.userId = uid → orderPlan pg order = some plan → purchases pg uid plan.id < k) := by
      simp only [Acquisition.WithinCap, horder, Option.mem_some_iff, forall_eq']
      exact forall_prop_of_true hunpaid
    rw [heq, hcap]
    unfold creditOrder
    cases hbought : orderPlan pg order with
    | some p =>
        have hp : pg.plans.get? p.id = some p := by
          obtain ⟨id, -, hget⟩ := Option.bind_eq_some_iff.mp hbought
          rw [← (Table.get?_eq_some.mp hget).2] at hget
          exact hget
        simp only [purchases_grant, hid]
        have hmarked : purchases (Llmxy.markPaid order.id cb pg) uid plan.id =
            purchases pg uid plan.id := rfl
        rw [hmarked]
        by_cases hsame : order.userId = uid ∧ p.id = plan.id
        · obtain ⟨huid, hpid⟩ := hsame
          rw [hpid, h.plan] at hp
          rw [if_pos ⟨huid, hpid⟩, ← hp]
          simp only [huid, forall_true_left]
          omega
        · rw [if_neg hsame, add_zero]
          refine iff_of_true h0 ?_
          intro huid hplan
          rw [Option.some.injEq] at hplan
          exact absurd ⟨huid, congrArg Plan.id hplan⟩ hsame
    | none => exact iff_of_true h0 (by simp)

theorem freePlan_get? {free : Plan} (h : freePlan pg = some free) :
    pg.plans.get? free.id = some free :=
  Table.get?_eq_some.mpr ⟨List.mem_of_find?_eq_some h, rfl⟩

/-- A new user has bought nothing before the sign-up. -/
theorem purchases_newUser (h : UserRefs pg) (planId : ℤ) :
    purchases pg pg.users.nextId planId = 0 := by
  rw [purchases, Table.select, List.filter_eq_nil_iff.mpr]
  · rfl
  · intro s hs hsame
    simp only [Bool.and_eq_true, decide_eq_true_eq] at hsame
    have huser := h.subscriptions s hs
    rw [hsame.1] at huser
    obtain ⟨u, hu⟩ := Option.isSome_iff_exists.mp huser
    obtain ⟨hmem, hid⟩ := Table.get?_eq_some.mp hu
    exact pg.users.nextId_notMem (List.mem_map.mpr ⟨u, hmem, hid⟩)

theorem get?_insertUser (pg : Pg) (x : ℤ) : (insertUser pg).users.get? x =
    if x = pg.users.nextId then some ⟨x, 0, .active⟩ else pg.users.get? x :=
  Table.get?_insert _ _ _ x

theorem isSome_insertUser {x : ℤ} (h : (pg.users.get? x).isSome) :
    ((insertUser pg).users.get? x).isSome := by
  rw [get?_insertUser]
  split_ifs
  · rfl
  · exact h

theorem AcquisitionInv.insertUser (h : AcquisitionInv plan pg) :
    AcquisitionInv plan (insertUser pg) :=
  ⟨⟨fun s hs => isSome_insertUser (h.refs.subscriptions s hs),
    fun o ho => isSome_insertUser (h.refs.orders o ho)⟩, h.plan⟩

theorem AcquisitionInv.signUp (h : AcquisitionInv plan pg) (now : ℤ) :
    AcquisitionInv plan (signUp now pg) := by
  unfold Llmxy.signUp grantSignupFreePlan
  cases freePlan (Llmxy.insertUser pg) with
  | none => exact h.insertUser
  | some free =>
      dsimp only
      split_ifs with hquota
      · refine ⟨h.insertUser.refs.grant ?_ free _ now, h.insertUser.plan⟩
        rw [get?_insertUser, if_pos rfl]
        rfl
      · exact h.insertUser

/-- The plan of a sign-up is the first that its user has. -/
theorem purchases_signUp (h : AcquisitionInv plan pg) (hk : 1 ≤ k)
    (h0 : purchases pg uid plan.id ≤ k) (now : ℤ) : purchases (signUp now pg) uid plan.id ≤ k := by
  have hcount : purchases (Llmxy.insertUser pg) uid plan.id = purchases pg uid plan.id := rfl
  unfold Llmxy.signUp grantSignupFreePlan
  cases freePlan (Llmxy.insertUser pg) with
  | none => exact h0
  | some free =>
      dsimp only
      split_ifs with hquota
      · rw [purchases_grant, hcount]
        split_ifs with hsame
        · rw [← hsame.1, purchases_newUser h.refs]
          omega
        · omega
      · exact h0

/-- The backfill grants to the users of the database, one after the other. -/
theorem seedBackfill_induction {M : Pg → Prop} (h0 : M pg)
    (hstep : ∀ free user pg', freePlan pg = some free → user ∈ pg.users.rows →
      pg'.users = pg.users → pg'.plans = pg.plans → M pg' → M (backfillUser free now pg' user)) :
    M (seedBackfill now pg) := by
  unfold seedBackfill
  cases hfree : freePlan pg with
  | none => exact h0
  | some free =>
      dsimp only
      split_ifs with hquota
      · have hfold : ∀ (users : List User) (pg' : Pg), (∀ u ∈ users, u ∈ pg.users.rows) →
            pg'.users = pg.users → pg'.plans = pg.plans → M pg' →
            M (users.foldl (backfillUser free now) pg') := by
          intro users
          induction users with
          | nil => exact fun pg' _ _ _ h => h
          | cons u users ih =>
              intro pg' hmem husers hplans h
              have hframe : (backfillUser free now pg' u).users = pg'.users ∧
                  (backfillUser free now pg' u).plans = pg'.plans := by
                unfold backfillUser
                split_ifs <;> exact ⟨rfl, rfl⟩
              exact ih _ (fun v hv => hmem v (List.mem_cons_of_mem _ hv))
                (hframe.1.trans husers) (hframe.2.trans hplans)
                (hstep free u pg' hfree (hmem u (by simp)) husers hplans h)
        exact hfold _ pg (fun _ hu => hu) rfl rfl h0
      · exact h0

theorem AcquisitionInv.seedBackfill (h : AcquisitionInv plan pg) (now : ℤ) :
    AcquisitionInv plan (seedBackfill now pg) := by
  refine seedBackfill_induction (M := AcquisitionInv plan) h ?_
  intro free user pg' _ huser husers _ h'
  unfold backfillUser
  split_ifs
  · exact h'
  · refine ⟨h'.refs.grant ?_ free _ now, h'.plan⟩
    rw [husers]
    exact Option.isSome_of_eq_some (Table.get?_eq_some.mpr ⟨huser, rfl⟩)

/-- The backfill counts before it grants. -/
theorem purchases_seedBackfill (h : AcquisitionInv plan pg)
    (hcap : plan.maxPurchasesPerUser = some k) (h0 : purchases pg uid plan.id ≤ k) (now : ℤ) :
    purchases (seedBackfill now pg) uid plan.id ≤ k := by
  refine seedBackfill_induction (M := fun pg => purchases pg uid plan.id ≤ k) h0 ?_
  intro free user pg' hfree _ _ _ hcount
  unfold backfillUser
  split_ifs with hlimit
  · exact hcount
  · rw [purchases_grant]
    split_ifs with hsame
    · obtain ⟨rfl, hid⟩ := hsame
      have hget := freePlan_get? hfree
      rw [hid, h.plan] at hget
      cases hget
      rw [hcap, Option.any_some, decide_eq_true_eq] at hlimit
      omega
    · omega

/-! ### Runs -/

/-- A request to subscribe commits what it has done, or nothing. -/
theorem exec_subscribe_cases (uid planId now : ℤ) (pg : Pg) :
    (Acquisition.subscribe uid planId now).exec pg = pg ∨
    ∃ user, pg.users.get? user.id = some user ∧
      (Acquisition.subscribe uid planId now).exec pg = (subscribeWithBalance user planId now pg).2 := by
  simp only [Acquisition.exec]
  cases hexec : (WalletOp.subscribe uid planId now).exec pg with
  | none => exact Or.inl rfl
  | some after =>
      obtain ⟨user, huser, hcommit⟩ := Option.bind_eq_some_iff.mp hexec
      rw [← (Table.get?_eq_some.mp huser).2] at huser
      exact Or.inr ⟨user, huser, commitTo_eq_some hcommit⟩

theorem exec_createOrder_cases (uid : ℤ) (planId : Option ℤ) (amountCents : ℤ) (channel : Str)
    (pg : Pg) : (Acquisition.createOrder uid planId amountCents channel).exec pg = pg ∨
    ∃ user, pg.users.get? user.id = some user ∧
      (Acquisition.createOrder uid planId amountCents channel).exec pg =
        (createOrder user planId amountCents channel pg).2 := by
  simp only [Acquisition.exec]
  cases huser : pg.users.get? uid with
  | none => exact Or.inl rfl
  | some user =>
      rw [← (Table.get?_eq_some.mp huser).2] at huser
      exact Or.inr ⟨user, huser, rfl⟩

theorem acquisitionInv_exec (h : AcquisitionInv plan pg) (a : Acquisition) :
    AcquisitionInv plan (a.exec pg) := by
  cases a with
  | subscribe uid planId now =>
      rcases exec_subscribe_cases uid planId now pg with heq | ⟨user, huser, heq⟩
      · rw [heq]
        exact h
      · rw [heq]
        exact h.subscribe huser planId now
  | createOrder uid planId amountCents channel =>
      rcases exec_createOrder_cases uid planId amountCents channel pg with heq | ⟨user, huser, heq⟩
      · rw [heq]
        exact h
      · rw [heq]
        exact (h.createOrder huser planId amountCents channel).1
  | callback orderId cb => exact h.payOrder orderId cb
  | signUp now => exact h.signUp now
  | seedBackfill now => exact h.seedBackfill now

/-- **One acquisition** keeps the cap exactly when it is not an order paid beyond it. -/
theorem purchases_exec_iff (h : AcquisitionInv plan pg) (htype : plan.planType = str "one_time")
    (hcap : plan.maxPurchasesPerUser = some k) (hk : 1 ≤ k) (h0 : purchases pg uid plan.id ≤ k)
    (a : Acquisition) :
    purchases (a.exec pg) uid plan.id ≤ k ↔ a.WithinCap uid plan k pg := by
  cases a with
  | subscribe buyer planId now =>
      refine iff_of_true ?_ trivial
      rcases exec_subscribe_cases buyer planId now pg with heq | ⟨user, huser, heq⟩
      · rw [heq]
        exact h0
      · rw [heq]
        exact purchases_subscribe h htype hcap h0
  | createOrder buyer planId amountCents channel =>
      refine iff_of_true ?_ trivial
      rcases exec_createOrder_cases buyer planId amountCents channel pg with heq | ⟨user, huser, heq⟩
      · rw [heq]
        exact h0
      · rw [heq, purchases_congr (h.createOrder huser planId amountCents channel).2]
        exact h0
  | callback orderId cb => exact purchases_payOrder_iff h orderId cb h0
  | signUp now => exact iff_of_true (purchases_signUp h hk h0 now) trivial
  | seedBackfill now => exact iff_of_true (purchases_seedBackfill h hcap h0 now) trivial

/-- **The lifetime cap of a one-time plan** holds in every state of a run exactly when no
order for the plan is paid by a user who has used the cap up. -/
theorem purchases_capped_iff (hrefs : UserRefs pg) (hplan : pg.plans.get? plan.id = some plan)
    (htype : plan.planType = str "one_time") (hcap : plan.maxPurchasesPerUser = some k)
    (hk : 1 ≤ k) (h0 : purchases pg uid plan.id ≤ k) (as : List Acquisition) :
    (∀ bs after, bs <+: as → run acquire bs pg = some after → purchases after uid plan.id ≤ k) ↔
      Along acquire (fun pg a => a.WithinCap uid plan k pg) as pg := by
  refine forall_prefix_iff_along (J := AcquisitionInv plan)
    (I := fun pg => purchases pg uid plan.id ≤ k) ?_ (fun _ _ hstuck => nomatch hstuck) ?_ as
    ⟨hrefs, hplan⟩ h0
  · intro pg a after h hstep
    cases hstep
    exact acquisitionInv_exec h a
  · intro pg a after h hcount hstep
    cases hstep
    exact purchases_exec_iff h htype hcap hk hcount a

end

/-- A one-time plan for 100 cents that everyone may buy once. -/
def oncePlan : Plan := ⟨7, str "once", str "one_time", 100, 500, 30, some 1, true⟩

/-- User 1 with an empty wallet, and the plan. -/
def oncePg : Pg := { oneSubPg 0 0 with
  users := .single (userOne 0)
  plans := .single oncePlan
  subscriptions := .empty }

/-- The user orders the plan, pays, and asks for it again from the wallet. -/
def orderOnce : List Acquisition :=
  [.createOrder 1 (some 7) 0 (str "stripe"), .callback 1 stripeCallback, .subscribe 1 7 20]

theorem purchases_capped_orderOnce :
    ∃ after, run acquire orderOnce oncePg = some after ∧ purchases after 1 7 ≤ 1 :=
  ⟨_, rfl, (@purchases_capped_iff oncePg oncePlan 1 1 ⟨by decide, by decide⟩ (by decide) rfl rfl
    (by decide) (by decide) orderOnce).mpr (by decide) orderOnce _ List.prefix_rfl rfl⟩

/-- Two orders for the plan, both paid: two subscriptions of a plan that may be bought
once. -/
theorem purchases_exceed_cap :
    (run acquire [.createOrder 1 (some 7) 0 (str "stripe"), .createOrder 1 (some 7) 0 (str "stripe"),
        .callback 1 stripeCallback, .callback 2 stripeCallback] oncePg).map
      (fun pg => purchases pg 1 7) = some 2 := by
  decide

end Llmxy
