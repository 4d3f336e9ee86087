import Llmxy.Billing.PurchaseCap
import Llmxy.Lib.Json

/-!
# Which provider pays an order

`payment_callback` takes the provider from the path, asks it about the payload, and takes the
order from the payload.  The order keeps the channel it was created for; the callback does not
look at it.

A provider is an arbitrary predicate of the payload and the headers.  Each request is run to
its end before the next one begins.

## Main definitions

* `paymentCallback` — a callback, from the request on.
* `PaymentDesk`, `PaymentDesk.step` — orders and callbacks on one database.
* `PaidThroughOwn` — a paid order was confirmed by its own provider.
* `paidThroughOwn_iff` — when it is so in every state of a run.
-/

namespace Llmxy

/-- `verify_callback` of the providers: whether a payload is accepted, and the provider's id of
the order. -/
abbrev VerifyCallback := PaymentChannel → Json → List (Str × Str) → Bool × Option Str

/-- A request of `payment_callback`: the channel of its path, its payload, its headers, and the
time. -/
structure PaymentRequest where
  channel : Str
  payload : Json
  headers : List (Str × Str)
  now : ℤ

/-- The answers of `payment_callback`. -/
inductive PaymentResponse where
  | unknownChannel
  | invalidSignature
  | order (response : CallbackResponse)
  deriving DecidableEq

namespace PaymentRequest

/-- `int(payload.get("order_id"))`. -/
def orderId (req : PaymentRequest) : Option ℤ :=
  (req.payload.get? (str "order_id")).bind Json.toInt?

/-- The provider of a channel has accepted a payload that names an order. -/
def AcceptedBy (verify : VerifyCallback) (req : PaymentRequest) (channel : PaymentChannel)
    (orderId : ℤ) : Prop :=
  getProvider req.channel = some channel ∧
    (verify channel req.payload req.headers).1 = true ∧ req.orderId = some orderId

instance (verify : VerifyCallback) (req : PaymentRequest) (channel : PaymentChannel)
    (orderId : ℤ) : Decidable (req.AcceptedBy verify channel orderId) :=
  inferInstanceAs (Decidable (_ ∧ _ ∧ _))

end PaymentRequest

/-- `payment_callback`, alone on the tables. -/
def paymentCallback (verify : VerifyCallback) (req : PaymentRequest) (pg : Pg) :
    PaymentResponse × Pg :=
  match getProvider req.channel with
  | none => (.unknownChannel, pg)
  | some provider =>
      let (ok, providerOrderId) := verify provider req.payload req.headers
      if ok = false then (.invalidSignature, pg)
      else
        match req.orderId with
        | none => (.order .serverError, pg)
        | some orderId =>
            let (response, pg) := payOrder orderId ⟨providerOrderId, req.channel, req.now⟩ pg
            (.order response, pg)

/-- The database, and the callbacks it has had. -/
structure PaymentDesk where
  pg : Pg
  handled : List PaymentRequest

/-- A request. -/
inductive PaymentLabel where
  | createOrder (uid : ℤ) (planId : Option ℤ) (amountCents : ℤ) (channel : Str)
  | callback (req : PaymentRequest)

/-- The machine of a sequential run. -/
def PaymentDesk.step (verify : VerifyCallback) (s : PaymentDesk) :
    PaymentLabel → Option PaymentDesk
  | .createOrder uid planId amountCents channel =>
      some { s with
        pg := ((s.pg.users.get? uid).map fun user =>
          (createOrder user planId amountCents channel s.pg).2).getD s.pg }
  | .callback req => some ⟨(paymentCallback verify req s.pg).2, req :: s.handled⟩

/-- The order is paid. -/
def PaidIn (pg : Pg) (orderId : ℤ) : Prop :=
  ∃ order, pg.orders.get? orderId = some order ∧ order.status = .paid

/-- An order that was paid since `before` was confirmed by the provider of its channel. -/
def PaidThroughOwn (verify : VerifyCallback) (before : Pg) (s : PaymentDesk) : Prop :=
  ∀ order ∈ s.pg.orders.rows, order.status = .paid → ¬PaidIn before order.id →
    ∃ req ∈ s.handled, req.AcceptedBy verify order.channel order.id

/-- The order that a callback pays: a provider accepts the payload, which names it, it is not
paid and has a user. -/
def PaymentRequest.Pays (verify : VerifyCallback) (req : PaymentRequest) (pg : Pg)
    (order : Order) : Prop :=
  ∃ provider, req.AcceptedBy verify provider order.id ∧ pg.orders.get? order.id = some order ∧
    order.status ≠ .paid ∧ (pg.users.get? order.userId).isSome = true

/-- A callback that pays an order comes in by the channel of the order, or the provider of
that channel has confirmed the order before. -/
def PaysOwn (verify : VerifyCallback) (s : PaymentDesk) : PaymentLabel → Prop
  | .callback req => ∀ order, req.Pays verify s.pg order →
      getProvider req.channel = some order.channel ∨
        ∃ earlier ∈ s.handled, earlier.AcceptedBy verify order.channel order.id
  | _ => True

/-! ### What a callback does -/

section
variable {verify : VerifyCallback} {req : PaymentRequest} {pg before : Pg} {s t : PaymentDesk}

/-- A callback leaves the tables alone, or it pays an order. -/
theorem paymentCallback_cases (verify : VerifyCallback) (req : PaymentRequest) (pg : Pg) :
    ((paymentCallback verify req pg).2 = pg ∧ ∀ order, ¬req.Pays verify pg order) ∨
    ∃ order user cb, req.Pays verify pg order ∧ (∀ other, req.Pays verify pg other → other = order) ∧
      (paymentCallback verify req pg).2 = creditOrder pg order cb user (markPaid order.id cb pg) := by
  rw [paymentCallback]
  cases hprovider : getProvider req.channel with
  | none =>
      refine .inl ⟨rfl, ?_⟩
      rintro order ⟨provider, ⟨hsome, -⟩, -⟩
      cases hprovider.symm.trans hsome
  | some provider =>
      -- whoever has accepted the request is this provider
      have hsame : ∀ {channel id}, req.AcceptedBy verify channel id →
          channel = provider ∧ (verify provider req.payload req.headers).1 = true ∧
            req.orderId = some id := by
        rintro channel id ⟨hsome, hok, hid⟩
        obtain rfl := Option.some.inj (hprovider.symm.trans hsome)
        exact ⟨rfl, hok, hid⟩
      dsimp only
      split_ifs with hok
      · refine .inl ⟨rfl, ?_⟩
        rintro order ⟨channel, haccepted, -⟩
        rw [hok] at hsame
        exact absurd (hsame haccepted).2.1 Bool.false_ne_true
      · cases hid : req.orderId with
        | none =>
            refine .inl ⟨rfl, ?_⟩
            rintro order ⟨channel, haccepted, -⟩
            cases hid.symm.trans (hsame haccepted).2.2
        | some orderId =>
            dsimp only
            obtain ⟨heq, hnone⟩ | ⟨order, user, horder, hunpaid, huser, heq⟩ :=
              payOrder_cases orderId ⟨(verify provider req.payload req.headers).2, req.channel,
                req.now⟩ pg
            · refine .inl ⟨heq, ?_⟩
              rintro order ⟨channel, haccepted, horder, hunpaid, huser⟩
              obtain rfl := Option.some.inj (hid.symm.trans (hsame haccepted).2.2)
              rw [hnone order horder hunpaid] at huser
              exact absurd huser Bool.false_ne_true
            · have hrow : order.id = orderId := (Table.get?_eq_some.mp horder).2
              refine .inr ⟨order, user, _, ⟨provider, ⟨hprovider, by simpa using hok, ?_⟩, ?_,
                hunpaid, Option.isSome_of_eq_some huser⟩, ?_, heq⟩
              · rw [hid, hrow]
              · rw [hrow, horder]
              · rintro other ⟨channel, haccepted, hother, -⟩
                have hid' := Option.some.inj (hid.symm.trans (hsame haccepted).2.2)
                rw [← hid', horder] at hother
                exact (Option.some.inj hother).symm

/-- A callback that pays nothing changes nothing. -/
theorem paymentCallback_frame (h : ∀ order, ¬req.Pays verify pg order) :
    (paymentCallback verify req pg).2 = pg := by
  obtain ⟨heq, -⟩ | ⟨order, -, -, hpays, -⟩ := paymentCallback_cases verify req pg
  · exact heq
  · exact absurd hpays (h order)

/-- The rows of the orders after one was paid. -/
theorem mem_orders_paid {order o : Order} {user : User} {cb : Callback} :
    o ∈ (creditOrder pg order cb user (markPaid order.id cb pg)).orders.rows ↔
      ∃ r ∈ pg.orders.rows, (if r.id = order.id then (Order.setPaid cb).1 r else r) = o := by
  rw [(creditOrder_frame pg order cb user _).1]
  exact List.mem_map

/-! ### Runs -/

/-- What was paid before is paid. -/
def StayPaid (before : Pg) (s : PaymentDesk) : Prop :=
  ∀ orderId, PaidIn before orderId → PaidIn s.pg orderId

theorem stayPaid_step (h : StayPaid before s) {l : PaymentLabel}
    (hstep : s.step verify l = some t) : StayPaid before t := by
  intro orderId hpaid
  obtain ⟨order, horder, hstatus⟩ := h orderId hpaid
  cases l with
  | createOrder uid planId amountCents channel =>
      obtain rfl := Option.some.inj hstep
      cases huser : s.pg.users.get? uid with
      | none => exact ⟨order, by simpa [huser] using horder, hstatus⟩
      | some user =>
          obtain heq | ⟨cents, provider, -, heq⟩ :=
            createOrder_cases user planId amountCents channel s.pg
          · exact ⟨order, by simpa [huser, heq] using horder, hstatus⟩
          · refine ⟨order, ?_, hstatus⟩
            have hne : orderId ≠ s.pg.orders.nextId := by
              rintro rfl
              obtain ⟨hmem, hid⟩ := Table.get?_eq_some.mp horder
              exact s.pg.orders.nextId_notMem (List.mem_map.mpr ⟨order, hmem, hid⟩)
            simp only [Option.map_some, Option.getD_some, heq]
            exact (Table.get?_insert _ _ _ _).trans ((if_neg hne).trans horder)
  | callback req =>
      obtain rfl := Option.some.inj hstep
      obtain ⟨heq, -⟩ | ⟨paid, user, cb, -, -, heq⟩ := paymentCallback_cases verify req s.pg
      · refine ⟨order, ?_, hstatus⟩
        rw [heq, horder]
      · by_cases hid : orderId = paid.id
        · refine ⟨(Order.setPaid cb).1 order, ?_, rfl⟩
          rw [heq, (creditOrder_frame s.pg paid cb user _).1, markPaid, hid,
            Table.get?_update_self, ← hid, horder]
          rfl
        · refine ⟨order, ?_, hstatus⟩
          rw [heq, (creditOrder_frame s.pg paid cb user _).1, markPaid,
            Table.get?_update_of_ne hid, horder]

/-- A confirmation stays one. -/
theorem PaidThroughOwn.handled (h : PaidThroughOwn verify before s) (req : PaymentRequest) :
    PaidThroughOwn verify before { s with handled := req :: s.handled } := by
  intro order hmem hpaid hbefore
  obtain ⟨earlier, hearlier, haccepted⟩ := h order hmem hpaid hbefore
  exact ⟨earlier, List.mem_cons_of_mem _ hearlier, haccepted⟩

/-- **One request** keeps paid orders confirmed by their own providers exactly when it does
not pay one through another. -/
theorem paidThroughOwn_step_iff (hstay : StayPaid before s) (h : PaidThroughOwn verify before s)
    {l : PaymentLabel} (hstep : s.step verify l = some t) :
    PaidThroughOwn verify before t ↔ PaysOwn verify s l := by
  cases l with
  | createOrder uid planId amountCents channel =>
      refine iff_of_true ?_ trivial
      obtain rfl := Option.some.inj hstep
      cases huser : s.pg.users.get? uid with
      | none => exact h
      | some user =>
          intro order hmem hpaid hbefore
          obtain heq | ⟨cents, provider, -, heq⟩ :=
            createOrder_cases user planId amountCents channel s.pg
          · simp only [Option.map_some, Option.getD_some, heq] at hmem
            exact h order hmem hpaid hbefore
          · simp only [Option.map_some, Option.getD_some, heq] at hmem
            obtain hmem | hmem := List.mem_append.mp hmem
            · exact h order hmem hpaid hbefore
            · rw [List.mem_singleton.mp hmem] at hpaid
              cases hpaid
  | callback req =>
      obtain rfl := Option.some.inj hstep
      obtain ⟨heq, hnone⟩ | ⟨paid, user, cb, hpays, honly, heq⟩ :=
        paymentCallback_cases verify req s.pg
      · rw [heq]
        exact iff_of_true (h.handled req) fun order hpays => absurd hpays (hnone order)
      obtain ⟨provider, haccepted, hrow, hunpaid, huser⟩ := hpays
      obtain ⟨hmem, -⟩ := Table.get?_eq_some.mp hrow
      constructor
      · intro hown order hpays'
        obtain rfl := honly order hpays'
        have hbefore : ¬PaidIn before order.id := by
          intro hpaid
          obtain ⟨o, ho, hstatus⟩ := hstay order.id hpaid
          obtain rfl := Option.some.inj (hrow.symm.trans ho)
          exact hunpaid hstatus
        obtain ⟨accepting, hhandled, hchannel, hok, hid⟩ :=
          hown ((Order.setPaid cb).1 order) (heq ▸ mem_orders_paid.mpr ⟨order, hmem, if_pos rfl⟩)
            rfl hbefore
        obtain rfl | hhandled := List.mem_cons.mp hhandled
        · exact .inl hchannel
        · exact .inr ⟨accepting, hhandled, hchannel, hok, hid⟩
      · intro hpaysOwn order hmem' hpaid hbefore
        obtain ⟨r, hr, heq'⟩ := mem_orders_paid.mp (heq ▸ hmem')
        split_ifs at heq' with hid
        · obtain rfl : r = paid := Table.eq_of_rowId_eq hr hmem hid
          obtain rfl := heq'
          obtain hchannel | ⟨earlier, hearlier, hown⟩ :=
            hpaysOwn r ⟨provider, haccepted, hrow, hunpaid, huser⟩
          · obtain ⟨hprovider, hok, hnamed⟩ := haccepted
            obtain rfl := Option.some.inj (hprovider.symm.trans hchannel)
            exact ⟨req, List.mem_cons_self, hprovider, hok, hnamed⟩
          · exact ⟨earlier, List.mem_cons_of_mem _ hearlier, hown⟩
        · subst heq'
          exact h.handled req r hr hpaid hbefore

/-- **An order is paid only through its own provider**, in every state of a run, exactly when
each callback that pays an order comes in by the channel of the order, or after its provider
has confirmed it. -/
theorem paidThroughOwn_iff (verify : VerifyCallback) (before : Pg) (labels : List PaymentLabel) :
    (∀ prefixes t, prefixes <+: labels →
        run (PaymentDesk.step verify) prefixes ⟨before, []⟩ = some t →
          PaidThroughOwn verify before t) ↔
      Along (PaymentDesk.step verify) (PaysOwn verify) labels ⟨before, []⟩ := by
  refine forall_prefix_iff_along (J := StayPaid before) (I := PaidThroughOwn verify before)
    (fun _ _ _ hJ hstep => stayPaid_step hJ hstep) ?_
    (fun _ _ _ hJ hI hstep => paidThroughOwn_step_iff hJ hI hstep) labels
    (fun _ h => h) ?_
  · intro s l hstuck
    cases l <;> cases hstuck
  · intro order hmem hpaid hbefore
    exact absurd ⟨order, Table.get?_eq_some.mpr ⟨hmem, rfl⟩, hpaid⟩ hbefore

end

/-- A provider that confirms whatever it is sent, beside two that confirm nothing. -/
def lenientAlipay : VerifyCallback := fun channel _ _ => (channel = .alipay, none)

/-- A callback of the lenient provider for the first order. -/
def alipayRequest : PaymentRequest :=
  ⟨str "alipay", .obj [(str "order_id", .int 1)], [], 10⟩

/-- An order for Stripe is paid through the lenient provider: the wallet is credited, though
Stripe has confirmed nothing. -/
theorem paid_through_other :
    ∃ t, run (PaymentDesk.step lenientAlipay)
        [.createOrder 1 none 100 (str "stripe"), .callback alipayRequest] ⟨oncePg, []⟩ = some t ∧
      t.pg.orders.get? 1 =
        some ⟨1, 1, none, 100, .stripe, .paid, none, some 10⟩ ∧
      t.pg.users.rows.map User.balanceCents = [100] ∧
      ¬PaidThroughOwn lenientAlipay oncePg t := by
  refine ⟨_, rfl, by decide, by decide, fun h => ?_⟩
  have hunpaid : ¬PaidIn oncePg 1 := by
    rintro ⟨order, horder, -⟩
    cases horder
  obtain ⟨req, -, -, hok, -⟩ :=
    h ⟨1, 1, none, 100, .stripe, .paid, none, some 10⟩ (by decide) rfl hunpaid
  cases hok

end Llmxy
