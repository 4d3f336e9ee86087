import Llmxy.Billing.FundsLock
import Llmxy.Billing.Lifecycle

/-!
# Concurrent renewals

The renewal worker beside requests of `renew_now`, statement by statement.  The worker
locks the due rows it finds, and skips those that others hold; a request reads its row
without a lock, pays, and then writes the next period over whatever the row has become.

A period is named by its subscription and the instant it starts at, which is the
`current_period_end` of the row that the renewal has loaded.

## Main definitions

* `RenewRequest`, `RenewPhase`, `renewProg`, `renewStep` — the machine.
* `payments` — how often a period has been paid for.
* `FreshRenewal`, `period_paid_once` — when it is at most once.
-/

namespace Llmxy

/-! ### One renewal -/

/-- What `renew_subscription` makes of a subscription. -/
inductive RenewalStep where
  /-- The attributes are assigned, and nothing is paid. -/
  | close (saved : Subscription)
  /-- The plan is paid for and the period renewed. -/
  | pay (plan : Plan)
  deriving DecidableEq

/-- The decision of `renew_subscription`, from the plan and the user it loads. -/
def renewalStep (sub : Subscription) (plan : Option Plan) (user : Option User) (now : ℤ) :
    RenewalStep :=
  match plan with
  | none => .close (sub.expire (some (str "plan deleted")))
  | some plan =>
      if sub.cancelAtPeriodEnd then
        .close { sub with
          status := str "expired"
          canceledAt := some (sub.canceledAt.getD now)
          remainingCents := 0 }
      else if plan.planType = str "one_time" then
        .close { sub.expire none with remainingCents := 0 }
      else
        match user.filter (·.status = .active) with
        | none => .close (sub.expire (some (str "user inactive")))
        | some user =>
            if user.balanceCents < plan.priceCents then
              .close { sub with
                status := str "past_due"
                remainingCents := 0
                lastRenewalError := some (str "insufficient balance (" ++
                  showInt user.balanceCents ++ str " < " ++ showInt plan.priceCents ++ str ")") }
            else .pay plan

/-- `renewSubscription` is the decision, carried out. -/
theorem renewSubscription_eq (sub : Subscription) (now : ℤ) (pg : Pg) :
    (renewSubscription sub now pg).2 =
      match renewalStep sub (pg.plans.get? sub.planId) (pg.users.get? sub.userId) now with
      | .close saved => pg.saveSub saved
      | .pay plan => (payRenewal sub plan pg).saveSub (sub.renew plan now) := by
  unfold renewSubscription renewalStep
  cases pg.plans.get? sub.planId with
  | none => rfl
  | some plan =>
      dsimp only
      split_ifs with hcancel hone
      · rfl
      · rfl
      · cases (pg.users.get? sub.userId).filter (·.status = .active) with
        | none => rfl
        | some user =>
            dsimp only
            split_ifs <;> rfl

/-- A subscription that is closed keeps its period. -/
theorem renewalStep_close {sub saved : Subscription} {plan : Option Plan} {user : Option User}
    {now : ℤ} (h : renewalStep sub plan user now = .close saved) :
    saved.id = sub.id ∧ saved.planId = sub.planId ∧
      saved.currentPeriodEnd = sub.currentPeriodEnd := by
  unfold renewalStep at h
  cases plan with
  | none => cases h; exact ⟨rfl, rfl, rfl⟩
  | some plan =>
      dsimp only at h
      split_ifs at h
      · cases h; exact ⟨rfl, rfl, rfl⟩
      · cases h; exact ⟨rfl, rfl, rfl⟩
      · cases huser : user.filter (·.status = .active) with
        | none =>
            rw [huser] at h
            cases h; exact ⟨rfl, rfl, rfl⟩
        | some user =>
            rw [huser] at h
            dsimp only at h
            split_ifs at h
            cases h; exact ⟨rfl, rfl, rfl⟩

/-- What is paid for is the plan of the subscription. -/
theorem renewalStep_pay {sub : Subscription} {plan : Option Plan} {user : Option User} {now : ℤ}
    {p : Plan} (h : renewalStep sub plan user now = .pay p) : plan = some p := by
  unfold renewalStep at h
  cases plan with
  | none => cases h
  | some plan =>
      dsimp only at h
      split_ifs at h
      cases huser : user.filter (·.status = .active) with
      | none =>
          rw [huser] at h
          cases h
      | some user =>
          rw [huser] at h
          dsimp only at h
          split_ifs at h
          cases h
          rfl

/-! ### The machine -/

/-- A pass of the worker, or a request to renew. -/
inductive RenewRequest where
  | scan
  | renewNow (uid sid : ℤ)
  deriving DecidableEq

/-- Where a transaction stands: the user of a request, the subscriptions still to be renewed,
and the periods paid for so far. -/
inductive RenewPhase where
  | start
  | loaded (user : User)
  | renewing (me : Option User) (todo : List Subscription) (paid : List (ℤ × ℤ))
  | paying (me : Option User) (sub : Subscription) (plan : Plan) (now : ℤ)
      (todo : List Subscription) (paid : List (ℤ × ℤ))
  | flushing (me : Option User) (sub saved : Subscription) (pays : List (ℤ × ℤ))
      (todo : List Subscription) (paid : List (ℤ × ℤ))
  | done (paid : List (ℤ × ℤ))
  | refused (answer : RenewResponse)
  | rolledBack
  deriving DecidableEq

/-- Write the columns of a renewed subscription. -/
def flushRenewed (sub saved : Subscription) (pg : Pg) : Pg :=
  { pg with subscriptions := pg.subscriptions.update sub.id (sub.flush saved) }

variable {n : ℕ}

/-- The statements of a transaction.  A request finds the user it has loaded in its session;
the worker loads the user of each subscription. -/
def renewProg (reqs : Fin n → RenewRequest) (now : ℤ) (i : Fin n) (rows : FundsRows n) :
    RenewPhase → Option (FundsRows n × RenewPhase)
  | .start =>
      match reqs i with
      | .scan =>
          -- SKIP LOCKED
          let free := (dueSubscriptions (rows.view i) now).filter fun sub =>
            rows.holder (.sub sub.id) = none
          (rows.lock i (free.map fun sub => .sub sub.id)).map fun rows =>
            (rows, .renewing none free [])
      | .renewNow uid _ => ((rows.view i).users.get? uid).map fun user => (rows, .loaded user)
  | .loaded user =>
      match reqs i with
      | .scan => none
      | .renewNow _ sid =>
          match ((rows.view i).subscriptions.get? sid).filter (·.userId = user.id) with
          | none => some (rows, .refused .notFound)
          | some sub =>
              if sub.status = str "active" && now < sub.currentPeriodEnd then
                some (rows, .refused .nothingToDo)
              else if sub.status = str "canceled" || sub.status = str "expired" then
                some (rows, .refused (.conflict sub.status))
              else some (rows, .renewing (some user) [sub] [])
  | .renewing _ [] paid => some (rows.commit i, .done paid)
  | .renewing me (sub :: todo) paid =>
      let user := me.or ((rows.view i).users.get? sub.userId)
      match renewalStep sub ((rows.view i).plans.get? sub.planId) user now with
      | .close saved => some (rows, .flushing me sub saved [] todo paid)
      | .pay plan => some (rows, .paying me sub plan now todo paid)
  | .paying me sub plan now todo paid =>
      let saved := sub.renew plan now
      if 0 < plan.priceCents then
        (rows.update i (.user sub.userId) (payRenewal sub plan)).bind fun rows =>
          ((rows.view i).users.get? sub.userId).map fun _ =>
            (rows, .flushing me sub saved [(sub.id, sub.currentPeriodEnd)] todo paid)
      else some (rows, .flushing me sub saved [] todo paid)
  | .flushing me sub saved pays todo paid =>
      (rows.update i (.sub sub.id) (flushRenewed sub saved)).map fun rows =>
        (rows, .renewing me todo (paid ++ pays))
  | .done _ | .refused _ | .rolledBack => none

/-- A transaction that has not ended is rolled back. -/
def RenewPhase.abort : RenewPhase → Option RenewPhase
  | .done _ | .refused _ | .rolledBack => none
  | _ => some .rolledBack

/-- The transactions on the tables. -/
abbrev RenewNet (n : ℕ) := Net (Fin n) (FundsRows n) RenewPhase

/-- One step of the system. -/
def renewStep (reqs : Fin n → RenewRequest) : RenewNet n → FundsLabel n → Option (RenewNet n) :=
  fundsStep (renewProg reqs) RenewPhase.abort

/-- No transaction has begun. -/
def RenewNet.start (pg : Pg) : RenewNet n := ⟨.idle pg, fun _ => .start⟩

/-- The periods that a committed transaction has paid for. -/
def RenewPhase.paid : RenewPhase → List (ℤ × ℤ)
  | .done paid => paid
  | _ => []

/-- How often a period has been paid for. -/
def payments (s : RenewNet n) (p : ℤ × ℤ) : ℤ := ∑ i, ((s.loc i).paid.count p : ℤ)

/-- How many payments for renewals of a subscription are logged. -/
def Pg.renewalRows (pg : Pg) (sid : ℤ) : ℤ :=
  pg.balanceTx.countP fun row => row.refId = some (subRef sid)

/-- The row that a request is about to write over has the period that the request has paid
to end. -/
def RenewPhase.Fresh (pg : Pg) : RenewPhase → Prop
  | .flushing (some _) sub _ pays _ _ => pays ≠ [] →
      ∀ row ∈ pg.subscriptions.get? sub.id, row.currentPeriodEnd = sub.currentPeriodEnd
  | _ => True

instance RenewPhase.decidableFresh (pg : Pg) : (l : RenewPhase) → Decidable (l.Fresh pg)
  | .flushing (some _) sub _ pays _ _ => inferInstanceAs (Decidable (pays ≠ [] →
      ∀ row ∈ pg.subscriptions.get? sub.id, row.currentPeriodEnd = sub.currentPeriodEnd))
  | .start | .loaded _ | .renewing _ _ _ | .paying _ _ _ _ _ _ | .flushing none _ _ _ _ _
  | .done _ | .refused _ | .rolledBack => isTrue trivial

/-- A step in which no request writes its paid renewal over a period that has been renewed
since. -/
def FreshRenewal (s : RenewNet n) : FundsLabel n → Prop
  | .move i _ => (s.loc i).Fresh s.shared.committed
  | .rollback _ => True

instance decidableFreshRenewal (s : RenewNet n) : (a : FundsLabel n) → Decidable (FreshRenewal s a)
  | .move i _ => inferInstanceAs (Decidable ((s.loc i).Fresh s.shared.committed))
  | .rollback _ => isTrue trivial

/-! ### The invariant -/

/-- The renewals of a subscription cost something. -/
def Priced (pg : Pg) (sid : ℤ) : Prop :=
  ∃ sub plan, pg.subscriptions.get? sid = some sub ∧ pg.plans.get? sub.planId = some plan ∧
    0 < plan.priceCents

/-- An open transaction that has paid for `paid` and written the rows of these, with `todo`
to come.  What it has written is locked, and so is what the worker has loaded; a renewed row
was the one of the period that has been paid to end. -/
structure RenewSession (pg₀ : Pg) (rows : FundsRows n) (i : Fin n) (me : Option User)
    (todo : List Subscription) (paid logged : List (ℤ × ℤ)) : Prop where
  nodup : (paid.map Prod.fst ++ todo.map (·.id)).Nodup
  plan : ∀ sub ∈ todo, (pg₀.subscriptions.get? sub.id).map (·.planId) = some sub.planId
  locked : me = none → ∀ sub ∈ todo, rows.holder (.sub sub.id) = some i ∧
    rows.committed.subscriptions.get? sub.id = some sub
  held : ∀ p ∈ paid, Priced pg₀ p.1 ∧ rows.holder (.sub p.1) = some i ∧
    ∃ row, rows.committed.subscriptions.get? p.1 = some row ∧ row.currentPeriodEnd = p.2
  renewed : ∀ p ∈ paid, ∀ pg, (pg.subscriptions.get? p.1).isSome →
    ((rows.pending i pg).subscriptions.get? p.1).map (·.currentPeriodEnd) =
      some (nextMonthStart p.2)
  kept : ∀ id, id ∉ paid.map Prod.fst → Priced pg₀ id → ∀ pg,
    ((rows.pending i pg).subscriptions.get? id).map (·.currentPeriodEnd) =
      (pg.subscriptions.get? id).map (·.currentPeriodEnd)
  planId : ∀ pg id, ((rows.pending i pg).subscriptions.get? id).map (·.planId) =
    (pg.subscriptions.get? id).map (·.planId)
  plans : ∀ pg, (rows.pending i pg).plans = pg.plans
  log : ∀ pg, ∃ new, (rows.pending i pg).balanceTx = pg.balanceTx ++ new ∧
    new.map (·.refId) = logged.map fun p => some (subRef p.1)

/-- How a subscription is saved: with its next period, which has been paid for if it costs
something, or with the period it has. -/
structure Renews (pg₀ : Pg) (sub saved : Subscription) (pays : List (ℤ × ℤ)) : Prop where
  plan : saved.planId = sub.planId
  period : (pays = [] ∧ (Priced pg₀ sub.id → saved.currentPeriodEnd = sub.currentPeriodEnd)) ∨
    (pays = [(sub.id, sub.currentPeriodEnd)] ∧ Priced pg₀ sub.id ∧
      saved.currentPeriodEnd = nextMonthStart sub.currentPeriodEnd)

/-- What a transaction has done so far. -/
def RenewPhaseInv (pg₀ : Pg) (rows : FundsRows n) (i : Fin n) : RenewPhase → Prop
  | .renewing me todo paid => RenewSession pg₀ rows i me todo paid paid
  | .paying me sub plan _ todo paid =>
      RenewSession pg₀ rows i me (sub :: todo) paid paid ∧ pg₀.plans.get? sub.planId = some plan
  | .flushing me sub saved pays todo paid =>
      RenewSession pg₀ rows i me (sub :: todo) paid (paid ++ pays) ∧ Renews pg₀ sub saved pays
  | _ => rows.pending i = id

variable {pg₀ : Pg} {rows rows' : FundsRows n} {i j : Fin n} {me : Option User}
  {todo : List Subscription} {paid logged : List (ℤ × ℤ)} {sub saved : Subscription}

theorem RenewSession.of_kept (h : RenewSession pg₀ rows i me todo paid logged)
    (hk : RowStore.Kept FundsKey.row i rows rows') :
    RenewSession pg₀ rows' i me todo paid logged := by
  have hrow : ∀ {id : ℤ}, rows.holder (.sub id) = some i →
      rows'.committed.subscriptions.get? id = rows.committed.subscriptions.get? id :=
    fun hheld => congrArg Prod.snd (hk.row _ hheld)
  refine ⟨h.nodup, h.plan, ?_, ?_, ?_, ?_, ?_, ?_, ?_⟩
  · intro hme sub hsub
    obtain ⟨hheld, hget⟩ := h.locked hme sub hsub
    rw [hrow hheld]
    exact ⟨hk.holder _ hheld, hget⟩
  · intro p hp
    obtain ⟨hpriced, hheld, hget⟩ := h.held p hp
    rw [hrow hheld]
    exact ⟨hpriced, hk.holder _ hheld, hget⟩
  · rw [hk.pending]
    exact h.renewed
  · rw [hk.pending]
    exact h.kept
  · rw [hk.pending]
    exact h.planId
  · rw [hk.pending]
    exact h.plans
  · rw [hk.pending]
    exact h.log

theorem RenewPhaseInv.of_kept {l : RenewPhase} (h : RenewPhaseInv pg₀ rows i l)
    (hk : RowStore.Kept FundsKey.row i rows rows') : RenewPhaseInv pg₀ rows' i l := by
  cases l with
  | renewing me todo paid => exact RenewSession.of_kept h hk
  | paying me sub plan now todo paid => exact ⟨RenewSession.of_kept h.1 hk, h.2⟩
  | flushing me sub saved pays todo paid => exact ⟨RenewSession.of_kept h.1 hk, h.2⟩
  | _ => exact hk.pending.trans h

/-- A transaction that has loaded its subscriptions and written nothing. -/
theorem renewSession_begun (hpending : rows.pending i = id) (hnodup : (todo.map (·.id)).Nodup)
    (hplan : ∀ sub ∈ todo, (pg₀.subscriptions.get? sub.id).map (·.planId) = some sub.planId)
    (hlocked : me = none → ∀ sub ∈ todo, rows.holder (.sub sub.id) = some i ∧
      rows.committed.subscriptions.get? sub.id = some sub) :
    RenewSession pg₀ rows i me todo [] [] := by
  refine ⟨hnodup, hplan, hlocked, (fun p hp => nomatch hp), (fun p hp => nomatch hp), ?_, ?_, ?_, ?_⟩
  all_goals rw [hpending]
  · exact fun _ _ _ _ => rfl
  · exact fun _ _ => rfl
  · exact fun _ => rfl
  · exact fun _ => ⟨[], (List.append_nil _).symm, rfl⟩

/-- The payment of the next renewal. -/
theorem RenewSession.pay {plan : Plan} (h : RenewSession pg₀ rows i me todo paid paid)
    (hprice : 0 < plan.priceCents)
    (hupd : rows.update i (.user sub.userId) (payRenewal sub plan) = some rows') :
    RenewSession pg₀ rows' i me todo paid (paid ++ [(sub.id, sub.currentPeriodEnd)]) := by
  have hpending : ∀ pg, rows'.pending i pg = payRenewal sub plan (rows.pending i pg) := by
    intro pg
    rw [RowStore.pending_update hupd]
    rfl
  have hpaid : ∀ pg, payRenewal sub plan pg = moveWallet sub.userId .consume (-plan.priceCents)
      (some (subRef sub.id)) (some (str "plan " ++ plan.code ++ str " renewal")) pg :=
    fun pg => if_pos hprice
  have hholder : ∀ {id : ℤ}, rows.holder (.sub id) = some i → rows'.holder (.sub id) = some i := by
    intro id hheld
    rw [(RowStore.update_eq_some hupd).2]
    simpa using hheld
  have hsubs : ∀ pg, (rows'.pending i pg).subscriptions = (rows.pending i pg).subscriptions := by
    intro pg
    rw [hpending, hpaid]
    rfl
  refine ⟨h.nodup, h.plan, ?_, ?_, ?_, ?_, ?_, ?_, ?_⟩
  · intro hme sub hsub
    rw [RowStore.committed_update hupd]
    exact ⟨hholder (h.locked hme sub hsub).1, (h.locked hme sub hsub).2⟩
  · intro p hp
    obtain ⟨hpriced, hheld, hget⟩ := h.held p hp
    rw [RowStore.committed_update hupd]
    exact ⟨hpriced, hholder hheld, hget⟩
  · intro p hp pg hsome
    rw [hsubs]
    exact h.renewed p hp pg hsome
  · intro id hid hpriced pg
    rw [hsubs]
    exact h.kept id hid hpriced pg
  · intro pg id
    rw [hsubs]
    exact h.planId pg id
  · intro pg
    rw [hpending, hpaid]
    exact h.plans pg
  · intro pg
    obtain ⟨new, hnew, href⟩ := h.log pg
    obtain ⟨row, hrow, -, hsub⟩ := balanceTx_moveWallet sub.userId .consume (-plan.priceCents)
      (some (subRef sub.id)) (some (str "plan " ++ plan.code ++ str " renewal"))
      (rows.pending i pg)
    refine ⟨new ++ [row], ?_, ?_⟩
    · rw [hpending, hpaid, hrow, hnew, List.append_assoc]
    · rw [List.map_append, List.map_append, href, List.map_singleton, hsub]
      rfl

/-- Only the renewed subscription changes. -/
theorem row_flushRenewed {k : FundsKey} (hk : k ≠ .sub sub.id) (pg : Pg) :
    k.row (flushRenewed sub saved pg) = k.row pg := by
  cases k with
  | user id => rfl
  | sub id =>
      have hne : id ≠ sub.id := fun heq => hk (by rw [heq])
      simp only [FundsKey.row, flushRenewed, Table.get?_update_of_ne hne]

/-- The period that a flush writes. -/
theorem flush_renews {pays : List (ℤ × ℤ)} (h : Renews pg₀ sub saved pays)
    (row : Subscription) :
    ((sub.flush saved).1 row).planId = row.planId ∧
      (pays = [] → Priced pg₀ sub.id →
        ((sub.flush saved).1 row).currentPeriodEnd = row.currentPeriodEnd) ∧
      (pays ≠ [] → ((sub.flush saved).1 row).currentPeriodEnd =
        nextMonthStart sub.currentPeriodEnd) := by
  refine ⟨?_, ?_, ?_⟩
  · show flushed sub.planId saved.planId row.planId = row.planId
    rw [h.plan, flushed_same]
  · intro hnone hpriced
    show flushed sub.currentPeriodEnd saved.currentPeriodEnd row.currentPeriodEnd = _
    rcases h.period with ⟨-, hsame⟩ | ⟨hpays, -, -⟩
    · rw [hsame hpriced, flushed_same]
    · rw [hnone] at hpays
      cases hpays
  · intro hpays
    show flushed sub.currentPeriodEnd saved.currentPeriodEnd row.currentPeriodEnd = _
    rcases h.period with ⟨hnone, -⟩ | ⟨-, -, hnext⟩
    · exact absurd hnone hpays
    · rw [hnext, flushed_of_ne (lt_nextMonthStart _).ne']

/-- The flush of the next renewal, over the row of the period it has paid to end. -/
theorem RenewSession.flush {pays : List (ℤ × ℤ)}
    (h : RenewSession pg₀ rows i me (sub :: todo) paid (paid ++ pays))
    (hrenews : Renews pg₀ sub saved pays)
    (hfresh : pays ≠ [] → ∃ row, rows.committed.subscriptions.get? sub.id = some row ∧
      row.currentPeriodEnd = sub.currentPeriodEnd)
    (hupd : rows.update i (.sub sub.id) (flushRenewed sub saved) = some rows') :
    RenewSession pg₀ rows' i me todo (paid ++ pays) (paid ++ pays) := by
  have hget : ∀ pg id, (rows'.pending i pg).subscriptions.get? id =
      if id = sub.id then ((rows.pending i pg).subscriptions.get? sub.id).map (sub.flush saved).1
      else (rows.pending i pg).subscriptions.get? id := by
    intro pg id
    rw [RowStore.pending_update hupd, Function.comp_apply, flushRenewed, Table.get?_update]
    split_ifs with hid
    · rw [hid]
    · rfl
  have hholder : ∀ {id : ℤ}, rows.holder (.sub id) = some i → rows'.holder (.sub id) = some i := by
    intro id hheld
    rw [(RowStore.update_eq_some hupd).2]
    by_cases hid : id = sub.id
    · simp [hid]
    · simpa [hid] using hheld
  have hnotPaid : sub.id ∉ paid.map Prod.fst := by
    intro hmem
    exact (List.nodup_append.mp h.nodup).2.2 _ hmem _ (by simp) rfl
  have hcases : pays = [] ∨ pays = [(sub.id, sub.currentPeriodEnd)] ∧ Priced pg₀ sub.id := by
    rcases hrenews.period with ⟨hnone, -⟩ | ⟨hpays, hpriced, -⟩
    · exact Or.inl hnone
    · exact Or.inr ⟨hpays, hpriced⟩
  refine ⟨?_, ?_, ?_, ?_, ?_, ?_, ?_, ?_, ?_⟩
  · have hnodup := h.nodup
    rw [List.map_cons] at hnodup
    rcases hcases with hnone | ⟨hpays, -⟩
    · rw [hnone, List.append_nil]
      exact hnodup.sublist ((List.sublist_cons_self _ _).append_left _)
    · rw [hpays, List.map_append, List.append_assoc]
      exact hnodup
  · exact fun x hx => h.plan x (List.mem_cons_of_mem _ hx)
  · intro hme x hx
    obtain ⟨hheld, hrow⟩ := h.locked hme x (List.mem_cons_of_mem _ hx)
    rw [RowStore.committed_update hupd]
    exact ⟨hholder hheld, hrow⟩
  · intro p hp
    rw [RowStore.committed_update hupd]
    rcases List.mem_append.mp hp with hp | hp
    · obtain ⟨hpriced, hheld, hrow⟩ := h.held p hp
      exact ⟨hpriced, hholder hheld, hrow⟩
    · rcases hcases with hnone | ⟨hpays, hpriced⟩
      · rw [hnone] at hp
        cases hp
      · rw [hpays] at hp
        rw [List.mem_singleton.mp hp]
        refine ⟨hpriced, RowStore.holder_update hupd, hfresh ?_⟩
        rw [hpays]
        exact List.cons_ne_nil _ _
  · intro p hp pg hsome
    rw [hget]
    rcases List.mem_append.mp hp with hp | hp
    · have hne : p.1 ≠ sub.id := by
        intro heq
        rw [← heq] at hnotPaid
        exact hnotPaid (List.mem_map_of_mem hp)
      rw [if_neg hne]
      exact h.renewed p hp pg hsome
    · rcases hcases with hnone | ⟨hpays, -⟩
      · rw [hnone] at hp
        cases hp
      · have hne : pays ≠ [] := List.ne_nil_of_mem hp
        rw [hpays] at hp
        rw [List.mem_singleton.mp hp] at hsome ⊢
        rw [if_pos rfl]
        have hplan := h.planId pg sub.id
        cases hrow : (rows.pending i pg).subscriptions.get? sub.id with
        | none =>
            obtain ⟨row, hrow'⟩ := Option.isSome_iff_exists.mp hsome
            rw [hrow, hrow'] at hplan
            cases hplan
        | some row => exact congrArg some ((flush_renews hrenews row).2.2 hne)
  · intro id hid hpriced pg
    rw [List.map_append, List.mem_append, not_or] at hid
    have hkept := h.kept id hid.1 hpriced pg
    rw [hget]
    split_ifs with heq
    · rw [heq] at hid hpriced hkept ⊢
      have hnone : pays = [] := by
        rcases hcases with hnone | ⟨hpays, -⟩
        · exact hnone
        · rw [hpays] at hid
          exact absurd (List.mem_singleton.mpr rfl) hid.2
      rw [Option.map_map, ← hkept]
      exact Option.map_congr fun row _ => (flush_renews hrenews row).2.1 hnone hpriced
    · exact hkept
  · intro pg id
    rw [hget, ← h.planId pg id]
    split_ifs with heq
    · rw [heq, Option.map_map]
      exact Option.map_congr fun row _ => (flush_renews hrenews row).1
    · rfl
  · intro pg
    rw [RowStore.pending_update hupd]
    exact h.plans pg
  · intro pg
    rw [RowStore.pending_update hupd]
    exact h.log pg

/-- The invariant of the machine: a period that has been paid for is over, and was paid for
once. -/
structure RenewInv (pg₀ : Pg) (s : RenewNet n) : Prop where
  owned : RowStore.Owned FundsKey.row s.shared
  phase : ∀ i, RenewPhaseInv pg₀ s.shared i (s.loc i)
  plans : s.shared.committed.plans = pg₀.plans
  planId : ∀ id, (s.shared.committed.subscriptions.get? id).map (·.planId) =
    (pg₀.subscriptions.get? id).map (·.planId)
  ledger : ∀ p, 0 < payments s p → payments s p ≤ 1 ∧ Priced pg₀ p.1 ∧
    ∃ row, s.shared.committed.subscriptions.get? p.1 = some row ∧ p.2 < row.currentPeriodEnd
  logged : ∀ sid, s.shared.committed.renewalRows sid = pg₀.renewalRows sid +
    ∑ i, ((s.loc i).paid.countP fun p => p.1 = sid : ℤ)

variable {reqs : Fin n → RenewRequest} {s t : RenewNet n} {p : ℤ × ℤ}

theorem payments_update {l : RenewPhase} (h : (s.loc i).paid = []) :
    payments ⟨rows, Function.update s.loc i l⟩ p = payments s p + l.paid.count p :=
  Net.sum_update (g := fun l : RenewPhase => (l.paid.count p : ℤ)) (by rw [h]; rfl) l

theorem paidOf_update {l : RenewPhase} (h : (s.loc i).paid = []) (sid : ℤ) :
    ∑ j, (((Function.update s.loc i l j).paid.countP fun p => p.1 = sid : ℕ) : ℤ) =
      ∑ j, (((s.loc j).paid.countP fun p => p.1 = sid : ℕ) : ℤ) +
        (l.paid.countP fun p => p.1 = sid : ℕ) :=
  Net.sum_update (g := fun l : RenewPhase => ((l.paid.countP fun p => p.1 = sid : ℕ) : ℤ)) (by rw [h]; rfl) l

theorem renewInv_start (pg : Pg) : RenewInv pg (RenewNet.start pg : RenewNet n) := by
  refine ⟨RowStore.owned_idle pg, fun i => rfl, rfl, fun id => rfl, fun p hp => ?_, fun sid => ?_⟩
  · have hzero : payments (RenewNet.start pg : RenewNet n) p = 0 :=
      Finset.sum_eq_zero fun _ _ => rfl
    omega
  · have hzero : ∑ i, (((RenewNet.start pg : RenewNet n).loc i).paid.countP
        (fun p => p.1 = sid) : ℤ) = 0 := Finset.sum_eq_zero fun _ _ => rfl
    rw [hzero, add_zero]
    rfl

/-- A step that publishes nothing. -/
theorem RenewInv.quiet {l : RenewPhase} (h : RenewInv pg₀ s)
    (hq : RowStore.Quiet i s.shared rows) (howned : RowStore.Owned FundsKey.row rows)
    (hi : RenewPhaseInv pg₀ rows i l) (hs : (s.loc i).paid = []) (hl : l.paid = []) :
    RenewInv pg₀ ⟨rows, Function.update s.loc i l⟩ := by
  refine ⟨howned, ?_, ?_, ?_, ?_, ?_⟩
  · exact forall_phase_update (P := fun j rows l => RenewPhaseInv pg₀ rows j l) (fun _ _ h hk => h.of_kept hk)
      h.phase (fun _ hj => hq.kept hj) hi
  · rw [hq.committed]
    exact h.plans
  · rw [hq.committed]
    exact h.planId
  · intro p hp
    rw [payments_update hs, hl, List.count_nil, Nat.cast_zero, add_zero] at hp ⊢
    rw [hq.committed]
    exact h.ledger p hp
  · intro sid
    rw [hq.committed, paidOf_update hs, hl, List.countP_nil, Nat.cast_zero, add_zero]
    exact h.logged sid

/-- A commit pays for periods that nobody has paid for. -/
theorem RenewInv.commit (h : RenewInv pg₀ s)
    (hsession : RenewSession pg₀ s.shared i me [] paid paid)
    (hs : (s.loc i).paid = []) :
    RenewInv pg₀ ⟨s.shared.commit i, Function.update s.loc i (.done paid)⟩ := by
  have hfst : (paid.map Prod.fst).Nodup := by simpa using hsession.nodup
  have hcount : ∀ p, ((paid.count p : ℕ) : ℤ) ≤ 1 := by
    intro p
    have := List.nodup_iff_count_le_one.mp (List.Nodup.of_map Prod.fst hfst) p
    omega
  refine ⟨h.owned.commit i, ?_, ?_, ?_, ?_, ?_⟩
  · exact forall_phase_update (P := fun j rows l => RenewPhaseInv pg₀ rows j l) (fun _ _ h hk => h.of_kept hk)
      h.phase (fun _ hj => RowStore.kept_commit h.owned hj) RowStore.pending_commit
  · rw [RowStore.committed_commit, hsession.plans, h.plans]
  · intro id
    rw [RowStore.committed_commit, hsession.planId, h.planId]
  · intro p hp
    rw [payments_update hs, RenewPhase.paid] at hp ⊢
    rw [RowStore.committed_commit]
    by_cases hmem : p ∈ paid
    · obtain ⟨hpriced, -, row, hrow, hend⟩ := hsession.held p hmem
      have hfirst : payments s p ≤ 0 := by
        by_contra hpos
        obtain ⟨-, -, row', hrow', hlt⟩ := h.ledger p (by omega)
        rw [hrow] at hrow'
        cases hrow'
        omega
      have hnext := hsession.renewed p hmem s.shared.committed (by rw [hrow]; rfl)
      obtain ⟨row', hrow', hend'⟩ := Option.map_eq_some_iff.mp hnext
      have := hcount p
      exact ⟨by omega, hpriced, row', hrow', hend' ▸ lt_nextMonthStart p.2⟩
    · rw [List.count_eq_zero.mpr hmem, Nat.cast_zero, add_zero] at hp ⊢
      obtain ⟨hone, hpriced, row, hrow, hlt⟩ := h.ledger p hp
      refine ⟨hone, hpriced, ?_⟩
      by_cases hid : p.1 ∈ paid.map Prod.fst
      · obtain ⟨q, hq, hqp⟩ := List.mem_map.mp hid
        obtain ⟨-, -, row', hrow', hend⟩ := hsession.held q hq
        rw [hqp, hrow] at hrow'
        cases hrow'
        have hnext := hsession.renewed q hq s.shared.committed (by rw [hqp, hrow]; rfl)
        obtain ⟨row', hrow', hend'⟩ := Option.map_eq_some_iff.mp hnext
        rw [hqp] at hrow'
        have := lt_nextMonthStart q.2
        exact ⟨row', hrow', by omega⟩
      · have hkept := hsession.kept p.1 hid hpriced s.shared.committed
        rw [hrow, Option.map_some] at hkept
        obtain ⟨row', hrow', hend'⟩ := Option.map_eq_some_iff.mp hkept
        rw [← hend'] at hlt
        exact ⟨row', hrow', hlt⟩
  · intro sid
    obtain ⟨new, hnew, href⟩ := hsession.log s.shared.committed
    have hcountP : new.countP (fun row => row.refId = some (subRef sid)) =
        paid.countP fun p => p.1 = sid := by
      have hmap := congrArg (List.countP fun r => r = some (subRef sid)) href
      rw [List.countP_map, List.countP_map] at hmap
      refine hmap.trans (List.countP_congr fun p _ => ?_)
      simp only [Function.comp_apply, decide_eq_true_eq, Option.some.injEq]
      exact ⟨subRef_injective, congrArg subRef⟩
    have hrows := h.logged sid
    rw [Pg.renewalRows] at hrows ⊢
    rw [RowStore.committed_commit, hnew, List.countP_append, hcountP, Nat.cast_add, hrows,
      paidOf_update hs, RenewPhase.paid, add_assoc]

theorem renewAbort_eq_some {l l' : RenewPhase} (h : l.abort = some l') :
    l' = .rolledBack ∧ l.paid = [] := by
  cases l <;> cases h <;> exact ⟨rfl, rfl⟩

/-- **One step** keeps the invariant, if no request writes its paid renewal over a period that
has been renewed since. -/
theorem renewInv_step {a : FundsLabel n} (h : RenewInv pg₀ s) (hfresh : FreshRenewal s a)
    (hstep : renewStep reqs s a = some t) : RenewInv pg₀ t := by
  cases a with
  | rollback i =>
      obtain ⟨l, habort, rfl⟩ := fundsStep_rollback.mp hstep
      obtain ⟨rfl, hzero⟩ := renewAbort_eq_some habort
      exact h.quiet (RowStore.quiet_rollback ..) (h.owned.rollback i) RowStore.pending_rollback
        hzero rfl
  | move i now =>
      obtain ⟨rows, l, hprog, rfl⟩ := fundsStep_move.mp hstep
      have hi := h.phase i
      have hplanId : ∀ {sub : Subscription},
          s.shared.committed.subscriptions.get? sub.id = some sub →
          (pg₀.subscriptions.get? sub.id).map (·.planId) = some sub.planId := by
        intro sub hsub
        rw [← h.planId, hsub]
        rfl
      cases hl : s.loc i with
      | start =>
          rw [hl] at hprog hi
          have hzero : (s.loc i).paid = [] := by rw [hl]; rfl
          cases hreq : reqs i with
          | scan =>
              simp only [renewProg, hreq] at hprog
              obtain ⟨locked, hlock, heq⟩ := Option.map_eq_some_iff.mp hprog
              cases heq
              refine h.quiet (RowStore.quiet_lock hlock) (h.owned.lock hlock) ?_ hzero rfl
              have hdue : ∀ sub ∈ (dueSubscriptions (s.shared.view i) now).filter fun sub =>
                  s.shared.holder (.sub sub.id) = none,
                  s.shared.committed.subscriptions.get? sub.id = some sub := by
                intro sub hsub
                have hget := (mem_dueSubscriptions.mp (List.mem_filter.mp hsub).1).1
                rwa [RowStore.view_eq_committed hi] at hget
              refine renewSession_begun ?_ ?_ (fun sub hsub => hplanId (hdue sub hsub)) ?_
              · rw [RowStore.pending_lock hlock]
                exact hi
              · exact (nodup_dueSubscriptions _ _).sublist (List.filter_sublist.map _)
              · intro _ sub hsub
                refine ⟨RowStore.holder_lock hlock (List.mem_map_of_mem hsub), ?_⟩
                rw [(RowStore.lock_eq_some hlock).2]
                exact hdue sub hsub
          | renewNow uid sid =>
              simp only [renewProg, hreq] at hprog
              obtain ⟨user, -, heq⟩ := Option.map_eq_some_iff.mp hprog
              cases heq
              exact h.quiet (.refl i _) h.owned hi hzero rfl
      | loaded user =>
          rw [hl] at hprog hi
          have hzero : (s.loc i).paid = [] := by rw [hl]; rfl
          cases hreq : reqs i with
          | scan =>
              simp only [renewProg, hreq] at hprog
              cases hprog
          | renewNow uid sid =>
              simp only [renewProg, hreq] at hprog
              cases hsub : ((s.shared.view i).subscriptions.get? sid).filter
                  (·.userId = user.id) with
              | none =>
                  rw [hsub] at hprog
                  cases hprog
                  exact h.quiet (.refl i _) h.owned hi hzero rfl
              | some sub =>
                  rw [hsub] at hprog
                  dsimp only at hprog
                  split_ifs at hprog <;> cases hprog
                  · exact h.quiet (.refl i _) h.owned hi hzero rfl
                  · exact h.quiet (.refl i _) h.owned hi hzero rfl
                  · refine h.quiet (.refl i _) h.owned ?_ hzero rfl
                    have hget := (Option.filter_eq_some_iff.mp hsub).1
                    rw [RowStore.view_eq_committed hi] at hget
                    have hid : sub.id = sid := (Table.get?_eq_some.mp hget).2
                    rw [← hid] at hget
                    refine renewSession_begun hi (List.nodup_singleton _) ?_ (fun h => by cases h)
                    intro x hx
                    rw [List.mem_singleton.mp hx]
                    exact hplanId hget
      | renewing me todo paid =>
          rw [hl] at hprog hi
          have hzero : (s.loc i).paid = [] := by rw [hl]; rfl
          cases todo with
          | nil =>
              cases hprog
              exact h.commit hi hzero
          | cons sub todo =>
              simp only [renewProg] at hprog
              have hplan : (s.shared.view i).plans = pg₀.plans := by
                rw [RowStore.view, hi.plans, h.plans]
              cases hdecide : renewalStep sub ((s.shared.view i).plans.get? sub.planId)
                  (me.or ((s.shared.view i).users.get? sub.userId)) now with
              | close saved =>
                  rw [hdecide] at hprog
                  cases hprog
                  refine h.quiet (.refl i _) h.owned ⟨?_, ?_⟩ hzero rfl
                  · rw [List.append_nil]
                    exact hi
                  · obtain ⟨-, hplanOf, hend⟩ := renewalStep_close hdecide
                    exact ⟨hplanOf, Or.inl ⟨rfl, fun _ => hend⟩⟩
              | pay plan =>
                  rw [hdecide] at hprog
                  cases hprog
                  refine h.quiet (.refl i _) h.owned ⟨hi, ?_⟩ hzero rfl
                  rw [← hplan]
                  exact renewalStep_pay hdecide
      | paying me sub plan at' todo paid =>
          rw [hl] at hprog hi
          have hzero : (s.loc i).paid = [] := by rw [hl]; rfl
          obtain ⟨hsession, hplan⟩ := hi
          obtain ⟨sub₀, hsub₀, hplanOf⟩ :=
            Option.map_eq_some_iff.mp (hsession.plan sub List.mem_cons_self)
          simp only [renewProg] at hprog
          split_ifs at hprog with hprice
          · obtain ⟨rows', hupd, heq⟩ := Option.bind_eq_some_iff.mp hprog
            obtain ⟨row, -, heq⟩ := Option.map_eq_some_iff.mp heq
            cases heq
            refine h.quiet (RowStore.quiet_update hupd) (h.owned.update hupd ?_)
              ⟨hsession.pay hprice hupd, rfl, Or.inr ⟨rfl, ?_, rfl⟩⟩ hzero rfl
            · intro k hk pg
              cases k with
              | sub id =>
                  simp only [FundsKey.row, payRenewal, if_pos hprice]
                  rfl
              | user id =>
                  have hne : id ≠ sub.userId := fun heq => hk (by rw [heq])
                  simp only [FundsKey.row, payRenewal, if_pos hprice, moveWallet,
                    Table.get?_update_of_ne hne]
            · exact ⟨sub₀, plan, hsub₀, by rw [hplanOf]; exact hplan, hprice⟩
          · cases hprog
            refine h.quiet (.refl i _) h.owned ⟨?_, rfl, Or.inl ⟨rfl, ?_⟩⟩ hzero rfl
            · rw [List.append_nil]
              exact hsession
            · rintro ⟨sub₁, plan₁, hsub₁, hplan₁, hpos⟩
              rw [hsub₀] at hsub₁
              cases hsub₁
              rw [hplanOf, hplan] at hplan₁
              cases hplan₁
              exact absurd hpos hprice
      | flushing me sub saved pays todo paid =>
          rw [hl] at hprog hi
          have hzero : (s.loc i).paid = [] := by rw [hl]; rfl
          obtain ⟨hsession, hrenews⟩ := hi
          obtain ⟨rows', hupd, heq⟩ := Option.map_eq_some_iff.mp hprog
          cases heq
          refine h.quiet (RowStore.quiet_update hupd)
            (h.owned.update hupd fun k hk pg => row_flushRenewed hk pg)
            (hsession.flush hrenews (fun hpays => ?_) hupd) hzero rfl
          cases me with
          | none =>
              exact ⟨sub, (hsession.locked rfl sub List.mem_cons_self).2, rfl⟩
          | some user =>
              have hplanOf := h.planId sub.id
              rw [hsession.plan sub List.mem_cons_self] at hplanOf
              obtain ⟨row, hrow, -⟩ := Option.map_eq_some_iff.mp hplanOf
              simp only [FreshRenewal, hl, RenewPhase.Fresh] at hfresh
              exact ⟨row, hrow, hfresh hpays row hrow⟩
      | _ =>
          rw [hl] at hprog
          cases hprog

/-- **One period is paid for at most once**, in every run in which no request writes its paid
renewal over a period that has been renewed since. -/
theorem period_paid_once {as : List (FundsLabel n)}
    (hfresh : Along (renewStep reqs) FreshRenewal as (RenewNet.start pg₀))
    (hrun : run (renewStep reqs) as (RenewNet.start pg₀) = some t) (p : ℤ × ℤ) :
    payments t p ≤ 1 := by
  have hinv : RenewInv pg₀ t :=
    run_induction_along (fun _ _ _ hP hI hs => renewInv_step hI hP hs) hfresh
      (renewInv_start pg₀) hrun
  by_contra hmore
  exact hmore (hinv.ledger p (by omega)).1

/-- In such a run the log has one payment for each period that was paid for. -/
theorem renewalRows_run {as : List (FundsLabel n)}
    (hfresh : Along (renewStep reqs) FreshRenewal as (RenewNet.start pg₀))
    (hrun : run (renewStep reqs) as (RenewNet.start pg₀) = some t) (sid : ℤ) :
    t.shared.committed.renewalRows sid =
      pg₀.renewalRows sid + ∑ i, ((t.loc i).paid.countP fun p => p.1 = sid : ℤ) :=
  (run_induction_along (fun _ _ _ hP hI hs => renewInv_step hI hP hs) hfresh
    (renewInv_start pg₀) hrun).logged sid

/-! ### One request alone -/

/-- A request alone does what `renewNow` does. -/
theorem renewProg_alone {user : User} {pg : Pg} (sid now : ℤ)
    (hu : pg.users.get? user.id = some user) :
    ∃ k, (run (renewStep fun _ : Fin 1 => .renewNow user.id sid) (List.replicate k (.move 0 now))
        (RenewNet.start pg)).map (·.shared.committed) = some (Llmxy.renewNow user sid now pg).2 := by
  unfold Llmxy.renewNow
  cases hsub : (pg.subscriptions.get? sid).filter (·.userId = user.id) with
  | none =>
      refine ⟨2, ?_⟩
      simp [List.replicate, run_cons, renewStep, fundsStep, Net.step, renewProg, RenewNet.start,
        RowStore.idle, RowStore.view, hu, hsub]
  | some sub =>
      obtain ⟨hget, howner⟩ := Option.filter_eq_some_iff.mp hsub
      have howner : sub.userId = user.id := by simpa using howner
      have hid : sub.id = sid := (Table.get?_eq_some.mp hget).2
      dsimp only
      have hflush : ∀ (saved : Subscription) (pg' : Pg), pg'.subscriptions = pg.subscriptions →
          saved.id = sub.id → flushRenewed sub saved pg' = pg'.saveSub saved := by
        intro saved pg' hsame hsaved
        have hupdate : pg'.subscriptions.update sub.id (sub.flush saved) =
            pg'.subscriptions.update sub.id saved.save := by
          refine Table.update_congr fun r hr => ?_
          rw [hsame, hid, hget] at hr
          cases hr
          rw [Subscription.flush_loaded, Subscription.save_val]
        rw [flushRenewed, hupdate, Pg.saveSub, hsaved]
      split_ifs with hactive hclosed
      · refine ⟨2, ?_⟩
        simp [List.replicate, run_cons, renewStep, fundsStep, Net.step, renewProg, RenewNet.start,
          RowStore.idle, RowStore.view, hu, hsub, hactive]
      · refine ⟨2, ?_⟩
        simp [List.replicate, run_cons, renewStep, fundsStep, Net.step, renewProg, RenewNet.start,
          RowStore.idle, RowStore.view, hu, hsub, hactive, hclosed]
      · rw [renewSubscription_eq, howner, hu]
        cases hdecide : renewalStep sub (pg.plans.get? sub.planId) (some user) now with
        | close saved =>
            refine ⟨5, ?_⟩
            simp [List.replicate, run_cons, renewStep, fundsStep, Net.step, renewProg,
              RenewNet.start, RowStore.idle, RowStore.view, RowStore.update, RowStore.commit, hu,
              hsub, hactive, hclosed, hdecide]
            exact hflush saved pg rfl (renewalStep_close hdecide).1
        | pay plan =>
            refine ⟨6, ?_⟩
            by_cases hprice : 0 < plan.priceCents
            · have hpaid : (payRenewal sub plan pg).users.get? user.id =
                  some { user with balanceCents := user.balanceCents + -plan.priceCents } := by
                simp only [payRenewal, if_pos hprice, moveWallet, howner, Table.get?_update_self,
                  hu]
                rfl
              simp [List.replicate, run_cons, renewStep, fundsStep, Net.step, renewProg,
                RenewNet.start, RowStore.idle, RowStore.view, RowStore.update, RowStore.commit, hu,
                hsub, hactive, hclosed, hdecide, hprice, howner, hpaid]
              exact hflush _ _ (by rw [payRenewal, if_pos hprice]; rfl) rfl
            · simp [List.replicate, run_cons, renewStep, fundsStep, Net.step, renewProg,
                RenewNet.start, RowStore.idle, RowStore.view, RowStore.update, RowStore.commit, hu,
                hsub, hactive, hclosed, hdecide, hprice, howner]
              rw [payRenewal, if_neg hprice]
              exact hflush _ _ rfl rfl

/-! ### One subscription -/

/-- User 1 has subscription 7 of a plan for 50 cents; its period has ended at 100. -/
def endedPg : Pg := { oneSubPg 500 0 with
  plans := .single ⟨1, str "half", str "recurring", 50, 100, 30, none, true⟩
  subscriptions := .single ⟨7, 1, 1, 0, 0, 100, str "active", 0, false, none, none, none⟩ }

/-- A pass of the worker, and a request to renew. -/
def scanAndRequest : Fin 2 → RenewRequest := ![.scan, .renewNow 1 7]

/-- The request, and then the worker. -/
def requestFirst : List (FundsLabel 2) :=
  List.replicate 6 (.move 1 200) ++ List.replicate 2 (.move 0 300)

/-- The state after them. -/
def afterRequestFirst : RenewNet 2 :=
  (run (renewStep scanAndRequest) requestFirst (RenewNet.start endedPg)).get (by decide +kernel)

theorem period_paid_once_requestFirst : payments afterRequestFirst (7, 100) ≤ 1 :=
  @period_paid_once 2 endedPg scanAndRequest afterRequestFirst requestFirst (by decide +kernel)
    (Option.some_get _).symm (7, 100)

/-- The request reads the row, the worker renews the subscription, and the request pays. -/
def workerBetween : List (FundsLabel 2) :=
  List.replicate 2 (.move 1 200) ++ List.replicate 5 (.move 0 200) ++
    List.replicate 4 (.move 1 200)

/-- The state after them. -/
def afterWorkerBetween : RenewNet 2 :=
  (run (renewStep scanAndRequest) workerBetween (RenewNet.start endedPg)).get (by decide +kernel)

/-- The period from 100 on has been paid for twice, and so says the log. -/
theorem period_paid_twice : payments afterWorkerBetween (7, 100) = 2 ∧
    afterWorkerBetween.shared.committed.renewalRows 7 = 2 := by
  decide +kernel

end Llmxy
