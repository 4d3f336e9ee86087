import Llmxy.Billing.Replay

/-!
# The life of a subscription

A subscription is active or past due until it is canceled or expires.  Seven operations
of three modules write its row: it is bought, drained by a charge, refilled by a refund,
scheduled to end, resumed, ended at once, and renewed or closed by its owner or by the
worker.  Each is a transaction that runs alone; the instants it reads are its own.

A refund is given the breakdown of an earlier charge, so the state of a run remembers
what its charges have returned.

## Main definitions

* `resumeSubscription`, `renewNow`, `scanOnce` — the operations that `Wallet` lacks.
* `SubState`, `SubOp`, `subStep` — runs.
* `Subscription.Closed`, `Lawful` — what a closed subscription and a quota promise.
* `lawful_of_quota` — every run that grants no negative quota.
-/

namespace Llmxy

/-! ### Resuming and renewing -/

/-- The answers of `resume_subscription`. -/
inductive ResumeResponse where
  | notFound
  | conflict (status : Str)
  | notScheduled
  | ok (subscriptionId : ℤ)
  deriving DecidableEq

/-- Undo a pending cancellation. -/
def resumeSubscription (user : User) (subId : ℤ) (pg : Pg) : ResumeResponse × Pg :=
  match (pg.subscriptions.get? subId).filter (·.userId = user.id) with
  | none => (.notFound, pg)
  | some sub =>
      if sub.status ≠ str "active" && sub.status ≠ str "past_due" then (.conflict sub.status, pg)
      else if sub.cancelAtPeriodEnd then
        (.ok sub.id, pg.saveSub { sub with cancelAtPeriodEnd := false, canceledAt := none })
      else (.notScheduled, pg)

/-- The answers of `renew_now`. -/
inductive RenewResponse where
  | notFound
  | nothingToDo
  | conflict (status : Str)
  | attempted (ok : Bool) (subscriptionId : ℤ) (reason : Str)
  deriving DecidableEq

/-- Renew a subscription at the request of its user. -/
def renewNow (user : User) (subId now : ℤ) (pg : Pg) : RenewResponse × Pg :=
  match (pg.subscriptions.get? subId).filter (·.userId = user.id) with
  | none => (.notFound, pg)
  | some sub =>
      if sub.status = str "active" && now < sub.currentPeriodEnd then (.nothingToDo, pg)
      else if sub.status = str "canceled" || sub.status = str "expired" then
        (.conflict sub.status, pg)
      else
        let r := renewSubscription sub now pg
        (.attempted r.1.1 sub.id r.1.2, r.2)

/-- The filter of the worker's scan. -/
def Subscription.isDue (now : ℤ) (sub : Subscription) : Bool :=
  sub.currentPeriodEnd ≤ now && (sub.status = str "active" || sub.status = str "past_due")

/-- The subscriptions whose period has ended, by id. -/
def dueSubscriptions (pg : Pg) (now : ℤ) : List Subscription :=
  (pg.subscriptions.select (Subscription.isDue now)).insertionSort fun a b => a.id ≤ b.id

/-- One pass of the renewal worker. -/
def scanOnce (now : ℤ) (pg : Pg) : Pg :=
  (dueSubscriptions pg now).foldl (fun pg sub => (renewSubscription sub now pg).2) pg

/-! ### Runs -/

/-- The tables, and the breakdowns that the charges so far have returned. -/
structure SubState where
  pg : Pg
  charges : List (List Share)

/-- The operations on subscriptions.  A refund names the charge it reverses. -/
inductive SubOp where
  | subscribe (uid planId now : ℤ)
  | charge (uid : ℤ) (kid : Option ℤ) (cost : ℤ) (refId note : Option Str) (now : ℤ)
  | refund (uid : ℤ) (kid : Option ℤ) (index : ℕ) (refundCents : ℤ) (refId note : Option Str)
      (now : ℤ)
  | cancel (uid sid : ℤ) (atPeriodEnd : Bool) (now : ℤ)
  | resume (uid sid : ℤ)
  | renewNow (uid sid now : ℤ)
  | scan (now : ℤ)
  deriving DecidableEq

/-- The tables after a transaction that may commit nothing. -/
def Pg.commitOr (pg after : Pg) : Pg := (pg.commitTo after).getD pg

/-- A request of a user, if there is the user. -/
def Pg.request (pg : Pg) (uid : ℤ) (f : User → Pg) : Pg :=
  ((pg.users.get? uid).map fun user => pg.commitOr (f user)).getD pg

/-- One operation, alone on the tables. -/
def SubOp.exec (s : SubState) : SubOp → SubState
  | .subscribe uid planId now =>
      { s with pg := s.pg.request uid fun user => (subscribeWithBalance user planId now s.pg).2 }
  | .charge uid kid cost refId note now =>
      match chargeTxn s.pg uid kid cost refId note now with
      | none => s
      | some (breakdown, pg) => ⟨pg, s.charges ++ [breakdown]⟩
  | .refund uid kid index refundCents refId note now =>
      match refundTxn s.pg uid kid (s.charges.getD index []) refundCents refId note now with
      | none => s
      | some (_, pg) => { s with pg := pg }
  | .cancel uid sid atPeriodEnd now =>
      { s with pg := s.pg.request uid fun user =>
        (cancelSubscription user sid atPeriodEnd now s.pg).2 }
  | .resume uid sid =>
      { s with pg := s.pg.request uid fun user => (resumeSubscription user sid s.pg).2 }
  | .renewNow uid sid now =>
      { s with pg := s.pg.request uid fun user => (Llmxy.renewNow user sid now s.pg).2 }
  | .scan now => { s with pg := s.pg.commitOr (scanOnce now s.pg) }

/-- The machine of a run. -/
def subStep (s : SubState) (op : SubOp) : Option SubState := some (op.exec s)

/-- The subscription has ended. -/
def Subscription.Closed (sub : Subscription) : Prop :=
  sub.status = str "canceled" ∨ sub.status = str "expired"

/-- Does the operation charge a request? -/
def SubOp.isCharge : SubOp → Bool
  | .charge _ _ _ _ _ _ => true
  | _ => false

/-- The rows by which an operation charges the wallet for a subscription.  What
`charge_user` logs is the charge of a request, under a reference of the caller's. -/
def SubOp.walletCharges (s : SubState) (op : SubOp) : List BalanceTx :=
  if op.isCharge then []
  else (newRows s.pg (op.exec s).pg).filter fun row => row.type = .consume

/-- The reference of a renewal's charge. -/
def subRef (sid : ℤ) : Str := str "sub#" ++ showInt sid

/-- No quota is negative, and what has closed is left alone: its row stays as it is, and
no operation charges a wallet for it. -/
structure Lawful (ops : List SubOp) (s : SubState) : Prop where
  nonneg : ∀ bs t, bs <+: ops → run subStep bs s = some t →
    ∀ sub ∈ t.pg.subscriptions.rows, 0 ≤ sub.remainingCents
  closed : ∀ bs cs t u, bs ++ cs <+: ops → run subStep bs s = some t → run subStep cs t = some u →
    ∀ sub ∈ t.pg.subscriptions.rows, sub.Closed → sub ∈ u.pg.subscriptions.rows
  uncharged : Along subStep (fun s op => ∀ sub ∈ s.pg.subscriptions.rows, sub.Closed →
    ∀ row ∈ op.walletCharges s, row.refId ≠ some (subRef sub.id)) ops s

/-- The plan that the operation would grant or renew has no negative quota. -/
def SubOp.QuotaOk (s : SubState) : SubOp → Prop
  | .subscribe _ planId _ => ∀ plan ∈ s.pg.plans.get? planId, 0 ≤ plan.quotaCents
  | .renewNow _ sid _ => ∀ sub ∈ s.pg.subscriptions.get? sid,
      ∀ plan ∈ s.pg.plans.get? sub.planId, 0 ≤ plan.quotaCents
  | .scan now => ∀ sub ∈ dueSubscriptions s.pg now,
      ∀ plan ∈ s.pg.plans.get? sub.planId, 0 ≤ plan.quotaCents
  | .charge _ _ _ _ _ _ | .refund _ _ _ _ _ _ _ | .cancel _ _ _ _ | .resume _ _ => True

instance (s : SubState) (op : SubOp) : Decidable (op.QuotaOk s) :=
  match op with
  | .subscribe _ planId _ =>
      inferInstanceAs (Decidable (∀ plan ∈ s.pg.plans.get? planId, 0 ≤ plan.quotaCents))
  | .renewNow _ sid _ => inferInstanceAs (Decidable (∀ sub ∈ s.pg.subscriptions.get? sid,
      ∀ plan ∈ s.pg.plans.get? sub.planId, 0 ≤ plan.quotaCents))
  | .scan now => inferInstanceAs (Decidable (∀ sub ∈ dueSubscriptions s.pg now,
      ∀ plan ∈ s.pg.plans.get? sub.planId, 0 ≤ plan.quotaCents))
  | .charge _ _ _ _ _ _ | .refund _ _ _ _ _ _ _ | .cancel _ _ _ _ | .resume _ _ => isTrue trivial

/-! ### What a transaction may do -/

section
variable {pg mid after : Pg} {sub : Subscription} {uid now : ℤ}

/-- The rows of closed subscriptions stay as they are, and a wallet that is charged for a
subscription is not charged for a closed one. -/
structure SparesClosed (pg after : Pg) : Prop where
  kept : ∀ sub ∈ pg.subscriptions.rows, sub.Closed → sub ∈ after.subscriptions.rows
  log : ∃ rows, after.balanceTx = pg.balanceTx ++ rows ∧ ∀ row ∈ rows, row.type = .consume →
    ∀ sub ∈ pg.subscriptions.rows, sub.Closed → row.refId ≠ some (subRef sub.id)

/-- No quota is negative. -/
def NonNegQuotas (pg : Pg) : Prop := ∀ sub ∈ pg.subscriptions.rows, 0 ≤ sub.remainingCents

theorem SparesClosed.refl (pg : Pg) : SparesClosed pg pg :=
  ⟨fun _ h _ => h, [], (List.append_nil _).symm, by simp⟩

theorem SparesClosed.trans (h : SparesClosed pg mid) (h' : SparesClosed mid after) :
    SparesClosed pg after := by
  obtain ⟨rows, hlog, hrows⟩ := h.log
  obtain ⟨rows', hlog', hrows'⟩ := h'.log
  refine ⟨fun sub hsub hclosed => h'.kept sub (h.kept sub hsub hclosed) hclosed,
    rows ++ rows', by rw [hlog', hlog, List.append_assoc], ?_⟩
  intro row hrow htype sub hsub hclosed
  rcases List.mem_append.mp hrow with hrow | hrow
  · exact hrows row hrow htype sub hsub hclosed
  · exact hrows' row hrow htype sub (h.kept sub hsub hclosed) hclosed

/-- Writing a row that is not closed. -/
theorem sparesClosed_update {sid : ℤ} {f : RowUpdate Subscription}
    (hopen : ∀ row, pg.subscriptions.get? sid = some row → ¬ row.Closed) :
    SparesClosed pg { pg with subscriptions := pg.subscriptions.update sid f } := by
  refine ⟨?_, [], (List.append_nil _).symm, by simp⟩
  intro x hx hclosed
  refine List.mem_map.mpr ⟨x, hx, if_neg ?_⟩
  rintro rfl
  exact hopen x (Table.get?_eq_some.mpr ⟨hx, rfl⟩) hclosed

/-- Moving a wallet for anything but a closed subscription. -/
theorem sparesClosed_moveWallet {type : BalanceTxType} {amount : ℤ} {refId note : Option Str}
    (href : type = .consume → ∀ sub ∈ pg.subscriptions.rows, sub.Closed →
      refId ≠ some (subRef sub.id)) :
    SparesClosed pg (moveWallet uid type amount refId note pg) := by
  refine ⟨fun _ h _ => h, _, rfl, ?_⟩
  intro row hrow htype
  rw [List.mem_singleton.mp hrow] at htype ⊢
  exact href htype

theorem sparesClosed_grant (user : User) (plan : Plan) (refId : Option Str) (now : ℤ) (pg : Pg) :
    SparesClosed pg (grantSubscription user plan refId now pg) := by
  refine ⟨fun _ h _ => List.mem_append_left _ h, _, rfl, ?_⟩
  intro row hrow htype
  rw [List.mem_singleton.mp hrow] at htype
  cases htype

theorem nonNegQuotas_update {sid : ℤ} {f : RowUpdate Subscription} (h : NonNegQuotas pg)
    (hf : ∀ row, pg.subscriptions.get? sid = some row → 0 ≤ (f.1 row).remainingCents) :
    NonNegQuotas { pg with subscriptions := pg.subscriptions.update sid f } := by
  intro x hx
  obtain ⟨row, hrow, rfl⟩ := List.mem_map.mp hx
  split_ifs with hid
  · exact hf row (Table.get?_eq_some.mpr ⟨hrow, hid⟩)
  · exact h row hrow

theorem nonNegQuotas_grant {user : User} {plan : Plan} {refId : Option Str} (h : NonNegQuotas pg)
    (hplan : 0 ≤ plan.quotaCents) : NonNegQuotas (grantSubscription user plan refId now pg) := by
  intro x hx
  rcases List.mem_append.mp hx with hx | hx
  · exact h x hx
  · rw [List.mem_singleton.mp hx]
    exact hplan

theorem subRef_injective {a b : ℤ} (h : subRef a = subRef b) : a = b :=
  showInt_injective (List.append_cancel_left h)

/-- A number is no reference of a subscription. -/
theorem subRef_ne_showInt (a b : ℤ) : showInt b ≠ subRef a := by
  intro h
  obtain ⟨d, t, hd, htext⟩ := showInt_head b
  have hhead : (subRef a).head? = some 115 := rfl
  have := digit_bounds hd
  rw [← h] at hhead
  rcases htext with htext | htext
  · rw [htext, List.head?_cons, Option.some.injEq] at hhead
    omega
  · rw [htext, List.head?_cons, Option.some.injEq] at hhead
    omega

/-! ### The operations -/

theorem sparesClosed_subscribe (user : User) (planId now : ℤ) (pg : Pg) :
    SparesClosed pg (subscribeWithBalance user planId now pg).2 := by
  rcases subscribeWithBalance_cases user planId now pg with heq | ⟨plan, payer, hbought⟩
  · rw [heq]
    exact .refl pg
  · obtain ⟨-, -, -, -, -, heq⟩ := hbought
    rw [heq]
    refine .trans ?_ (sparesClosed_grant _ _ _ _ _)
    have hplaced : SparesClosed pg (placeWalletOrder user plan now pg) :=
      ⟨fun _ h _ => h, [], (List.append_nil _).symm, by simp⟩
    unfold paySubscription
    split_ifs
    · refine hplaced.trans (sparesClosed_moveWallet fun _ sub _ _ href => ?_)
      exact subRef_ne_showInt _ _ (Option.some.inj href)
    · exact hplaced

theorem nonNegQuotas_subscribe {user : User} {planId : ℤ} (h : NonNegQuotas pg)
    (hplan : ∀ plan ∈ pg.plans.get? planId, 0 ≤ plan.quotaCents) :
    NonNegQuotas (subscribeWithBalance user planId now pg).2 := by
  rcases subscribeWithBalance_cases user planId now pg with heq | ⟨plan, payer, hbought⟩
  · rw [heq]
    exact h
  · obtain ⟨hget, -, -, -, -, heq⟩ := hbought
    rw [heq]
    refine nonNegQuotas_grant ?_ (hplan plan hget)
    intro x hx
    rw [(paySubscription_frame user plan _ _).1] at hx
    exact h x hx

theorem not_closed_of_open (h : sub.status = str "active" ∨ sub.status = str "past_due") :
    ¬ sub.Closed := by
  rintro (hc | hc) <;> rcases h with h | h <;> rw [h] at hc <;> revert hc <;> decide

theorem sparesClosed_saveSub {saved : Subscription}
    (hget : pg.subscriptions.get? sub.id = some sub) (hopen : ¬ sub.Closed)
    (hid : saved.id = sub.id) : SparesClosed pg (pg.saveSub saved) := by
  refine sparesClosed_update ?_
  intro row hrow
  rw [hid, hget] at hrow
  cases hrow
  exact hopen

theorem nonNegQuotas_saveSub {saved : Subscription} (h : NonNegQuotas pg)
    (hsaved : 0 ≤ saved.remainingCents) : NonNegQuotas (pg.saveSub saved) :=
  nonNegQuotas_update h fun _ _ => hsaved

/-- Renewing an open subscription. -/
theorem sparesClosed_renew (hget : pg.subscriptions.get? sub.id = some sub)
    (hopen : ¬ sub.Closed) (now : ℤ) : SparesClosed pg (renewSubscription sub now pg).2 := by
  rcases renewSubscription_cases sub now pg with ⟨saved, heq, hid, -⟩ | ⟨plan, user, -, -, heq⟩
  · rw [heq]
    exact sparesClosed_saveSub hget hopen hid
  · rw [heq]
    have hpaid : SparesClosed pg (payRenewal sub plan pg) := by
      unfold payRenewal
      split_ifs
      · refine sparesClosed_moveWallet fun _ x hx hclosed href => ?_
        have hsame : sub = x := by
          have hrow : pg.subscriptions.get? x.id = some x := Table.get?_eq_some.mpr ⟨hx, rfl⟩
          rw [← subRef_injective (Option.some.inj href), hget] at hrow
          exact Option.some.inj hrow
        exact hopen (hsame ▸ hclosed)
      · exact .refl pg
    have hrow : (payRenewal sub plan pg).subscriptions.get? sub.id = some sub := by
      unfold payRenewal
      split_ifs <;> exact hget
    exact hpaid.trans (sparesClosed_saveSub hrow hopen rfl)

theorem nonNegQuotas_renew (h : NonNegQuotas pg) (hsub : 0 ≤ sub.remainingCents)
    (hplan : ∀ plan ∈ pg.plans.get? sub.planId, 0 ≤ plan.quotaCents) (now : ℤ) :
    NonNegQuotas (renewSubscription sub now pg).2 := by
  rcases renewSubscription_cases sub now pg with
    ⟨saved, heq, -, -, hremaining, -⟩ | ⟨plan, user, hget, -, heq⟩
  · rw [heq]
    refine nonNegQuotas_saveSub h ?_
    omega
  · rw [heq]
    refine nonNegQuotas_saveSub ?_ (hplan plan hget)
    unfold payRenewal
    split_ifs <;> exact h

theorem sparesClosed_cancel (user : User) (sid : ℤ) (atPeriodEnd : Bool) (now : ℤ) (pg : Pg) :
    SparesClosed pg (cancelSubscription user sid atPeriodEnd now pg).2 := by
  rcases cancelSubscription_cases user sid atPeriodEnd now pg with heq | ⟨sub, saved, hcanceled⟩
  · rw [heq]
    exact .refl pg
  · obtain ⟨hget, hopen, heq, hid, -⟩ := hcanceled
    rw [← (Table.get?_eq_some.mp hget).2] at hget
    have hsaved := sparesClosed_saveSub hget (not_closed_of_open hopen) hid
    rcases heq with heq | ⟨cents, refId, note, heq⟩
    · rw [heq]
      exact hsaved
    · rw [heq]
      exact hsaved.trans (sparesClosed_moveWallet fun h => nomatch h)

theorem nonNegQuotas_cancel (h : NonNegQuotas pg) (user : User) (sid : ℤ) (atPeriodEnd : Bool)
    (now : ℤ) : NonNegQuotas (cancelSubscription user sid atPeriodEnd now pg).2 := by
  rcases cancelSubscription_cases user sid atPeriodEnd now pg with heq | ⟨sub, saved, hcanceled⟩
  · rw [heq]
    exact h
  · obtain ⟨hget, -, heq, -, hremaining⟩ := hcanceled
    have hsub := h sub (Table.get?_eq_some.mp hget).1
    have hsaved : NonNegQuotas (pg.saveSub saved) := nonNegQuotas_saveSub h (by omega)
    rcases heq with heq | ⟨cents, refId, note, heq⟩
    · rw [heq]
      exact hsaved
    · rw [heq]
      exact hsaved

theorem resumeSubscription_cases (user : User) (sid : ℤ) (pg : Pg) :
    (resumeSubscription user sid pg).2 = pg ∨
    ∃ sub, pg.subscriptions.get? sub.id = some sub ∧ ¬ sub.Closed ∧
      (resumeSubscription user sid pg).2 =
        pg.saveSub { sub with cancelAtPeriodEnd := false, canceledAt := none } := by
  unfold resumeSubscription
  cases hsub : (pg.subscriptions.get? sid).filter (·.userId = user.id) with
  | none => exact Or.inl rfl
  | some sub =>
      have hget := (Option.filter_eq_some_iff.mp hsub).1
      rw [← (Table.get?_eq_some.mp hget).2] at hget
      dsimp only
      split_ifs with hclosed hscheduled
      · exact Or.inl rfl
      · refine Or.inr ⟨sub, hget, not_closed_of_open ?_, rfl⟩
        simp only [Bool.and_eq_true, decide_eq_true_eq] at hclosed
        tauto
      · exact Or.inl rfl

theorem renewNow_cases (user : User) (sid now : ℤ) (pg : Pg) :
    (renewNow user sid now pg).2 = pg ∨
    ∃ sub, pg.subscriptions.get? sid = some sub ∧ ¬ sub.Closed ∧
      (renewNow user sid now pg).2 = (renewSubscription sub now pg).2 := by
  unfold renewNow
  cases hsub : (pg.subscriptions.get? sid).filter (·.userId = user.id) with
  | none => exact Or.inl rfl
  | some sub =>
      dsimp only
      split_ifs with hactive hclosed
      · exact Or.inl rfl
      · exact Or.inl rfl
      · refine Or.inr ⟨sub, (Option.filter_eq_some_iff.mp hsub).1, ?_, rfl⟩
        simpa [Subscription.Closed] using hclosed

/-- A renewal writes the row of its subscription alone. -/
theorem renewSubscription_frame (sub : Subscription) (now : ℤ) (pg : Pg) :
    (renewSubscription sub now pg).2.plans = pg.plans ∧
    ∀ k, k ≠ sub.id →
      (renewSubscription sub now pg).2.subscriptions.get? k = pg.subscriptions.get? k := by
  rcases renewSubscription_cases sub now pg with ⟨saved, heq, hid, -⟩ | ⟨plan, user, -, -, heq⟩
  · rw [heq]
    refine ⟨rfl, fun k hk => Table.get?_update_of_ne ?_⟩
    rw [hid]
    exact hk
  · rw [heq]
    have hpaid : (payRenewal sub plan pg).plans = pg.plans ∧
        (payRenewal sub plan pg).subscriptions = pg.subscriptions := by
      unfold payRenewal
      split_ifs <;> exact ⟨rfl, rfl⟩
    refine ⟨hpaid.1, fun k hk => (Table.get?_update_of_ne hk).trans ?_⟩
    rw [hpaid.2]

theorem mem_dueSubscriptions {x : Subscription} : x ∈ dueSubscriptions pg now ↔
    pg.subscriptions.get? x.id = some x ∧ x.isDue now = true := by
  rw [dueSubscriptions, List.mem_insertionSort, Table.mem_select, Table.get?_eq_some]
  simp

theorem nodup_dueSubscriptions (pg : Pg) (now : ℤ) :
    ((dueSubscriptions pg now).map (·.id)).Nodup := by
  have hperm := (List.perm_insertionSort (fun a b : Subscription => a.id ≤ b.id)
    (pg.subscriptions.select (Subscription.isDue now))).map (·.id)
  refine hperm.nodup_iff.mpr ?_
  exact pg.subscriptions.nodup.sublist (List.filter_sublist.map _)

theorem not_closed_of_due (h : sub.isDue now = true) : ¬ sub.Closed := by
  refine not_closed_of_open ?_
  simp only [Subscription.isDue, Bool.and_eq_true, Bool.or_eq_true, decide_eq_true_eq] at h
  exact h.2

/-- The worker renews the due subscriptions one after the other; each row is still the
one it has loaded when its turn comes. -/
theorem scan_induction {M : Pg → Prop} (h0 : M pg)
    (hstep : ∀ sub pg', sub ∈ dueSubscriptions pg now → pg'.subscriptions.get? sub.id = some sub →
      pg'.plans = pg.plans → M pg' → M (renewSubscription sub now pg').2) :
    M (scanOnce now pg) := by
  have hfold : ∀ (subs : List Subscription) (pg' : Pg), (subs.map (·.id)).Nodup →
      (∀ sub ∈ subs, sub ∈ dueSubscriptions pg now ∧ pg'.subscriptions.get? sub.id = some sub) →
      pg'.plans = pg.plans → M pg' →
      M (subs.foldl (fun pg sub => (renewSubscription sub now pg).2) pg') := by
    intro subs
    induction subs with
    | nil => exact fun pg' _ _ _ h => h
    | cons sub subs ih =>
        intro pg' hnodup hmem hplans h
        obtain ⟨hnotMem, hnodup'⟩ := List.nodup_cons.mp hnodup
        obtain ⟨hdue, hget⟩ := hmem sub List.mem_cons_self
        obtain ⟨hplans', hother⟩ := renewSubscription_frame sub now pg'
        refine ih _ hnodup' ?_ (hplans'.trans hplans) (hstep sub pg' hdue hget hplans h)
        intro x hx
        obtain ⟨hdue', hget'⟩ := hmem x (List.mem_cons_of_mem _ hx)
        refine ⟨hdue', (hother x.id ?_).trans hget'⟩
        intro hid
        exact hnotMem (List.mem_map.mpr ⟨x, hx, hid⟩)
  exact hfold _ pg (nodup_dueSubscriptions pg now)
    (fun sub hsub => ⟨hsub, (mem_dueSubscriptions.mp hsub).1⟩) rfl h0

theorem sparesClosed_scan (now : ℤ) (pg : Pg) : SparesClosed pg (scanOnce now pg) := by
  refine scan_induction (M := SparesClosed pg) (.refl pg) ?_
  intro sub pg' hdue hget _ h
  have hopen := not_closed_of_due (mem_dueSubscriptions.mp hdue).2
  exact h.trans (sparesClosed_renew hget hopen now)

theorem nonNegQuotas_scan (h : NonNegQuotas pg)
    (hplan : ∀ sub ∈ dueSubscriptions pg now, ∀ plan ∈ pg.plans.get? sub.planId,
      0 ≤ plan.quotaCents) : NonNegQuotas (scanOnce now pg) := by
  refine scan_induction (M := NonNegQuotas) h ?_
  intro sub pg' hdue hget hplans h'
  refine nonNegQuotas_renew h' (h sub ?_) ?_ now
  · exact (Table.get?_eq_some.mp (mem_dueSubscriptions.mp hdue).1).1
  · rw [hplans]
    exact hplan sub hdue

/-! ### Charges and refunds -/

theorem nodup_sources (pg : Pg) (uid now : ℤ) : ((sources pg uid now).map Prod.fst).Nodup := by
  have hperm := (List.perm_insertionSort
    (fun a b : Subscription => a.currentPeriodEnd ≤ b.currentPeriodEnd)
    (pg.subscriptions.select (Subscription.isActive uid now))).map (·.id)
  rw [sources, List.map_map]
  refine hperm.nodup_iff.mpr ?_
  exact pg.subscriptions.nodup.sublist (List.filter_sublist.map _)

/-- What is left of a subscription after a charge. -/
theorem sum_drained_sources {k : ℤ} (hget : pg.subscriptions.get? k = some sub)
    (h0 : 0 ≤ sub.remainingCents) (uid cost now : ℤ) :
    (((drain (sources pg uid now) cost).filter fun d => d.1 = k).map Prod.snd).sum ≤
        sub.remainingCents ∧
      (sub.Closed →
        (((drain (sources pg uid now) cost).filter fun d => d.1 = k).map Prod.snd).sum = 0) := by
  by_cases hsource : k ∈ (sources pg uid now).map Prod.fst
  · obtain ⟨source, hmem, hk⟩ := List.mem_map.mp hsource
    obtain ⟨x, hx, rfl⟩ := List.mem_map.mp hmem
    obtain ⟨hrow, hactive⟩ := mem_activeSubscriptions.mp hx
    have hsame : x = sub := by
      rw [show x.id = k from hk, hget] at hrow
      exact (Option.some.inj hrow).symm
    subst hsame
    subst hk
    refine ⟨sum_drained_le (nodup_sources pg uid now) hmem h0 cost, fun hclosed => ?_⟩
    exact absurd hclosed (not_closed_of_open (Or.inl (Subscription.isActive_iff.mp hactive).2.1))
  · rw [filter_drain_eq_nil hsource]
    exact ⟨h0, fun _ => rfl⟩

/-- Every quota is moved by its own amount. -/
theorem quotas_moved {t t' : Table Subscription} {d : ℤ → ℤ}
    (hget : ∀ k, t'.get? k = (t.get? k).map fun r =>
      { r with remainingCents := r.remainingCents + d k })
    (hd : ∀ x ∈ t.rows, 0 ≤ x.remainingCents + d x.id ∧ (x.Closed → d x.id = 0)) :
    (∀ x ∈ t'.rows, 0 ≤ x.remainingCents) ∧ ∀ x ∈ t.rows, x.Closed → x ∈ t'.rows := by
  constructor
  · intro x hx
    have hrow : t'.get? x.id = some x := Table.get?_eq_some.mpr ⟨hx, rfl⟩
    rw [hget] at hrow
    obtain ⟨r, hr, hxr⟩ := Option.map_eq_some_iff.mp hrow
    obtain ⟨hmem, hid⟩ := Table.get?_eq_some.mp hr
    have hleft := (hd r hmem).1
    rw [show r.id = x.id from hid] at hleft
    rw [← hxr]
    exact hleft
  · intro x hx hclosed
    have hrow : t.get? x.id = some x := Table.get?_eq_some.mpr ⟨hx, rfl⟩
    have hrow' : t'.get? x.id = some x := by
      rw [hget, hrow, (hd x hx).2 hclosed]
      simp
    exact (Table.get?_eq_some.mp hrow').1

/-- The transaction of a charge. -/
theorem charge_spec {kid : Option ℤ} {cost : ℤ} {refId note : Option Str} {bd : List Share}
    (h : NonNegQuotas pg) (hcharge : chargeTxn pg uid kid cost refId note now = some (bd, after)) :
    NonNegQuotas after ∧ (∀ x ∈ pg.subscriptions.rows, x.Closed → x ∈ after.subscriptions.rows) ∧
      ∀ b ∈ bd, 0 ≤ b.2.2 := by
  rcases le_or_gt cost 0 with hc | hc
  · obtain ⟨rfl, -, -, hsubs⟩ := chargeTxn_of_nonpos hc hcharge
    rw [NonNegQuotas, hsubs]
    exact ⟨h, fun _ hx _ => hx, by simp⟩
  · obtain ⟨user, huser, -, -, hsubs⟩ := chargeTxn_eq_some hcharge
    obtain ⟨-, -, -, rfl, -⟩ := chargeTxn_logs hc hcharge
    rw [pgAfter, if_pos hc] at hsubs
    let taken : ℤ → ℤ := fun k =>
      (((drain (sources pg user.id now) cost).filter fun d => d.1 = k).map Prod.snd).sum
    have htaken : ∀ x ∈ pg.subscriptions.rows,
        0 ≤ x.remainingCents + -taken x.id ∧ (x.Closed → -taken x.id = 0) := by
      intro x hx
      obtain ⟨hle, hzero⟩ :=
        sum_drained_sources (Table.get?_eq_some.mpr ⟨hx, rfl⟩) (h x hx) user.id cost now
      have hle' : taken x.id ≤ x.remainingCents := hle
      refine ⟨by omega, fun hclosed => ?_⟩
      have hzero' : taken x.id = 0 := hzero hclosed
      omega
    obtain ⟨hnonneg, hkept⟩ := quotas_moved
      (fun k => get?_drainTable (drain (sources pg user.id now) cost) pg.subscriptions k) htaken
    rw [NonNegQuotas, hsubs]
    refine ⟨hnonneg, hkept, ?_⟩
    intro b hb
    rcases List.mem_append.mp hb with hb | hb
    · obtain ⟨d, hd, rfl⟩ := List.mem_map.mp hb
      exact (drain_pos _ _ d hd).le
    · split_ifs at hb with hshort
      · rw [List.mem_singleton.mp hb]
        exact hshort.le
      · cases hb

/-- The transaction of a refund. -/
theorem refund_spec {kid : Option ℤ} {cents n : ℤ} {refId note : Option Str} {bd : List Share}
    (h : NonNegQuotas pg) (hpos : ∀ b ∈ bd, 0 ≤ b.2.2)
    (hrefund : refundTxn pg uid kid bd cents refId note now = some (n, after)) :
    NonNegQuotas after ∧ SparesClosed pg after := by
  have hlog : ∃ rows, after.balanceTx = pg.balanceTx ++ rows ∧ ∀ row ∈ rows, row.type = .refund := by
    by_cases hnothing : cents ≤ 0 ∨ bd = []
    · refine ⟨[], ?_, by simp⟩
      rw [(refundTxn_of_nothing hnothing hrefund).2, List.append_nil]
    · push Not at hnothing
      obtain ⟨user, row, -, -, hrow, htype, -⟩ := refundTxn_logs hnothing.1 hnothing.2 hrefund
      exact ⟨[row], hrow, by simp [htype]⟩
  have hquotas : NonNegQuotas after ∧
      ∀ x ∈ pg.subscriptions.rows, x.Closed → x ∈ after.subscriptions.rows := by
    rcases refundTxn_subscriptions hrefund with hsubs | hsubs
    · rw [NonNegQuotas, hsubs]
      exact ⟨h, fun _ hx _ => hx⟩
    · rw [NonNegQuotas, hsubs]
      refine quotas_moved (fun k => get?_refillTable _ _ k) ?_
      intro x hx
      have hgiven : ∀ g ∈ (refundSplit ((activeSubscriptions pg uid now).map (·.id)) bd cents).2,
          g.1 ∈ (activeSubscriptions pg uid now).map (·.id) ∧ 0 ≤ g.2 :=
        refundSplit_given hpos cents
      constructor
      · have hsum : 0 ≤ ((((refundSplit ((activeSubscriptions pg uid now).map (·.id)) bd
            cents).2).filter fun g => g.1 = x.id).map Prod.snd).sum :=
          sum_map_nonneg fun g hg => (hgiven g (List.mem_of_mem_filter hg)).2
        have := h x hx
        omega
      · intro hclosed
        rw [List.filter_eq_nil_iff.mpr]
        · rfl
        · intro g hg hid
          obtain ⟨y, hy, hyid⟩ := List.mem_map.mp (hgiven g hg).1
          obtain ⟨hrow, hactive⟩ := mem_activeSubscriptions.mp hy
          rw [decide_eq_true_eq] at hid
          have hsame : x = y := Table.eq_of_rowId_eq hx (Table.get?_eq_some.mp hrow).1
            (hid.symm.trans hyid.symm)
          rw [hsame] at hclosed
          exact not_closed_of_open (Or.inl (Subscription.isActive_iff.mp hactive).2.1) hclosed
  obtain ⟨rows, hrows, htypes⟩ := hlog
  refine ⟨hquotas.1, hquotas.2, rows, hrows, ?_⟩
  intro row hrow htype
  rw [htypes row hrow] at htype
  cases htype

end

/-! ### Runs -/

section
variable {s t : SubState} {ops : List SubOp} {op : SubOp}

/-- No quota is negative, and no charge has returned a negative share. -/
structure SubInv (s : SubState) : Prop where
  quotas : NonNegQuotas s.pg
  shares : ∀ bd ∈ s.charges, ∀ b ∈ bd, 0 ≤ b.2.2

theorem request_cases (pg : Pg) (uid : ℤ) (f : User → Pg) :
    pg.request uid f = pg ∨ ∃ user, pg.request uid f = f user := by
  unfold Pg.request
  cases pg.users.get? uid with
  | none => exact Or.inl rfl
  | some user =>
      rw [Option.map_some, Option.getD_some, Pg.commitOr]
      cases hcommit : pg.commitTo (f user) with
      | none => exact Or.inl rfl
      | some after => exact Or.inr ⟨user, commitTo_eq_some hcommit⟩

theorem commitOr_cases (pg after : Pg) : pg.commitOr after = pg ∨ pg.commitOr after = after := by
  unfold Pg.commitOr
  cases hcommit : pg.commitTo after with
  | none => exact Or.inl rfl
  | some after' => exact Or.inr (commitTo_eq_some hcommit)

/-- What every transaction of a request keeps, the request keeps. -/
theorem request_induction {M : Pg → Prop} {pg : Pg} {uid : ℤ} {f : User → Pg} (h0 : M pg)
    (hf : ∀ user, M (f user)) : M (pg.request uid f) := by
  rcases request_cases pg uid f with heq | ⟨user, heq⟩
  · rw [heq]
    exact h0
  · rw [heq]
    exact hf user

/-- The breakdown that a refund is given. -/
theorem SubInv.share (h : SubInv s) (index : ℕ) : ∀ b ∈ s.charges.getD index [], 0 ≤ b.2.2 := by
  intro b hb
  rw [List.getD_eq_getElem?_getD] at hb
  cases hbd : s.charges[index]? with
  | none => simp [hbd] at hb
  | some bd =>
      rw [hbd, Option.getD_some] at hb
      exact h.shares bd (List.mem_of_getElem? hbd) b hb

/-- **One operation** leaves no quota negative, if it grants none. -/
theorem subInv_exec (h : SubInv s) (hquota : op.QuotaOk s) : SubInv (op.exec s) := by
  cases op with
  | subscribe uid planId now =>
      exact ⟨request_induction h.quotas fun _ => nonNegQuotas_subscribe h.quotas hquota, h.shares⟩
  | charge uid kid cost refId note now =>
      simp only [SubOp.exec]
      cases hcharge : chargeTxn s.pg uid kid cost refId note now with
      | none => exact h
      | some r =>
          obtain ⟨bd, after⟩ := r
          obtain ⟨hquotas, -, hbd⟩ := charge_spec h.quotas hcharge
          refine ⟨hquotas, fun bd' hmem => ?_⟩
          rcases List.mem_append.mp hmem with hmem | hmem
          · exact h.shares bd' hmem
          · rw [List.mem_singleton.mp hmem]
            exact hbd
  | refund uid kid index refundCents refId note now =>
      simp only [SubOp.exec]
      cases hrefund : refundTxn s.pg uid kid (s.charges.getD index []) refundCents refId note now with
      | none => exact h
      | some r => exact ⟨(refund_spec h.quotas (h.share index) hrefund).1, h.shares⟩
  | cancel uid sid atPeriodEnd now =>
      exact ⟨request_induction h.quotas fun user =>
        nonNegQuotas_cancel h.quotas user sid atPeriodEnd now, h.shares⟩
  | resume uid sid =>
      refine ⟨request_induction h.quotas fun user => ?_, h.shares⟩
      rcases resumeSubscription_cases user sid s.pg with heq | ⟨sub, hget, -, heq⟩
      · rw [heq]
        exact h.quotas
      · rw [heq]
        exact nonNegQuotas_saveSub h.quotas (h.quotas sub (Table.get?_eq_some.mp hget).1)
  | renewNow uid sid now =>
      refine ⟨request_induction h.quotas fun user => ?_, h.shares⟩
      rcases renewNow_cases user sid now s.pg with heq | ⟨sub, hget, -, heq⟩
      · rw [heq]
        exact h.quotas
      · rw [heq]
        exact nonNegQuotas_renew h.quotas (h.quotas sub (Table.get?_eq_some.mp hget).1)
          (hquota sub hget) now
  | scan now =>
      refine ⟨?_, h.shares⟩
      rcases commitOr_cases s.pg (scanOnce now s.pg) with heq | heq
      · exact (congrArg NonNegQuotas heq).mpr h.quotas
      · exact (congrArg NonNegQuotas heq).mpr (nonNegQuotas_scan h.quotas hquota)

/-- An operation other than a charge spares the closed subscriptions. -/
theorem sparesClosed_exec (h : SubInv s) (hop : op.isCharge = false) :
    SparesClosed s.pg (op.exec s).pg := by
  cases op with
  | charge uid kid cost refId note now => cases hop
  | subscribe uid planId now =>
      exact request_induction (M := SparesClosed s.pg) (.refl s.pg) fun user =>
        sparesClosed_subscribe user planId now s.pg
  | refund uid kid index refundCents refId note now =>
      simp only [SubOp.exec]
      cases hrefund : refundTxn s.pg uid kid (s.charges.getD index []) refundCents refId note now with
      | none => exact .refl s.pg
      | some r => exact (refund_spec h.quotas (h.share index) hrefund).2
  | cancel uid sid atPeriodEnd now =>
      exact request_induction (M := SparesClosed s.pg) (.refl s.pg) fun user =>
        sparesClosed_cancel user sid atPeriodEnd now s.pg
  | resume uid sid =>
      refine request_induction (M := SparesClosed s.pg) (.refl s.pg) fun user => ?_
      rcases resumeSubscription_cases user sid s.pg with heq | ⟨sub, hget, hopen, heq⟩
      · rw [heq]
        exact .refl s.pg
      · rw [heq]
        exact sparesClosed_saveSub hget hopen rfl
  | renewNow uid sid now =>
      refine request_induction (M := SparesClosed s.pg) (.refl s.pg) fun user => ?_
      rcases renewNow_cases user sid now s.pg with heq | ⟨sub, hget, hopen, heq⟩
      · rw [heq]
        exact .refl s.pg
      · rw [heq]
        rw [← (Table.get?_eq_some.mp hget).2] at hget
        exact sparesClosed_renew hget hopen now
  | scan now =>
      rcases commitOr_cases s.pg (scanOnce now s.pg) with heq | heq
      · exact (congrArg (SparesClosed s.pg) heq).mpr (.refl s.pg)
      · exact (congrArg (SparesClosed s.pg) heq).mpr (sparesClosed_scan now s.pg)

/-- **One operation** leaves the rows of closed subscriptions as they are. -/
theorem closed_exec (h : SubInv s) (op : SubOp) :
    ∀ sub ∈ s.pg.subscriptions.rows, sub.Closed → sub ∈ (op.exec s).pg.subscriptions.rows := by
  cases op with
  | charge uid kid cost refId note now =>
      simp only [SubOp.exec]
      cases hcharge : chargeTxn s.pg uid kid cost refId note now with
      | none => exact fun _ hsub _ => hsub
      | some r => exact (charge_spec h.quotas hcharge).2.1
  | _ => exact (sparesClosed_exec h rfl).kept

/-- **One operation** charges no wallet for a closed subscription. -/
theorem uncharged_exec (h : SubInv s) (op : SubOp) :
    ∀ sub ∈ s.pg.subscriptions.rows, sub.Closed →
      ∀ row ∈ op.walletCharges s, row.refId ≠ some (subRef sub.id) := by
  intro sub hsub hclosed row hrow
  unfold SubOp.walletCharges at hrow
  split_ifs at hrow with hop
  · cases hrow
  · obtain ⟨rows, hlog, hrows⟩ := (sparesClosed_exec h (by simpa using hop)).log
    rw [newRows, hlog, List.drop_left, List.mem_filter, decide_eq_true_eq] at hrow
    exact hrows row hrow.1 hrow.2 sub hsub hclosed

/-- **Closed subscriptions stay closed and no quota is negative** in a run that grants no
plan of a negative quota. -/
theorem lawful_of_quota {pg : Pg} (h : NonNegQuotas pg)
    (hquota : Along subStep (fun s op => op.QuotaOk s) ops ⟨pg, []⟩) : Lawful ops ⟨pg, []⟩ := by
  have hinv : SubInv ⟨pg, []⟩ := ⟨h, by simp⟩
  have hstep : ∀ s op t, op.QuotaOk s → SubInv s → subStep s op = some t → SubInv t := by
    intro s op t hq hs ht
    cases ht
    exact subInv_exec hs hq
  constructor
  · intro bs t hbs hrun
    exact (run_induction_along hstep (hquota.of_prefix hbs) hinv hrun).quotas
  · intro bs cs t u hbs hrun hrun' sub hsub hclosed
    have hbs' : bs <+: ops := (List.prefix_append bs cs).trans hbs
    have ht := run_induction_along hstep (hquota.of_prefix hbs') hinv hrun
    have hcs := (along_append.mp (hquota.of_prefix hbs)).2 t hrun
    exact (run_induction_along (I := fun s => SubInv s ∧ sub ∈ s.pg.subscriptions.rows)
      (fun s op s' hq hs hs' => ⟨hstep s op s' hq hs.1 hs', by
        cases hs'
        exact closed_exec hs.1 op sub hs.2 hclosed⟩) hcs ⟨ht, hsub⟩ hrun').2
  · exact along_of_inv hstep (fun s op hs _ => uncharged_exec hs op) hquota hinv

end

/-- A charge, an immediate cancellation, the refund of the charge after it, and two
attempts to renew. -/
theorem lawful_canceled : Lawful
    [.charge 1 (some 3) 60 none none 10, .cancel 1 7 false 20, .refund 1 (some 3) 0 60 none none 30,
      .renewNow 1 7 40, .scan 200000000] ⟨oneSubPg 0 100, []⟩ :=
  lawful_of_quota (by unfold NonNegQuotas; decide) (by decide)

/-- User 1 with an empty wallet, and a free plan with a quota of -50 cents. -/
def debtPg : Pg := { oneSubPg 0 0 with
  plans := .single ⟨1, str "debt", str "recurring", 0, -50, 30, none, true⟩
  subscriptions := .empty }

/-- Subscribing to the plan makes a subscription with -50 cents. -/
theorem negative_quota_granted :
    (run subStep [.subscribe 1 1 10] ⟨debtPg, []⟩).map
      (fun s => s.pg.subscriptions.rows.map (·.remainingCents)) = some [-50] := by
  decide

end Llmxy
