import Llmxy.Billing.FundsLock
import Llmxy.Billing.Wallet

/-!
# Concurrent purchases

Requests of one user that buy plans from the wallet, statement by statement.  Each checks
that the user has no open subscription of the plan, how often the user has bought it, and
the balance, on what it reads when it reads it; the order, the debit and the subscription
follow in statements that check nothing.

An identifier is drawn when the row is inserted, and shows nowhere before the commit: the
model draws it when the transaction commits.

## Main definitions

* `SubscribePhase`, `subscribeProg`, `subscribeStep` — the machine.
* `Covered`, `purchases_covered` — when nobody overdraws and no plan is bought twice.
-/

namespace Llmxy

/-- Where a purchase stands. -/
inductive SubscribePhase where
  | start
  | loaded (user : User)
  | planned (user : User) (plan : Plan)
  /-- No open subscription of the plan was found. -/
  | vacant (user : User) (plan : Plan)
  /-- All checks have passed. -/
  | approved (user : User) (plan : Plan)
  | ordered (user : User) (plan : Plan)
  | paid (user : User) (plan : Plan)
  | granted (user : User) (plan : Plan)
  | subscribed (balanceCents : ℤ)
  | refused (answer : SubscribeResponse)
  | rolledBack
  deriving DecidableEq

/-- The open subscriptions of a user to a plan. -/
def Pg.openOf (pg : Pg) (uid planId now : ℤ) : List Subscription :=
  pg.subscriptions.select fun s => s.isOpen uid now && s.planId = planId

/-- The order that was placed last. -/
def Pg.orderRef (pg : Pg) : Option Str := pg.orders.rows.getLast?.map fun order => showInt order.id

/-- Pay for the order that was placed. -/
def payOrdered (user : User) (plan : Plan) (pg : Pg) : Pg :=
  paySubscription user plan pg.orderRef pg

/-- Grant the subscription that was ordered. -/
def grantOrdered (user : User) (plan : Plan) (now : ℤ) (pg : Pg) : Pg :=
  grantSubscription user plan pg.orderRef now pg

variable {n : ℕ}

/-- The statements of a purchase of plan `plans i` by user `uid`. -/
def subscribeProg (uid : ℤ) (plans : Fin n → ℤ) (now : ℤ) (i : Fin n) (rows : FundsRows n) :
    SubscribePhase → Option (FundsRows n × SubscribePhase)
  | .start => ((rows.view i).users.get? uid).map fun user => (rows, .loaded user)
  | .loaded user =>
      match ((rows.view i).plans.get? (plans i)).filter (·.active) with
      | none => some (rows, .refused .planNotFound)
      | some plan => some (rows, .planned user plan)
  | .planned user plan =>
      match ((rows.view i).openOf user.id plan.id now).head? with
      | some existing =>
          some (rows, .refused (.alreadySubscribed existing.id existing.currentPeriodEnd))
      | none => some (rows, .vacant user plan)
  | .vacant user plan =>
      match purchaseLimitReached (rows.view i) user plan with
      | some (used, limit) => some (rows, .refused (.purchaseLimitReached used limit))
      | none =>
          let price := plan.priceCents
          let balance := user.balanceCents
          if 0 < price && balance < price then
            some (rows, .refused (.insufficientBalance balance price (price - balance) plan.id))
          else some (rows, .approved user plan)
  | .approved user plan => some (rows.insert i (placeWalletOrder user plan now), .ordered user plan)
  | .ordered user plan =>
      if 0 < plan.priceCents then
        (rows.update i (.user user.id) (payOrdered user plan)).bind fun rows =>
          ((rows.view i).users.get? user.id).map fun row =>
            (rows, .paid { user with balanceCents := row.balanceCents } plan)
      else some (rows, .paid user plan)
  | .paid user plan => some (rows.insert i (grantOrdered user plan now), .granted user plan)
  | .granted user _ => some (rows.commit i, .subscribed user.balanceCents)
  | .subscribed _ | .refused _ | .rolledBack => none

/-- A purchase that has not ended is rolled back. -/
def SubscribePhase.abort : SubscribePhase → Option SubscribePhase
  | .subscribed _ | .refused _ | .rolledBack => none
  | _ => some .rolledBack

/-- The purchases on the tables. -/
abbrev SubscribeNet (n : ℕ) := Net (Fin n) (FundsRows n) SubscribePhase

/-- One step of the system. -/
def subscribeStep (uid : ℤ) (plans : Fin n → ℤ) :
    SubscribeNet n → FundsLabel n → Option (SubscribeNet n) :=
  fundsStep (subscribeProg uid plans) SubscribePhase.abort

/-- No purchase has begun. -/
def SubscribeNet.start (pg : Pg) : SubscribeNet n := ⟨.idle pg, fun _ => .start⟩

/-- A purchase that is about to commit would pass its checks again: the wallet covers the
price, and no subscription of the plan is open. -/
def SubscribePhase.Covered (pg : Pg) (now : ℤ) : SubscribePhase → Prop
  | .granted user plan =>
      (0 < plan.priceCents → ∀ row ∈ pg.users.get? user.id, plan.priceCents ≤ row.balanceCents) ∧
        pg.openOf user.id plan.id now = []
  | _ => True

instance SubscribePhase.decidableCovered (pg : Pg) (now : ℤ) : (l : SubscribePhase) → Decidable (l.Covered pg now)
  | .granted user plan => inferInstanceAs (Decidable ((0 < plan.priceCents →
      ∀ row ∈ pg.users.get? user.id, plan.priceCents ≤ row.balanceCents) ∧
        pg.openOf user.id plan.id now = []))
  | .start | .loaded _ | .planned _ _ | .vacant _ _ | .approved _ _ | .ordered _ _ | .paid _ _
  | .subscribed _ | .refused _ | .rolledBack => isTrue trivial

/-- A step that commits no purchase whose checks would fail by now. -/
def Covered (s : SubscribeNet n) : FundsLabel n → Prop
  | .move i now => (s.loc i).Covered s.shared.committed now
  | .rollback _ => True

instance decidableCovered (s : SubscribeNet n) : (a : FundsLabel n) → Decidable (Covered s a)
  | .move i now => inferInstanceAs (Decidable ((s.loc i).Covered s.shared.committed now))
  | .rollback _ => isTrue trivial

/-! ### The invariant -/

/-- What the commit of a purchase will take from the wallet, and what it will insert: at most
`count` subscriptions, of plan `planId`. -/
structure Buys (f : Pg → Pg) (uid planId cents : ℤ) (count : ℕ) : Prop where
  wallet : ∀ pg, (f pg).wallet uid = (pg.wallet uid).map (· - cents)
  subs : ∀ pg, ∃ new, (f pg).subscriptions.rows = pg.subscriptions.rows ++ new ∧
    new.length ≤ count ∧ ∀ sub ∈ new, sub.planId = planId

/-- What a plan takes from the wallet. -/
def Plan.debit (plan : Plan) : ℤ := if 0 < plan.priceCents then plan.priceCents else 0

/-- What a purchase has done so far. -/
def SubscribePhaseInv (uid : ℤ) (f : Pg → Pg) : SubscribePhase → Prop
  | .loaded user | .planned user _ | .vacant user _ | .approved user _ => f = id ∧ user.id = uid
  | .ordered user plan => Buys f uid plan.id 0 0 ∧ user.id = uid
  | .paid user plan => Buys f uid plan.id plan.debit 0 ∧ user.id = uid
  | .granted user plan => Buys f uid plan.id plan.debit 1 ∧ user.id = uid
  | _ => f = id

/-- The invariant of the machine, for an instant after all steps. -/
structure SubscribeInv (uid last : ℤ) (s : SubscribeNet n) : Prop where
  phase : ∀ i, SubscribePhaseInv uid (s.shared.pending i) (s.loc i)
  wallet : ∀ b ∈ s.shared.committed.wallet uid, 0 ≤ b
  once : ∀ planId, (s.shared.committed.openOf uid planId last).length ≤ 1

variable {uid last : ℤ} {plans : Fin n → ℤ} {s t : SubscribeNet n} {rows : FundsRows n} {i : Fin n}
  {plan : Plan} {user : User} {f : Pg → Pg}

/-- What is open at the end is open before. -/
theorem openOf_mono {pg : Pg} {planId now : ℤ} (h : pg.openOf uid planId now = [])
    (hle : now ≤ last) : pg.openOf uid planId last = [] := by
  refine List.filter_eq_nil_iff.mpr fun sub hsub hopen => ?_
  refine List.filter_eq_nil_iff.mp h sub hsub ?_
  simp only [Subscription.isOpen, Bool.and_eq_true, decide_eq_true_eq] at hopen ⊢
  exact ⟨⟨hopen.1.1, by omega⟩, hopen.2⟩

theorem buys_order (user : User) (plan : Plan) (now : ℤ) :
    Buys (placeWalletOrder user plan now) uid plan.id 0 0 := by
  refine ⟨fun pg => ?_, fun pg => ⟨[], (List.append_nil _).symm, le_rfl, fun sub h => nomatch h⟩⟩
  simp only [sub_zero]
  exact Option.map_id'.symm

theorem Buys.pay (h : Buys f uid plan.id 0 0) (hid : user.id = uid) (hprice : 0 < plan.priceCents) :
    Buys (payOrdered user plan ∘ f) uid plan.id plan.debit 0 := by
  constructor
  · intro pg
    have hwallet := h.wallet pg
    simp only [sub_zero, Option.map_id'] at hwallet
    rw [← hwallet]
    simp only [payOrdered, paySubscription, if_pos hprice, Plan.debit, Pg.wallet, moveWallet,
      Function.comp_apply, hid, Table.get?_update_self, Option.map_map]
    rfl
  · intro pg
    obtain ⟨new, hnew, hrest⟩ := h.subs pg
    refine ⟨new, ?_, hrest⟩
    rw [← hnew, Function.comp_apply, payOrdered, (paySubscription_frame ..).1]

theorem Buys.grant (h : Buys f uid plan.id plan.debit 0) (user : User) (now : ℤ) :
    Buys (grantOrdered user plan now ∘ f) uid plan.id plan.debit 1 := by
  refine ⟨h.wallet, fun pg => ?_⟩
  obtain ⟨new, hnew, hlen, -⟩ := h.subs pg
  have hnil : new = [] := List.length_eq_zero_iff.mp (Nat.le_zero.mp hlen)
  refine ⟨[freshSubscription user plan now (f pg).subscriptions.nextId], ?_, le_rfl, ?_⟩
  · rw [Function.comp_apply, grantOrdered, rows_grantSubscription, hnew, hnil, List.append_nil]
  · intro sub hsub
    rw [List.mem_singleton.mp hsub]
    rfl

/-- A step that publishes nothing. -/
theorem SubscribeInv.quiet {l : SubscribePhase} (h : SubscribeInv uid last s)
    (hc : rows.committed = s.shared.committed)
    (hp : ∀ j, j ≠ i → rows.pending j = s.shared.pending j)
    (hi : SubscribePhaseInv uid (rows.pending i) l) :
    SubscribeInv uid last ⟨rows, Function.update s.loc i l⟩ := by
  refine ⟨fun j => ?_, ?_, ?_⟩
  · by_cases hj : j = i
    · subst hj
      simpa using hi
    · simpa [Function.update_of_ne hj, hp j hj] using h.phase j
  · rw [hc]
    exact h.wallet
  · rw [hc]
    exact h.once

/-- A purchase whose checks would pass again commits. -/
theorem SubscribeInv.commit {now : ℤ} {l : SubscribePhase} (h : SubscribeInv uid last s)
    (hbuys : Buys (s.shared.pending i) uid plan.id plan.debit 1)
    (hprice : 0 < plan.priceCents →
      ∀ row ∈ s.shared.committed.users.get? uid, plan.priceCents ≤ row.balanceCents)
    (hvacant : s.shared.committed.openOf uid plan.id now = []) (hnow : now ≤ last)
    (hl : SubscribePhaseInv uid id l) :
    SubscribeInv uid last ⟨s.shared.commit i, Function.update s.loc i l⟩ := by
  refine ⟨fun j => ?_, ?_, ?_⟩
  · by_cases hj : j = i
    · subst hj
      simpa using hl
    · simpa [Function.update_of_ne hj, RowStore.pending_commit_other hj] using h.phase j
  · intro b hb
    rw [RowStore.committed_commit, hbuys.wallet] at hb
    obtain ⟨b₀, hb₀, rfl⟩ := Option.map_eq_some_iff.mp hb
    have hnonneg := h.wallet b₀ hb₀
    obtain ⟨row, hrow, rfl⟩ := Option.map_eq_some_iff.mp hb₀
    unfold Plan.debit
    split_ifs with hpos
    · have := hprice hpos row hrow
      omega
    · omega
  · intro planId
    obtain ⟨new, hnew, hlen, hplan⟩ := hbuys.subs s.shared.committed
    rw [RowStore.committed_commit, Pg.openOf, Table.select, hnew, List.filter_append,
      List.length_append]
    have hnewOpen := List.length_filter_le
      (fun sub : Subscription => sub.isOpen uid last && sub.planId = planId) new
    by_cases hid : planId = plan.id
    · subst hid
      have hnone : (s.shared.committed.subscriptions.rows.filter fun sub =>
          sub.isOpen uid last && sub.planId = plan.id) = [] := openOf_mono hvacant hnow
      rw [hnone, List.length_nil]
      omega
    · have hnone : (new.filter fun sub => sub.isOpen uid last && sub.planId = planId) = [] := by
        refine List.filter_eq_nil_iff.mpr fun sub hsub hopen => ?_
        simp only [Bool.and_eq_true, decide_eq_true_eq] at hopen
        exact hid (hopen.2.symm.trans (hplan sub hsub))
      have honce := h.once planId
      rw [Pg.openOf, Table.select] at honce
      rw [hnone, List.length_nil]
      omega

/-- The instant that a step brings. -/
def FundsLabel.ByThen (last : ℤ) : FundsLabel n → Prop
  | .move _ now => now ≤ last
  | .rollback _ => True

instance FundsLabel.decidableByThen (last : ℤ) : (a : FundsLabel n) → Decidable (a.ByThen last)
  | .move _ now => inferInstanceAs (Decidable (now ≤ last))
  | .rollback _ => isTrue trivial

/-- **One step** keeps the invariant, if it commits no purchase whose checks would fail by
now. -/
theorem subscribeInv_step {a : FundsLabel n} (h : SubscribeInv uid last s) (hcovered : Covered s a)
    (hnow : a.ByThen last) (hstep : subscribeStep uid plans s a = some t) :
    SubscribeInv uid last t := by
  cases a with
  | rollback i =>
      obtain ⟨l, habort, rfl⟩ := fundsStep_rollback.mp hstep
      have hl : l = .rolledBack := by
        cases hs : s.loc i <;> rw [hs] at habort <;> cases habort <;> rfl
      subst hl
      exact h.quiet rfl (fun j hj => RowStore.pending_rollback_other hj) RowStore.pending_rollback
  | move i now =>
      obtain ⟨rows, l, hprog, rfl⟩ := fundsStep_move.mp hstep
      have hi := h.phase i
      have hsame : ∀ {l : SubscribePhase}, SubscribePhaseInv uid (s.shared.pending i) l →
          SubscribeInv uid last ⟨s.shared, Function.update s.loc i l⟩ := fun hl =>
        h.quiet rfl (fun _ _ => rfl) hl
      cases hl : s.loc i with
      | start =>
          rw [hl] at hprog hi
          obtain ⟨user, huser, heq⟩ := Option.map_eq_some_iff.mp hprog
          cases heq
          exact hsame ⟨hi, (Table.get?_eq_some.mp huser).2⟩
      | loaded user =>
          rw [hl] at hprog hi
          simp only [subscribeProg] at hprog
          split at hprog <;> cases hprog
          · exact hsame hi.1
          · exact hsame hi
      | planned user plan =>
          rw [hl] at hprog hi
          simp only [subscribeProg] at hprog
          split at hprog <;> cases hprog
          · exact hsame hi.1
          · exact hsame hi
      | vacant user plan =>
          rw [hl] at hprog hi
          simp only [subscribeProg] at hprog
          split at hprog
          · cases hprog
            exact hsame hi.1
          · split_ifs at hprog <;> cases hprog
            · exact hsame hi.1
            · exact hsame hi
      | approved user plan =>
          rw [hl] at hprog hi
          cases hprog
          refine h.quiet rfl (fun j hj => RowStore.pending_insert_other hj) ⟨?_, hi.2⟩
          rw [RowStore.pending_insert, hi.1]
          exact buys_order user plan now
      | ordered user plan =>
          rw [hl] at hprog hi
          simp only [subscribeProg] at hprog
          split_ifs at hprog with hprice
          · obtain ⟨rows', hupd, heq⟩ := Option.bind_eq_some_iff.mp hprog
            obtain ⟨row, -, heq⟩ := Option.map_eq_some_iff.mp heq
            cases heq
            refine h.quiet (RowStore.committed_update hupd)
              (fun j hj => RowStore.pending_update_other hupd hj) ⟨?_, hi.2⟩
            rw [RowStore.pending_update hupd]
            exact hi.1.pay hi.2 hprice
          · cases hprog
            refine hsame ⟨?_, hi.2⟩
            rw [Plan.debit, if_neg hprice]
            exact hi.1
      | paid user plan =>
          rw [hl] at hprog hi
          cases hprog
          refine h.quiet rfl (fun j hj => RowStore.pending_insert_other hj) ⟨?_, hi.2⟩
          rw [RowStore.pending_insert]
          exact hi.1.grant user now
      | granted user plan =>
          rw [hl] at hprog hi
          cases hprog
          simp only [Covered, hl, SubscribePhase.Covered, hi.2] at hcovered
          exact h.commit hi.1 hcovered.1 hcovered.2 hnow rfl
      | _ =>
          rw [hl] at hprog
          cases hprog

/-- **Buying plans never overdraws, and opens one subscription for each plan**, in every run in
which the checks of a purchase would pass again when it commits. -/
theorem purchases_covered {pg : Pg} (hwallet : ∀ b ∈ pg.wallet uid, 0 ≤ b)
    (honce : ∀ planId, (pg.openOf uid planId last).length ≤ 1) {as : List (FundsLabel n)}
    (hlast : ∀ a ∈ as, a.ByThen last)
    (hcovered : Along (subscribeStep uid plans) Covered as (SubscribeNet.start pg))
    (hrun : run (subscribeStep uid plans) as (SubscribeNet.start pg) = some t) :
    (∀ b ∈ t.shared.committed.wallet uid, 0 ≤ b) ∧
      ∀ planId, (t.shared.committed.openOf uid planId last).length ≤ 1 := by
  have hinv : SubscribeInv uid last t :=
    run_induction_along (fun _ _ _ hP hI hs => subscribeInv_step hI hP.1 hP.2 hs)
      (hcovered.and_forall hlast) ⟨fun i => rfl, hwallet, honce⟩ hrun
  exact ⟨hinv.wallet, hinv.once⟩

/-! ### One purchase alone -/

theorem orderRef_place (user : User) (plan : Plan) (now : ℤ) (pg : Pg) :
    (placeWalletOrder user plan now pg).orderRef = some (showInt pg.orders.nextId) := by
  have hrows : (placeWalletOrder user plan now pg).orders.rows =
      pg.orders.rows ++ [walletOrder user plan now pg.orders.nextId] := rfl
  rw [Pg.orderRef, hrows, List.getLast?_concat]
  rfl

/-- A purchase alone does what `subscribeWithBalance` does. -/
theorem subscribeProg_alone {user : User} {pg : Pg} (planId now : ℤ)
    (hu : pg.users.get? user.id = some user) :
    ∃ k, (run (subscribeStep user.id fun _ : Fin 1 => planId) (List.replicate k (.move 0 now))
        (SubscribeNet.start pg)).map (·.shared.committed) =
      some (subscribeWithBalance user planId now pg).2 := by
  unfold subscribeWithBalance
  cases hplan : (pg.plans.get? planId).filter (·.active) with
  | none =>
      refine ⟨2, ?_⟩
      simp [List.replicate, run_cons, subscribeStep, fundsStep, Net.step, subscribeProg,
        SubscribeNet.start, RowStore.idle, RowStore.view, hu, hplan]
  | some plan =>
      dsimp only
      cases hopen : (pg.subscriptions.select fun s =>
          s.isOpen user.id now && s.planId = plan.id).head? with
      | some existing =>
          refine ⟨3, ?_⟩
          simp [List.replicate, run_cons, subscribeStep, fundsStep, Net.step, subscribeProg,
            SubscribeNet.start, RowStore.idle, RowStore.view, hu, hplan, Pg.openOf, hopen]
      | none =>
          dsimp only
          cases hlimit : purchaseLimitReached pg user plan with
          | some limit =>
              refine ⟨4, ?_⟩
              simp [List.replicate, run_cons, subscribeStep, fundsStep, Net.step, subscribeProg,
                SubscribeNet.start, RowStore.idle, RowStore.view, hu, hplan, Pg.openOf, hopen,
                hlimit]
          | none =>
              dsimp only
              split_ifs with hshort hprice
              · refine ⟨4, ?_⟩
                simp [List.replicate, run_cons, subscribeStep, fundsStep, Net.step, subscribeProg,
                  SubscribeNet.start, RowStore.idle, RowStore.view, hu, hplan, Pg.openOf, hopen,
                  hlimit, hshort]
              · have hle : ¬ user.balanceCents < plan.priceCents := by
                  simpa [hprice] using hshort
                have hpay : payOrdered user plan (placeWalletOrder user plan now pg) =
                    moveWallet user.id .consume (-plan.priceCents)
                      (some (showInt pg.orders.nextId))
                      (some (str "plan " ++ plan.code ++ str " sub (wallet)"))
                      (placeWalletOrder user plan now pg) := by
                  rw [payOrdered, paySubscription, if_pos hprice, orderRef_place]
                have hrow : (payOrdered user plan (placeWalletOrder user plan now pg)).users.get?
                    user.id = some { user with
                      balanceCents := user.balanceCents + -plan.priceCents } := by
                  rw [hpay]
                  simp only [moveWallet, placeWalletOrder, Table.get?_update_self, hu]
                  rfl
                refine ⟨8, ?_⟩
                simp [List.replicate, run_cons, subscribeStep, fundsStep, Net.step, subscribeProg,
                  SubscribeNet.start, RowStore.idle, RowStore.view, RowStore.insert,
                  RowStore.update, RowStore.commit, hu, hplan, Pg.openOf, hopen, hlimit, hle,
                  hprice, hrow]
                have href : (payOrdered user plan (placeWalletOrder user plan now pg)).orderRef =
                    some (showInt pg.orders.nextId) := by
                  rw [hpay]
                  exact orderRef_place user plan now pg
                rw [grantOrdered, href, hpay, sub_eq_add_neg]
                rfl
              · refine ⟨8, ?_⟩
                simp [List.replicate, run_cons, subscribeStep, fundsStep, Net.step, subscribeProg,
                  SubscribeNet.start, RowStore.idle, RowStore.view, RowStore.insert,
                  RowStore.commit, hu, hplan, Pg.openOf, hopen, hlimit, hprice]
                rw [grantOrdered, orderRef_place]
                rfl

/-! ### One wallet -/

/-- User 1 has 80 cents; plan 1 and plan 2 cost 50 each. -/
def twoPlansPg : Pg := { oneSubPg 80 0 with
  plans := ⟨[⟨1, str "half", str "recurring", 50, 100, 30, none, true⟩,
    ⟨2, str "other", str "recurring", 50, 100, 30, none, true⟩], by decide⟩
  subscriptions := .empty }

/-- The first purchase ends before the second begins, which finds the wallet too short. -/
def twoPlansInTurn : List (FundsLabel 2) :=
  List.replicate 8 (.move 0 10) ++ List.replicate 4 (.move 1 20)

/-- The state after them. -/
def afterInTurn : SubscribeNet 2 :=
  (run (subscribeStep 1 ![1, 2]) twoPlansInTurn (SubscribeNet.start twoPlansPg)).get
    (by decide +kernel)

theorem purchases_covered_inTurn : (∀ b ∈ afterInTurn.shared.committed.wallet 1, 0 ≤ b) ∧
    ∀ planId, (afterInTurn.shared.committed.openOf 1 planId 20).length ≤ 1 :=
  @purchases_covered 2 1 20 ![1, 2] afterInTurn twoPlansPg (by decide)
    (fun _ => Nat.zero_le 1) twoPlansInTurn (by decide) (by decide +kernel)
    (Option.some_get _).symm

/-- Both purchases have checked before either pays. -/
def bothChecked : List (FundsLabel 2) :=
  List.replicate 4 (.move 0 10) ++ List.replicate 4 (.move 1 10) ++
    List.replicate 4 (.move 0 20) ++ List.replicate 4 (.move 1 20)

/-- The state after two purchases of these plans. -/
def afterBothChecked (plans : Fin 2 → ℤ) : Option (SubscribeNet 2) :=
  run (subscribeStep 1 plans) bothChecked (SubscribeNet.start twoPlansPg)

/-- Two purchases overdraw the wallet; two of one plan also open two subscriptions. -/
theorem purchases_overdraw :
    (afterBothChecked ![1, 2]).map (fun t => t.shared.committed.wallet 1) = some (some (-20)) ∧
      (afterBothChecked ![1, 1]).map (fun t => (t.shared.committed.openOf 1 1 20).length) =
        some 2 := by
  decide +kernel

end Llmxy
