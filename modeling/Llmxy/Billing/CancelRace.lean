import Llmxy.Billing.FundsLock
import Llmxy.Billing.Wallet

/-!
# Concurrent cancellations

Immediate cancellations of one subscription, beside transactions that charge, statement by
statement.  A cancellation reads the row without a lock, and computes the refund from what
it has read; the row is locked only when its new columns are flushed.  A cancellation that
waited for a charge, or for another cancellation, still refunds what it has read.

Any transaction may be rolled back instead, which is also what becomes of one whose rows
PostgreSQL rejects.

## Main definitions

* `CancelRequest`, `CancelPhase`, `cancelProg`, `cancelStep` — the machine.
* `RefundedOnce` — what the refunds should come to.
* `FreshCancel`, `refunded_once` — when they do.
-/

namespace Llmxy

/-- An immediate cancellation by a user, or a charge. -/
inductive CancelRequest where
  | cancel (uid : ℤ)
  | charge (uid cost : ℤ) (refId note : Option Str)
  deriving DecidableEq

/-- Why a cancellation was refused. -/
inductive CancelRefusal where
  | notFound
  | conflict (status : Str)
  deriving DecidableEq

/-- Where a request stands. -/
inductive CancelPhase where
  | start
  | loaded (user : User)
  | found (user : User) (sub : Subscription) (now : ℤ)
  | decided (user : User) (sub : Subscription) (plan : Option Plan) (now : ℤ)
  | flushed (user : User) (sub : Subscription) (plan : Option Plan)
  | credited (refund : ℤ)
  | canceled (refund : ℤ)
  | refused (reason : CancelRefusal)
  | charging (user : User) (c : ChargePhase)
  | charged (breakdown : List Share)
  | rolledBack
  deriving DecidableEq

/-- The attributes that a cancellation assigns. -/
def Subscription.cancelNow (now : ℤ) (sub : Subscription) : Subscription :=
  { sub with
    status := str "canceled"
    cancelAtPeriodEnd := true
    canceledAt := some now
    remainingCents := 0
    currentPeriodEnd := now }

/-- Write the columns of a canceled subscription. -/
def flushCanceled (sub : Subscription) (now : ℤ) (pg : Pg) : Pg :=
  { pg with subscriptions := pg.subscriptions.update sub.id (sub.flush (sub.cancelNow now)) }

/-- Credit a refund to the wallet. -/
def creditRefund (user : User) (sub : Subscription) (plan : Option Plan) (pg : Pg) : Pg :=
  moveWallet user.id .refund (prorated plan sub.remainingCents) (some (showInt sub.id))
    (some (str "refund sub#" ++ showInt sub.id ++ str " plan " ++ (plan.map Plan.code).getD [])) pg

variable {n : ℕ}

/-- The user of a request. -/
def CancelRequest.uid : CancelRequest → ℤ
  | .cancel uid | .charge uid _ _ _ => uid

/-- The statements of a request for subscription `sid`. -/
def cancelProg (sid : ℤ) (reqs : Fin n → CancelRequest) (now : ℤ) (i : Fin n)
    (rows : FundsRows n) : CancelPhase → Option (FundsRows n × CancelPhase)
  | .start =>
      ((rows.view i).users.get? (reqs i).uid).map fun user =>
        match reqs i with
        | .cancel _ => (rows, .loaded user)
        | .charge _ _ _ _ => (rows, .charging user .begun)
  | .loaded user =>
      match ((rows.view i).subscriptions.get? sid).filter (·.userId = user.id) with
      | none => some (rows, .refused .notFound)
      | some sub =>
          if sub.status ≠ str "active" && sub.status ≠ str "past_due" then
            some (rows, .refused (.conflict sub.status))
          else some (rows, .found user sub now)
  | .found user sub now =>
      some (rows, .decided user sub ((rows.view i).plans.get? sub.planId) now)
  | .decided user sub plan now =>
      (rows.update i (.sub sub.id) (flushCanceled sub now)).map fun rows =>
        (rows, .flushed user sub plan)
  | .flushed user sub plan =>
      let refund := prorated plan sub.remainingCents
      if 0 < refund then
        (rows.update i (.user user.id) (creditRefund user sub plan)).bind fun rows =>
          ((rows.view i).users.get? user.id).map fun _ => (rows, .credited refund)
      else some (rows, .credited refund)
  | .credited refund => some (rows.commit i, .canceled refund)
  | .charging _ (.returned breakdown _) => some (rows.commit i, .charged breakdown)
  | .charging user c =>
      match reqs i with
      | .cancel _ => none
      | .charge _ cost refId note =>
          (chargeProg user cost refId note now i rows c).map fun r => (r.1, .charging user r.2)
  | .canceled _ | .refused _ | .charged _ | .rolledBack => none

/-- A request that has not ended is rolled back. -/
def CancelPhase.abort : CancelPhase → Option CancelPhase
  | .canceled _ | .refused _ | .charged _ | .rolledBack => none
  | _ => some .rolledBack

/-- The requests on the tables. -/
abbrev CancelNet (n : ℕ) := Net (Fin n) (FundsRows n) CancelPhase

/-- One step of the system. -/
def cancelStep (sid : ℤ) (reqs : Fin n → CancelRequest) :
    CancelNet n → FundsLabel n → Option (CancelNet n) :=
  fundsStep (cancelProg sid reqs) CancelPhase.abort

/-- No request has begun. -/
def CancelNet.start (pg : Pg) : CancelNet n := ⟨.idle pg, fun _ => .start⟩

/-- What a committed charge has taken from subscription `sid`. -/
def CancelPhase.taken (sid : ℤ) : CancelPhase → ℤ
  | .charged breakdown => takenOf sid breakdown
  | _ => 0

/-- The refunds that have been credited, in the order of their commits. -/
def Pg.refunds (pg : Pg) : List ℤ := (pg.balanceTx.filter (·.type = .refund)).map (·.amountCents)

/-- What the committed charges have left of the subscription that was `sub`. -/
def CancelNet.left (sub : Subscription) (s : CancelNet n) : ℤ :=
  sub.remainingCents - ∑ i, (s.loc i).taken sub.id

/-- At most one refund has been credited since `pg`, the price of what the charges have
left. -/
def RefundedOnce (pg : Pg) (sub : Subscription) (s : CancelNet n) : Prop :=
  s.shared.committed.refunds = pg.refunds ∨
    s.shared.committed.refunds = pg.refunds ++ [prorated (pg.plans.get? sub.planId) (s.left sub)]

/-- The row that a cancellation is about to write over has the status and the remaining quota
that the cancellation has read, if it will refund. -/
def CancelPhase.Fresh (pg : Pg) : CancelPhase → Prop
  | .decided _ sub plan _ => 0 < prorated plan sub.remainingCents →
      ∀ row ∈ pg.subscriptions.get? sub.id,
        row.status = sub.status ∧ row.remainingCents = sub.remainingCents
  | _ => True

instance CancelPhase.decidableFresh (pg : Pg) : (l : CancelPhase) → Decidable (l.Fresh pg)
  | .decided _ sub plan _ => inferInstanceAs (Decidable (0 < prorated plan sub.remainingCents →
      ∀ row ∈ pg.subscriptions.get? sub.id,
        row.status = sub.status ∧ row.remainingCents = sub.remainingCents))
  | .start | .loaded _ | .found _ _ _ | .flushed _ _ _ | .credited _ | .canceled _ | .refused _
  | .charging _ _ | .charged _ | .rolledBack => isTrue trivial

/-- A step that flushes no cancellation over a row that has changed since it was read. -/
def FreshCancel (s : CancelNet n) : FundsLabel n → Prop
  | .move i _ => (s.loc i).Fresh s.shared.committed
  | .rollback _ => True

instance decidableFreshCancel (s : CancelNet n) : (a : FundsLabel n) → Decidable (FreshCancel s a)
  | .move i _ => inferInstanceAs (Decidable ((s.loc i).Fresh s.shared.committed))
  | .rollback _ => isTrue trivial

/-! ### The invariant -/

/-- A subscription that can be canceled. -/
def Subscription.Live (sub : Subscription) : Prop :=
  sub.status = str "active" ∨ sub.status = str "past_due"

theorem not_live_of_canceled {sub : Subscription} (h : sub.status = str "canceled") : ¬ sub.Live := by
  rw [Subscription.Live, h]
  decide

/-- The subscription that a cancellation has read. -/
structure Cancelable (sub₀ sub : Subscription) : Prop where
  id : sub.id = sub₀.id
  plan : sub.planId = sub₀.planId
  live : sub.Live

/-- An open cancellation that has flushed: the row is locked, the commit will close it and
log `logged`, and a refund is the price of what the row still holds. -/
structure Closing (pg₀ : Pg) (sub₀ : Subscription) (rows : FundsRows n) (i : Fin n) (refund : ℤ)
    (logged : List ℤ) : Prop where
  sub : ∀ pg row, pg.subscriptions.get? sub₀.id = some row →
    ∃ row', (rows.pending i pg).subscriptions.get? sub₀.id = some row' ∧
      row'.status = str "canceled" ∧ row'.planId = row.planId
  plans : ∀ pg, (rows.pending i pg).plans = pg.plans
  refunds : ∀ pg, (rows.pending i pg).refunds = pg.refunds ++ logged
  held : rows.holder (.sub sub₀.id) = some i
  fresh : 0 < refund → ∃ row, rows.committed.subscriptions.get? sub₀.id = some row ∧ row.Live ∧
    refund = prorated (pg₀.plans.get? sub₀.planId) row.remainingCents

/-- What a request has done so far. -/
def CancelPhaseInv (pg₀ : Pg) (sub₀ : Subscription) (req : CancelRequest) (rows : FundsRows n)
    (i : Fin n) : CancelPhase → Prop
  | .found _ sub _ => rows.pending i = id ∧ Cancelable sub₀ sub
  | .decided _ sub plan _ =>
      rows.pending i = id ∧ Cancelable sub₀ sub ∧ plan = pg₀.plans.get? sub₀.planId
  | .flushed _ sub plan => Closing pg₀ sub₀ rows i (prorated plan sub.remainingCents) []
  | .credited refund => Closing pg₀ sub₀ rows i refund (if 0 < refund then [refund] else [])
  | .charging _ c =>
      match req with
      | .cancel _ => False
      | .charge _ cost _ _ => ChargeInv cost rows i c
  | _ => rows.pending i = id

variable {pg₀ : Pg} {sub₀ : Subscription} {rows rows' : FundsRows n} {i j : Fin n}

theorem Closing.kept {refund : ℤ} {logged : List ℤ} (h : Closing pg₀ sub₀ rows i refund logged)
    (hk : RowStore.Kept FundsKey.row i rows rows') : Closing pg₀ sub₀ rows' i refund logged := by
  have hrow : rows'.committed.subscriptions.get? sub₀.id =
      rows.committed.subscriptions.get? sub₀.id := congrArg Prod.snd (hk.row _ h.held)
  refine ⟨?_, ?_, ?_, hk.holder _ h.held, ?_⟩
  · rw [hk.pending]
    exact h.sub
  · rw [hk.pending]
    exact h.plans
  · rw [hk.pending]
    exact h.refunds
  · rw [hrow]
    exact h.fresh

theorem CancelPhaseInv.kept {req : CancelRequest} {l : CancelPhase}
    (h : CancelPhaseInv pg₀ sub₀ req rows i l) (hk : RowStore.Kept FundsKey.row i rows rows') :
    CancelPhaseInv pg₀ sub₀ req rows' i l := by
  cases l with
  | found user sub now => exact ⟨hk.pending.trans h.1, h.2⟩
  | decided user sub plan now => exact ⟨hk.pending.trans h.1, h.2⟩
  | flushed user sub plan => exact Closing.kept h hk
  | credited refund => exact Closing.kept h hk
  | charging user c =>
      cases req with
      | cancel uid => exact h
      | charge uid cost refId note => exact ChargeInv.kept h hk
  | _ => exact hk.pending.trans h

/-- The invariant of the machine: while the subscription is live nothing has been refunded,
and it holds what the committed charges have left. -/
structure CancelInv (pg₀ : Pg) (sub₀ : Subscription) (reqs : Fin n → CancelRequest)
    (s : CancelNet n) : Prop where
  owned : RowStore.Owned FundsKey.row s.shared
  phase : ∀ i, CancelPhaseInv pg₀ sub₀ (reqs i) s.shared i (s.loc i)
  plans : s.shared.committed.plans = pg₀.plans
  row : ∃ row, s.shared.committed.subscriptions.get? sub₀.id = some row ∧
    row.planId = sub₀.planId ∧
    (row.Live → s.shared.committed.refunds = pg₀.refunds ∧
      row.remainingCents = s.left sub₀)
  once : RefundedOnce pg₀ sub₀ s

variable {reqs : Fin n → CancelRequest} {s t : CancelNet n}

/-- A request that moves takes from the subscription what it commits. -/
theorem left_update {l : CancelPhase} (h : (s.loc i).taken sub₀.id = 0) :
    CancelNet.left sub₀ ⟨rows, Function.update s.loc i l⟩ = s.left sub₀ - l.taken sub₀.id := by
  rw [CancelNet.left, Net.sum_update (g := CancelPhase.taken sub₀.id) h, CancelNet.left]
  omega

theorem cancelInv_start (h : pg₀.subscriptions.get? sub₀.id = some sub₀) :
    CancelInv pg₀ sub₀ reqs (CancelNet.start pg₀) := by
  have hzero : ∑ i, ((CancelNet.start pg₀ : CancelNet n).loc i).taken sub₀.id = 0 :=
    Finset.sum_eq_zero fun i _ => rfl
  refine ⟨RowStore.owned_idle pg₀, fun i => rfl, rfl, ⟨sub₀, h, rfl, fun _ => ⟨rfl, ?_⟩⟩, Or.inl rfl⟩
  rw [CancelNet.left, hzero, sub_zero]

/-- A step that publishes nothing. -/
theorem CancelInv.quiet {l : CancelPhase} (h : CancelInv pg₀ sub₀ reqs s)
    (hq : RowStore.Quiet i s.shared rows) (howned : RowStore.Owned FundsKey.row rows)
    (hi : CancelPhaseInv pg₀ sub₀ (reqs i) rows i l) (hs : (s.loc i).taken sub₀.id = 0)
    (hl : l.taken sub₀.id = 0) : CancelInv pg₀ sub₀ reqs ⟨rows, Function.update s.loc i l⟩ := by
  have hleft : CancelNet.left sub₀ ⟨rows, Function.update s.loc i l⟩ = s.left sub₀ := by
    rw [left_update hs, hl, sub_zero]
  refine ⟨howned, ?_, ?_, ?_, ?_⟩
  · exact forall_phase_update (P := fun j rows l => CancelPhaseInv pg₀ sub₀ (reqs j) rows j l)
      (fun _ _ h hk => h.kept hk) h.phase (fun _ hj => hq.kept hj) hi
  · rw [hq.committed]
    exact h.plans
  · rw [hq.committed, hleft]
    exact h.row
  · rw [RefundedOnce, hq.committed, hleft]
    exact h.once

/-- What the requests know after a commit. -/
private theorem phase_commit {l : CancelPhase} (h : CancelInv pg₀ sub₀ reqs s)
    (hl : CancelPhaseInv pg₀ sub₀ (reqs i) (s.shared.commit i) i l) (j : Fin n) :
    CancelPhaseInv pg₀ sub₀ (reqs j) (s.shared.commit i) j (Function.update s.loc i l j) :=
  forall_phase_update (P := fun j rows l => CancelPhaseInv pg₀ sub₀ (reqs j) rows j l)
    (fun _ _ h hk => h.kept hk) h.phase (fun _ hj => RowStore.kept_commit h.owned hj) hl j

/-- A committed charge leaves the refunds, and takes nothing from a closed subscription. -/
theorem CancelInv.commitCharge {breakdown : List Share} (h : CancelInv pg₀ sub₀ reqs s)
    (htook : Took s.shared i (subTakes breakdown)) (hs : (s.loc i).taken sub₀.id = 0) :
    CancelInv pg₀ sub₀ reqs
      ⟨s.shared.commit i, Function.update s.loc i (.charged breakdown)⟩ := by
  obtain ⟨row, hrow, hplan, hlive⟩ := h.row
  have hrefunds : (s.shared.pending i s.shared.committed).refunds = s.shared.committed.refunds := by
    obtain ⟨logged, hlog, hconsume⟩ := htook.log s.shared.committed
    have hnone : logged.filter (·.type = .refund) = [] :=
      List.filter_eq_nil_iff.mpr fun x hx => by simp [hconsume x hx]
    rw [Pg.refunds, Pg.refunds, hlog, List.filter_append, hnone, List.append_nil]
  have hleft : CancelNet.left sub₀ ⟨s.shared.commit i, Function.update s.loc i (.charged breakdown)⟩ =
      s.left sub₀ - takenOf sub₀.id breakdown := left_update hs
  have hclosed : ¬ row.Live → takenOf sub₀.id breakdown = 0 := by
    intro hnot
    have hnone : (subTakes breakdown).filter (fun d => d.1 = sub₀.id) = [] := by
      refine List.filter_eq_nil_iff.mpr fun d hd hid => ?_
      obtain ⟨-, sub, hsub, hactive⟩ := htook.held d hd
      rw [of_decide_eq_true hid, hrow] at hsub
      cases hsub
      exact hnot (Or.inl hactive)
    rw [takenOf, hnone]
    rfl
  refine ⟨h.owned.commit i, phase_commit h RowStore.pending_commit, ?_, ?_, ?_⟩
  · rw [RowStore.committed_commit, htook.plans, h.plans]
  · refine ⟨{ row with remainingCents := row.remainingCents - takenOf sub₀.id breakdown }, ?_, ?_⟩
    · rw [RowStore.committed_commit, htook.subs, get?_drainTable, hrow]
      rfl
    · refine ⟨hplan, fun hl => ?_⟩
      obtain ⟨hnone, hrest⟩ := hlive hl
      rw [RowStore.committed_commit, hrefunds, hleft, hrest]
      exact ⟨hnone, rfl⟩
  · rw [RefundedOnce, RowStore.committed_commit, hrefunds, hleft]
    rcases h.once with hnone | hone
    · exact Or.inl hnone
    · have hnot : ¬ row.Live := by
        intro hl
        have hlen := congrArg List.length ((hlive hl).1.symm.trans hone)
        simp at hlen
      rw [hclosed hnot, sub_zero]
      exact Or.inr hone

/-- A committed cancellation closes the subscription, and a refund is its first. -/
theorem CancelInv.commitCancel {refund : ℤ} (h : CancelInv pg₀ sub₀ reqs s)
    (hclosing : Closing pg₀ sub₀ s.shared i refund (if 0 < refund then [refund] else []))
    (hs : (s.loc i).taken sub₀.id = 0) :
    CancelInv pg₀ sub₀ reqs ⟨s.shared.commit i, Function.update s.loc i (.canceled refund)⟩ := by
  obtain ⟨row, hrow, hplan, hlive⟩ := h.row
  obtain ⟨row', hrow', hcanceled, hplan'⟩ := hclosing.sub _ row hrow
  have hleft : CancelNet.left sub₀ ⟨s.shared.commit i, Function.update s.loc i (.canceled refund)⟩ =
      s.left sub₀ := (left_update hs).trans (sub_zero _)
  refine ⟨h.owned.commit i, phase_commit h RowStore.pending_commit, ?_, ?_, ?_⟩
  · rw [RowStore.committed_commit, hclosing.plans, h.plans]
  · exact ⟨row', hrow', hplan'.trans hplan, fun hl => absurd hl (not_live_of_canceled hcanceled)⟩
  · rw [RefundedOnce, RowStore.committed_commit, hclosing.refunds, hleft]
    by_cases hpos : 0 < refund
    · obtain ⟨row₁, hrow₁, hl, hamount⟩ := hclosing.fresh hpos
      rw [hrow] at hrow₁
      cases hrow₁
      obtain ⟨hnone, hrest⟩ := hlive hl
      rw [if_pos hpos, hnone, ← hrest, ← hamount]
      exact Or.inr rfl
    · rw [if_neg hpos, List.append_nil]
      exact h.once

/-! ### The steps -/

/-- Only the canceled subscription changes. -/
theorem row_flushCanceled {sub : Subscription} {now : ℤ} {k : FundsKey} (hk : k ≠ .sub sub.id)
    (pg : Pg) : k.row (flushCanceled sub now pg) = k.row pg := by
  cases k with
  | user id => rfl
  | sub id =>
      have hne : id ≠ sub.id := fun heq => hk (by rw [heq])
      simp only [FundsKey.row, flushCanceled, Table.get?_update_of_ne hne]

/-- Only the wallet that is credited changes. -/
theorem row_creditRefund {user : User} {sub : Subscription} {plan : Option Plan} {k : FundsKey}
    (hk : k ≠ .user user.id) (pg : Pg) : k.row (creditRefund user sub plan pg) = k.row pg := by
  cases k with
  | sub id => rfl
  | user id =>
      have hne : id ≠ user.id := fun heq => hk (by rw [heq])
      simp only [FundsKey.row, creditRefund, moveWallet, Table.get?_update_of_ne hne]

/-- The flush of a cancellation that has read what the row still holds. -/
theorem closing_flush {sub : Subscription} {plan : Option Plan} {now : ℤ} {row : Subscription}
    (hsub : Cancelable sub₀ sub) (hplan : plan = pg₀.plans.get? sub₀.planId)
    (hpending : rows.pending i = id) (hrow : rows.committed.subscriptions.get? sub₀.id = some row)
    (hfresh : 0 < prorated plan sub.remainingCents →
      row.status = sub.status ∧ row.remainingCents = sub.remainingCents)
    (hupd : rows.update i (.sub sub.id) (flushCanceled sub now) = some rows') :
    Closing pg₀ sub₀ rows' i (prorated plan sub.remainingCents) [] := by
  have hpending' : rows'.pending i = flushCanceled sub now := by
    rw [RowStore.pending_update hupd, hpending]
    rfl
  have hstatus : str "canceled" ≠ sub.status := by
    intro heq
    exact not_live_of_canceled heq.symm hsub.live
  refine ⟨?_, ?_, ?_, ?_, ?_⟩
  · intro pg row hrow
    refine ⟨(sub.flush (sub.cancelNow now)).1 row, ?_, ?_, ?_⟩
    · rw [hpending', flushCanceled, hsub.id, Table.get?_update_self, hrow]
      rfl
    · exact flushed_of_ne hstatus row.status
    · exact flushed_same sub.planId row.planId
  · intro pg
    rw [hpending']
    rfl
  · intro pg
    rw [hpending']
    exact (List.append_nil _).symm
  · rw [← hsub.id]
    exact RowStore.holder_update hupd
  · intro hpos
    obtain ⟨hsame, hleft⟩ := hfresh hpos
    refine ⟨row, ?_, ?_, ?_⟩
    · rw [RowStore.committed_update hupd, hrow]
    · rw [Subscription.Live, hsame]
      exact hsub.live
    · rw [hleft, hplan]

/-- The credit of a cancellation that has flushed. -/
theorem Closing.credit {user : User} {sub : Subscription} {plan : Option Plan}
    (h : Closing pg₀ sub₀ rows i (prorated plan sub.remainingCents) [])
    (hupd : rows.update i (.user user.id) (creditRefund user sub plan) = some rows') :
    Closing pg₀ sub₀ rows' i (prorated plan sub.remainingCents)
      [prorated plan sub.remainingCents] := by
  have hpending := RowStore.pending_update hupd
  refine ⟨?_, ?_, ?_, ?_, ?_⟩
  · rw [hpending]
    exact h.sub
  · rw [hpending]
    exact h.plans
  · intro pg
    have hlogged := h.refunds pg
    rw [List.append_nil] at hlogged
    rw [hpending, Function.comp_apply, ← hlogged]
    simp [Pg.refunds, creditRefund, moveWallet]
  · rw [(RowStore.update_eq_some hupd).2]
    simpa using h.held
  · rw [RowStore.committed_update hupd]
    exact h.fresh

theorem abort_eq_some (sub₀ : Subscription) {l l' : CancelPhase} (h : l.abort = some l') :
    l' = .rolledBack ∧ l.taken sub₀.id = 0 := by
  cases l <;> cases h <;> exact ⟨rfl, rfl⟩

/-- **One step** keeps the invariant, if a cancellation that will refund flushes over what it
has read. -/
theorem cancelInv_step {a : FundsLabel n} (h : CancelInv pg₀ sub₀ reqs s) (hfresh : FreshCancel s a)
    (hstep : cancelStep sub₀.id reqs s a = some t) : CancelInv pg₀ sub₀ reqs t := by
  cases a with
  | rollback i =>
      obtain ⟨l, habort, rfl⟩ := fundsStep_rollback.mp hstep
      obtain ⟨rfl, hzero⟩ := abort_eq_some sub₀ habort
      exact h.quiet (RowStore.quiet_rollback ..) (h.owned.rollback i) RowStore.pending_rollback
        hzero rfl
  | move i now =>
      obtain ⟨rows, l, hprog, rfl⟩ := fundsStep_move.mp hstep
      have hi := h.phase i
      have hquiet : ∀ {l : CancelPhase}, (s.loc i).taken sub₀.id = 0 → l.taken sub₀.id = 0 →
          CancelPhaseInv pg₀ sub₀ (reqs i) s.shared i l →
          CancelInv pg₀ sub₀ reqs ⟨s.shared, Function.update s.loc i l⟩ := fun hs hl hinv =>
        h.quiet (.refl i s.shared) h.owned hinv hs hl
      cases hl : s.loc i with
      | start =>
          rw [hl] at hprog hi
          obtain ⟨user, -, heq⟩ := Option.map_eq_some_iff.mp hprog
          cases hreq : reqs i with
          | cancel uid =>
              rw [hreq] at heq
              cases heq
              exact hquiet (by rw [hl]; rfl) rfl hi
          | charge uid cost refId note =>
              rw [hreq] at heq
              cases heq
              refine hquiet (by rw [hl]; rfl) rfl ?_
              rw [hreq]
              exact hi
      | loaded user =>
          rw [hl] at hprog hi
          simp only [cancelProg] at hprog
          cases hsub : ((s.shared.view i).subscriptions.get? sub₀.id).filter
              (·.userId = user.id) with
          | none =>
              rw [hsub] at hprog
              cases hprog
              exact hquiet (by rw [hl]; rfl) rfl hi
          | some sub =>
              rw [hsub] at hprog
              dsimp only at hprog
              split_ifs at hprog with hclosed <;> cases hprog
              · exact hquiet (by rw [hl]; rfl) rfl hi
              · refine hquiet (by rw [hl]; rfl) rfl ⟨hi, ?_⟩
                have hget := (Option.filter_eq_some_iff.mp hsub).1
                rw [RowStore.view_eq_committed hi] at hget
                obtain ⟨row, hrow, hplan, -⟩ := h.row
                rw [hrow] at hget
                cases hget
                refine ⟨(Table.get?_eq_some.mp hrow).2, hplan, ?_⟩
                simp only [Bool.and_eq_true, decide_eq_true_eq] at hclosed
                unfold Subscription.Live
                tauto
      | found user sub at' =>
          rw [hl] at hprog hi
          cases hprog
          refine hquiet (by rw [hl]; rfl) rfl ⟨hi.1, hi.2, ?_⟩
          rw [RowStore.view_eq_committed hi.1, h.plans, hi.2.plan]
      | decided user sub plan at' =>
          rw [hl] at hprog hi
          obtain ⟨rows', hupd, heq⟩ := Option.map_eq_some_iff.mp hprog
          cases heq
          obtain ⟨hpending, hsub, hplan⟩ := hi
          obtain ⟨row, hrow, -, -⟩ := h.row
          refine h.quiet (RowStore.quiet_update hupd)
            (h.owned.update hupd fun k hk pg => row_flushCanceled hk pg) ?_ (by rw [hl]; rfl) rfl
          refine closing_flush hsub hplan hpending hrow (fun hpos => ?_) hupd
          simp only [FreshCancel, hl, CancelPhase.Fresh] at hfresh
          refine hfresh hpos row ?_
          rw [hsub.id]
          exact hrow
      | flushed user sub plan =>
          rw [hl] at hprog hi
          simp only [cancelProg] at hprog
          split_ifs at hprog with hpos
          · obtain ⟨rows', hupd, heq⟩ := Option.bind_eq_some_iff.mp hprog
            obtain ⟨row, -, heq⟩ := Option.map_eq_some_iff.mp heq
            cases heq
            refine h.quiet (RowStore.quiet_update hupd)
              (h.owned.update hupd fun k hk pg => row_creditRefund hk pg) ?_ (by rw [hl]; rfl) rfl
            have hcredit := Closing.credit hi hupd
            simp only [CancelPhaseInv, if_pos hpos]
            exact hcredit
          · cases hprog
            refine hquiet (by rw [hl]; rfl) rfl ?_
            simp only [CancelPhaseInv, if_neg hpos]
            exact hi
      | credited refund =>
          rw [hl] at hprog hi
          cases hprog
          exact h.commitCancel hi (by rw [hl]; rfl)
      | charging user c =>
          rw [hl] at hprog hi
          cases hreq : reqs i with
          | cancel uid =>
              rw [hreq] at hi
              exact hi.elim
          | charge uid cost refId note =>
              rw [hreq] at hi
              have hcharge : ∀ {c' : ChargePhase} {rows' : FundsRows n},
                  chargeProg user cost refId note now i s.shared c = some (rows', c') →
                  CancelInv pg₀ sub₀ reqs
                    ⟨rows', Function.update s.loc i (.charging user c')⟩ := by
                intro c' rows' hc
                obtain ⟨hq, howned, hinv⟩ := chargeProg_spec h.owned hi hc
                refine h.quiet hq howned ?_ (by rw [hl]; rfl) rfl
                rw [hreq]
                exact hinv
              cases c with
              | returned breakdown after =>
                  cases hprog
                  exact h.commitCharge hi (by rw [hl]; rfl)
              | _ =>
                  simp only [cancelProg, hreq] at hprog
                  obtain ⟨r, hc, heq⟩ := Option.map_eq_some_iff.mp hprog
                  cases heq
                  exact hcharge hc
      | _ =>
          rw [hl] at hprog
          cases hprog

/-- **Immediate cancellation refunds once, and only what is unused**, in every run in which a
cancellation flushes over the row that it has read. -/
theorem refunded_once (hsub : pg₀.subscriptions.get? sub₀.id = some sub₀)
    {as : List (FundsLabel n)}
    (hfresh : Along (cancelStep sub₀.id reqs) FreshCancel as (CancelNet.start pg₀))
    (hrun : run (cancelStep sub₀.id reqs) as (CancelNet.start pg₀) = some t) :
    RefundedOnce pg₀ sub₀ t :=
  (run_induction_along (fun _ _ _ hP hI hs => cancelInv_step hI hP hs) hfresh
    (cancelInv_start hsub) hrun).once

/-! ### One cancellation alone -/

/-- A cancellation alone does what `cancelSubscription` does. -/
theorem cancelProg_alone {user : User} {sub : Subscription} {pg : Pg} (now : ℤ)
    (hu : pg.users.get? user.id = some user) (hsub : pg.subscriptions.get? sub.id = some sub)
    (howner : sub.userId = user.id) (hlive : sub.Live) :
    (run (cancelStep sub.id fun _ : Fin 1 => .cancel user.id) (List.replicate 6 (.move 0 now))
        (CancelNet.start pg)).map (·.shared.committed) =
      some (cancelSubscription user sub.id false now pg).2 := by
  have hfound : (some sub).filter (·.userId = user.id) = some sub := by
    simp [Option.filter, howner]
  have hopen : ¬ (¬ sub.status = str "active" ∧ ¬ sub.status = str "past_due") := by
    rintro ⟨hactive, hpastDue⟩
    exact hlive.elim hactive hpastDue
  have hflush : pg.subscriptions.update sub.id (sub.flush (sub.cancelNow now)) =
      pg.subscriptions.update sub.id (sub.cancelNow now).save := by
    refine Table.update_congr fun r hr => ?_
    rw [hsub] at hr
    cases hr
    rw [Subscription.flush_loaded, Subscription.save_val]
  by_cases hpos : 0 < prorated (pg.plans.get? sub.planId) sub.remainingCents
  · simp [List.replicate, run_cons, cancelStep, fundsStep, Net.step, cancelProg, CancelNet.start,
      RowStore.idle, RowStore.view, RowStore.update, RowStore.commit, CancelRequest.uid, hu, hsub,
      hfound, hopen, hpos, cancelSubscription, flushCanceled, creditRefund, moveWallet, Pg.saveSub]
    exact hflush
  · simp [List.replicate, run_cons, cancelStep, fundsStep, Net.step, cancelProg, CancelNet.start,
      RowStore.idle, RowStore.view, RowStore.update, RowStore.commit, CancelRequest.uid, hu, hsub,
      hfound, hopen, hpos, cancelSubscription, flushCanceled, Pg.saveSub]
    exact hflush

/-! ### One subscription -/

/-- Plan 1, whose quota of 100 cents costs 50. -/
def halfPlan : Plan := ⟨1, str "half", str "recurring", 50, 100, 30, none, true⟩

/-- User 1 has subscription 7 of that plan, unused, and an empty wallet. -/
def halfPg : Pg := { oneSubPg 0 100 with plans := .single halfPlan }

/-- Subscription 7 of `halfPg`. -/
def halfSub : Subscription := ⟨7, 1, 1, 0, 0, 100000000, str "active", 100, false, none, none, none⟩

/-- A charge of 40 cents and two cancellations. -/
def chargeAndCancels : Fin 3 → CancelRequest := ![.charge 1 40 none none, .cancel 1, .cancel 1]

/-- The charge, a cancellation, and a cancellation that finds the subscription closed. -/
def oneByOne : List (FundsLabel 3) :=
  List.replicate 5 (.move 0 10) ++ List.replicate 6 (.move 1 20) ++ List.replicate 2 (.move 2 30)

/-- The state after them. -/
def afterOneByOne : CancelNet 3 :=
  (run (cancelStep 7 chargeAndCancels) oneByOne (CancelNet.start halfPg)).get (by decide +kernel)

/-- The price of the 60 cents that the charge has left is refunded. -/
example : afterOneByOne.shared.committed.refunds = [30] := by decide +kernel

theorem refunded_once_oneByOne : RefundedOnce halfPg halfSub afterOneByOne :=
  @refunded_once 3 halfPg halfSub chargeAndCancels afterOneByOne (by decide) oneByOne
    (by decide +kernel) (Option.some_get _).symm

/-- Two cancellations read the subscription before either flushes. -/
def bothRead : List (FundsLabel 2) :=
  List.replicate 3 (.move 0 10) ++ List.replicate 3 (.move 1 10) ++
    List.replicate 3 (.move 0 10) ++ List.replicate 3 (.move 1 10)

/-- The state after them. -/
def afterBothRead : CancelNet 2 :=
  (run (cancelStep 7 fun _ => .cancel 1) bothRead (CancelNet.start halfPg)).get (by decide +kernel)

/-- Each refunds the price of the quota. -/
theorem cancellations_refund_twice : afterBothRead.shared.committed.refunds = [50, 50] ∧
    ¬ RefundedOnce halfPg halfSub afterBothRead := by
  unfold RefundedOnce
  decide +kernel

end Llmxy
