import Llmxy.Billing.Refund
import Llmxy.Billing.Wallet

/-!
# Replaying the balance log

Every operation on a wallet logs what it did.  `Moves` says what a transaction does to
the wallets and to the log: it adds an amount to one wallet, and its rows name that
wallet and carry its balance afterwards.  Six of the seven operations log the amount
they add, so the log replays to the balance.  The admin's adjustment logs the amount it
was asked for, while the balance it assigns is kept from going negative.

## Main definitions

* `WalletOp.share` — what a row of the log says was added to the wallet.
* `Moves`, `exec_moves` — what an operation does.
* `Replays` — the new rows account for every wallet.
* `Unclamped` — an adjustment that applies what it logs.
* `balanceLog_replays_iff` — every run.
-/

namespace Llmxy

/-- The rows of the balance log that a transaction from `pg` to `after` has added. -/
def newRows (pg after : Pg) : List BalanceTx := after.balanceTx.drop pg.balanceTx.length

/-- The part of a refund that its note books on the wallet. -/
def refundedToWallet (pg : Pg) (uid : ℤ) (breakdown : List Share) (refundCents now : ℤ) : ℤ :=
  max 0 (refundSplit ((activeSubscriptions pg uid now).map (·.id)) breakdown refundCents).1

/-- The wallet share of a row that an operation logs: the wallet's part of the breakdown
for a charge and a refund, nothing for the grant of a plan, and the amount for the rows
that are not split. -/
def WalletOp.share (pg : Pg) (op : WalletOp) (row : BalanceTx) : ℤ :=
  match op with
  | .charge uid kid cost refId note now =>
      -walletShare (((chargeTxn pg uid kid cost refId note now).map Prod.fst).getD [])
  | .refund uid _ breakdown refundCents _ _ now =>
      refundedToWallet pg uid breakdown refundCents now
  | .subscribe _ _ _ => if row.type = .grant then 0 else row.amountCents
  | .topup _ _ _ _ | .renew _ _ | .cancel _ _ _ _ | .adjust _ _ _ => row.amountCents

/-- The new rows account for every wallet: each carries the balance of its user
afterwards, and the shares of a user's rows add up to the change of the wallet. -/
structure Replays (share : BalanceTx → ℤ) (pg after : Pg) : Prop where
  log : after.balanceTx = pg.balanceTx ++ newRows pg after
  balance : ∀ row ∈ newRows pg after, after.wallet row.userId = some row.balanceAfter
  change : ∀ uid, after.wallet uid = (pg.wallet uid).map
    (· + (((newRows pg after).filter fun row => row.userId = uid).map share).sum)

/-- The operation is not an adjustment that would take the wallet below zero.  An
adjustment whose note does not fit is rejected, whatever its amount. -/
def Unclamped (pg : Pg) : WalletOp → Prop
  | .adjust uid amount note => varcharFits 256 note = true →
      ∀ user ∈ pg.users.get? uid, 0 ≤ user.balanceCents + amount
  | _ => True

/-- The transaction adds `d` to the wallet of `uid` and logs `rows`. -/
structure Moves (pg after : Pg) (uid d : ℤ) (rows : List BalanceTx) : Prop where
  users : after.users = pg.users.update uid (User.setBalance (· + d))
  log : after.balanceTx = pg.balanceTx ++ rows
  balance : ∀ row ∈ rows, row.userId = uid ∧ pg.wallet uid = some (row.balanceAfter - d)

section
variable {pg after : Pg} {uid d : ℤ} {rows : List BalanceTx} {user : User}

theorem Moves.newRows_eq (h : Moves pg after uid d rows) : newRows pg after = rows := by
  rw [newRows, h.log, List.drop_left]

theorem Moves.wallet (h : Moves pg after uid d rows) (u : ℤ) :
    after.wallet u = if u = uid then (pg.wallet u).map (· + d) else pg.wallet u := by
  rw [Pg.wallet, h.users, Table.get?_update, Pg.wallet]
  by_cases hu : u = uid
  · rw [if_pos hu, if_pos hu, Option.map_map, Option.map_map]
    rfl
  · rw [if_neg hu, if_neg hu]

theorem Moves.nothing (husers : after.users = pg.users) (hlog : after.balanceTx = pg.balanceTx)
    (uid : ℤ) : Moves pg after uid 0 [] where
  users := by
    rw [husers, Table.update_eq_self]
    intro r _
    simp
  log := by rw [hlog, List.append_nil]
  balance := by simp

theorem moves_self (pg : Pg) (uid : ℤ) : Moves pg pg uid 0 [] := Moves.nothing rfl rfl uid

theorem Moves.saveSub (h : Moves pg after uid d rows) (sub : Subscription) :
    Moves pg (after.saveSub sub) uid d rows := ⟨h.users, h.log, h.balance⟩

/-- A grant logs a row and leaves the wallets. -/
theorem Moves.grant (h : Moves pg after uid d rows) (hid : user.id = uid)
    (hbalance : pg.wallet uid = some (user.balanceCents - d)) (plan : Plan) (refId : Option Str)
    (now : ℤ) :
    ∃ row, row.type = .grant ∧
      Moves pg (grantSubscription user plan refId now after) uid d (rows ++ [row]) := by
  have hlog : (grantSubscription user plan refId now after).balanceTx = after.balanceTx ++ [_] := rfl
  rw [h.log, List.append_assoc] at hlog
  refine ⟨_, ?_, h.users, hlog, ?_⟩
  · rfl
  · intro row hrow
    rcases List.mem_append.mp hrow with hrow | hrow
    · exact h.balance row hrow
    · rw [List.mem_singleton.mp hrow]
      exact ⟨hid, hbalance⟩

theorem Moves.moveWallet (hu : pg.users.get? uid = some user) (type : BalanceTxType) (d : ℤ)
    (refId note : Option Str) :
    ∃ row, row.type = type ∧ row.amountCents = d ∧
      Moves pg (moveWallet uid type d refId note pg) uid d [row] := by
  refine ⟨_, rfl, rfl, rfl, rfl, ?_⟩
  intro row hrow
  rw [List.mem_singleton.mp hrow]
  refine ⟨rfl, ?_⟩
  simp [Pg.wallet, hu]

/-- **A transaction that logs what it adds** keeps the log and the wallets in step. -/
theorem replays_of_moves {share : BalanceTx → ℤ} (h : Moves pg after uid d rows)
    (hsum : (rows.map share).sum = d) : Replays share pg after := by
  have hwallet := h.wallet
  constructor
  · rw [h.newRows_eq, h.log]
  · intro row hrow
    rw [h.newRows_eq] at hrow
    obtain ⟨hid, hbal⟩ := h.balance row hrow
    rw [hwallet, if_pos hid, hid, hbal, Option.map_some]
    congr 1
    omega
  · intro u
    rw [h.newRows_eq, hwallet]
    by_cases hu : u = uid
    · have hall : (rows.filter fun row => row.userId = u) = rows := by
        apply List.filter_eq_self.mpr
        intro row hrow
        simp [(h.balance row hrow).1, hu]
      rw [if_pos hu, hall, hsum]
    · have hnone : (rows.filter fun row => row.userId = u) = [] := by
        apply List.filter_eq_nil_iff.mpr
        intro row hrow
        have hne : uid ≠ u := fun h => hu h.symm
        simp [(h.balance row hrow).1, hne]
      rw [if_neg hu, hnone]
      cases pg.wallet u with
      | none => rfl
      | some b => simp

end

/-! ### The operations -/

section
variable {pg after : Pg} {uid now : ℤ} {refId note : Option Str}

/-- The wallet pays what the subscriptions did not cover. -/
theorem walletShare_charged (pg : Pg) (uid cost now : ℤ) (hc : 0 < cost) :
    walletShare (chargedShares pg uid cost now) = shortfall (sources pg uid now) cost := by
  have hnn := shortfall_nonneg (sources pg uid now) hc.le
  rw [chargedShares, walletShare_append, walletShare_subShare, zero_add]
  split_ifs with h
  · simp [walletShare]
  · simp only [walletShare, List.filter_nil, List.map_nil, List.sum_nil]
    omega

theorem moves_charge {kid : Option ℤ} {cost : ℤ}
    (h : (WalletOp.charge uid kid cost refId note now).exec pg = some after) :
    ∃ d rows, Moves pg after uid d rows ∧
      (rows.map ((WalletOp.charge uid kid cost refId note now).share pg)).sum = d := by
  obtain ⟨⟨bd, after'⟩, htxn, heq⟩ := Option.map_eq_some_iff.mp h
  cases heq
  by_cases hc : 0 < cost
  · obtain ⟨user, row, huser, hbd, husers, hlog, hid, hafter⟩ := chargeTxn_logs hc htxn
    refine ⟨-shortfall (sources pg uid now) cost, [row], ⟨?_, hlog, ?_⟩, ?_⟩
    · rw [husers]
      simp only [sub_eq_add_neg]
    · intro r hr
      rw [List.mem_singleton.mp hr]
      refine ⟨hid, ?_⟩
      rw [Pg.wallet, huser, hafter, Option.map_some]
      congr 1
      omega
    · simp only [List.map_cons, List.map_nil, List.sum_cons, List.sum_nil, add_zero,
        WalletOp.share, htxn, Option.map_some, Option.getD_some]
      rw [hbd, walletShare_charged pg uid cost now hc]
  · obtain ⟨-, husers, hlog, -⟩ := chargeTxn_of_nonpos (not_lt.mp hc) htxn
    exact ⟨0, [], Moves.nothing husers hlog uid, rfl⟩

theorem moves_refund {kid : Option ℤ} {breakdown : List Share} {cents : ℤ}
    (h : (WalletOp.refund uid kid breakdown cents refId note now).exec pg = some after) :
    ∃ d rows, Moves pg after uid d rows ∧
      (rows.map ((WalletOp.refund uid kid breakdown cents refId note now).share pg)).sum = d := by
  obtain ⟨⟨n, after'⟩, htxn, heq⟩ := Option.map_eq_some_iff.mp h
  cases heq
  by_cases hc : cents ≤ 0 ∨ breakdown = []
  · obtain ⟨husers, hlog⟩ := refundTxn_of_nothing hc htxn
    exact ⟨0, [], Moves.nothing husers hlog uid, rfl⟩
  · obtain ⟨hpos, hbd⟩ := not_or.mp hc
    obtain ⟨user, row, huser, husers, hlog, -, hid, hafter⟩ :=
      refundTxn_logs (not_le.mp hpos) hbd htxn
    refine ⟨refundedToWallet pg uid breakdown cents now, [row], ⟨?_, hlog, ?_⟩, ?_⟩
    · rw [husers, refundedToWallet]
      split_ifs with hw
      · rw [max_eq_right hw.le]
      · rw [max_eq_left (not_lt.mp hw), Table.update_eq_self]
        intro r _
        simp
    · intro r hr
      rw [List.mem_singleton.mp hr]
      refine ⟨hid, ?_⟩
      rw [Pg.wallet, huser, hafter, Option.map_some, refundedToWallet]
      split_ifs with hw
      · rw [max_eq_right hw.le, add_sub_cancel_right]
      · rw [max_eq_left (not_lt.mp hw), add_zero, sub_zero]
    · simp [WalletOp.share]

theorem moves_topup {amount : ℤ} (h : (WalletOp.topup uid amount refId note).exec pg = some after) :
    ∃ d rows, Moves pg after uid d rows ∧
      (rows.map ((WalletOp.topup uid amount refId note).share pg)).sum = d := by
  obtain ⟨user, huser, h⟩ := Option.bind_eq_some_iff.mp h
  have hid : user.id = uid := (Table.get?_eq_some.mp huser).2
  rw [commitTo_eq_some h, topupWallet_eq, hid]
  obtain ⟨row, -, hamount, hmoves⟩ := Moves.moveWallet huser .topup amount refId note
  exact ⟨amount, [row], hmoves, by simp [WalletOp.share, hamount]⟩

theorem moves_renew {sid : ℤ} (h : (WalletOp.renew sid now).exec pg = some after) :
    ∃ uid d rows, Moves pg after uid d rows ∧
      (rows.map ((WalletOp.renew sid now).share pg)).sum = d := by
  obtain ⟨sub, hsub, h⟩ := Option.bind_eq_some_iff.mp h
  rw [commitTo_eq_some h]
  rcases renewSubscription_cases sub now pg with ⟨sub', heq, -⟩ | ⟨plan, user, -, huser, heq⟩
  · rw [heq]
    exact ⟨sub.userId, 0, [], (moves_self pg _).saveSub sub', rfl⟩
  · rw [heq]
    by_cases hprice : 0 < plan.priceCents
    · obtain ⟨row, -, hamount, hmoves⟩ := Moves.moveWallet huser .consume (-plan.priceCents)
        (some (str "sub#" ++ showInt sub.id)) (some (str "plan " ++ plan.code ++ str " renewal"))
      rw [payRenewal, if_pos hprice]
      refine ⟨sub.userId, -plan.priceCents, [row], hmoves.saveSub _, ?_⟩
      simp [WalletOp.share, hamount]
    · rw [payRenewal, if_neg hprice]
      exact ⟨sub.userId, 0, [], (moves_self pg _).saveSub _, rfl⟩

theorem moves_cancel {sid : ℤ} {atPeriodEnd : Bool}
    (h : (WalletOp.cancel uid sid atPeriodEnd now).exec pg = some after) :
    ∃ d rows, Moves pg after uid d rows ∧
      (rows.map ((WalletOp.cancel uid sid atPeriodEnd now).share pg)).sum = d := by
  obtain ⟨user, huser, h⟩ := Option.bind_eq_some_iff.mp h
  rw [commitTo_eq_some h]
  have hid : user.id = uid := (Table.get?_eq_some.mp huser).2
  have hnothing : ∀ after', after'.users = pg.users → after'.balanceTx = pg.balanceTx →
      ∃ d rows, Moves pg after' uid d rows ∧
        (rows.map ((WalletOp.cancel uid sid atPeriodEnd now).share pg)).sum = d :=
    fun after' hu hl => ⟨0, [], Moves.nothing hu hl uid, rfl⟩
  unfold cancelSubscription
  cases (pg.subscriptions.get? sid).filter (·.userId = user.id) with
  | none => exact hnothing pg rfl rfl
  | some sub =>
      dsimp only
      split_ifs with hconflict hend hscheduled hrefund
      · exact hnothing _ rfl rfl
      · exact hnothing _ rfl rfl
      · exact hnothing _ rfl rfl
      · -- the refund is booked on the tables with the closed subscription
        rw [hid]
        obtain ⟨row, -, hamount, hmoves⟩ := Moves.moveWallet huser .refund
          (prorated (pg.plans.get? sub.planId) sub.remainingCents) (some (showInt sub.id))
          (some (str "refund sub#" ++ showInt sub.id ++ str " plan " ++
            ((pg.plans.get? sub.planId).map Plan.code).getD []))
        exact ⟨_, [row], ⟨hmoves.users, hmoves.log, hmoves.balance⟩, by
          simp [WalletOp.share, hamount]⟩
      · exact hnothing _ rfl rfl

theorem moves_subscribe {planId : ℤ}
    (h : (WalletOp.subscribe uid planId now).exec pg = some after) :
    ∃ d rows, Moves pg after uid d rows ∧
      (rows.map ((WalletOp.subscribe uid planId now).share pg)).sum = d := by
  obtain ⟨user, huser, h⟩ := Option.bind_eq_some_iff.mp h
  rw [commitTo_eq_some h]
  have hid : user.id = uid := (Table.get?_eq_some.mp huser).2
  subst hid
  have hwallet : pg.wallet user.id = some user.balanceCents := by
    rw [Pg.wallet, huser, Option.map_some]
  have hnothing : ∃ d rows, Moves pg pg user.id d rows ∧
      (rows.map ((WalletOp.subscribe user.id planId now).share pg)).sum = d :=
    ⟨0, [], moves_self pg user.id, rfl⟩
  unfold subscribeWithBalance
  cases (pg.plans.get? planId).filter (·.active) with
  | none => exact hnothing
  | some plan =>
      dsimp only
      cases (pg.subscriptions.select fun s =>
          s.isOpen user.id now && s.planId = plan.id).head? with
      | some existing => exact hnothing
      | none =>
          dsimp only
          cases purchaseLimitReached pg user plan with
          | some limit => exact hnothing
          | none =>
              dsimp only
              split_ifs with hshort hprice
              · exact hnothing
              · obtain ⟨row, htype, hamount, hmoves⟩ := Moves.moveWallet huser .consume
                  (-plan.priceCents) (some (showInt pg.orders.nextId))
                  (some (str "plan " ++ plan.code ++ str " sub (wallet)"))
                have hpaid : Moves pg (moveWallet user.id .consume (-plan.priceCents)
                    (some (showInt pg.orders.nextId))
                    (some (str "plan " ++ plan.code ++ str " sub (wallet)"))
                    { pg with orders := pg.orders.insert (walletOrder user plan now) fun _ => rfl })
                    user.id (-plan.priceCents) [row] := ⟨hmoves.users, hmoves.log, hmoves.balance⟩
                have hafter : pg.wallet user.id =
                    some (user.balanceCents - plan.priceCents - -plan.priceCents) := by
                  rw [hwallet, sub_neg_eq_add, sub_add_cancel]
                obtain ⟨grant, hgrant, hmoves⟩ := @Moves.grant _ _ _ _ _
                  { user with balanceCents := user.balanceCents - plan.priceCents } hpaid rfl hafter
                  plan (some (showInt pg.orders.nextId)) now
                refine ⟨-plan.priceCents, _, hmoves, ?_⟩
                simp [WalletOp.share, hamount, htype, hgrant]
              · have hordered : Moves pg
                    { pg with orders := pg.orders.insert (walletOrder user plan now) fun _ => rfl }
                    user.id 0 [] :=
                  ⟨(moves_self pg user.id).users, (moves_self pg user.id).log, by simp⟩
                have hafter : pg.wallet user.id = some (user.balanceCents - 0) := by
                  rw [hwallet, sub_zero]
                obtain ⟨grant, hgrant, hmoves⟩ := hordered.grant rfl hafter plan
                  (some (showInt pg.orders.nextId)) now
                refine ⟨0, _, hmoves, ?_⟩
                simp [WalletOp.share, hgrant]

/-- An adjustment logs what it adds exactly when it is not clamped. -/
theorem replays_adjust_iff {amount : ℤ}
    (h : (WalletOp.adjust uid amount note).exec pg = some after) :
    Replays ((WalletOp.adjust uid amount note).share pg) pg after ↔
      ∀ user ∈ pg.users.get? uid, 0 ≤ user.balanceCents + amount := by
  obtain ⟨user, huser, hcommit⟩ := Option.bind_eq_some_iff.mp h
  have hid : user.id = uid := (Table.get?_eq_some.mp huser).2
  subst hid
  rw [commitTo_eq_some hcommit]
  have hset : ∀ b, pg.users.update user.id (User.setBalance fun _ => user.balanceCents + b) =
      pg.users.update user.id (User.setBalance (· + b)) := by
    intro b
    apply Table.update_congr
    intro r hr
    have heq : some user = some r := huser.symm.trans hr
    cases heq
    rfl
  constructor
  · intro hreplays u hu
    have heq : user = u := Option.some.inj (huser.symm.trans hu)
    subst heq
    have hchange := hreplays.change user.id
    have hnew : newRows pg (adjustBalance user amount note pg) = [adjustRow user amount note] :=
      List.drop_left
    rw [hnew] at hchange
    simp only [Pg.wallet, adjustBalance, Table.get?_update_self, huser, Option.map_some,
      User.setBalance_val, adjustRow, decide_true, List.filter_cons_of_pos, List.filter_nil,
      List.map_cons, List.map_nil, List.sum_cons, List.sum_nil, add_zero, WalletOp.share,
      Option.some.injEq] at hchange
    have hle := le_max_right (user.balanceCents + amount) 0
    rw [adjustedBalance] at hchange
    omega
  · intro hnn
    have hmax : adjustedBalance user amount = user.balanceCents + amount :=
      max_eq_left (hnn user huser)
    have hmoves : Moves pg (adjustBalance user amount note pg) user.id amount
        [adjustRow user amount note] := by
      refine ⟨?_, rfl, ?_⟩
      · rw [← hset, ← hmax]
        rfl
      · intro row hrow
        rw [List.mem_singleton.mp hrow]
        refine ⟨rfl, ?_⟩
        rw [Pg.wallet, huser, Option.map_some, adjustRow, hmax, add_sub_cancel_right]
    apply replays_of_moves hmoves
    simp [WalletOp.share, adjustRow]

/-- An adjustment of a user whose row is there commits when its note fits. -/
theorem adjust_isSome_iff {amount : ℤ} {user : User} (huser : pg.users.get? uid = some user) :
    ((WalletOp.adjust uid amount note).exec pg).isSome ↔ varcharFits 256 note = true := by
  have hid : user.id = uid := (Table.get?_eq_some.mp huser).2
  subst hid
  have hnew : (adjustBalance user amount note pg).balanceTx.drop pg.balanceTx.length =
      [adjustRow user amount note] := List.drop_left
  have husers : (adjustBalance user amount note pg).users.refers (some user.id) = true := by
    simp [Table.refers, adjustBalance, huser]
  have hnote : varcharFits 256 (adjustRow user amount note).note = varcharFits 256 note := by
    cases note with
    | none => rfl
    | some n =>
        cases n with
        | nil => rfl
        | cons c n => rfl
  have hrow : (adjustRow user amount note).fits (adjustBalance user amount note pg) =
      varcharFits 256 note := by
    rw [BalanceTx.fits, hnote]
    show (Table.refers _ (some user.id) && varcharFits 64 none && _) = _
    rw [husers]
    rfl
  simp only [WalletOp.exec, huser, Option.bind_some, Pg.commitTo, hnew, List.all_cons,
    List.all_nil, Bool.and_true, hrow]
  by_cases hfits : varcharFits 256 note = true
  · simp [hfits]
  · simp [hfits]

/-- Six of the operations always log what they add. -/
theorem replays_exec {op : WalletOp} (hop : ∀ uid amount note, op ≠ .adjust uid amount note)
    (h : op.exec pg = some after) : Replays (op.share pg) pg after := by
  cases op with
  | charge uid kid cost refId note now =>
      obtain ⟨d, rows, hmoves, hsum⟩ := moves_charge h
      exact replays_of_moves hmoves hsum
  | refund uid kid breakdown cents refId note now =>
      obtain ⟨d, rows, hmoves, hsum⟩ := moves_refund h
      exact replays_of_moves hmoves hsum
  | topup uid amount refId note =>
      obtain ⟨d, rows, hmoves, hsum⟩ := moves_topup h
      exact replays_of_moves hmoves hsum
  | subscribe uid planId now =>
      obtain ⟨d, rows, hmoves, hsum⟩ := moves_subscribe h
      exact replays_of_moves hmoves hsum
  | renew sid now =>
      obtain ⟨uid, d, rows, hmoves, hsum⟩ := moves_renew h
      exact replays_of_moves hmoves hsum
  | cancel uid sid atPeriodEnd now =>
      obtain ⟨d, rows, hmoves, hsum⟩ := moves_cancel h
      exact replays_of_moves hmoves hsum
  | adjust uid amount note => exact absurd rfl (hop uid amount note)

theorem replays_self (share : BalanceTx → ℤ) (pg : Pg) : Replays share pg pg :=
  replays_of_moves (moves_self pg 0) rfl

/-- **One operation** keeps the log in step with the wallets exactly when it is not
clamped. -/
theorem replays_step_iff (pg : Pg) (op : WalletOp) :
    Replays (op.share pg) pg ((op.exec pg).getD pg) ↔ Unclamped pg op := by
  cases hexec : op.exec pg with
  | some after =>
      rw [Option.getD_some]
      cases op with
      | adjust uid amount note =>
          obtain ⟨user, huser, -⟩ := Option.bind_eq_some_iff.mp hexec
          have hfits : varcharFits 256 note = true := by
            rw [← adjust_isSome_iff huser, hexec]
            rfl
          rw [replays_adjust_iff hexec]
          exact ⟨fun h _ => h, fun h => h hfits⟩
      | _ => exact iff_of_true (replays_exec (by simp) hexec) trivial
  | none =>
      rw [Option.getD_none]
      refine iff_of_true (replays_self _ pg) ?_
      cases op with
      | adjust uid amount note =>
          intro hfits user huser
          have hsome : ((WalletOp.adjust uid amount note).exec pg).isSome :=
            (adjust_isSome_iff huser).mpr hfits
          rw [hexec] at hsome
          cases hsome
      | _ => trivial

end

/-- What the rows that a run logs for a user say was added to the wallet. -/
def loggedShares (uid : ℤ) : List WalletOp → Pg → ℤ
  | [], _ => 0
  | op :: ops, pg =>
      let after := (op.exec pg).getD pg
      (((newRows pg after).filter fun row => row.userId = uid).map (op.share pg)).sum +
        loggedShares uid ops after

/-- After a run without clamped adjustments a wallet holds what it held, plus what the
rows of the run say. -/
theorem wallet_eq_replay (uid : ℤ) (ops : List WalletOp) :
    ∀ {pg after : Pg}, Along walletStep Unclamped ops pg → run walletStep ops pg = some after →
      after.wallet uid = (pg.wallet uid).map (· + loggedShares uid ops pg) := by
  induction ops with
  | nil =>
      intro pg after _ hrun
      cases hrun
      cases pg.wallet uid <;> simp [loggedShares]
  | cons op ops ih =>
      intro pg after hal hrun
      obtain ⟨pg', hstep, hrun⟩ := run_cons_eq_some.mp hrun
      have hreplays := (replays_step_iff pg op).mpr hal.1
      have htail := ih (hal.2 pg' hstep) hrun
      cases hstep
      rw [htail, hreplays.change uid, Option.map_map, loggedShares]
      congr 1
      funext b
      simp only [Function.comp_apply]
      omega

end Llmxy
