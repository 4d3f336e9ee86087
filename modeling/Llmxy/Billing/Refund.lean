import Llmxy.Billing.Charge
import Mathlib.Algebra.Order.BigOperators.Group.List

/-!
# A charge and its full refund

`refund_to_sources` undoes a charge from the breakdown the charge returned.  A
subscription gets its share back only if it is *active* when the refund looks, and
a subscription is active only while it has something left.  So a subscription that
the charge drained to zero does not get its share back: the share becomes wallet
cash.

## Main definitions

* `chargeThenRefund` — a charge and the refund of its whole breakdown.
* `refundToSources_eq_some` — the tables after a refund.
* `chargeThenRefund_restores_iff` — exactly when the round trip is the identity.
-/

namespace Llmxy

/-- A charge, and the refund of what it took to the sources it names. -/
def chargeThenRefund (cost : ℤ) (refId note refundNote : Option Str) (chargedAt refundedAt : ℤ)
    (s : Sess) : Option Sess :=
  (chargeUser cost refId note chargedAt s).bind fun r =>
    (refundToSources r.1 cost refId refundNote refundedAt r.2).map Prod.snd

/-- Give each amount back to its subscription. -/
def refillTable (t : Table Subscription) (gs : List (ℤ × ℤ)) : Table Subscription :=
  gs.foldl (fun t g => t.update g.1 (Subscription.setRemaining (· + g.2))) t

/-- What a subscription has after a refill. -/
theorem get?_refillTable (gs : List (ℤ × ℤ)) (t : Table Subscription) (k : ℤ) :
    (refillTable t gs).get? k = (t.get? k).map fun r =>
      { r with remainingCents := r.remainingCents +
          ((gs.filter fun g => g.1 = k).map Prod.snd).sum } := by
  induction gs generalizing t with
  | nil => cases h : t.get? k <;> simp [refillTable, h]
  | cons g gs ih =>
      rw [refillTable, List.foldl_cons, ← refillTable, ih, Table.get?_update]
      by_cases hk : k = g.1
      · subst hk
        cases t.get? g.1 with
        | none => simp
        | some r => simp [add_assoc]
      · have hg : g.1 ≠ k := fun h => hk h.symm
        simp [hk, hg]

private theorem refundWallet_eq_some {amount w : ℤ} {s t : Sess}
    (h : refundWallet amount s = some (w, t)) :
    t.view = { s.view with
        users := if 0 < amount then
            s.view.users.update s.user.id (User.setBalance (· + amount))
          else s.view.users } ∧ t.user.id = s.user.id ∧ t.newTx = s.newTx ∧
      (s.Current s.view → w = s.user.balance.value + if 0 < amount then amount else 0) := by
  unfold refundWallet at h
  split_ifs at h with hpos
  · obtain ⟨⟨w', s'⟩, hu, heq⟩ := Option.map_eq_some_iff.mp h
    obtain ⟨row, hrow, hw, hv, -, hid, htx, -⟩ := Sess.updateUser_eq_some hu
    cases heq
    refine ⟨by rw [hv, if_pos hpos], hid, htx, ?_⟩
    intro hcur
    rw [hw, hcur row hrow, if_pos hpos]
  · cases h
    refine ⟨by rw [if_neg hpos], rfl, rfl, ?_⟩
    intro _
    rw [if_neg hpos, add_zero]

private theorem view_refundKey (total : ℤ) (s : Sess) :
    (refundKey total s).view.users = s.view.users ∧
      (refundKey total s).view.subscriptions = s.view.subscriptions ∧
      (refundKey total s).view.balanceTx = s.view.balanceTx ∧
      (refundKey total s).view.usageLogs = s.view.usageLogs ∧
      (refundKey total s).newTx = s.newTx ∧ (refundKey total s).user.id = s.user.id := by
  unfold refundKey
  cases h : s.apiKey with
  | none => exact ⟨rfl, rfl, rfl, rfl, rfl, rfl⟩
  | some k =>
      simp only
      split_ifs
      · rw [Sess.view_assignUsed_updateKey h]
        exact ⟨rfl, rfl, rfl, rfl, rfl, rfl⟩
      · exact ⟨rfl, rfl, rfl, rfl, rfl, rfl⟩

/-- The statements of a refund: the wallet, the subscriptions, the key, and the row. -/
private theorem refundToSources_steps {bd : List Share} {refundCents n now : ℤ}
    {refId note : Option Str} {s t : Sess} (hr : 0 < refundCents) (hbd : bd ≠ [])
    (h : refundToSources bd refundCents refId note now s = some (n, t)) :
    let r := refundSplit ((activeSubscriptions s.pg s.user.id now).map (·.id)) bd refundCents
    ∃ w s₁ row, refundWallet r.1 s = some (w, s₁) ∧
      let s₂ := r.2.foldl (fun s g => s.updateSub g.1 (· + g.2)) s₁
      let s₃ := refundKey (r.1 + (r.2.map Prod.snd).sum) s₂
      t = (s₃.addTx row).flush ∧ row.type = .refund ∧ row.userId = s₃.user.id ∧
        row.amountCents = r.1 + (r.2.map Prod.snd).sum ∧ row.balanceAfter = w := by
  have hcond : ¬ (refundCents ≤ 0 ∨ bd.isEmpty = true) := by
    simp [not_le.mpr hr, hbd]
  rw [refundToSources, if_neg hcond] at h
  obtain ⟨⟨w, s₁⟩, hw, heq⟩ := Option.map_eq_some_iff.mp h
  cases heq
  exact ⟨w, s₁, _, hw, rfl, rfl, rfl, rfl, rfl⟩

/-- The wallet and the subscriptions after a refund. -/
theorem refundToSources_eq_some {bd : List Share} {refundCents n now : ℤ}
    {refId note : Option Str} {s t : Sess} (hr : 0 < refundCents) (hbd : bd ≠ [])
    (h : refundToSources bd refundCents refId note now s = some (n, t)) :
    let r := refundSplit ((activeSubscriptions s.pg s.user.id now).map (·.id)) bd refundCents
    t.pg.users = (if 0 < r.1 then s.view.users.update s.user.id (User.setBalance (· + r.1))
        else s.view.users) ∧
      t.pg.subscriptions = refillTable s.pg.subscriptions r.2 := by
  intro r
  obtain ⟨w, s₁, row, hw, rfl, -⟩ := refundToSources_steps hr hbd h
  obtain ⟨hv, -⟩ := refundWallet_eq_some hw
  obtain ⟨hv₂, -⟩ := foldl_updateSub_spec r.2 (fun a x => x + a) s₁
  obtain ⟨hu₃, hs₃, -⟩ := view_refundKey (r.1 + (r.2.map Prod.snd).sum)
    (r.2.foldl (fun s g => s.updateSub g.1 (· + g.2)) s₁)
  refine ⟨hu₃.trans ?_, hs₃.trans ?_⟩
  · rw [hv₂, hv]
  · rw [hv₂, hv]
    rfl

/-- The row a refund logs. -/
theorem refundToSources_logs {bd : List Share} {refundCents n now : ℤ}
    {refId note : Option Str} {s t : Sess} (hs : s.Clean) (hr : 0 < refundCents) (hbd : bd ≠ [])
    (h : refundToSources bd refundCents refId note now s = some (n, t)) :
    let r := refundSplit ((activeSubscriptions s.pg s.user.id now).map (·.id)) bd refundCents
    t.Clean ∧ t.pg.balanceTx = s.pg.balanceTx ∧ t.pg.usageLogs = s.pg.usageLogs ∧
      ∃ row, t.newTx = s.newTx ++ [row] ∧ row.type = .refund ∧ row.userId = s.user.id ∧
      row.amountCents = r.1 + (r.2.map Prod.snd).sum ∧
      (s.Current s.pg → row.balanceAfter = s.user.balance.value + if 0 < r.1 then r.1 else 0) := by
  intro r
  obtain ⟨w, s₁, row, hw, rfl, htype, huser, hamount, rfl⟩ := refundToSources_steps hr hbd h
  obtain ⟨hv, hid, htx, hafter⟩ := refundWallet_eq_some hw
  obtain ⟨hv₂, -, hid₂, htx₂, -⟩ := foldl_updateSub_spec r.2 (fun a x => x + a) s₁
  obtain ⟨-, -, hb₃, hl₃, htx₃, hid₃⟩ := view_refundKey (r.1 + (r.2.map Prod.snd).sum)
    (r.2.foldl (fun s g => s.updateSub g.1 (· + g.2)) s₁)
  refine ⟨Sess.clean_flush _, hb₃.trans ?_, hl₃.trans ?_, ?_⟩
  · rw [hv₂, hv, Sess.view_of_clean hs]
  · rw [hv₂, hv, Sess.view_of_clean hs]
  · refine ⟨row, congrArg (· ++ [row]) (htx₃.trans (htx₂.trans htx)), htype, ?_, hamount, ?_⟩
    · exact huser.trans (hid₃.trans (hid₂.trans hid))
    · intro hcur
      apply hafter
      rw [Sess.view_of_clean hs]
      exact hcur

private theorem session_refundWallet {amount w : ℤ} {s t : Sess}
    (h : refundWallet amount s = some (w, t)) :
    t.newLogs = s.newLogs ∧ t.user.balance.value = w := by
  rw [refundWallet] at h
  split_ifs at h
  · obtain ⟨⟨w', s'⟩, hu, heq⟩ := Option.map_eq_some_iff.mp h
    obtain ⟨-, -, -, -, -, -, -, hlogs⟩ := Sess.updateUser_eq_some hu
    cases heq
    exact ⟨hlogs, rfl⟩
  · cases h
    exact ⟨rfl, rfl⟩

private theorem session_refundKey (total : ℤ) (s : Sess) :
    (refundKey total s).newLogs = s.newLogs ∧
      (refundKey total s).user.balance.value = s.user.balance.value := by
  rw [refundKey]
  split
  · exact ⟨rfl, rfl⟩
  · split_ifs <;> exact ⟨rfl, rfl⟩

/-- What a refund leaves in its session. -/
theorem refundToSources_session {bd : List Share} {refundCents n now : ℤ}
    {refId note : Option Str} {s t : Sess} (hs : s.Clean) (hr : 0 < refundCents) (hbd : bd ≠ [])
    (h : refundToSources bd refundCents refId note now s = some (n, t)) :
    let r := refundSplit ((activeSubscriptions s.pg s.user.id now).map (·.id)) bd refundCents
    t.Clean ∧ t.user.id = s.user.id ∧ t.newLogs = s.newLogs ∧
      (s.Current s.pg →
        t.user.balance.value = s.user.balance.value + if 0 < r.1 then r.1 else 0) := by
  intro r
  obtain ⟨w, s₁, row, hw, rfl, -⟩ := refundToSources_steps hr hbd h
  obtain ⟨-, hid, -, hafter⟩ := refundWallet_eq_some hw
  obtain ⟨hlogs, hbal⟩ := session_refundWallet hw
  obtain ⟨-, -, hid₂, -, hlogs₂⟩ := foldl_updateSub_spec r.2 (fun a x => x + a) s₁
  have hbal₂ := foldl_updateSub_balance r.2 (fun a x => x + a) s₁
  obtain ⟨-, -, -, -, -, hid₃⟩ := view_refundKey (r.1 + (r.2.map Prod.snd).sum)
    (r.2.foldl (fun s g => s.updateSub g.1 (· + g.2)) s₁)
  obtain ⟨hlogs₃, hbal₃⟩ := session_refundKey (r.1 + (r.2.map Prod.snd).sum)
    (r.2.foldl (fun s g => s.updateSub g.1 (· + g.2)) s₁)
  refine ⟨Sess.clean_flush _, hid₃.trans (hid₂.trans hid), hlogs₃.trans (hlogs₂.trans hlogs), ?_⟩
  intro hcur
  refine (hbal₃.trans (hbal₂.trans hbal)).trans (hafter ?_)
  rw [Sess.view_of_clean hs]
  exact hcur

/-- The steps of the transaction of a refund. -/
theorem refundTxn_steps {pg after : Pg} {uid refundCents now n : ℤ} {kid : Option ℤ}
    {refId note : Option Str} {bd : List Share}
    (h : refundTxn pg uid kid bd refundCents refId note now = some (n, after)) :
    ∃ user t, pg.users.get? uid = some user ∧
      refundToSources bd refundCents refId note now
        (.start pg user (kid.bind pg.apiKeys.get?)) = some (n, t) ∧
      t.commit = some after := by
  obtain ⟨user, huser, h⟩ := Option.bind_eq_some_iff.mp h
  obtain ⟨⟨m, t⟩, hrefund, h⟩ := Option.bind_eq_some_iff.mp h
  obtain ⟨pg', hcommit, heq⟩ := Option.map_eq_some_iff.mp h
  cases heq
  exact ⟨user, t, huser, hrefund, hcommit⟩

/-- A transaction that refunds nothing. -/
theorem refundTxn_of_nothing {pg after : Pg} {uid refundCents now n : ℤ} {kid : Option ℤ}
    {refId note : Option Str} {bd : List Share} (hr : refundCents ≤ 0 ∨ bd = [])
    (h : refundTxn pg uid kid bd refundCents refId note now = some (n, after)) :
    after.users = pg.users ∧ after.balanceTx = pg.balanceTx := by
  obtain ⟨user, t, huser, hrefund, hcommit⟩ := refundTxn_steps h
  have hclean := Sess.clean_start pg user (kid.bind pg.apiKeys.get?)
  rw [refundToSources, if_pos (by simpa using hr)] at hrefund
  cases hrefund
  refine ⟨(Sess.tables_commit hclean hcommit).1, ?_⟩
  rw [Sess.balanceTx_commit hclean hcommit]
  exact List.append_nil _

/-- What the transaction of a refund gives to the wallet, and the row it logs. -/
theorem refundTxn_logs {pg after : Pg} {uid refundCents now n : ℤ} {kid : Option ℤ}
    {refId note : Option Str} {bd : List Share} (hr : 0 < refundCents) (hbd : bd ≠ [])
    (h : refundTxn pg uid kid bd refundCents refId note now = some (n, after)) :
    let r := refundSplit ((activeSubscriptions pg uid now).map (·.id)) bd refundCents
    ∃ user row, pg.users.get? uid = some user ∧
      after.users = (if 0 < r.1 then pg.users.update uid (User.setBalance (· + r.1))
        else pg.users) ∧
      after.balanceTx = pg.balanceTx ++ [row] ∧ row.type = .refund ∧ row.userId = uid ∧
      row.balanceAfter = user.balanceCents + if 0 < r.1 then r.1 else 0 := by
  intro r
  obtain ⟨user, t, huser, hrefund, hcommit⟩ := refundTxn_steps h
  have hid : user.id = uid := (Table.get?_eq_some.mp huser).2
  subst hid
  have hclean := Sess.clean_start pg user (kid.bind pg.apiKeys.get?)
  obtain ⟨husers, -⟩ := refundToSources_eq_some hr hbd hrefund
  obtain ⟨ht, htx, -, row, hrow, htype, hid, -, hafter⟩ :=
    refundToSources_logs hclean hr hbd hrefund
  refine ⟨user, row, huser, ?_, ?_, htype, hid, hafter (Sess.current_start _ huser)⟩
  · rw [(Sess.tables_commit ht hcommit).1, husers, Sess.view_of_clean hclean]
    rfl
  · rw [Sess.balanceTx_commit ht hcommit, htx, hrow]
    rfl

/-- What the transaction of a refund gives to the subscriptions. -/
theorem refundTxn_subscriptions {pg after : Pg} {uid refundCents now n : ℤ} {kid : Option ℤ}
    {refId note : Option Str} {bd : List Share}
    (h : refundTxn pg uid kid bd refundCents refId note now = some (n, after)) :
    after.subscriptions = pg.subscriptions ∨ after.subscriptions = refillTable pg.subscriptions
      (refundSplit ((activeSubscriptions pg uid now).map (·.id)) bd refundCents).2 := by
  obtain ⟨user, t, huser, hrefund, hcommit⟩ := refundTxn_steps h
  have hid : user.id = uid := (Table.get?_eq_some.mp huser).2
  subst hid
  have hclean := Sess.clean_start pg user (kid.bind pg.apiKeys.get?)
  by_cases hnothing : refundCents ≤ 0 ∨ bd = []
  · rw [refundToSources, if_pos (by simpa using hnothing)] at hrefund
    cases hrefund
    exact Or.inl (Sess.tables_commit hclean hcommit).2.2
  · push Not at hnothing
    obtain ⟨hr, hbd⟩ := hnothing
    obtain ⟨ht, -⟩ := refundToSources_logs hclean hr hbd hrefund
    rw [(Sess.tables_commit ht hcommit).2.2]
    exact Or.inr (refundToSources_eq_some hr hbd hrefund).2

/-- A refund of a user whose row is there succeeds. -/
theorem refundToSources_isSome {bd : List Share} {refundCents now : ℤ}
    {refId note : Option Str} {s : Sess} (h : (s.view.users.get? s.user.id).isSome) :
    (refundToSources bd refundCents refId note now s).isSome := by
  unfold refundToSources
  split_ifs
  · rfl
  · simp only [Option.isSome_map]
    unfold refundWallet
    split_ifs
    · simp only [Sess.updateUser, Table.get?_update_self, Option.isSome_map]
      exact h
    · rfl

/-! ### The split of a full refund -/

@[simp] theorem walletShare_append (bd bd' : List Share) :
    walletShare (bd ++ bd') = walletShare bd + walletShare bd' := by
  simp [walletShare]

@[simp] theorem walletShare_subShare (ds : List (ℤ × ℤ)) : walletShare (ds.map subShare) = 0 := by
  induction ds with
  | nil => rfl
  | cons d ds ih => simpa [walletShare, subShare] using ih

/-- A refund loop never takes from the wallet. -/
theorem refundLoop_wallet_nonneg (active : List ℤ) {bd : List Share} (hpos : ∀ b ∈ bd, 0 ≤ b.2.2)
    (rem : ℤ) : 0 ≤ (refundLoop active bd rem).1 := by
  induction bd generalizing rem with
  | nil => exact le_refl 0
  | cons b bd ih =>
      obtain ⟨kind, sid, amt⟩ := b
      have hamt : 0 ≤ amt := hpos _ List.mem_cons_self
      have ih := fun r => ih (fun b hb => hpos b (List.mem_cons_of_mem _ hb)) r
      rw [refundLoop]
      split_ifs with hskip hact
      · exact ih rem
      · exact ih _
      · have := ih (rem - min amt rem)
        have hrem : 0 < rem := by
          by_contra hle
          exact hskip (Or.inr (not_lt.mp hle))
        have : 0 ≤ min amt rem := le_min hamt hrem.le
        simp only
        omega

/-- A refund gives to active subscriptions, and nothing negative. -/
theorem refundLoop_given {active : List ℤ} {bd : List Share} (hpos : ∀ b ∈ bd, 0 ≤ b.2.2)
    (rem : ℤ) : ∀ g ∈ (refundLoop active bd rem).2, g.1 ∈ active ∧ 0 ≤ g.2 := by
  induction bd generalizing rem with
  | nil => simp [refundLoop]
  | cons b bd ih =>
      obtain ⟨kind, sid, amt⟩ := b
      have hamt : 0 ≤ amt := hpos _ List.mem_cons_self
      have ih := fun r => ih (fun b hb => hpos b (List.mem_cons_of_mem _ hb)) r
      rw [refundLoop]
      split_ifs with hskip hact
      · exact ih rem
      · have hrem : 0 < rem := by
          by_contra hle
          exact hskip (Or.inr (not_lt.mp hle))
        intro g hg
        rcases List.mem_cons.mp hg with rfl | hg
        · exact ⟨hact, le_min hamt hrem.le⟩
        · exact ih _ g hg
      · exact ih _

theorem refundSplit_given {active : List ℤ} {bd : List Share} (hpos : ∀ b ∈ bd, 0 ≤ b.2.2)
    (refundCents : ℤ) : ∀ g ∈ (refundSplit active bd refundCents).2, g.1 ∈ active ∧ 0 ≤ g.2 := by
  rw [refundSplit]
  split_ifs
  · exact refundLoop_given hpos _
  · simp

/-- The first share of a breakdown, when its subscription is no longer active, goes
to the wallet. -/
theorem refundLoop_inactive_first {active : List ℤ} {sid amt rem : ℤ} {bd : List Share}
    (hact : sid ∉ active) (hamt : 0 < amt) (hrem : 0 < rem) (hpos : ∀ b ∈ bd, 0 ≤ b.2.2) :
    0 < (refundLoop active ((.sub, sid, amt) :: bd) rem).1 := by
  have hskip : ¬ (SourceKind.sub ≠ .sub ∨ rem ≤ 0) := by simp [hrem]
  have := refundLoop_wallet_nonneg active hpos (rem - min amt rem)
  have : 0 < min amt rem := lt_min hamt hrem
  rw [refundLoop, if_neg hskip]
  simp only [if_neg hact]
  omega

/-- What the charge took from a wallet that paid `S` and subscriptions that paid the
rest splits into `S` for the wallet and the rest for the loop. -/
theorem refundSplit_charged (active : List ℤ) (ds : List (ℤ × ℤ)) {S cost : ℤ} (hS : 0 ≤ S)
    (hds : ∀ d ∈ ds, 0 < d.2) (hsum : (ds.map Prod.snd).sum + S = cost) :
    refundSplit active (ds.map subShare ++ if 0 < S then [(.wallet, 0, S)] else []) cost =
      if 0 < (ds.map Prod.snd).sum then
        let r := refundLoop active (ds.map subShare ++ if 0 < S then [(.wallet, 0, S)] else [])
          (ds.map Prod.snd).sum
        (S + r.1, r.2)
      else (S, []) := by
  have hshare : walletShare (if 0 < S then [((.wallet, 0, S) : Share)] else []) = S := by
    split_ifs with h
    · simp [walletShare]
    · simp only [walletShare, List.filter_nil, List.map_nil, List.sum_nil]
      omega
  have hnn : 0 ≤ (ds.map Prod.snd).sum := sum_map_nonneg fun d hd => (hds d hd).le
  have hmin : min S cost = S := min_eq_left (by omega)
  have hrem : cost - S = (ds.map Prod.snd).sum := by omega
  simp only [refundSplit, walletShare_append, walletShare_subShare, hshare, zero_add, hmin, hrem]

section RoundTrip
variable {pg : Pg} {user : User} {apiKey : Option ApiKey} {cost chargedAt refundedAt : ℤ}
  {refId note refundNote : Option Str} {t : Sess}

/-- The tables after a charge and its refund. -/
theorem chargeThenRefund_eq_some (hc : 0 < cost)
    (h : chargeThenRefund cost refId note refundNote chargedAt refundedAt
      (Sess.start pg user apiKey) = some t) :
    let s := Sess.start pg user apiKey
    let charged := chargedPg s cost chargedAt
    let r := refundSplit ((activeSubscriptions charged user.id refundedAt).map (·.id))
      (chargedShares pg user.id cost chargedAt) cost
    t.pg.users = (if 0 < r.1 then charged.users.update user.id (User.setBalance (· + r.1))
        else charged.users) ∧
      t.pg.subscriptions = refillTable charged.subscriptions r.2 := by
  intro s charged r
  obtain ⟨⟨bd, s₁⟩, hcharge, hrefund⟩ := Option.bind_eq_some_iff.mp h
  obtain ⟨⟨n, t'⟩, hback, heq⟩ := Option.map_eq_some_iff.mp hrefund
  cases heq
  obtain ⟨hbd, hpg, hclean, hid, -, -⟩ :=
    chargeUser_eq_some (Sess.clean_start pg user apiKey) hc hcharge
  have hne : bd ≠ [] := hbd ▸ chargedShares_ne_nil hc
  have hback := refundToSources_eq_some hc hne hback
  rw [Sess.view_of_clean hclean, hpg, hid, hbd] at hback
  exact hback

theorem users_charged_start : (chargedPg (Sess.start pg user apiKey) cost chargedAt).users =
    pg.users.update user.id
      (User.setBalance (· - shortfall (sources pg user.id chargedAt) cost)) := rfl

theorem subscriptions_charged_start :
    (chargedPg (Sess.start pg user apiKey) cost chargedAt).subscriptions =
      drainTable pg.subscriptions (drain (sources pg user.id chargedAt) cost) := rfl

/-- Without a source the wallet pays. -/
theorem chargedPg_of_no_source (apiKey : Option ApiKey) (hc : 0 < cost)
    (hnil : activeSubscriptions pg user.id chargedAt = []) :
    chargedShares pg user.id cost chargedAt = [(.wallet, 0, cost)] ∧
      (chargedPg (Sess.start pg user apiKey) cost chargedAt).users =
        pg.users.update user.id (User.setBalance (· - cost)) ∧
      (chargedPg (Sess.start pg user apiKey) cost chargedAt).subscriptions = pg.subscriptions := by
  have hsrc : sources pg user.id chargedAt = [] := by simp [sources, hnil]
  refine ⟨?_, ?_, ?_⟩
  · simp [chargedShares, hsrc, hc]
  · rw [users_charged_start, hsrc, shortfall_nil]
  · rw [subscriptions_charged_start, hsrc, drain_nil]
    rfl

/-- The subscription that ends first is active, and the first source. -/
theorem sources_of_active {first : Subscription} {rest : List Subscription}
    (hact : activeSubscriptions pg user.id chargedAt = first :: rest) :
    (pg.subscriptions.get? first.id = some first ∧ first.isActive user.id chargedAt = true) ∧
      sources pg user.id chargedAt =
        (first.id, first.remainingCents) :: rest.map fun x => (x.id, x.remainingCents) := by
  have hmem : first ∈ activeSubscriptions pg user.id chargedAt := by
    rw [hact]
    exact List.mem_cons_self
  exact ⟨mem_activeSubscriptions.mp hmem, by simp [sources, hact]⟩

/-- A cost that the first source does not exceed drains it. -/
theorem drain_sources_of_le {first : Subscription} {rest : List Subscription}
    (hact : activeSubscriptions pg user.id chargedAt = first :: rest)
    (hle : first.remainingCents ≤ cost) :
    drain (sources pg user.id chargedAt) cost = (first.id, first.remainingCents) ::
      drain (rest.map fun x => (x.id, x.remainingCents)) (cost - first.remainingCents) := by
  obtain ⟨⟨-, hfact⟩, hsrc⟩ := sources_of_active hact
  rw [hsrc]
  exact (drain_of_le _ (Subscription.isActive_iff.mp hfact).2.2.2 hle).1

/-- A first source that covers the cost pays it alone. -/
theorem chargedPg_of_lt (apiKey : Option ApiKey) {first : Subscription}
    {rest : List Subscription} (hc : 0 < cost)
    (hact : activeSubscriptions pg user.id chargedAt = first :: rest)
    (hlt : cost < first.remainingCents) :
    chargedShares pg user.id cost chargedAt = [(.sub, first.id, cost)] ∧
      (chargedPg (Sess.start pg user apiKey) cost chargedAt).users = pg.users ∧
      (chargedPg (Sess.start pg user apiKey) cost chargedAt).subscriptions =
        pg.subscriptions.update first.id (Subscription.setRemaining (· - cost)) := by
  obtain ⟨-, hsrc⟩ := sources_of_active hact
  obtain ⟨hd, hs⟩ := drain_of_lt (k := first.id) (rest.map fun x => (x.id, x.remainingCents)) hc hlt
  refine ⟨?_, ?_, ?_⟩
  · simp [chargedShares, hsrc, hd, hs, subShare]
  · rw [users_charged_start, hsrc, hs]
    exact Table.update_eq_self fun r _ => by simp
  · rw [subscriptions_charged_start, hsrc, hd]
    rfl

/-- A subscription that covered the cost with something to spare is still active. -/
theorem first_mem_active (apiKey : Option ApiKey) {first : Subscription}
    {rest : List Subscription} (hc : 0 < cost)
    (hact : activeSubscriptions pg user.id chargedAt = first :: rest)
    (hlt : cost < first.remainingCents) (hopen : refundedAt < first.currentPeriodEnd) :
    first.id ∈ (activeSubscriptions (chargedPg (Sess.start pg user apiKey) cost chargedAt)
      user.id refundedAt).map (·.id) := by
  obtain ⟨⟨hfirst, hfact⟩, -⟩ := sources_of_active hact
  obtain ⟨huser, hstatus, -, -⟩ := Subscription.isActive_iff.mp hfact
  refine List.mem_map.mpr
    ⟨{ first with remainingCents := first.remainingCents - cost }, ?_, rfl⟩
  refine mem_activeSubscriptions.mpr ⟨?_, ?_⟩
  · rw [(chargedPg_of_lt apiKey hc hact hlt).2.2]
    simp [hfirst]
  · exact Subscription.isActive_iff.mpr ⟨huser, hstatus, hopen, sub_pos.mpr hlt⟩

/-- A subscription that was drained to zero is not active afterwards. -/
theorem first_notMem_active (apiKey : Option ApiKey) (refundedAt : ℤ) {first : Subscription}
    {rest : List Subscription}
    (hact : activeSubscriptions pg user.id chargedAt = first :: rest)
    (hle : first.remainingCents ≤ cost) :
    first.id ∉ (activeSubscriptions (chargedPg (Sess.start pg user apiKey) cost chargedAt)
      user.id refundedAt).map (·.id) := by
  intro hmem
  obtain ⟨x, hx, hxid⟩ := List.mem_map.mp hmem
  obtain ⟨hrow, hactive⟩ := mem_activeSubscriptions.mp hx
  obtain ⟨⟨hfirst, -⟩, -⟩ := sources_of_active hact
  have hxpos := (Subscription.isActive_iff.mp hactive).2.2.2
  have hrow' : (drainTable pg.subscriptions (drain (sources pg user.id chargedAt) cost)).get? x.id
      = some x := hrow
  rw [hxid, get?_drainTable, hfirst, Option.map_some,
    drain_sources_of_le hact hle] at hrow'
  have hrest : 0 ≤ (((drain (rest.map fun x => (x.id, x.remainingCents))
      (cost - first.remainingCents)).filter fun d => d.1 = first.id).map Prod.snd).sum :=
    sum_map_nonneg fun d hd => (drain_pos _ _ d (List.mem_of_mem_filter hd)).le
  have hval := congrArg Subscription.remainingCents (Option.some.inj hrow')
  simp only [List.filter_cons, decide_true, if_true, List.map_cons, List.sum_cons] at hval
  omega

/-- The share of a subscription that was drained to zero goes to the wallet. -/
theorem wallet_gains_drained_share (apiKey : Option ApiKey) (refundedAt : ℤ)
    {first : Subscription} {rest : List Subscription}
    (hact : activeSubscriptions pg user.id chargedAt = first :: rest)
    (hle : first.remainingCents ≤ cost) :
    shortfall (sources pg user.id chargedAt) cost <
      (refundSplit ((activeSubscriptions (chargedPg (Sess.start pg user apiKey) cost chargedAt)
          user.id refundedAt).map (·.id))
        (chargedShares pg user.id cost chargedAt) cost).1 := by
  have hnot := first_notMem_active apiKey refundedAt hact hle
  obtain ⟨⟨-, hfact⟩, hsrc⟩ := sources_of_active hact
  have hpos := (Subscription.isActive_iff.mp hfact).2.2.2
  have hS := shortfall_nonneg (sources pg user.id chargedAt) (hpos.le.trans hle)
  have hsum := sum_drain_add_shortfall (sources pg user.id chargedAt) cost
  have hdpos := drain_pos (sources pg user.id chargedAt) cost
  rw [chargedShares, refundSplit_charged _ _ hS hdpos hsum]
  rw [drain_sources_of_le hact hle] at hdpos ⊢
  rw [hsrc] at hS ⊢
  have hrest : 0 ≤ ((drain (rest.map fun x => (x.id, x.remainingCents))
      (cost - first.remainingCents)).map Prod.snd).sum :=
    sum_map_nonneg fun d hd => (hdpos d (List.mem_cons_of_mem _ hd)).le
  have hdrained : 0 < (((first.id, first.remainingCents) :: drain (rest.map fun x =>
      (x.id, x.remainingCents)) (cost - first.remainingCents)).map Prod.snd).sum := by
    rw [List.map_cons, List.sum_cons]
    exact add_pos_of_pos_of_nonneg hpos hrest
  rw [if_pos hdrained]
  refine lt_add_of_pos_right _ (refundLoop_inactive_first hnot hpos hdrained fun b hb => ?_)
  rcases List.mem_append.mp hb with hb | hb
  · obtain ⟨d, hd, rfl⟩ := List.mem_map.mp hb
    exact (hdpos d (List.mem_cons_of_mem _ hd)).le
  · split_ifs at hb
    · rw [List.mem_singleton.mp hb]
      exact hS
    · cases hb

/-- **A charge and its full refund.**  The wallet and every subscription are what
they were exactly when no subscription was drained to zero: either there was none
to take from, or the one ending first covered the cost with something to spare. -/
theorem chargeThenRefund_restores_iff (hu : pg.users.get? user.id = some user) (hc : 0 < cost)
    (hopen : ∀ x ∈ activeSubscriptions pg user.id chargedAt, refundedAt < x.currentPeriodEnd) :
    (∃ t, chargeThenRefund cost refId note refundNote chargedAt refundedAt
        (Sess.start pg user apiKey) = some t ∧
      t.pg.users = pg.users ∧ t.pg.subscriptions = pg.subscriptions) ↔
    (activeSubscriptions pg user.id chargedAt).head?.all (fun first => cost < first.remainingCents)
      = true := by
  have hsome : (chargeThenRefund cost refId note refundNote chargedAt refundedAt
      (Sess.start pg user apiKey)).isSome := by
    obtain ⟨⟨bd, s₁⟩, hcharge⟩ := Option.isSome_iff_exists.mp
      (chargeUser_isSome cost chargedAt refId note (s := Sess.start pg user apiKey)
        (by rw [Sess.view_of_clean (Sess.clean_start pg user apiKey)]; exact hu ▸ rfl))
    obtain ⟨-, hpg, hclean, hid, -, -⟩ :=
      chargeUser_eq_some (Sess.clean_start pg user apiKey) hc hcharge
    simp only [chargeThenRefund, hcharge, Option.bind_some, Option.isSome_map]
    refine refundToSources_isSome ?_
    rw [Sess.view_of_clean hclean, hpg, hid]
    simp [chargedPg, Sess.start, hu]
  obtain ⟨t, ht⟩ := Option.isSome_iff_exists.mp hsome
  have heff := chargeThenRefund_eq_some hc ht
  have hexists : (∃ t, chargeThenRefund cost refId note refundNote chargedAt refundedAt
        (Sess.start pg user apiKey) = some t ∧
      t.pg.users = pg.users ∧ t.pg.subscriptions = pg.subscriptions) ↔
      t.pg.users = pg.users ∧ t.pg.subscriptions = pg.subscriptions := by
    rw [ht]
    simp
  rw [hexists]
  cases hact : activeSubscriptions pg user.id chargedAt with
  | nil =>
      obtain ⟨hbd, husers, hsubs⟩ := chargedPg_of_no_source apiKey hc hact
      have hsplit : ∀ active, refundSplit active [(.wallet, 0, cost)] cost = (cost, []) := by
        intro active
        simpa [hc] using refundSplit_charged active [] hc.le (by simp) (zero_add _)
      simp only [hbd, hsplit, husers, hsubs, if_pos hc] at heff
      refine iff_of_true ⟨heff.1.trans ?_, heff.2⟩ rfl
      exact Table.update_update_cancel fun r _ _ => by simp
  | cons first rest =>
      simp only [List.head?_cons, Option.all_some, decide_eq_true_eq]
      by_cases hlt : cost < first.remainingCents
      · refine iff_of_true ?_ hlt
        obtain ⟨hbd, husers, hsubs⟩ := chargedPg_of_lt apiKey hc hact hlt
        have hmem := first_mem_active apiKey hc hact hlt
          (hopen first (by rw [hact]; exact List.mem_cons_self))
        have hsplit := refundSplit_charged ((activeSubscriptions (chargedPg
          (Sess.start pg user apiKey) cost chargedAt) user.id refundedAt).map (·.id))
          [(first.id, cost)] (le_refl 0) (by simpa using hc)
          (show ([(first.id, cost)].map Prod.snd).sum + 0 = cost by simp)
        have hskip : ¬ (SourceKind.sub ≠ .sub ∨ cost ≤ 0) := by simp [hc]
        simp only [List.map_cons, List.map_nil, subShare, lt_irrefl, if_false, List.append_nil,
          List.sum_cons, List.sum_nil, add_zero, hc, if_true, refundLoop, if_neg hskip,
          if_pos hmem, min_self] at hsplit
        simp only [hbd, hsplit, husers, hsubs, lt_irrefl, if_false] at heff
        refine ⟨heff.1, heff.2.trans ?_⟩
        exact Table.update_update_cancel fun r _ _ => by simp
      · refine iff_of_false ?_ hlt
        rintro ⟨husers, -⟩
        have hgain := wallet_gains_drained_share apiKey refundedAt hact (not_lt.mp hlt)
        have hS := shortfall_nonneg (sources pg user.id chargedAt) hc.le
        rw [heff.1, if_pos (lt_of_le_of_lt hS hgain), users_charged_start] at husers
        have hrow := congrArg (fun t => (t.get? user.id).map User.balanceCents) husers
        simp only [Table.get?_update_self, hu, Option.map_some, User.setBalance_val,
          Option.some.injEq] at hrow
        omega

end RoundTrip

theorem chargeThenRefund_restores_spared_sub :
    ∃ t, chargeThenRefund 60 none none none 10 20
        (Sess.start (oneSubPg 5 100) (userOne 5) none) = some t ∧
      t.pg.users = (oneSubPg 5 100).users ∧
      t.pg.subscriptions = (oneSubPg 5 100).subscriptions :=
  (chargeThenRefund_restores_iff (by decide) (by decide) (by decide)).mpr (by decide)

/-- A subscription drained to zero comes back as wallet cash. -/
theorem chargeThenRefund_cashes_drained_sub :
    (oneSubPg 0 100).fundsOfOne = (some 0, some 100) ∧
      (chargeThenRefund 100 none none none 10 20
        (Sess.start (oneSubPg 0 100) (userOne 0) none)).map (·.pg.fundsOfOne) =
      some (some 100, some 0) := by
  decide

end Llmxy
