import Llmxy.Billing.Basic
import Llmxy.Lib.Drain
import Mathlib.Algebra.Order.Group.Int

/-!
# What a charge does

`chargeUser` is a greedy drain (`Llmxy.drain`) of the active subscriptions, with
the shortfall taken from the wallet.  `Sess.view` is what the transaction has
written once the session is flushed; each statement of a session changes the view
in one place, so the effect of a charge is read off statement by statement.

## Main definitions

* `Sess.view` — the tables after the next flush.
* `sources` — the active subscriptions as sources of a drain.
* `chargeUser_eq_some` — the breakdown and the tables after a charge.
-/

namespace Llmxy

/-- The tables after the next flush. -/
def Sess.view (s : Sess) : Pg := s.flush.pg

namespace Sess
variable {s t : Sess} {f : ℤ → ℤ} {v w sid : ℤ} {k : KeyObj}

/-- The loaded balance is the one of the user's row. -/
def Current (s : Sess) (pg : Pg) : Prop :=
  ∀ row, pg.users.get? s.user.id = some row → row.balanceCents = s.user.balance.value

theorem current_start {pg : Pg} {user : User} (apiKey : Option ApiKey)
    (h : pg.users.get? user.id = some user) : (start pg user apiKey).Current pg := by
  intro row hrow
  have heq : some row = some user := hrow.symm.trans h
  cases heq
  rfl

theorem view_of_clean (h : s.Clean) : s.view = s.pg := by rw [view, flush_of_clean h]

@[simp] theorem view_flush : s.flush.view = s.view := by
  rw [view, flush_of_clean (clean_flush s)]; rfl

@[simp] theorem view_addTx (b : BalanceTx) : (s.addTx b).view = s.view := rfl
@[simp] theorem view_addLog (l : UsageLog) : (s.addLog l).view = s.view := rfl
@[simp] theorem apiKey_addTx (b : BalanceTx) : (s.addTx b).apiKey = s.apiKey := rfl

theorem clean_updateSub : (s.updateSub sid f).Clean := clean_flush s

@[simp] theorem view_updateSub : (s.updateSub sid f).view =
    { s.view with
      subscriptions := s.view.subscriptions.update sid (Subscription.setRemaining f) } :=
  view_of_clean clean_updateSub

@[simp] theorem subscriptions_view : s.view.subscriptions = s.pg.subscriptions := rfl

/-- Updating the wallet in SQL and assigning the `RETURNING` value is one update of
the row: the absolute write of the flush repeats what the row already holds. -/
theorem updateUser_eq_some (h : s.updateUser f = some (w, t)) :
    ∃ row, s.view.users.get? s.user.id = some row ∧ w = f row.balanceCents ∧
      (t.assignBalance w).view =
        { s.view with users := s.view.users.update s.user.id (User.setBalance f) } ∧
      t.apiKey = s.flush.apiKey ∧ t.user.id = s.user.id ∧ t.newTx = s.newTx ∧
      t.newLogs = s.newLogs := by
  simp only [updateUser, Table.get?_update_self, Option.map_map, Option.map_eq_some_iff] at h
  obtain ⟨row, hrow, rfl, rfl⟩ := h
  refine ⟨row, hrow, rfl, ?_, rfl, rfl, rfl, rfl⟩
  have hwrite : (s.view.users.update s.user.id (User.setBalance f)).update s.user.id
      (User.setBalance fun _ => f row.balanceCents) =
      s.view.users.update s.user.id (User.setBalance f) := by
    rw [Table.update_update _ _ _ _ (User.setBalance fun _ => f row.balanceCents) (fun r => rfl)]
    refine Table.update_congr fun r hr => ?_
    rw [show s.view.users.get? s.user.id = some row from hrow] at hr
    cases hr
    rfl
  show Pg.mk _ _ _ _ _ _ _ _ = _
  simp only [assignBalance, Attr.assign_dirty, if_true, Attr.assign_value, user_id_flush]
  congr 1
  split
  next k hk => rw [(clean_flush s).2 k hk, if_neg Bool.false_ne_true]; rfl
  next => rfl

/-- The per-key counter is written as an absolute value by the flush, whatever the
bulk `UPDATE` before it did. -/
theorem view_assignUsed_updateKey {g : ℤ → ℤ} (h : s.apiKey = some k) :
    ((s.updateKey k f).assignUsed g).view =
      { s.view with
        apiKeys := s.view.apiKeys.update k.id (ApiKey.setUsed fun _ => g (f k.used.value)) } := by
  have hk : s.flush.apiKey = some { k with used := .load k.used.value } := by
    simp [flush, h]
  show Pg.mk _ _ _ _ _ _ _ _ = _
  simp only [assignUsed, updateKey, hk, Option.map_some, Attr.sync_load, Attr.load_value,
    Attr.assign_dirty, if_true, Attr.assign_value]
  rw [Table.update_update _ _ _ _ (ApiKey.setUsed fun _ => g (f k.used.value)) (fun r => rfl)]
  rfl

end Sess

/-- The active subscriptions as sources of a drain. -/
def sources (pg : Pg) (userId now : ℤ) : List (ℤ × ℤ) :=
  (activeSubscriptions pg userId now).map fun s => (s.id, s.remainingCents)

theorem mem_activeSubscriptions {pg : Pg} {userId now : ℤ} {x : Subscription} :
    x ∈ activeSubscriptions pg userId now ↔
      pg.subscriptions.get? x.id = some x ∧ x.isActive userId now = true := by
  rw [activeSubscriptions, List.mem_insertionSort, Table.mem_select, Table.get?_eq_some]
  simp

theorem Subscription.isActive_iff {userId now : ℤ} {x : Subscription} :
    x.isActive userId now = true ↔
      x.userId = userId ∧ x.status = str "active" ∧ now < x.currentPeriodEnd ∧
        0 < x.remainingCents := by
  simp [Subscription.isActive, and_assoc]

/-- The share of a subscription. -/
def subShare (d : ℤ × ℤ) : Share := (.sub, d.1, d.2)

/-- Take each amount from its subscription. -/
def drainTable (t : Table Subscription) (ds : List (ℤ × ℤ)) : Table Subscription :=
  ds.foldl (fun t d => t.update d.1 (Subscription.setRemaining (· - d.2))) t

/-- The loop of a charge is the greedy drain. -/
theorem chargeLoop_eq (subs : List Subscription) (remaining : ℤ) (s : Sess) :
    chargeLoop subs remaining s =
      ((drain (subs.map fun x => (x.id, x.remainingCents)) remaining).map subShare,
        shortfall (subs.map fun x => (x.id, x.remainingCents)) remaining,
        (drain (subs.map fun x => (x.id, x.remainingCents)) remaining).foldl
          (fun s d => s.updateSub d.1 (· - d.2)) s) := by
  induction subs generalizing remaining s with
  | nil => rfl
  | cons sub subs ih =>
      simp only [chargeLoop, List.map_cons, drain, shortfall]
      split_ifs with h0 hmin
      · rfl
      · exact ih remaining s
      · rw [ih]; rfl

theorem chargeLoop_sources (pg : Pg) (userId now remaining : ℤ) (s : Sess) :
    chargeLoop (activeSubscriptions pg userId now) remaining s =
      ((drain (sources pg userId now) remaining).map subShare,
        shortfall (sources pg userId now) remaining,
        (drain (sources pg userId now) remaining).foldl
          (fun s d => s.updateSub d.1 (· - d.2)) s) :=
  chargeLoop_eq _ _ _

/-- A row of updates of subscriptions changes that table alone. -/
theorem foldl_updateSub_spec (ds : List (ℤ × ℤ)) (g : ℤ → ℤ → ℤ) (s : Sess) :
    (ds.foldl (fun s d => s.updateSub d.1 (g d.2)) s).view =
        { s.view with
          subscriptions := ds.foldl
            (fun t d => t.update d.1 (Subscription.setRemaining (g d.2))) s.view.subscriptions } ∧
      (ds.foldl (fun s d => s.updateSub d.1 (g d.2)) s).flush.apiKey = s.flush.apiKey ∧
      (ds.foldl (fun s d => s.updateSub d.1 (g d.2)) s).user.id = s.user.id ∧
      (ds.foldl (fun s d => s.updateSub d.1 (g d.2)) s).newTx = s.newTx ∧
      (ds.foldl (fun s d => s.updateSub d.1 (g d.2)) s).newLogs = s.newLogs := by
  induction ds generalizing s with
  | nil => exact ⟨rfl, rfl, rfl, rfl, rfl⟩
  | cons d ds ih =>
      obtain ⟨hv, hk, hu, ht, hl⟩ := ih (s.updateSub d.1 (g d.2))
      refine ⟨?_, ?_, hu, ht, hl⟩
      · rw [List.foldl_cons, hv, Sess.view_updateSub]; rfl
      · rw [List.foldl_cons, hk, Sess.flush_of_clean Sess.clean_updateSub]; rfl

/-- Updates of subscriptions leave the loaded balance. -/
theorem foldl_updateSub_balance (ds : List (ℤ × ℤ)) (g : ℤ → ℤ → ℤ) (s : Sess) :
    (ds.foldl (fun s d => s.updateSub d.1 (g d.2)) s).user.balance.value =
      s.user.balance.value := by
  induction ds generalizing s with
  | nil => rfl
  | cons d ds ih => exact ih (s.updateSub d.1 (g d.2))

/-- What a subscription has left after a drain. -/
theorem get?_drainTable (ds : List (ℤ × ℤ)) (t : Table Subscription) (k : ℤ) :
    (drainTable t ds).get? k = (t.get? k).map fun r =>
      { r with remainingCents := r.remainingCents -
          ((ds.filter fun d => d.1 = k).map Prod.snd).sum } := by
  induction ds generalizing t with
  | nil => cases h : t.get? k <;> simp [drainTable, h]
  | cons d ds ih =>
      rw [drainTable, List.foldl_cons, ← drainTable, ih, Table.get?_update]
      by_cases hk : k = d.1
      · subst hk
        cases t.get? d.1 with
        | none => simp
        | some r => simp [sub_sub]
      · have hd : d.1 ≠ k := fun h => hk h.symm
        simp [hk, hd]

/-- The tables after a charge: the drain of the subscriptions, the shortfall from
the wallet, and twice the cost on the key, since the increment in Python comes on
top of the mirrored `UPDATE`. -/
def chargedPg (s : Sess) (cost now : ℤ) : Pg :=
  { s.pg with
    subscriptions := drainTable s.pg.subscriptions (drain (sources s.pg s.user.id now) cost)
    users := s.pg.users.update s.user.id
      (User.setBalance (· - shortfall (sources s.pg s.user.id now) cost))
    apiKeys := match s.apiKey with
      | none => s.pg.apiKeys
      | some k => s.pg.apiKeys.update k.id (ApiKey.setUsed fun _ => k.used.value + cost + cost) }

/-- The tables after a charge that may cost nothing. -/
def pgAfter (s : Sess) (cost now : ℤ) : Pg := if 0 < cost then chargedPg s cost now else s.pg

/-- The breakdown a charge returns. -/
def chargedShares (pg : Pg) (userId cost now : ℤ) : List Share :=
  (drain (sources pg userId now) cost).map subShare ++
    if 0 < shortfall (sources pg userId now) cost then
      [(.wallet, 0, shortfall (sources pg userId now) cost)]
    else []

/-- A charge takes something from somewhere. -/
theorem chargedShares_ne_nil {pg : Pg} {userId cost now : ℤ} (hc : 0 < cost) :
    chargedShares pg userId cost now ≠ [] := by
  intro hnil
  obtain ⟨hd, hw⟩ := List.append_eq_nil_iff.mp hnil
  have hsum := sum_drain_add_shortfall (sources pg userId now) cost
  rw [List.map_eq_nil_iff.mp hd, List.map_nil, List.sum_nil, zero_add] at hsum
  rw [hsum, if_pos hc] at hw
  exact List.cons_ne_nil _ _ hw

private theorem chargeWallet_eq_some {remaining w : ℤ} {s t : Sess} {bd : List Share}
    (hr : 0 ≤ remaining) (h : chargeWallet remaining s = some (bd, w, t)) :
    bd = (if 0 < remaining then [(.wallet, 0, remaining)] else []) ∧
      t.view = { s.view with
        users := s.view.users.update s.user.id (User.setBalance (· - remaining)) } ∧
      t.flush.apiKey = s.flush.apiKey ∧ t.user.id = s.user.id ∧ t.newTx = s.newTx ∧
      t.newLogs = s.newLogs ∧
      (s.Current s.view → w = s.user.balance.value - remaining) := by
  unfold chargeWallet at h
  split_ifs at h with hpos
  · obtain ⟨⟨w', s'⟩, hu, heq⟩ := Option.map_eq_some_iff.mp h
    obtain ⟨row, hrow, hw, hv, hk, hid, ht, hl⟩ := Sess.updateUser_eq_some hu
    cases heq
    refine ⟨by simp [hpos], hv, ?_, hid, ht, hl, ?_⟩
    · show s'.flush.apiKey = s.flush.apiKey
      simp only [Sess.flush] at hk ⊢
      rw [hk, Option.map_map]
      rfl
    · intro hcur
      rw [hw, hcur row hrow]
  · cases h
    have h0 : remaining = 0 := by omega
    refine ⟨by simp [hpos], ?_, rfl, rfl, rfl, rfl, ?_⟩
    · rw [h0, Table.update_eq_self fun r _ => by simp]
    · intro _
      rw [h0, sub_zero]

private theorem view_chargeKey (cost : ℤ) (s : Sess) :
    (chargeKey cost s).view = { s.view with
      apiKeys := match s.flush.apiKey with
        | none => s.view.apiKeys
        | some k =>
            s.view.apiKeys.update k.id (ApiKey.setUsed fun _ => k.used.value + cost + cost) } ∧
      (chargeKey cost s).user.id = s.user.id ∧ (chargeKey cost s).newTx = s.newTx ∧
      (chargeKey cost s).newLogs = s.newLogs := by
  unfold chargeKey
  cases h : s.apiKey with
  | none =>
      have hf : s.flush.apiKey = none := by simp [Sess.flush, h]
      exact ⟨by rw [hf], rfl, rfl, rfl⟩
  | some k =>
      have hf : s.flush.apiKey = some { k with used := .load k.used.value } := by
        simp [Sess.flush, h]
      exact ⟨by rw [hf]; exact Sess.view_assignUsed_updateKey h, rfl, rfl, rfl⟩

/-- **What a charge does**: the breakdown it returns, the tables it leaves, and the
`BalanceTx` row it adds. -/
theorem chargeUser_eq_some {cost now : ℤ} {refId note : Option Str} {s t : Sess}
    {bd : List Share} (hs : s.Clean) (hc : 0 < cost)
    (h : chargeUser cost refId note now s = some (bd, t)) :
    bd = chargedShares s.pg s.user.id cost now ∧ t.pg = chargedPg s cost now ∧ t.Clean ∧
      t.user.id = s.user.id ∧ t.newLogs = s.newLogs ∧
      ∃ after, t.newTx = s.newTx ++ [{
          userId := s.user.id
          type := .consume
          amountCents := -cost
          balanceAfter := after
          refId := refId
          note := orNone (fullNote note (bd.map showTaken)) }] ∧
        (s.Current s.pg →
          after = s.user.balance.value - shortfall (sources s.pg s.user.id now) cost) := by
  have hshort := shortfall_nonneg (sources s.pg s.user.id now) hc.le
  have hflush := Sess.flush_of_clean hs
  have hview := Sess.view_of_clean hs
  rw [chargeUser, if_neg (not_le.mpr hc)] at h
  obtain ⟨hv, hk, hid, htx, hlog⟩ :=
    foldl_updateSub_spec (drain (sources s.pg s.user.id now) cost) (fun a x => x - a) s
  have hbal := foldl_updateSub_balance (drain (sources s.pg s.user.id now) cost) (fun a x => x - a) s
  simp only [chargeLoop_sources] at h
  generalize (drain (sources s.pg s.user.id now) cost).foldl
    (fun s d => s.updateSub d.1 (· - d.2)) s = s₁ at h hv hk hid htx hlog hbal
  obtain ⟨⟨bd₂, w, s₂⟩, hw, heq⟩ := Option.map_eq_some_iff.mp h
  obtain ⟨rfl, hv₂, hk₂, hid₂, htx₂, hlog₂, hafter⟩ := chargeWallet_eq_some hshort hw
  obtain ⟨hv₃, hid₃, htx₃, hlog₃⟩ := view_chargeKey cost s₂
  cases heq
  refine ⟨rfl, ?_, Sess.clean_flush _, ?_, ?_, w, ?_, ?_⟩
  · show (chargeKey cost s₂).view = _
    rw [hv₃, hv₂, hk₂, hv, hk, hid, hview, hflush]
    rfl
  · exact hid₃.trans (hid₂.trans hid)
  · exact hlog₃.trans (hlog₂.trans hlog)
  · show (chargeKey cost s₂).newTx ++ _ = _
    rw [htx₃, htx₂, htx, hid₃, hid₂, hid]
  · intro hcur
    rw [hafter, hbal]
    intro row hrow
    rw [hv, hid, hview] at hrow
    rw [hbal, hcur row hrow]

private theorem balance_chargeWallet {remaining w : ℤ} {s t : Sess} {bd : List Share}
    (h : chargeWallet remaining s = some (bd, w, t)) : t.user.balance.value = w := by
  rw [chargeWallet] at h
  split_ifs at h
  · obtain ⟨r, -, heq⟩ := Option.map_eq_some_iff.mp h
    cases heq
    rfl
  · cases h
    rfl

private theorem balance_chargeKey (cost : ℤ) (s : Sess) :
    (chargeKey cost s).user.balance.value = s.user.balance.value := by
  rw [chargeKey]
  split <;> rfl

/-- The balance that the session has loaded follows the wallet. -/
theorem balance_chargeUser {cost now : ℤ} {refId note : Option Str} {s t : Sess} {bd : List Share}
    (hs : s.Clean) (hcur : s.Current s.pg) (hc : 0 < cost)
    (h : chargeUser cost refId note now s = some (bd, t)) :
    t.user.balance.value =
      s.user.balance.value - shortfall (sources s.pg s.user.id now) cost := by
  obtain ⟨-, -, -, -, -, after, htx, hafter⟩ := chargeUser_eq_some hs hc h
  rw [← hafter hcur]
  rw [chargeUser, if_neg (not_le.mpr hc)] at h
  obtain ⟨⟨bd₂, w, s₂⟩, hw, heq⟩ := Option.map_eq_some_iff.mp h
  cases heq
  -- the row that was added says what the wallet came to
  have hrow := congrArg (List.getLast? · |>.map BalanceTx.balanceAfter) htx
  simp only [Sess.newTx_flush, Sess.newTx_addTx, List.getLast?_concat, Option.map_some,
    Option.some.injEq] at hrow
  rw [← hrow, Sess.user_balance_flush, Sess.user_addTx, balance_chargeKey, balance_chargeWallet hw]

/-- A charge keeps the session's key. -/
theorem keyId_chargeUser {cost now : ℤ} {refId note : Option Str} {s t : Sess} {bd : List Share}
    (h : chargeUser cost refId note now s = some (bd, t)) : t.keyId = s.keyId := by
  have hkey : ∀ {a b : Sess}, a.flush.apiKey = b.flush.apiKey → a.keyId = b.keyId := by
    intro a b hab
    rw [← Sess.keyId_flush, Sess.keyId, hab, ← Sess.keyId, Sess.keyId_flush]
  unfold chargeUser at h
  split_ifs at h with hc
  · cases h
    rfl
  · simp only [chargeLoop_sources] at h
    obtain ⟨-, hk, -, -, -⟩ :=
      foldl_updateSub_spec (drain (sources s.pg s.user.id now) cost) (fun a x => x - a) s
    obtain ⟨⟨bd₂, w, s₂⟩, hw, heq⟩ := Option.map_eq_some_iff.mp h
    have hshort := shortfall_nonneg (sources s.pg s.user.id now) (show 0 ≤ cost by omega)
    obtain ⟨-, -, hk₂, -, -, -, -⟩ := chargeWallet_eq_some hshort hw
    cases heq
    simp only [Sess.keyId_flush, Sess.keyId_addTx]
    calc (chargeKey cost s₂).keyId = s₂.keyId := by unfold chargeKey; split <;> simp
      _ = _ := hkey hk₂
      _ = s.keyId := hkey hk

/-- A charge adds and removes no row that others refer to. -/
theorem sameIds_chargedPg (s : Sess) (cost now : ℤ) : SameIds s.pg (chargedPg s cost now) := by
  refine ⟨fun k => Table.refers_update _ _ _ k, fun k => ?_, fun _ => rfl⟩
  simp only [chargedPg]
  cases s.apiKey with
  | none => rfl
  | some key => exact Table.refers_update _ _ _ k

/-- A charge of a user whose row is there succeeds. -/
theorem chargeUser_isSome (cost now : ℤ) (refId note : Option Str) {s : Sess}
    (h : (s.view.users.get? s.user.id).isSome) :
    (chargeUser cost refId note now s).isSome := by
  unfold chargeUser
  split_ifs
  · rfl
  · simp only [chargeLoop_sources, Option.isSome_map]
    obtain ⟨hv, -, hid, -, -⟩ :=
      foldl_updateSub_spec (drain (sources s.pg s.user.id now) cost) (fun a x => x - a) s
    unfold chargeWallet
    split_ifs
    · simp only [Sess.updateUser, Table.get?_update_self, Option.isSome_map]
      rw [Sess.user_id_flush, hid, ← Sess.view, hv]
      exact h
    · rfl

/-- The steps of the transaction of a charge. -/
theorem chargeTxn_steps {pg after : Pg} {uid cost now : ℤ} {kid : Option ℤ}
    {refId note : Option Str} {bd : List Share}
    (h : chargeTxn pg uid kid cost refId note now = some (bd, after)) :
    ∃ user t, pg.users.get? uid = some user ∧
      chargeUser cost refId note now (.start pg user (kid.bind pg.apiKeys.get?)) = some (bd, t) ∧
      t.commit = some after := by
  obtain ⟨user, huser, h⟩ := Option.bind_eq_some_iff.mp h
  obtain ⟨⟨bd', t⟩, hcharge, h⟩ := Option.bind_eq_some_iff.mp h
  obtain ⟨pg', hcommit, heq⟩ := Option.map_eq_some_iff.mp h
  cases heq
  exact ⟨user, t, huser, hcharge, hcommit⟩

/-- The tables after the transaction of a charge. -/
theorem chargeTxn_eq_some {pg after : Pg} {uid cost now : ℤ} {kid : Option ℤ}
    {refId note : Option Str} {bd : List Share}
    (h : chargeTxn pg uid kid cost refId note now = some (bd, after)) :
    ∃ user, pg.users.get? uid = some user ∧
      after.users = (pgAfter (.start pg user (kid.bind pg.apiKeys.get?)) cost now).users ∧
      after.apiKeys = (pgAfter (.start pg user (kid.bind pg.apiKeys.get?)) cost now).apiKeys ∧
      after.subscriptions =
        (pgAfter (.start pg user (kid.bind pg.apiKeys.get?)) cost now).subscriptions := by
  obtain ⟨user, t, huser, hcharge, hcommit⟩ := chargeTxn_steps h
  have hclean := Sess.clean_start pg user (kid.bind pg.apiKeys.get?)
  have ht : t.Clean ∧ t.pg = pgAfter (.start pg user (kid.bind pg.apiKeys.get?)) cost now := by
    by_cases hc : 0 < cost
    · obtain ⟨-, hpg, ht, -⟩ := chargeUser_eq_some hclean hc hcharge
      exact ⟨ht, by rw [hpg, pgAfter, if_pos hc]⟩
    · rw [chargeUser, if_pos (by omega)] at hcharge
      cases hcharge
      exact ⟨hclean, by rw [pgAfter, if_neg hc]⟩
  obtain ⟨husers, hkeys, hsubs⟩ := Sess.tables_commit ht.1 hcommit
  exact ⟨user, huser, by rw [husers, ht.2], by rw [hkeys, ht.2], by rw [hsubs, ht.2]⟩

/-- A transaction that charges nothing. -/
theorem chargeTxn_of_nonpos {pg after : Pg} {uid cost now : ℤ} {kid : Option ℤ}
    {refId note : Option Str} {bd : List Share} (hc : cost ≤ 0)
    (h : chargeTxn pg uid kid cost refId note now = some (bd, after)) :
    bd = [] ∧ after.users = pg.users ∧ after.balanceTx = pg.balanceTx ∧
      after.subscriptions = pg.subscriptions := by
  obtain ⟨user, t, huser, hcharge, hcommit⟩ := chargeTxn_steps h
  have hclean := Sess.clean_start pg user (kid.bind pg.apiKeys.get?)
  rw [chargeUser, if_pos hc] at hcharge
  cases hcharge
  obtain ⟨husers, -, hsubs⟩ := Sess.tables_commit hclean hcommit
  refine ⟨rfl, husers, ?_, hsubs⟩
  rw [Sess.balanceTx_commit hclean hcommit]
  exact List.append_nil _

/-- What the transaction of a charge takes from the wallet, and the row it logs. -/
theorem chargeTxn_logs {pg after : Pg} {uid cost now : ℤ} {kid : Option ℤ}
    {refId note : Option Str} {bd : List Share} (hc : 0 < cost)
    (h : chargeTxn pg uid kid cost refId note now = some (bd, after)) :
    ∃ user row, pg.users.get? uid = some user ∧ bd = chargedShares pg uid cost now ∧
      after.users = pg.users.update uid
        (User.setBalance (· - shortfall (sources pg uid now) cost)) ∧
      after.balanceTx = pg.balanceTx ++ [row] ∧ row.userId = uid ∧
      row.balanceAfter = user.balanceCents - shortfall (sources pg uid now) cost := by
  obtain ⟨user, t, huser, hcharge, hcommit⟩ := chargeTxn_steps h
  have hid : user.id = uid := (Table.get?_eq_some.mp huser).2
  subst hid
  have hclean := Sess.clean_start pg user (kid.bind pg.apiKeys.get?)
  obtain ⟨hbd, hpg, ht, -, -, w, hrow, hw⟩ := chargeUser_eq_some hclean hc hcharge
  obtain ⟨husers, -, -⟩ := Sess.tables_commit ht hcommit
  have hlog : after.balanceTx = pg.balanceTx ++ t.newTx := by
    rw [Sess.balanceTx_commit ht hcommit, hpg]
    rfl
  rw [hrow] at hlog
  refine ⟨user, _, huser, hbd, ?_, hlog, rfl, hw (Sess.current_start _ huser)⟩
  rw [husers, hpg]
  rfl

end Llmxy
