import Llmxy.Billing.ChargeOrder
import Llmxy.Billing.Wallet
import Llmxy.Lib.TableSum

/-!
# The funds of a user

The wallet and the quota of the active subscriptions.  The quota is that of one time, from which
the funds are watched: a subscription that ends later still counts, so the funds are moved by
charges and refunds alone.

A charge takes its cost from the funds.  A refund returns what it is asked to, but no more than
its breakdown has taken; a share that does not go back to its subscription goes to the wallet.

## Main definitions

* `activeQuota`, `Pg.fundsAt` — the quota and the funds as of a time.
* `Sess.Loaded` — a session that knows the wallet of its user.
* `charge_loaded`, `refund_loaded` — what the two do to the funds.
-/

namespace Llmxy

/-- The quota of the active subscriptions. -/
def activeQuota (pg : Pg) (uid now : ℤ) : ℤ :=
  ((activeSubscriptions pg uid now).map (·.remainingCents)).sum

/-- The wallet and the quota of the subscriptions that are active at a time. -/
def Pg.fundsAt (pg : Pg) (uid now : ℤ) : Option ℤ :=
  (pg.wallet uid).map fun balance => balance + activeQuota pg uid now

/-- The part of a subscription in the quota. -/
def Subscription.quotaAt (uid now : ℤ) (x : Subscription) : ℤ :=
  if x.isActive uid now then x.remainingCents else 0

/-- The subscription is open as of the time, and its quota is not negative. -/
structure Subscription.Counts (uid now : ℤ) (x : Subscription) : Prop where
  isOpen : x.isOpen uid now = true
  nonneg : 0 ≤ x.remainingCents

section
variable {pg : Pg} {t : Table Subscription} {x : Subscription} {uid began now k : ℤ}

/-! ### The quota -/

theorem activeQuota_eq_total (pg : Pg) (uid now : ℤ) :
    activeQuota pg uid now = pg.subscriptions.total (Subscription.quotaAt uid now) := by
  have hperm := (List.perm_insertionSort
    (fun a b : Subscription => a.currentPeriodEnd ≤ b.currentPeriodEnd)
    (pg.subscriptions.select (Subscription.isActive uid now))).map (·.remainingCents)
  rw [activeQuota, activeSubscriptions, hperm.sum_eq, Table.select, Table.total]
  induction pg.subscriptions.rows with
  | nil => rfl
  | cons x rows ih =>
      by_cases h : x.isActive uid now = true
      · simp [Subscription.quotaAt, h, ih]
      · simp [Subscription.quotaAt, h, ih]

theorem sum_sources (pg : Pg) (uid now : ℤ) :
    ((sources pg uid now).map Prod.snd).sum = activeQuota pg uid now := by
  rw [sources, activeQuota, List.map_map]
  rfl

theorem activeQuota_nonneg (pg : Pg) (uid now : ℤ) : 0 ≤ activeQuota pg uid now := by
  rw [← sum_sources]
  exact sum_map_nonneg fun s hs => (sources_pos s hs).le

theorem Subscription.Counts.quotaAt_eq (h : x.Counts uid now) :
    x.quotaAt uid now = x.remainingCents := by
  have hactive : x.isActive uid now = (x.isOpen uid now && decide (0 < x.remainingCents)) := rfl
  rw [Subscription.quotaAt, hactive, h.isOpen, Bool.true_and]
  split_ifs with hpos
  · rfl
  · have hnonneg := h.nonneg
    simp only [decide_eq_true_eq] at hpos
    omega

/-- What is active later was open before. -/
theorem Subscription.Counts.of_active (hbegan : began ≤ now) (h : x.isActive uid now = true) :
    x.Counts uid began := by
  obtain ⟨huser, hstatus, hend, hpos⟩ := Subscription.isActive_iff.mp h
  have hopen : began < x.currentPeriodEnd := by omega
  exact ⟨by simp [Subscription.isOpen, huser, hstatus, hopen], hpos.le⟩

/-- An update of an open subscription moves the quota. -/
theorem total_quotaAt_update (g : ℤ → ℤ) (hget : t.get? k = some x) (hx : x.Counts uid now)
    (h0 : 0 ≤ g x.remainingCents) :
    (t.update k (Subscription.setRemaining g)).total (Subscription.quotaAt uid now) =
      t.total (Subscription.quotaAt uid now) + (g x.remainingCents - x.remainingCents) := by
  have hafter : ((Subscription.setRemaining g).1 x).Counts uid now := ⟨hx.isOpen, h0⟩
  rw [Table.total_update hget, hafter.quotaAt_eq, hx.quotaAt_eq]
  rfl

/-- Where no subscription ends in between, the quota is the same at both times. -/
theorem activeQuota_congr {later : ℤ} (h : ∀ x ∈ pg.subscriptions.rows, x.userId = uid →
    (now < x.currentPeriodEnd ↔ later < x.currentPeriodEnd)) :
    activeQuota pg uid now = activeQuota pg uid later := by
  rw [activeQuota_eq_total, activeQuota_eq_total, Table.total, Table.total]
  refine congrArg List.sum (List.map_congr_left fun x hx => ?_)
  have hactive : x.isActive uid now = x.isActive uid later := by
    rw [Bool.eq_iff_iff, Subscription.isActive_iff, Subscription.isActive_iff]
    exact and_congr_right fun huser => and_congr_right fun _ =>
      and_congr_left fun _ => h x hx huser
  rw [Subscription.quotaAt, Subscription.quotaAt, hactive]

/-- A drain takes its sum from the quota. -/
theorem total_drainTable {ds : List (ℤ × ℤ)} (hnodup : (ds.map Prod.fst).Nodup)
    (h : ∀ d ∈ ds, ∃ x, t.get? d.1 = some x ∧ x.Counts uid now ∧ d.2 ≤ x.remainingCents) :
    (drainTable t ds).total (Subscription.quotaAt uid now) =
      t.total (Subscription.quotaAt uid now) - (ds.map Prod.snd).sum := by
  induction ds generalizing t with
  | nil => simp [drainTable]
  | cons d ds ih =>
      obtain ⟨hnew, hnodup'⟩ := List.nodup_cons.mp hnodup
      obtain ⟨x, hget, hx, hle⟩ := h d List.mem_cons_self
      have hrest : ∀ d' ∈ ds, ∃ x,
          (t.update d.1 (Subscription.setRemaining (· - d.2))).get? d'.1 = some x ∧
            x.Counts uid now ∧ d'.2 ≤ x.remainingCents := by
        intro d' hd'
        have hne : d'.1 ≠ d.1 := by
          intro heq
          exact hnew (heq ▸ List.mem_map_of_mem hd')
        rw [Table.get?_update_of_ne hne]
        exact h d' (List.mem_cons_of_mem _ hd')
      have hfirst := total_quotaAt_update (· - d.2) hget hx
        (sub_nonneg.mpr hle)
      rw [drainTable, List.foldl_cons, ← drainTable, ih hnodup' hrest, hfirst, List.map_cons,
        List.sum_cons]
      omega

/-- A refill gives its sum to the quota. -/
theorem total_refillTable {gs : List (ℤ × ℤ)}
    (h : ∀ g ∈ gs, 0 ≤ g.2 ∧ ∃ x, t.get? g.1 = some x ∧ x.Counts uid now) :
    (refillTable t gs).total (Subscription.quotaAt uid now) =
      t.total (Subscription.quotaAt uid now) + (gs.map Prod.snd).sum := by
  induction gs generalizing t with
  | nil => simp [refillTable]
  | cons g gs ih =>
      obtain ⟨h0, x, hget, hx⟩ := h g List.mem_cons_self
      have hrest : ∀ g' ∈ gs, 0 ≤ g'.2 ∧ ∃ x,
          (t.update g.1 (Subscription.setRemaining (· + g.2))).get? g'.1 = some x ∧
            x.Counts uid now := by
        intro g' hg'
        obtain ⟨h0', x', hget', hx'⟩ := h g' (List.mem_cons_of_mem _ hg')
        refine ⟨h0', ?_⟩
        rw [Table.get?_update]
        split_ifs
        · rw [hget']
          exact ⟨_, rfl, hx'.isOpen, add_nonneg hx'.nonneg h0⟩
        · exact ⟨x', hget', hx'⟩
      have hfirst := total_quotaAt_update (· + g.2) hget hx
        (add_nonneg hx.nonneg h0)
      rw [refillTable, List.foldl_cons, ← refillTable, ih hrest, hfirst, List.map_cons,
        List.sum_cons]
      omega

/-- What a charge takes from subscriptions. -/
theorem total_charged (pg : Pg) (uid cost : ℤ) (hbegan : began ≤ now) :
    (drainTable pg.subscriptions (drain (sources pg uid now) cost)).total
        (Subscription.quotaAt uid began) =
      pg.subscriptions.total (Subscription.quotaAt uid began) -
        ((drain (sources pg uid now) cost).map Prod.snd).sum := by
  refine total_drainTable ((drain_keys_sublist _ _).nodup (nodup_sources pg uid now)) ?_
  intro d hd
  obtain ⟨s, hs, hkey, hle⟩ := exists_of_mem_drain hd
  rw [sources_eq] at hs
  obtain ⟨x, hx, rfl⟩ := List.mem_map.mp hs
  obtain ⟨hget, hactive⟩ := mem_activeSubscriptions.mp hx
  exact ⟨x, hkey ▸ hget, .of_active hbegan hactive, hle⟩

end

/-! ### The ends of the periods -/

/-- Every subscription had its user and its end before. -/
def EndsKept (t t' : Table Subscription) : Prop :=
  ∀ x' ∈ t'.rows, ∃ x ∈ t.rows, x.userId = x'.userId ∧ x.currentPeriodEnd = x'.currentPeriodEnd

theorem EndsKept.refl (t : Table Subscription) : EndsKept t t := fun x hx => ⟨x, hx, rfl, rfl⟩

theorem EndsKept.trans {t t' t'' : Table Subscription} (h : EndsKept t t') (h' : EndsKept t' t'') :
    EndsKept t t'' := by
  intro x'' hx''
  obtain ⟨x', hx', huser', hend'⟩ := h' x'' hx''
  obtain ⟨x, hx, huser, hend⟩ := h x' hx'
  exact ⟨x, hx, huser.trans huser', hend.trans hend'⟩

theorem endsKept_update (t : Table Subscription) (k : ℤ) (g : ℤ → ℤ) :
    EndsKept t (t.update k (Subscription.setRemaining g)) := by
  intro x' hx'
  rw [Table.rows_update] at hx'
  obtain ⟨x, hx, rfl⟩ := List.mem_map.mp hx'
  refine ⟨x, hx, ?_⟩
  split_ifs <;> exact ⟨rfl, rfl⟩

theorem endsKept_drainTable (t : Table Subscription) (ds : List (ℤ × ℤ)) :
    EndsKept t (drainTable t ds) := by
  induction ds generalizing t with
  | nil => exact .refl t
  | cons d ds ih => exact (endsKept_update t d.1 _).trans (ih _)

theorem endsKept_refillTable (t : Table Subscription) (gs : List (ℤ × ℤ)) :
    EndsKept t (refillTable t gs) := by
  induction gs generalizing t with
  | nil => exact .refl t
  | cons g gs ih => exact (endsKept_update t g.1 _).trans (ih _)

/-! ### The total of a refund -/

section
variable {bd : List Share} {rem : ℤ}

theorem walletShare_le_sum (hpos : ∀ b ∈ bd, 0 ≤ b.2.2) :
    walletShare bd ≤ (bd.map fun b => b.2.2).sum := by
  refine (List.filter_sublist.map fun b : Share => b.2.2).sum_le_sum fun a ha => ?_
  obtain ⟨b, hb, rfl⟩ := List.mem_map.mp ha
  exact hpos b hb

/-- The loop gives all that the subscriptions' shares cover. -/
theorem refundLoop_total (active : List ℤ) (hpos : ∀ b ∈ bd, 0 ≤ b.2.2) (hrem : 0 ≤ rem) :
    (refundLoop active bd rem).1 + ((refundLoop active bd rem).2.map Prod.snd).sum =
      min rem ((bd.map fun b => b.2.2).sum - walletShare bd) := by
  induction bd generalizing rem with
  | nil => simp [refundLoop, walletShare, hrem]
  | cons b bd ih =>
      obtain ⟨kind, sid, amt⟩ := b
      have hamt : 0 ≤ amt := hpos _ List.mem_cons_self
      have hpos' : ∀ b ∈ bd, 0 ≤ b.2.2 := fun b hb => hpos b (List.mem_cons_of_mem _ hb)
      have hle := walletShare_le_sum hpos'
      cases kind with
      | wallet =>
          have hshare : walletShare ((.wallet, sid, amt) :: bd) = amt + walletShare bd := by
            simp [walletShare]
          rw [refundLoop, if_pos (.inl (by decide)), ih hpos' hrem, hshare, List.map_cons,
            List.sum_cons, add_sub_add_left_eq_sub]
      | sub =>
          have hshare : walletShare ((.sub, sid, amt) :: bd) = walletShare bd := by
            simp [walletShare]
          rw [refundLoop, hshare, List.map_cons, List.sum_cons]
          split_ifs with hskip hact
          · have h0 : rem ≤ 0 := by simpa using hskip
            have ih := ih hpos' hrem
            dsimp only
            omega
          · have ih := ih hpos' (sub_nonneg.mpr (min_le_right amt rem))
            simp only [List.map_cons, List.sum_cons]
            omega
          · have ih := ih hpos' (sub_nonneg.mpr (min_le_right amt rem))
            dsimp only
            omega

/-- **A refund returns what it is asked to**, as far as the breakdown covers it. -/
theorem refundSplit_total (active : List ℤ) (hpos : ∀ b ∈ bd, 0 ≤ b.2.2) (refundCents : ℤ) :
    (refundSplit active bd refundCents).1 +
        ((refundSplit active bd refundCents).2.map Prod.snd).sum =
      min refundCents (bd.map fun b => b.2.2).sum := by
  have hle := walletShare_le_sum hpos
  rw [refundSplit]
  split_ifs with hrem
  · have hloop := refundLoop_total active hpos hrem.le
    simp only
    omega
  · simp only [List.map_nil, List.sum_nil]
    omega

end

theorem refundSplit_wallet_nonneg (active : List ℤ) (hpos : ∀ b ∈ bd, 0 ≤ b.2.2)
    {refundCents : ℤ} (hr : 0 ≤ refundCents) : 0 ≤ (refundSplit active bd refundCents).1 := by
  have hshare : 0 ≤ walletShare bd := sum_map_nonneg fun b hb => hpos b (List.mem_of_mem_filter hb)
  rw [refundSplit]
  split_ifs
  · exact add_nonneg (le_min hshare hr) (refundLoop_wallet_nonneg active hpos _)
  · exact le_min hshare hr

/-! ### Sessions -/

/-- The session has loaded the user, and knows the wallet. -/
structure Sess.Loaded (uid : ℤ) (s : Sess) : Prop where
  clean : s.Clean
  userId : s.user.id = uid
  wallet : s.pg.wallet uid = some s.user.balance.value

section
variable {s : Sess} {uid began now : ℤ}

theorem Sess.loaded_start {pg : Pg} {user : User} (apiKey : Option ApiKey)
    (h : pg.users.get? uid = some user) : (Sess.start pg user apiKey).Loaded uid :=
  ⟨clean_start _ _ _, (Table.get?_eq_some.mp h).2, by rw [Pg.wallet, Sess.start, h]; rfl⟩

theorem Sess.Loaded.current (h : s.Loaded uid) : s.Current s.pg := by
  intro row hrow
  have hwallet := h.wallet
  rw [h.userId] at hrow
  rw [Pg.wallet, hrow] at hwallet
  exact Option.some.inj hwallet

theorem Sess.Loaded.fundsAt_eq (h : s.Loaded uid) :
    s.pg.fundsAt uid began = some (s.user.balance.value + activeQuota s.pg uid began) := by
  rw [Pg.fundsAt, h.wallet]
  rfl

theorem Sess.Loaded.isSome (h : s.Loaded uid) : (s.view.users.get? s.user.id).isSome := by
  have hwallet := h.wallet
  rw [Sess.view_of_clean h.clean, h.userId]
  rw [Pg.wallet, Option.map_eq_some_iff] at hwallet
  obtain ⟨row, hrow, -⟩ := hwallet
  exact Option.isSome_iff_exists.mpr ⟨row, hrow⟩

/-- What a charge has done to the session of its user. -/
structure ChargedFunds (uid began cost now : ℤ) (s : Sess) (bd : List Share) (t : Sess) : Prop where
  loaded : t.Loaded uid
  newLogs : t.newLogs = s.newLogs
  balance : t.user.balance.value =
    s.user.balance.value - max 0 (shortfall (sources s.pg uid now) cost)
  shares : ∀ b ∈ bd, 0 ≤ b.2.2
  sum : (bd.map fun b => b.2.2).sum = max 0 cost
  funds : t.pg.fundsAt uid began = (s.pg.fundsAt uid began).map (· - max 0 cost)
  ends : EndsKept s.pg.subscriptions t.pg.subscriptions

/-- **A charge takes its cost from the funds.** -/
theorem charge_loaded (hs : s.Loaded uid) (hbegan : began ≤ now) (cost : ℤ)
    (refId note : Option Str) :
    ∃ bd t, chargeUser cost refId note now s = some (bd, t) ∧
      ChargedFunds uid began cost now s bd t := by
  by_cases hc : 0 < cost
  · obtain ⟨⟨bd, t⟩, hcharge⟩ := Option.isSome_iff_exists.mp
      (chargeUser_isSome cost now refId note hs.isSome)
    obtain ⟨hbd, hpg, hclean, hid, hlogs, -⟩ := chargeUser_eq_some hs.clean hc hcharge
    have hbalance := balance_chargeUser hs.clean hs.current hc hcharge
    have hnonneg := shortfall_nonneg (sources s.pg uid now) hc.le
    have hsum := sum_drain_add_shortfall (sources s.pg uid now) cost
    rw [hs.userId] at hbd hid hbalance
    have hwallet : t.pg.wallet uid = some t.user.balance.value := by
      have hbefore := hs.wallet
      rw [Pg.wallet, Option.map_eq_some_iff] at hbefore
      obtain ⟨row, hrow, hvalue⟩ := hbefore
      rw [hpg, Pg.wallet, chargedPg, hs.userId, Table.get?_update_self, hrow, hbalance, ← hvalue]
      rfl
    have hloaded : t.Loaded uid := ⟨hclean, hid, hwallet⟩
    refine ⟨bd, t, hcharge, hloaded, hlogs, ?_, ?_, ?_, ?_, ?_⟩
    · rw [hbalance, max_eq_right hnonneg]
    · rw [hbd]
      exact fun b hb => (chargedShares_pos b hb).le
    · rw [hbd, sum_chargedShares hc, max_eq_right hc.le]
    · have hquota : activeQuota t.pg uid began =
          activeQuota s.pg uid began - ((drain (sources s.pg uid now) cost).map Prod.snd).sum := by
        rw [activeQuota_eq_total, activeQuota_eq_total, hpg, chargedPg, hs.userId]
        exact total_charged s.pg uid cost hbegan
      rw [hloaded.fundsAt_eq, hs.fundsAt_eq, Option.map_some, hbalance, hquota,
        max_eq_right hc.le]
      congr 1
      omega
    · rw [hpg]
      exact endsKept_drainTable _ _
  · have hshort := (drain_of_nonpos (sources s.pg uid now) (not_lt.mp hc)).2
    refine ⟨[], s, ?_, hs, rfl, ?_, by simp, ?_, ?_, .refl _⟩
    · rw [chargeUser, if_pos (not_lt.mp hc)]
    · rw [hshort, max_eq_left (not_lt.mp hc), sub_zero]
    · rw [max_eq_left (not_lt.mp hc)]
      rfl
    · rw [max_eq_left (not_lt.mp hc)]
      simp

/-- What a refund has done to the session of its user. -/
structure RefundedFunds (uid began : ℤ) (bd : List Share) (refundCents : ℤ) (s t : Sess) :
    Prop where
  loaded : t.Loaded uid
  newLogs : t.newLogs = s.newLogs
  funds : t.pg.fundsAt uid began = (s.pg.fundsAt uid began).map
    (· + max 0 (min refundCents (bd.map fun b => b.2.2).sum))
  ends : EndsKept s.pg.subscriptions t.pg.subscriptions

/-- **A refund gives to the funds** what it is asked to, as far as the breakdown covers it. -/
theorem refund_loaded {bd : List Share} (hs : s.Loaded uid) (hbegan : began ≤ now)
    (hpos : ∀ b ∈ bd, 0 ≤ b.2.2) (refundCents : ℤ) (refId note : Option Str) :
    ∃ n t, refundToSources bd refundCents refId note now s = some (n, t) ∧
      RefundedFunds uid began bd refundCents s t := by
  by_cases hnothing : refundCents ≤ 0 ∨ bd = []
  · have hzero : max 0 (min refundCents (bd.map fun b => b.2.2).sum) = 0 := by
      obtain hr | rfl := hnothing
      · omega
      · simp
    refine ⟨0, s, ?_, hs, rfl, ?_, .refl _⟩
    · rw [refundToSources, if_pos (by simpa using hnothing)]
    · rw [hzero]
      simp
  · push Not at hnothing
    obtain ⟨hr, hbd⟩ := hnothing
    have hsome : (refundToSources bd refundCents refId note now s).isSome :=
      refundToSources_isSome hs.isSome
    obtain ⟨⟨n, t⟩, hrefund⟩ := Option.isSome_iff_exists.mp hsome
    obtain ⟨husers, hsubs⟩ := refundToSources_eq_some hr hbd hrefund
    obtain ⟨hclean, hid, hlogs, hbalance⟩ := refundToSources_session hs.clean hr hbd hrefund
    have hbalance := hbalance hs.current
    rw [Sess.view_of_clean hs.clean, hs.userId] at husers
    rw [hs.userId] at hsubs hid hbalance
    have hactive : ∀ sid ∈ (activeSubscriptions s.pg uid now).map (·.id),
        ∃ x, s.pg.subscriptions.get? sid = some x ∧ x.Counts uid began := by
      intro sid hsid
      obtain ⟨x, hx, rfl⟩ := List.mem_map.mp hsid
      obtain ⟨hget, hx⟩ := mem_activeSubscriptions.mp hx
      exact ⟨x, hget, .of_active hbegan hx⟩
    generalize (activeSubscriptions s.pg uid now).map (·.id) = active
      at husers hsubs hbalance hactive
    have htotal := refundSplit_total active hpos refundCents
    have hwallet := refundSplit_wallet_nonneg active hpos hr.le
    have hgiven : ∀ g ∈ (refundSplit active bd refundCents).2, g.1 ∈ active ∧ 0 ≤ g.2 :=
      refundSplit_given hpos refundCents
    generalize refundSplit active bd refundCents = r at husers hsubs hbalance htotal hwallet hgiven
    have hadded : (if 0 < r.1 then r.1 else 0) = r.1 := by
      split_ifs <;> omega
    rw [hadded] at hbalance
    have hafter : t.pg.wallet uid = some t.user.balance.value := by
      have hbefore := hs.wallet
      rw [Pg.wallet, Option.map_eq_some_iff] at hbefore
      obtain ⟨row, hrow, hvalue⟩ := hbefore
      rw [Pg.wallet, husers, hbalance, ← hvalue]
      split_ifs with hpaid
      · rw [Table.get?_update_self, hrow]
        rfl
      · rw [hrow, Option.map_some, Option.some.injEq]
        omega
    have hloaded : t.Loaded uid := ⟨hclean, hid, hafter⟩
    have hquota : activeQuota t.pg uid began =
        activeQuota s.pg uid began + (r.2.map Prod.snd).sum := by
      rw [activeQuota_eq_total, activeQuota_eq_total, hsubs]
      exact total_refillTable fun g hg => ⟨(hgiven g hg).2, hactive _ (hgiven g hg).1⟩
    have hsum : 0 ≤ (bd.map fun b => b.2.2).sum := sum_map_nonneg hpos
    refine ⟨n, t, hrefund, hloaded, hlogs, ?_, ?_⟩
    · rw [hloaded.fundsAt_eq, hs.fundsAt_eq, Option.map_some, hbalance, hquota]
      congr 1
      omega
    · rw [hsubs]
      exact endsKept_refillTable _ _

end
end Llmxy
