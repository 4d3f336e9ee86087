import Llmxy.Billing.Lifecycle
import Llmxy.Billing.Replay
import Llmxy.Relay.Commit

/-!
# The order of a charge

A charge drains the active subscriptions from the one whose period ends first, and takes the
rest from the wallet.  The shares it returns are positive and add up to the cost, each
subscription and the wallet lose their share and nothing else moves, and one row is logged.

That row is what can fail: its note has an entry for each source, so it outgrows its column when
enough subscriptions are drained.

## Main definitions

* `subTaken` — what a breakdown takes from a subscription.
* `ChargeDrains` — what is promised of a charge.
* `chargeTxn_drains_iff` — a charge keeps it exactly when its row fits.
-/

namespace Llmxy

/-- What a breakdown takes from a subscription. -/
def subTaken (breakdown : List Share) (sid : ℤ) : ℤ :=
  ((breakdown.filter fun b => b.1 = .sub ∧ b.2.1 = sid).map fun b => b.2.2).sum

/-- What is promised of a charge: the shares are positive and add up to the cost; each
subscription and the wallet lose their share, no subscription more than it has, and no other
fund changes; a subscription is asked only when those that end earlier are empty, and the wallet
only when all are; and one row of the cost is logged. -/
structure ChargeDrains (pg : Pg) (uid cost now : ℤ) (breakdown : List Share) (after : Pg) :
    Prop where
  pos : ∀ share ∈ breakdown, 0 < share.2.2
  sum : (breakdown.map fun share => share.2.2).sum = cost
  subscriptions : ∀ sid, after.subscriptions.get? sid = (pg.subscriptions.get? sid).map fun row =>
    { row with remainingCents := row.remainingCents - subTaken breakdown sid }
  nonneg : ∀ sid row, pg.subscriptions.get? sid = some row → 0 ≤ row.remainingCents →
    0 ≤ row.remainingCents - subTaken breakdown sid
  active : ∀ sid, 0 < subTaken breakdown sid → ∃ row, pg.subscriptions.get? sid = some row ∧
    row.isActive uid now = true
  earlier : ∀ first ∈ activeSubscriptions pg uid now, ∀ sub ∈ activeSubscriptions pg uid now,
    first.currentPeriodEnd < sub.currentPeriodEnd → 0 < subTaken breakdown sub.id →
    subTaken breakdown first.id = first.remainingCents
  walletLast : 0 < walletShare breakdown →
    ∀ sub ∈ activeSubscriptions pg uid now, subTaken breakdown sub.id = sub.remainingCents
  users : ∀ k, after.users.get? k = (pg.users.get? k).map fun row =>
    if k = uid then { row with balanceCents := row.balanceCents - walletShare breakdown } else row
  logged : ∃ row, after.balanceTx = pg.balanceTx ++ [row] ∧ row.userId = uid ∧
    row.type = .consume ∧ row.amountCents = -cost

section
variable {pg after : Pg} {uid cost now : ℤ} {kid : Option ℤ} {refId note : Option Str}
  {bd : List Share} {user : User}

/-! ### Shares -/

theorem subTaken_append (bd bd' : List Share) (sid : ℤ) :
    subTaken (bd ++ bd') sid = subTaken bd sid + subTaken bd' sid := by
  simp [subTaken]

theorem subTaken_subShare (ds : List (ℤ × ℤ)) (sid : ℤ) :
    subTaken (ds.map subShare) sid = ((ds.filter fun d => d.1 = sid).map Prod.snd).sum := by
  induction ds with
  | nil => rfl
  | cons d ds ih =>
      rw [subTaken] at ih
      rw [subTaken, List.map_cons, List.filter_cons, List.filter_cons]
      by_cases h : d.1 = sid
      · simp [subShare, h] at ih ⊢
        exact ih
      · simp [subShare, h] at ih ⊢
        exact ih

/-- What a charge takes from a subscription is its part of the drain. -/
theorem subTaken_charged (pg : Pg) (uid cost now sid : ℤ) :
    subTaken (chargedShares pg uid cost now) sid =
      (((drain (sources pg uid now) cost).filter fun d => d.1 = sid).map Prod.snd).sum := by
  have hwallet : subTaken (if 0 < shortfall (sources pg uid now) cost then
      [(.wallet, 0, shortfall (sources pg uid now) cost)] else []) sid = 0 := by
    split
    · simp [subTaken]
    · rfl
  rw [chargedShares, subTaken_append, subTaken_subShare, hwallet, add_zero]

theorem subTaken_of_mem {d : ℤ × ℤ} (hd : d ∈ drain (sources pg uid now) cost) :
    subTaken (chargedShares pg uid cost now) d.1 = d.2 := by
  rw [subTaken_charged]
  have hnodup := (drain_keys_sublist (sources pg uid now) cost).nodup (nodup_sources pg uid now)
  exact sum_filter_key hnodup hd

/-- What is taken from somebody is taken by an entry of the drain. -/
theorem mem_drain_of_taken {sid : ℤ} (h : 0 < subTaken (chargedShares pg uid cost now) sid) :
    ∃ d ∈ drain (sources pg uid now) cost, d.1 = sid := by
  by_contra! hnone
  have hnil : ((drain (sources pg uid now) cost).filter fun d => d.1 = sid) = [] := by
    rw [List.filter_eq_nil_iff]
    intro d hd
    simpa using hnone d hd
  rw [subTaken_charged, hnil] at h
  simp at h

theorem chargedShares_pos : ∀ share ∈ chargedShares pg uid cost now, 0 < share.2.2 := by
  intro share hshare
  rw [chargedShares, List.mem_append] at hshare
  obtain hsub | hwallet := hshare
  · obtain ⟨d, hd, rfl⟩ := List.mem_map.mp hsub
    exact drain_pos _ _ d hd
  · split at hwallet
    · next h =>
        rw [List.mem_singleton.mp hwallet]
        exact h
    · cases hwallet

theorem sum_chargedShares (hc : 0 < cost) :
    ((chargedShares pg uid cost now).map fun share => share.2.2).sum = cost := by
  have hsum := sum_drain_add_shortfall (sources pg uid now) cost
  have hnonneg := shortfall_nonneg (sources pg uid now) hc.le
  have hsubs : ((drain (sources pg uid now) cost).map subShare).map (fun share => share.2.2) =
      (drain (sources pg uid now) cost).map Prod.snd := by
    rw [List.map_map]
    rfl
  rw [chargedShares, List.map_append, List.sum_append, hsubs]
  split
  · simpa using hsum
  · simp only [List.map_nil, List.sum_nil]
    omega

/-! ### Order -/

/-- An active subscription as a source. -/
def Subscription.source (sub : Subscription) : ℤ × ℤ := (sub.id, sub.remainingCents)

theorem sources_eq (pg : Pg) (uid now : ℤ) :
    sources pg uid now = (activeSubscriptions pg uid now).map Subscription.source := rfl

theorem sources_pos : ∀ s ∈ sources pg uid now, 0 < s.2 := by
  intro s hs
  rw [sources_eq] at hs
  obtain ⟨sub, hsub, rfl⟩ := List.mem_map.mp hs
  exact (Subscription.isActive_iff.mp (mem_activeSubscriptions.mp hsub).2).2.2.2

/-- The active subscriptions are sorted by the end of their periods. -/
theorem pairwise_activeSubscriptions (pg : Pg) (uid now : ℤ) :
    (activeSubscriptions pg uid now).Pairwise
      fun a b => a.currentPeriodEnd ≤ b.currentPeriodEnd := by
  have : Std.Total fun a b : Subscription => a.currentPeriodEnd ≤ b.currentPeriodEnd :=
    ⟨fun a b => le_total a.currentPeriodEnd b.currentPeriodEnd⟩
  have : IsTrans Subscription fun a b => a.currentPeriodEnd ≤ b.currentPeriodEnd :=
    ⟨fun _ _ _ => le_trans⟩
  exact List.pairwise_insertionSort _ _

/-- Where a subscription gives something, each one that ends before it gives all it has. -/
theorem source_mem_drain_of_earlier {first sub : Subscription}
    (hfirst : first ∈ activeSubscriptions pg uid now) (hsub : sub ∈ activeSubscriptions pg uid now)
    (hlt : first.currentPeriodEnd < sub.currentPeriodEnd)
    (htaken : 0 < subTaken (chargedShares pg uid cost now) sub.id) :
    first.source ∈ drain (sources pg uid now) cost := by
  obtain ⟨d, hd, hid⟩ := mem_drain_of_taken htaken
  obtain ⟨before, rest, hsplit⟩ := List.append_of_mem hsub
  have hsorted := pairwise_activeSubscriptions pg uid now
  have hnodup := nodup_sources pg uid now
  rw [sources_eq, hsplit, List.map_append] at hd hnodup ⊢
  rw [hsplit, List.pairwise_append] at hsorted
  have hbefore : first ∈ before := by
    rw [hsplit, List.mem_append, List.mem_cons] at hfirst
    obtain hmem | rfl | hmem := hfirst
    · exact hmem
    · exact absurd hlt (lt_irrefl _)
    · exact absurd hlt (not_lt.mpr (List.rel_of_pairwise_cons hsorted.2.1 hmem))
  have hcap : ∀ s ∈ before.map Subscription.source, 0 < s.2 := by
    intro s hs
    have hmem : s ∈ sources pg uid now := by
      rw [sources_eq, hsplit, List.map_append]
      exact List.mem_append_left _ hs
    exact sources_pos s hmem
  refine mem_drain_of_later hcap hd ?_ (List.mem_map_of_mem hbefore)
  rw [hid]
  intro hmem
  rw [List.map_append, List.map_cons, List.map_cons, List.nodup_append] at hnodup
  exact hnodup.2.2 _ hmem _ List.mem_cons_self rfl

/-! ### The transaction -/

/-- The note of a charge fits its column when its entries do. -/
theorem varcharFits_note (hc : 0 < cost) (note : Option Str) :
    varcharFits 256 (orNone (fullNote note ((chargedShares pg uid cost now).map showTaken))) =
        true ↔ NoteFits (note.getD []) pg uid cost now := by
  have hparts : (chargedShares pg uid cost now).map showTaken ≠ [] := by
    simpa using chargedShares_ne_nil hc
  have hlen := length_fullNote (note.getD []) hparts
  have hsame : fullNote note ((chargedShares pg uid cost now).map showTaken) =
      fullNote (some (note.getD [])) ((chargedShares pg uid cost now).map showTaken) := rfl
  have hpos := List.length_pos_iff.mpr hparts
  have hsome : orNone (fullNote note ((chargedShares pg uid cost now).map showTaken)) =
      some (fullNote note ((chargedShares pg uid cost now).map showTaken)) := by
    refine if_neg fun hempty => ?_
    rw [hsame, List.isEmpty_iff] at hempty
    rw [hempty, List.length_nil, noteLength] at hlen
    omega
  rw [hsome, varcharFits_some, hsame, hlen, NoteFits]
  exact ⟨fun h _ => h, fun h => h hc⟩

/-- What a charge has done in its session when it commits. -/
structure ChargeSession (pg : Pg) (uid cost now : ℤ) (refId note : Option Str) (t : Sess)
    (row : BalanceTx) : Prop where
  clean : t.Clean
  newTx : t.newTx = [row]
  newLogs : t.newLogs = []
  userId : row.userId = uid
  type : row.type = .consume
  amount : row.amountCents = -cost
  ref : row.refId = refId
  note : row.note = orNone (fullNote note ((chargedShares pg uid cost now).map showTaken))
  subscriptions : t.pg.subscriptions =
    drainTable pg.subscriptions (drain (sources pg uid now) cost)
  users : t.pg.users = pg.users.update uid
    (User.setBalance (· - shortfall (sources pg uid now) cost))
  balanceTx : t.pg.balanceTx = pg.balanceTx

theorem chargeTxn_session (kid : Option ℤ) (refId note : Option Str) (now : ℤ)
    (hu : pg.users.get? uid = some user) (hc : 0 < cost) :
    ∃ t row, ChargeSession pg uid cost now refId note t row ∧
      chargeTxn pg uid kid cost refId note now =
        t.commit.map fun after => (chargedShares pg uid cost now, after) := by
  have hid : user.id = uid := (Table.get?_eq_some.mp hu).2
  subst hid
  have hclean := Sess.clean_start pg user (kid.bind pg.apiKeys.get?)
  have hsome := chargeUser_isSome cost now refId note
    (s := Sess.start pg user (kid.bind pg.apiKeys.get?))
    (by rw [Sess.view_of_clean hclean]; exact Option.isSome_iff_exists.mpr ⟨user, hu⟩)
  obtain ⟨⟨bd, t⟩, hcharge⟩ := Option.isSome_iff_exists.mp hsome
  obtain ⟨rfl, hpg, ht, -, hlogs, after, hrow, -⟩ := chargeUser_eq_some hclean hc hcharge
  refine ⟨t, _, ⟨ht, hrow, hlogs, rfl, rfl, rfl, rfl, rfl, ?_, ?_, ?_⟩, ?_⟩
  · rw [hpg]
    rfl
  · rw [hpg]
    rfl
  · rw [hpg]
    rfl
  · rw [chargeTxn, hu, Option.bind_some, hcharge]
    rfl

/-- **A charge that commits drains as promised.** -/
theorem chargeDrains_of_commit (hu : pg.users.get? uid = some user) (hc : 0 < cost)
    (h : chargeTxn pg uid kid cost refId note now = some (bd, after)) :
    ChargeDrains pg uid cost now bd after := by
  obtain ⟨t, row, hs, heq⟩ := chargeTxn_session kid refId note now hu hc
  rw [heq, Option.map_eq_some_iff] at h
  obtain ⟨after, hcommit, hpair⟩ := h
  obtain ⟨rfl, rfl⟩ := Prod.mk.inj hpair
  obtain ⟨husers, -, hsubs⟩ := Sess.tables_commit hs.clean hcommit
  have htaken : ∀ sub ∈ activeSubscriptions pg uid now,
      sub.source ∈ drain (sources pg uid now) cost →
      subTaken (chargedShares pg uid cost now) sub.id = sub.remainingCents :=
    fun sub _ hmem => subTaken_of_mem hmem
  refine ⟨chargedShares_pos, sum_chargedShares hc, fun sid => ?_, fun sid row hrow h0 => ?_,
    fun sid hpos => ?_, fun first hfirst sub hsub hlt hpos => ?_, fun hwallet sub hsub => ?_,
    fun k => ?_, row, ?_, hs.userId, hs.type, hs.amount⟩
  · rw [hsubs, hs.subscriptions, get?_drainTable, subTaken_charged]
  · rw [subTaken_charged]
    have hle := (sum_drained_sources hrow h0 uid cost now).1
    omega
  · obtain ⟨d, hd, rfl⟩ := mem_drain_of_taken hpos
    have hmem := (drain_keys_sublist _ _).subset (List.mem_map_of_mem hd)
    rw [sources_eq, List.map_map] at hmem
    obtain ⟨sub, hsub, hid⟩ := List.mem_map.mp hmem
    obtain ⟨hrow, hactive⟩ := mem_activeSubscriptions.mp hsub
    exact ⟨sub, hid ▸ hrow, hactive⟩
  · exact htaken first hfirst (source_mem_drain_of_earlier hfirst hsub hlt hpos)
  · rw [walletShare_charged pg uid cost now hc] at hwallet
    refine htaken sub hsub ?_
    rw [drain_eq_self sources_pos hwallet]
    exact List.mem_map_of_mem hsub
  · rw [husers, hs.users, Table.get?_update, walletShare_charged pg uid cost now hc]
    split_ifs
    · rfl
    · simp
  · rw [Sess.balanceTx_commit hs.clean hcommit, hs.balanceTx, hs.newTx]

/-- The transaction of a charge commits when its row fits. -/
theorem chargeTxn_isSome_iff (kid : Option ℤ) (hu : pg.users.get? uid = some user)
    (hc : 0 < cost) :
    (chargeTxn pg uid kid cost refId note now).isSome ↔
      (∀ ref ∈ refId, ref.length ≤ 64) ∧ NoteFits (note.getD []) pg uid cost now := by
  obtain ⟨t, row, hs, heq⟩ := chargeTxn_session kid refId note now hu hc
  have hrefers : t.pg.users.refers (some uid) = true := by
    rw [hs.users, Table.refers_update]
    exact Table.refers_of_get? hu
  have hfits : varcharFits 64 refId = true ↔ ∀ ref ∈ refId, ref.length ≤ 64 := by
    cases refId <;> simp [varcharFits]
  rw [heq, Option.isSome_map, Sess.commit_isSome hs.clean, hs.newTx, hs.newLogs, ← hfits,
    ← varcharFits_note hc]
  simp [BalanceTx.fits, hs.userId, hrefers, hs.ref, hs.note]

end

/-- **A charge commits and drains as promised** exactly when its reference and its note fit their
columns. -/
theorem chargeTxn_drains_iff (pg : Pg) (user : User) (uid : ℤ) (kid : Option ℤ) (cost now : ℤ)
    (refId note : Option Str) (hu : pg.users.get? uid = some user) (hc : 0 < cost) :
    (∃ bd after, chargeTxn pg uid kid cost refId note now = some (bd, after) ∧
      ChargeDrains pg uid cost now bd after) ↔
    (∀ ref ∈ refId, ref.length ≤ 64) ∧ NoteFits (note.getD []) pg uid cost now := by
  rw [← chargeTxn_isSome_iff kid hu hc, Option.isSome_iff_exists]
  constructor
  · intro ⟨bd, after, h, _⟩
    exact ⟨_, h⟩
  · intro ⟨⟨bd, after⟩, h⟩
    exact ⟨bd, after, h, chargeDrains_of_commit hu hc h⟩

/-- User 1 without a wallet, and with subscriptions of one cent each. -/
def manySubsPg (n : ℕ) : Pg :=
  { oneSubPg 0 0 with
    subscriptions :=
      { rows := (List.range n).map fun i : ℕ =>
          ⟨i, 1, 1, 0, 0, 100000000, str "active", 1, false, none, none, none⟩
        nodup := by
          rw [List.map_map]
          exact List.nodup_range.map fun i j h => by simpa using h } }

/-- A charge of a cent to each of 27 subscriptions fails, since its note is too long. -/
theorem chargeTxn_many_subscriptions :
    chargeTxn (manySubsPg 27) 1 none 27 none none 0 = none ∧
      ¬ NoteFits [] (manySubsPg 27) 1 27 0 := by
  decide +kernel

/-- A charge of 60 cents, of which the subscription has 50. -/
theorem chargeTxn_drains_two :
    ∃ bd after, chargeTxn (oneSubPg 100 50) 1 none 60 none (some (str "m")) 0 = some (bd, after) ∧
      ChargeDrains (oneSubPg 100 50) 1 60 0 bd after :=
  (chargeTxn_drains_iff (oneSubPg 100 50) (userOne 100) 1 none 60 0 none (some (str "m")) rfl
    (by decide)).mpr ⟨by simp, by decide⟩

end Llmxy
