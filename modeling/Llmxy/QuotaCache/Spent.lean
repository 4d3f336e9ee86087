import Llmxy.QuotaCache.Writes
import Mathlib.Algebra.Order.BigOperators.Group.List

/-!
# Exhausted funds, in the tables and in the cache

A counter is spent when it reads as nothing above zero.  A pipeline is fundless when
each of its writes keeps the user's counters spent.

`BooksDry` says that a user has no funds in the tables, `Dry` that the cache shows
none either.  The quota code has no command that brings funds into the tables, and
only one kind of pipeline that brings them into the cache: that of a hydration.

## Main definitions

* `World.Spent`, `Fundless` — no funds in a counter, and none in a pipeline.
* `BooksDry`, `Dry` — the user has no funds.
* `exec_booksDry`, `exec_dry` — what one command preserves.
* `dry_invalidate` — an invalidation leaves no funds in the cache.
* `fundless_hydrateWrites_iff` — when a hydration brings no funds.
-/

namespace Llmxy

/-- The counter reads as nothing above zero. -/
abbrev World.Spent (w : World) (k : CounterKey) : Prop := w.Reads k (· ≤ 0)

/-- A pipeline that brings the user no funds: it stores nothing above zero in a
counter of funds, and whatever it lists it also sets. -/
structure Fundless (uid : ℤ) (ws : List Write) : Prop where
  wallet : ∀ x ∈ ws, x.Keeps (.wallet uid) (· ≤ 0)
  subq : ∀ x ∈ ws, ∀ sid, x.Keeps (.subq sid) (· ≤ 0)
  listed : ∀ m, .zadd uid m ∈ ws → ∀ sid ∈ m.map Prod.snd, ∃ v ttl, .set (.subq sid) v ttl ∈ ws

variable {w : World} {uid T : ℤ}

/-! ### Pipelines -/

/-- **A hydration brings no funds** exactly when it has read none. -/
theorem fundless_hydrateWrites_iff {user : User} {subs : List Subscription} {now : ℤ} :
    Fundless user.id (hydrateWrites user subs now) ↔
      user.balanceCents ≤ 0 ∧ ∀ s ∈ subs, s.remainingCents ≤ 0 := by
  constructor
  · intro h
    constructor
    · apply h.wallet (.set (.wallet user.id) user.balanceCents walletTtl)
      · exact mem_hydrateWrites.mpr (Or.inl rfl)
      · rfl
    · intro s hs
      apply h.subq (.set (.subq s.id) s.remainingCents (subqTtl now s.currentPeriodEnd)) _ s.id rfl
      exact mem_hydrateWrites.mpr (Or.inr (Or.inr (Or.inr ⟨s, hs, rfl⟩)))
  · rintro ⟨hwallet, hsubs⟩
    refine ⟨?_, ?_, ?_⟩
    · intro x hx
      rcases mem_hydrateWrites.mp hx with rfl | rfl | ⟨-, rfl | rfl⟩ | ⟨s, -, rfl⟩
      · exact fun _ => hwallet
      · trivial
      · trivial
      · trivial
      · exact fun h => absurd h (by simp)
    · intro x hx sid
      rcases mem_hydrateWrites.mp hx with rfl | rfl | ⟨-, rfl | rfl⟩ | ⟨s, hs, rfl⟩
      · exact fun h => absurd h (by simp)
      · trivial
      · trivial
      · trivial
      · exact fun _ => hsubs s hs
    · intro m hm sid hsid
      rcases mem_hydrateWrites.mp hm with h | h | ⟨-, h | h⟩ | ⟨s, -, h⟩
      · cases h
      · cases h
      · cases h
        rw [List.map_map, List.mem_map] at hsid
        obtain ⟨s, hs, rfl⟩ := hsid
        refine ⟨s.remainingCents, subqTtl now s.currentPeriodEnd, ?_⟩
        exact mem_hydrateWrites.mpr (Or.inr (Or.inr (Or.inr ⟨s, hs, rfl⟩)))
      · cases h
      · cases h

theorem fundless_setKused (kid ws v ttl : ℤ) : Fundless uid [.set (.kused kid ws) v ttl] := by
  refine ⟨?_, ?_, ?_⟩
  · intro x hx
    rw [List.mem_singleton.mp hx]
    exact fun h => absurd h (by simp)
  · intro x hx sid
    rw [List.mem_singleton.mp hx]
    exact fun h => absurd h (by simp)
  · intro m hm
    cases List.mem_singleton.mp hm

theorem fundless_invalidateWrites (sids : List ℤ) : Fundless uid (invalidateWrites uid sids) := by
  refine ⟨?_, ?_, ?_⟩
  · intro x hx
    rcases mem_invalidateWrites.mp hx with rfl | rfl | ⟨sid, -, rfl⟩
    · trivial
    · trivial
    · trivial
  · intro x hx sid
    rcases mem_invalidateWrites.mp hx with rfl | rfl | ⟨sid, -, rfl⟩
    · trivial
    · trivial
    · trivial
  · intro m hm
    rcases mem_invalidateWrites.mp hm with h | h | ⟨sid, -, h⟩
    · cases h
    · cases h
    · cases h

/-- The mirror of a charge only takes from the counters of funds. -/
theorem fundless_chargeWrites (kid : Option ℤ) (cost ws : ℤ) (breakdown : List Share) :
    Fundless uid (chargeWrites uid kid cost ws breakdown) := by
  refine ⟨?_, ?_, ?_⟩
  · intro x hx
    rcases mem_chargeWrites hx with ⟨k, n, hn, -, rfl⟩ | ⟨kid, rfl⟩
    · intro _ v hv
      omega
    · exact fun h => absurd h (by simp)
  · intro x hx sid
    rcases mem_chargeWrites hx with ⟨k, n, hn, -, rfl⟩ | ⟨kid, rfl⟩
    · intro _ v hv
      omega
    · exact fun h => absurd h (by simp)
  · intro m hm
    rcases mem_chargeWrites hm with ⟨k, n, -, -, h⟩ | ⟨kid, h⟩
    · cases h
    · cases h

/-! ### The tables -/

/-- The user has no funds in the tables, and the clock is past `T`: the wallet is not
positive and the subscriptions that are open at `T` have nothing left. -/
structure BooksDry (uid T : ℤ) (w : World) : Prop where
  past : T ≤ w.now
  wallet : ∀ u, w.pg.users.get? uid = some u → u.balanceCents ≤ 0
  quota : ∀ s ∈ openSubscriptions w.pg uid T, s.remainingCents ≤ 0

/-- The user has no funds, neither in the tables nor in the cache. -/
structure Dry (uid T : ℤ) (w : World) : Prop extends BooksDry uid T w where
  cachedWallet : w.Spent (.wallet uid)
  cachedQuota : ∀ sid ∈ w.members uid, w.Spent (.subq sid)

theorem mem_openSubscriptions {pg : Pg} {x : Subscription} :
    x ∈ openSubscriptions pg uid T ↔
      pg.subscriptions.get? x.id = some x ∧ x.userId = uid ∧ x.status = str "active" ∧
        T < x.currentPeriodEnd := by
  rw [openSubscriptions, Table.mem_select, Table.get?_eq_some]
  simp [Subscription.isOpen, and_assoc]

/-- What is open later was open before. -/
theorem openSubscriptions_anti {pg : Pg} {T' : ℤ} {x : Subscription} (hT : T ≤ T')
    (h : x ∈ openSubscriptions pg uid T') : x ∈ openSubscriptions pg uid T := by
  rw [mem_openSubscriptions] at h ⊢
  obtain ⟨hrow, huser, hstatus, hend⟩ := h
  exact ⟨hrow, huser, hstatus, by omega⟩

/-- **A charge brings nobody funds.** -/
theorem booksDry_chargeTxn {payer cost : ℤ} {kid : Option ℤ} {refId note : Option Str}
    {bd : List Share} {after : Pg}
    (h : chargeTxn w.pg payer kid cost refId note w.now = some (bd, after))
    (hdry : BooksDry uid T w) : BooksDry uid T { w with pg := after } := by
  obtain ⟨user, -, husers, -, hsubs⟩ := chargeTxn_eq_some h
  by_cases hc : 0 < cost
  · rw [pgAfter, if_pos hc] at husers hsubs
    refine ⟨hdry.past, ?_, ?_⟩
    · intro u hu
      have hget : after.users.get? uid = some u := hu
      rw [husers, chargedPg, Table.get?_update] at hget
      by_cases hid : uid = (Sess.start w.pg user (kid.bind w.pg.apiKeys.get?)).user.id
      · rw [if_pos hid] at hget
        obtain ⟨u', hu', rfl⟩ := Option.map_eq_some_iff.mp hget
        have hle := hdry.wallet u' hu'
        have hshort := shortfall_nonneg
          (sources w.pg (Sess.start w.pg user (kid.bind w.pg.apiKeys.get?)).user.id w.now) hc.le
        simp only [User.setBalance_val, Sess.start] at hshort ⊢
        omega
      · rw [if_neg hid] at hget
        exact hdry.wallet u hget
    · intro x hx
      obtain ⟨hrow, huser, hstatus, hend⟩ := mem_openSubscriptions.mp hx
      rw [hsubs, chargedPg, get?_drainTable] at hrow
      obtain ⟨r, hr, hrx⟩ := Option.map_eq_some_iff.mp hrow
      -- the row it was before the drain is open too, and the drain only takes
      rw [← hrx] at huser hstatus hend ⊢
      have hid : r.id = x.id := (Table.get?_eq_some.mp hr).2
      have hopen : r ∈ openSubscriptions w.pg uid T :=
        mem_openSubscriptions.mpr ⟨by rw [hid]; exact hr, huser, hstatus, hend⟩
      have hle := hdry.quota r hopen
      refine le_trans (sub_le_self _ (sum_map_nonneg ?_)) hle
      intro d hd
      exact (drain_pos _ _ d (List.mem_of_mem_filter hd)).le
  · rw [pgAfter, if_neg hc] at husers hsubs
    refine ⟨hdry.past, ?_, ?_⟩
    · intro u hu
      exact hdry.wallet u (by rw [← hu]; exact congrArg (Table.get? · uid) husers.symm)
    · intro x hx
      apply hdry.quota x
      rw [openSubscriptions] at hx ⊢
      exact hsubs ▸ hx

/-- **No command brings funds into the tables.** -/
theorem exec_booksDry (c : Cmd) (h : BooksDry uid T w) : BooksDry uid T (exec c w).2 := by
  have hsame : ∀ r : Redis, BooksDry uid T { w with redis := r } :=
    fun r => ⟨h.past, h.wallet, h.quota⟩
  cases c with
  | get k => exact h
  | zrange u => exact h
  | setNX l ttl => exact hsame _
  | pipe ws => exact hsame _
  | scanDel => exact hsame _
  | now => exact h
  | getUser u => exact h
  | getKey kid => exact h
  | selectSubs u t => exact h
  | warnPersistentMiss => exact h
  | charge payer kid cost refId note =>
      cases htxn : chargeTxn w.pg payer kid cost refId note w.now with
      | none => simpa only [exec, htxn] using h
      | some r =>
          simp only [exec, htxn]
          exact booksDry_chargeTxn htxn h

/-! ### The cache -/

/-- A command that brings the user no funds. -/
def dryCommand (uid : ℤ) : Cmd → Prop
  | .pipe ws => Fundless uid ws
  | _ => True

/-- What a reply says while the user has no funds. -/
def dryReply (uid T : ℤ) : (c : Cmd) → c.Reply → Prop
  | .getUser u, r => u = uid → ∀ x, r = some x → x.id = uid ∧ x.balanceCents ≤ 0
  | .selectSubs u t, r => u = uid → T ≤ t → ∀ s ∈ r, s.remainingCents ≤ 0
  | .now, r => T ≤ r
  | _, _ => True

theorem reply_dry (c : Cmd) (h : BooksDry uid T w) : dryReply uid T c (exec c w).1 := by
  cases c with
  | getUser u =>
      rintro rfl x hx
      exact ⟨(Table.get?_eq_some.mp hx).2, h.wallet x hx⟩
  | selectSubs u t =>
      rintro rfl ht s hs
      exact h.quota s (openSubscriptions_anti ht hs)
  | now => exact h.past
  | _ => trivial

/-- A dry pipeline keeps the user's cache dry. -/
theorem dry_writes {ws : List Write} (hws : Fundless uid ws) (h : Dry uid T w) :
    Dry uid T (w.writes ws) := by
  refine ⟨⟨h.past, h.wallet, h.quota⟩, reads_writes hws.wallet h.cachedWallet, ?_⟩
  intro sid hsid
  have hkeeps : ∀ x ∈ ws, x.Keeps (.subq sid) (· ≤ 0) := fun x hx => hws.subq x hx sid
  rcases mem_members_writes hsid with hold | ⟨m, hm, hnew⟩
  · exact reads_writes hkeeps (h.cachedQuota sid hold)
  · obtain ⟨v, ttl, hset⟩ := hws.listed m hm sid hnew
    exact reads_of_set hkeeps hset

/-- What a guarded step may do: the user stays dry, and a spent subscription stays
spent. -/
def KeepsDry (uid T : ℤ) (w w' : World) : Prop :=
  Dry uid T w → Dry uid T w' ∧ ∀ sid, w.Spent (.subq sid) → w'.Spent (.subq sid)

theorem KeepsDry.refl (w : World) : KeepsDry uid T w w := fun h => ⟨h, fun _ hs => hs⟩

theorem KeepsDry.trans (w w' w'' : World) (h : KeepsDry uid T w w') (h' : KeepsDry uid T w' w'') :
    KeepsDry uid T w w'' := by
  intro hw
  obtain ⟨hw', hs⟩ := h hw
  obtain ⟨hw'', hs'⟩ := h' hw'
  exact ⟨hw'', fun sid hsid => hs' sid (hs sid hsid)⟩

/-- **A dry command** keeps the user dry. -/
theorem exec_dry (c : Cmd) (hc : dryCommand uid c) : KeepsDry uid T w (exec c w).2 := by
  intro h
  have hbooks := exec_booksDry c h.toBooksDry
  cases c with
  | get k => exact ⟨h, fun _ hs => hs⟩
  | zrange u => exact ⟨h, fun _ hs => hs⟩
  | setNX l ttl => exact ⟨⟨hbooks, h.cachedWallet, h.cachedQuota⟩, fun _ hs => hs⟩
  | pipe ws =>
      constructor
      · exact dry_writes hc h
      · intro sid hs
        exact reads_writes (fun x hx => hc.subq x hx sid) hs
  | scanDel =>
      refine ⟨⟨hbooks, ?_, ?_⟩, ?_⟩
      · intro v hv
        cases hv
      · intro sid hsid
        cases hsid
      · intro sid _ v hv
        cases hv
  | now => exact ⟨h, fun _ hs => hs⟩
  | getUser u => exact ⟨h, fun _ hs => hs⟩
  | getKey kid => exact ⟨h, fun _ hs => hs⟩
  | selectSubs u t => exact ⟨h, fun _ hs => hs⟩
  | warnPersistentMiss => exact ⟨h, fun _ hs => hs⟩
  | charge payer kid cost refId note =>
      cases htxn : chargeTxn w.pg payer kid cost refId note w.now with
      | none =>
          simp only [exec, htxn]
          exact ⟨h, fun _ hs => hs⟩
      | some r =>
          simp only [exec, htxn] at hbooks ⊢
          exact ⟨⟨hbooks, h.cachedWallet, h.cachedQuota⟩, fun _ hs => hs⟩

theorem wait_dry (d : ℕ) : KeepsDry uid T w (w.wait d) := by
  intro h
  refine ⟨⟨⟨?_, h.wallet, h.quota⟩, reads_wait d h.cachedWallet, ?_⟩, fun sid => reads_wait d⟩
  · exact le_trans h.past (by simp [World.wait])
  · intro sid hsid
    exact reads_wait d (h.cachedQuota sid (mem_members_wait hsid))

/-- A user without funds in the tables and with cold funds is dry. -/
theorem dry_of_cold (h : BooksDry uid T w) (hcold : FundsCold uid w) : Dry uid T w := by
  refine ⟨h, ?_, ?_⟩
  · intro v hv
    rw [show w.redis.counter.get w.now (.wallet uid) = none from hcold.wallet] at hv
    cases hv
  · intro sid hsid
    rw [hcold.members] at hsid
    cases hsid

/-- **An invalidation** makes the cache of a user without funds dry. -/
theorem dry_invalidate (sids : List ℤ) (h : BooksDry uid T w) :
    Dry uid T (w.writes (invalidateWrites uid sids)) :=
  dry_of_cold ⟨h.past, h.wallet, h.quota⟩ (fundsCold_invalidate sids)

end Llmxy
