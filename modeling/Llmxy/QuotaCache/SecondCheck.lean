import Llmxy.QuotaCache.Spent

/-!
# The second check of a call

A call that misses loads what it reads and checks again.  The second check misses as
well when the call could not load it, as another hydration holds the lock or the wallet
is overdrawn, or when somebody has dropped or overdrawn a counter in the meantime.
Where nothing of that happens it does not miss, in any interleaving
(`soundReadable_check`).

## Main definitions

* `World.Readable` — a check does not take the counter for a miss.
* `CallKey`, `Undropped` — the counters of a call, and a step that drops none of them.
* `FundsReadable`, `CallReadable` — a check finds them all.
* `Loads` — what a call finds when it loads them.
* `soundReadable_check` — a check that finds them all.
-/

namespace Llmxy

/-- A check takes an absent counter for a miss, and a negative one of funds. -/
def CounterKey.Plausible : CounterKey → ℤ → Prop
  | .kused _ _, _ => True
  | .wallet _, v => 0 ≤ v
  | .subq _, v => 0 ≤ v

/-- The counter is cached, and a check does not take it for a miss. -/
def World.Readable (w : World) (k : CounterKey) : Prop :=
  ∃ v, w.redis.counter.get w.now k = some v ∧ k.Plausible v

/-- The subscription is one of the user. -/
def OwnSub (uid : ℤ) (pg : Pg) (sid : ℤ) : Prop :=
  ∃ sub, pg.subscriptions.get? sid = some sub ∧ sub.userId = uid

/-- The counters that a call may read: the wallet of its user, the quotas of the user's
subscriptions, and the used counter of its key, if that has a quota. -/
def CallKey (uid kid quota ws : ℤ) (pg : Pg) : CounterKey → Prop
  | .wallet u => u = uid
  | .subq sid => OwnSub uid pg sid
  | .kused k s => 0 < quota ∧ k = kid ∧ s = ws

/-- No counter of the call is deleted, expires or is overdrawn, and no subscription is listed
without its counter. -/
structure Undropped (uid kid quota ws : ℤ) (w w' : World) : Prop where
  counter : ∀ k, CallKey uid kid quota ws w.pg k → w.Readable k → w'.Readable k
  listed : ∀ sid ∈ w'.members uid,
    sid ∈ w.members uid ∨ OwnSub uid w'.pg sid ∧ w'.Readable (.subq sid)

/-- A check of the user's funds finds every counter. -/
structure FundsReadable (uid : ℤ) (w : World) : Prop where
  wallet : w.Readable (.wallet uid)
  listed : ∀ sid ∈ w.members uid, OwnSub uid w.pg sid ∧ w.Readable (.subq sid)

/-- And so does one of the key, if it has a quota. -/
structure CallReadable (uid kid quota ws : ℤ) (w : World) : Prop extends FundsReadable uid w where
  key : 0 < quota → w.Readable (.kused kid ws)

/-- What a call finds when it loads its counters: the lock is free, unless the funds are cached
already; the wallet and the quotas are not negative; and its key, if it has a quota, exists. -/
def Loads (uid quota : ℤ) (w : World) : Cmd → Prop
  | .setNX l _ => w.redis.lock.get w.now l = none ∨ FundsReadable uid w
  | .getUser uid => ∃ user, w.pg.users.get? uid = some user ∧ 0 ≤ user.balanceCents
  | .selectSubs uid now => ∀ sub ∈ openSubscriptions w.pg uid now, 0 ≤ sub.remainingCents
  | .getKey kid => 0 < quota → (w.pg.apiKeys.get? kid).isSome
  | _ => True

instance : (k : CounterKey) → (v : ℤ) → Decidable (k.Plausible v)
  | .kused _ _, _ => isTrue trivial
  | .wallet _, v => inferInstanceAs (Decidable (0 ≤ v))
  | .subq _, v => inferInstanceAs (Decidable (0 ≤ v))

instance (w : World) (k : CounterKey) : Decidable (w.Readable k) :=
  inferInstanceAs (Decidable (∃ v ∈ w.redis.counter.get w.now k, k.Plausible v))

instance (uid : ℤ) (pg : Pg) (sid : ℤ) : Decidable (OwnSub uid pg sid) :=
  inferInstanceAs (Decidable (∃ sub ∈ pg.subscriptions.get? sid, sub.userId = uid))

instance (uid : ℤ) (w : World) : Decidable (FundsReadable uid w) :=
  decidable_of_iff (w.Readable (.wallet uid) ∧
    ∀ sid ∈ w.members uid, OwnSub uid w.pg sid ∧ w.Readable (.subq sid))
    ⟨fun h => ⟨h.1, h.2⟩, fun h => ⟨h.wallet, h.listed⟩⟩

instance (uid quota : ℤ) (w : World) : (c : Cmd) → Decidable (Loads uid quota w c)
  | .setNX l _ =>
      inferInstanceAs (Decidable (w.redis.lock.get w.now l = none ∨ FundsReadable uid w))
  | .getUser u => inferInstanceAs (Decidable (∃ user ∈ w.pg.users.get? u, 0 ≤ user.balanceCents))
  | .selectSubs u now =>
      inferInstanceAs (Decidable (∀ sub ∈ openSubscriptions w.pg u now, 0 ≤ sub.remainingCents))
  | .getKey kid => inferInstanceAs (Decidable (0 < quota → (w.pg.apiKeys.get? kid).isSome))
  | .get _ | .zrange _ | .pipe _ | .scanDel | .now | .charge _ _ _ _ _ | .warnPersistentMiss =>
      isTrue trivial

/-- What a step leaves to a call: its counters, and the user's subscriptions. -/
structure KeepsReadable (uid kid quota ws : ℤ) (w w' : World) : Prop
    extends Undropped uid kid quota ws w w' where
  subs : ∀ sid, OwnSub uid w.pg sid → OwnSub uid w'.pg sid

variable {uid kid quota ws : ℤ} {w w' w'' : World}

/-! ### Steps -/

theorem KeepsReadable.refl (w : World) : KeepsReadable uid kid quota ws w w :=
  ⟨⟨fun _ _ h => h, fun _ h => .inl h⟩, fun _ h => h⟩

theorem KeepsReadable.key (h : KeepsReadable uid kid quota ws w w') {k : CounterKey}
    (hk : CallKey uid kid quota ws w.pg k) : CallKey uid kid quota ws w'.pg k := by
  cases k with
  | wallet u => exact hk
  | subq sid => exact h.subs sid hk
  | kused k s => exact hk

theorem KeepsReadable.trans (w w' w'' : World) (h : KeepsReadable uid kid quota ws w w')
    (h' : KeepsReadable uid kid quota ws w' w'') : KeepsReadable uid kid quota ws w w'' := by
  refine ⟨⟨fun k hk hr => h'.counter k (h.key hk) (h.counter k hk hr), fun sid hsid => ?_⟩,
    fun sid hsid => h'.subs sid (h.subs sid hsid)⟩
  obtain hsid | hsid := h'.listed sid hsid
  · obtain hsid | ⟨hown, hr⟩ := h.listed sid hsid
    · exact .inl hsid
    · exact .inr ⟨h'.subs sid hown, h'.counter (.subq sid) hown hr⟩
  · exact .inr hsid

theorem FundsReadable.mono (hf : FundsReadable uid w) (h : KeepsReadable uid kid quota ws w w') :
    FundsReadable uid w' := by
  refine ⟨h.counter (.wallet uid) rfl hf.wallet, fun sid hsid => ?_⟩
  obtain hsid | hsid := h.listed sid hsid
  · obtain ⟨hown, hr⟩ := hf.listed sid hsid
    exact ⟨h.subs sid hown, h.counter (.subq sid) hown hr⟩
  · exact hsid

theorem CallReadable.mono (hf : CallReadable uid kid quota ws w)
    (h : KeepsReadable uid kid quota ws w w') : CallReadable uid kid quota ws w' :=
  ⟨hf.toFundsReadable.mono h, fun hq => h.counter (.kused kid ws) ⟨hq, rfl, rfl⟩ (hf.key hq)⟩

/-- A charge keeps the rows of the subscriptions. -/
theorem ownSub_exec (c : Cmd) {sid : ℤ} (h : OwnSub uid w.pg sid) :
    OwnSub uid (exec c w).2.pg sid := by
  cases c with
  | charge payer key cost refId note =>
      cases htxn : chargeTxn w.pg payer key cost refId note w.now with
      | none => simpa only [exec, htxn] using h
      | some r =>
          simp only [exec, htxn]
          obtain ⟨user, -, -, -, hsubs⟩ := chargeTxn_eq_some htxn
          obtain ⟨sub, hget, huser⟩ := h
          by_cases hc : 0 < cost
          · rw [pgAfter, if_pos hc] at hsubs
            simp only [OwnSub, hsubs, chargedPg, get?_drainTable]
            exact ⟨_, congrArg (Option.map _) hget, huser⟩
          · rw [pgAfter, if_neg hc] at hsubs
            exact ⟨sub, by rw [hsubs]; exact hget, huser⟩
  | _ => exact h

/-- A command that writes no key drops none. -/
theorem keepsReadable_exec {c : Cmd} (hpipe : ∀ xs, c ≠ .pipe xs) (hscan : c ≠ .scanDel) :
    KeepsReadable uid kid quota ws w (exec c w).2 := by
  suffices hsame : (exec c w).2.redis.counter = w.redis.counter ∧
      (exec c w).2.redis.usubs = w.redis.usubs ∧ (exec c w).2.now = w.now by
    obtain ⟨hcounter, husubs, hnow⟩ := hsame
    refine ⟨⟨fun k _ hr => ?_, fun sid hsid => .inl ?_⟩, fun sid => ownSub_exec c⟩
    · rwa [World.Readable, hcounter, hnow]
    · rwa [World.members, husubs, hnow] at hsid
  cases c with
  | pipe xs => exact absurd rfl (hpipe xs)
  | scanDel => exact absurd rfl hscan
  | charge payer key cost refId note =>
      simp only [exec]
      cases chargeTxn w.pg payer key cost refId note w.now <;> exact ⟨rfl, rfl, rfl⟩
  | _ => exact ⟨rfl, rfl, rfl⟩

/-! ### Pipelines -/

/-- A pipeline that touches the counter only to set it to something plausible leaves it
readable, or makes it so. -/
theorem readable_writes {k : CounterKey} {xs : List Write}
    (hxs : ∀ x ∈ xs, x.Touches k → ∃ v ttl, x = .set k v ttl ∧ k.Plausible v ∧ 0 < ttl)
    (h : w.Readable k ∨ ∃ x ∈ xs, x.Touches k) : (w.writes xs).Readable k := by
  induction xs generalizing w with
  | nil =>
      obtain h | ⟨x, hx, -⟩ := h
      · exact h
      · cases hx
  | cons x xs ih =>
      rw [World.writes_cons]
      refine ih (fun y hy => hxs y (List.mem_cons_of_mem _ hy)) ?_
      by_cases hx : x.Touches k
      · obtain ⟨v, ttl, rfl, hv, httl⟩ := hxs x List.mem_cons_self hx
        exact .inl ⟨v, counter_set httl, hv⟩
      · obtain ⟨v, hget, hv⟩ | ⟨y, hy, htouches⟩ := h
        · exact .inl ⟨v, (counter_write_other hx).trans hget, hv⟩
        · obtain rfl | hy := List.mem_cons.mp hy
          · exact absurd htouches hx
          · exact .inr ⟨y, hy, htouches⟩

/-- Which counters a hydration sets. -/
theorem touches_hydrateWrites {user : User} {subs : List Subscription} {now : ℤ}
    (hbalance : 0 ≤ user.balanceCents) (hsubs : ∀ sub ∈ subs, 0 ≤ sub.remainingCents)
    {k : CounterKey} {x : Write} (hx : x ∈ hydrateWrites user subs now) (hk : x.Touches k) :
    ∃ v ttl, x = .set k v ttl ∧ k.Plausible v ∧ 0 < ttl := by
  obtain rfl | rfl | ⟨-, rfl | rfl⟩ | ⟨sub, hsub, rfl⟩ := mem_hydrateWrites.mp hx
  · obtain rfl : CounterKey.wallet user.id = k := hk
    exact ⟨_, _, rfl, hbalance, by decide⟩
  · cases hk
  · cases hk
  · cases hk
  · obtain rfl : CounterKey.subq sub.id = k := hk
    exact ⟨_, _, rfl, hsubs sub hsub, subqTtl_pos _ _⟩

/-- **A hydration makes the funds readable.** -/
theorem fundsReadable_hydrateWrites {user : User} {subs : List Subscription} {now : ℤ}
    (hbalance : 0 ≤ user.balanceCents)
    (hsubs : ∀ sub ∈ subs, OwnSub user.id w.pg sub.id ∧ 0 ≤ sub.remainingCents) :
    FundsReadable user.id (w.writes (hydrateWrites user subs now)) ∧
      KeepsReadable user.id kid quota ws w (w.writes (hydrateWrites user subs now)) := by
  have hset : ∀ k, w.Readable k ∨ (∃ x ∈ hydrateWrites user subs now, x.Touches k) →
      (w.writes (hydrateWrites user subs now)).Readable k := fun k =>
    readable_writes fun x hx =>
      touches_hydrateWrites hbalance (fun sub hsub => (hsubs sub hsub).2) hx
  -- the set is dropped, and lists what is set after that
  have hlisted : ∀ sid ∈ (w.writes (hydrateWrites user subs now)).members user.id,
      ∃ sub ∈ subs, sub.id = sid := by
    intro sid hsid
    rw [hydrateWrites, World.writes_append] at hsid
    obtain hsid | ⟨m, hm, hsid⟩ := mem_members_writes hsid
    · have hnil : (w.writes [.set (.wallet user.id) user.balanceCents walletTtl,
          .delUsubs user.id]).members user.id = [] :=
        members_delUsubs (w := w.write (.set (.wallet user.id) user.balanceCents walletTtl))
      rw [hnil] at hsid
      cases hsid
    · split_ifs at hm
      · cases hm
      · simp only [List.mem_append, List.mem_cons, List.mem_map, Write.zadd.injEq, true_and,
          reduceCtorEq, List.not_mem_nil, or_false, and_false, exists_false] at hm
        subst hm
        simpa using hsid
  have hreadable : ∀ sid ∈ (w.writes (hydrateWrites user subs now)).members user.id,
      OwnSub user.id w.pg sid ∧ (w.writes (hydrateWrites user subs now)).Readable (.subq sid) := by
    intro sid hsid
    obtain ⟨sub, hsub, rfl⟩ := hlisted sid hsid
    exact ⟨(hsubs sub hsub).1, hset _ (.inr ⟨_, mem_hydrateWrites.mpr
      (.inr (.inr (.inr ⟨sub, hsub, rfl⟩))), rfl⟩)⟩
  refine ⟨⟨hset _ (.inr ⟨_, mem_hydrateWrites.mpr (.inl rfl), rfl⟩), hreadable⟩,
    ⟨⟨fun k _ hr => hset k (.inl hr), fun sid hsid => .inr (hreadable sid hsid)⟩,
      fun _ h => h⟩⟩

/-- Setting the used counter of the key makes it readable. -/
theorem keepsReadable_setKused {v : ℤ} :
    (w.writes [.set (.kused kid ws) v subqTtlFallback]).Readable (.kused kid ws) ∧
      KeepsReadable uid kid quota ws w (w.writes [.set (.kused kid ws) v subqTtlFallback]) := by
  have hset : ∀ k, w.Readable k ∨
      (∃ x ∈ [Write.set (.kused kid ws) v subqTtlFallback], x.Touches k) →
      (w.writes [.set (.kused kid ws) v subqTtlFallback]).Readable k := by
    refine fun k => readable_writes fun x hx hk => ?_
    obtain rfl := List.mem_singleton.mp hx
    obtain rfl : CounterKey.kused kid ws = k := hk
    exact ⟨v, subqTtlFallback, rfl, trivial, by decide⟩
  exact ⟨hset _ (.inr ⟨_, List.mem_singleton_self _, rfl⟩),
    ⟨⟨fun k _ hr => hset k (.inl hr), fun sid hsid => .inl hsid⟩, fun _ h => h⟩⟩

/-! ### A check -/

/-- The program stays within `KeepsReadable`, whatever the others do within it, and ends with a
result in `Q` if it loads what it reads. -/
abbrev SoundReadable (uid kid quota ws : ℤ) {α : Type} (Q : α → Prop) (p : QProc α)
    (w : World) : Prop :=
  p.Sound exec (KeepsReadable uid kid quota ws) (Loads uid quota) Q w

/-- A read of the cache, and what follows it. -/
theorem soundReadable_read {α : Type} {Q : α → Prop} {c : Cmd} {f : c.Reply → QProc α}
    (hread : ∀ w, (exec c w).2 = w)
    (hf : ∀ w', KeepsReadable uid kid quota ws w w' →
      SoundReadable uid kid quota ws Q (f (exec c w').1) w') :
    SoundReadable uid kid quota ws Q (ask c >>= f) w := by
  intro w' hw' _
  rw [hread w']
  exact ⟨.refl w', hf w' hw'⟩

/-- The loop over readable counters does not miss. -/
theorem soundReadable_checkSubs {sids : List ℤ}
    (h : ∀ sid ∈ sids, OwnSub uid w.pg sid ∧ w.Readable (.subq sid)) :
    SoundReadable uid kid quota ws (fun r => ∀ x, r = some x → x.2 ≠ miss.2) (checkSubs sids)
      w := by
  induction sids generalizing w with
  | nil =>
      intro x hx
      cases hx
  | cons sid sids ih =>
      rw [checkSubs]
      refine soundReadable_read (fun _ => rfl) fun w' hw' => ?_
      obtain ⟨hown, hr⟩ := h sid List.mem_cons_self
      obtain ⟨v, hget, hv⟩ := hw'.counter (.subq sid) hown hr
      have hrest : ∀ s ∈ sids, OwnSub uid w'.pg s ∧ w'.Readable (.subq s) := by
        intro s hs
        obtain ⟨hown, hr⟩ := h s (List.mem_cons_of_mem _ hs)
        exact ⟨hw'.subs s hown, hw'.counter (.subq s) hown hr⟩
      have hnonneg : ¬ v < 0 := not_lt.mpr hv
      simp only [exec, hget, if_neg hnonneg]
      by_cases hpos : 0 < v
      · rw [if_pos hpos]
        intro x hx
        cases hx
        decide
      · rw [if_neg hpos]
        exact ih hrest

/-- **A check that finds every counter does not miss.** -/
theorem soundReadable_check (h : CallReadable uid kid quota ws w) :
    SoundReadable uid kid quota ws (fun r => r.2 ≠ miss.2) (check uid kid quota ws) w := by
  rw [check]
  refine soundReadable_read (fun _ => rfl) fun w₁ h₁ => ?_
  have hcall₁ := h.mono h₁
  simp only [exec]
  cases hkey : checkKey quota (w₁.redis.counter.get w₁.now (.kused kid ws)) with
  | some r =>
      -- the used counter is there if it counts
      show r.2 ≠ miss.2
      by_cases hq : 0 < quota
      · obtain ⟨v, hget, -⟩ := hcall₁.key hq
        simp only [hget, checkKey, if_pos hq, Option.ite_none_right_eq_some,
          Option.some.injEq] at hkey
        rw [← hkey.2]
        decide
      · simp [checkKey, hq] at hkey
  | none =>
      refine soundReadable_read (fun _ => rfl) fun w₂ h₂ => ?_
      have hcall₂ := hcall₁.mono h₂
      refine Proc.sound_bind KeepsReadable.refl KeepsReadable.trans
        (soundReadable_checkSubs hcall₂.listed) fun r w₃ h₃ hr => ?_
      have hcall₃ := hcall₂.mono h₃
      cases r with
      | some r => exact hr r rfl
      | none =>
          refine soundReadable_read (fun _ => rfl) fun w₄ h₄ => ?_
          obtain ⟨v, hget, hv⟩ := (hcall₃.mono h₄).wallet
          show (checkWallet (w₄.redis.counter.get w₄.now (.wallet uid))).2 ≠ miss.2
          have hnonneg : ¬ v < 0 := not_lt.mpr hv
          rw [hget]
          simp only [checkWallet, if_neg hnonneg]
          split_ifs <;> decide

end Llmxy
