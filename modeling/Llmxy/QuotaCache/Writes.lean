import Llmxy.QuotaCache.Commands
import Llmxy.QuotaCache.Run

/-!
# What a pipeline does to one key

`Reads` says what a counter reads as, if it reads at all; `Write.Keeps` names the writes
that keep such a statement true, so that a pipeline is judged write by write.  A
counter that no write of a pipeline touches keeps its value.

## Main definitions

* `World.Reads`, `Write.Keeps`, `reads_writes` — what a pipeline keeps.
* `Write.Touches`, `counter_writes_other` — the frame of a pipeline.
* `mem_members_writes` — what a pipeline can list.
* `World.wait`, `reads_wait` — keys only expire.
* `FundsCold`, `fundsCold_invalidate` — nothing of a user's funds is cached.
-/

namespace Llmxy

/-- Whatever the counter reads as satisfies `P`. -/
def World.Reads (w : World) (k : CounterKey) (P : ℤ → Prop) : Prop :=
  ∀ v, w.redis.counter.get w.now k = some v → P v

/-- A write after which the counter still reads as something in `P`. -/
def Write.Keeps (k : CounterKey) (P : ℤ → Prop) : Write → Prop
  | .set k' v _ => k' = k → P v
  | .decrIfExists k' n => k' = k → ∀ v, P v → P (v - n)
  | .incrBy k' n => k' = k → P n ∧ ∀ v, P v → P (v + n)
  | .del _ | .delUsubs _ | .zadd _ _ | .expireUsubs _ _ | .zrem _ _ => True

/-- A write to the counter. -/
def Write.Touches (k : CounterKey) : Write → Prop
  | .set k' _ _ | .del k' | .decrIfExists k' _ | .incrBy k' _ => k' = k
  | .delUsubs _ | .zadd _ _ | .expireUsubs _ _ | .zrem _ _ => False

/-- The world after one write. -/
def World.write (w : World) (x : Write) : World := { w with redis := w.redis.write w.now x }

/-- The world after a pipeline. -/
def World.writes (w : World) (ws : List Write) : World :=
  { w with redis := w.redis.writes w.now ws }

/-- The world some time later. -/
def World.wait (w : World) (d : ℕ) : World := { w with now := w.now + d }

variable {w : World} {uid : ℤ} {k : CounterKey} {P : ℤ → Prop}

@[simp] theorem World.writes_nil : w.writes [] = w := rfl

@[simp] theorem World.writes_cons (x : Write) (ws : List Write) :
    w.writes (x :: ws) = (w.write x).writes ws := rfl

theorem World.writes_append (xs ys : List Write) :
    w.writes (xs ++ ys) = (w.writes xs).writes ys := by
  simp only [World.writes, Redis.writes, List.foldl_append]

/-! ### Counters -/

/-- A write to another key leaves the counter alone. -/
theorem counter_write_other {x : Write} (hx : ¬ x.Touches k) :
    (w.write x).redis.counter.get w.now k = w.redis.counter.get w.now k := by
  cases x with
  | set k' v ttl => exact Store.get_set_other fun h => hx h.symm
  | del k' => exact Store.get_del.trans (if_neg fun h => hx h.symm)
  | decrIfExists k' n =>
      have hget := @Store.get_alter _ _ _ w.redis.counter w.now k' k (· - n)
      rw [if_neg fun h => hx h.symm] at hget
      exact hget
  | incrBy k' n =>
      have hget := @Store.get_alterOrCreate _ _ _ w.redis.counter w.now k' k 0 (· + n)
      rw [if_neg fun h => hx h.symm] at hget
      exact hget
  | delUsubs u => rfl
  | zadd u m => rfl
  | expireUsubs u ttl => rfl
  | zrem u sid => rfl

theorem counter_set {v ttl : ℤ} (ht : 0 < ttl) :
    (w.write (.set k v ttl)).redis.counter.get w.now k = some v := by
  have hget := @Store.get_set _ _ _ w.redis.counter w.now ttl k k v ht
  rwa [if_pos rfl] at hget

theorem counter_del : (w.write (.del k)).redis.counter.get w.now k = none := by
  have hget := @Store.get_del _ _ _ w.redis.counter w.now k k
  rwa [if_pos rfl] at hget

theorem counter_decr (n : ℤ) :
    (w.write (.decrIfExists k n)).redis.counter.get w.now k =
      (w.redis.counter.get w.now k).map (· - n) := by
  have hget := @Store.get_alter _ _ _ w.redis.counter w.now k k (· - n)
  rwa [if_pos rfl] at hget

theorem counter_incr (n : ℤ) :
    (w.write (.incrBy k n)).redis.counter.get w.now k =
      some ((w.redis.counter.get w.now k).getD 0 + n) := by
  have hget := @Store.get_alterOrCreate _ _ _ w.redis.counter w.now k k 0 (· + n)
  rwa [if_pos rfl] at hget

/-- **A pipeline that does not touch the counter** leaves it alone. -/
theorem counter_writes_other {ws : List Write} (hws : ∀ x ∈ ws, ¬ x.Touches k) :
    (w.writes ws).redis.counter.get w.now k = w.redis.counter.get w.now k := by
  induction ws generalizing w with
  | nil => rfl
  | cons x ws ih =>
      have htail := ih (w := w.write x) fun y hy => hws y (List.mem_cons_of_mem _ hy)
      exact htail.trans (counter_write_other (hws x List.mem_cons_self))

/-- **One write** keeps what the counter reads as. -/
theorem reads_write {x : Write} (hx : x.Keeps k P) (h : w.Reads k P) : (w.write x).Reads k P := by
  intro v hv
  cases x with
  | set k' v' ttl =>
      rcases Store.get_set_cases hv with ⟨rfl, rfl⟩ | hv
      · exact hx rfl
      · exact h v hv
  | del k' =>
      have hget : (w.redis.counter.del k').get w.now k = some v := hv
      rw [Store.get_del] at hget
      by_cases hk : k = k'
      · rw [if_pos hk] at hget
        cases hget
      · rw [if_neg hk] at hget
        exact h v hget
  | delUsubs u => exact h v hv
  | zadd u m => exact h v hv
  | expireUsubs u ttl => exact h v hv
  | zrem u sid => exact h v hv
  | decrIfExists k' n =>
      have hget : (w.redis.counter.alter w.now k' (· - n)).get w.now k = some v := hv
      rw [Store.get_alter] at hget
      by_cases hk : k = k'
      · subst hk
        rw [if_pos rfl] at hget
        obtain ⟨v', hv', rfl⟩ := Option.map_eq_some_iff.mp hget
        exact hx rfl v' (h v' hv')
      · rw [if_neg hk] at hget
        exact h v hget
  | incrBy k' n =>
      have hget : (w.redis.counter.alterOrCreate w.now k' 0 (· + n)).get w.now k = some v := hv
      rw [Store.get_alterOrCreate] at hget
      by_cases hk : k = k'
      · subst hk
        rw [if_pos rfl, Option.some.injEq] at hget
        obtain ⟨hnew, hold⟩ := hx rfl
        cases hc : w.redis.counter.get w.now k with
        | none =>
            rw [hc, Option.getD_none, zero_add] at hget
            rw [← hget]
            exact hnew
        | some v' =>
            rw [hc, Option.getD_some] at hget
            rw [← hget]
            exact hold v' (h v' hc)
      · rw [if_neg hk] at hget
        exact h v hget

/-- **A pipeline** keeps what the counter reads as. -/
theorem reads_writes {ws : List Write} (hws : ∀ x ∈ ws, x.Keeps k P) (h : w.Reads k P) :
    (w.writes ws).Reads k P := by
  induction ws generalizing w with
  | nil => exact h
  | cons x ws ih =>
      rw [World.writes_cons]
      apply ih
      · intro y hy
        exact hws y (List.mem_cons_of_mem _ hy)
      · exact reads_write (hws x List.mem_cons_self) h

/-- A pipeline that sets the counter makes it read as what its writes keep, whatever it
was before. -/
theorem reads_of_set {ws : List Write} {v ttl : ℤ} (hws : ∀ x ∈ ws, x.Keeps k P)
    (hset : .set k v ttl ∈ ws) : (w.writes ws).Reads k P := by
  induction ws generalizing w with
  | nil => cases hset
  | cons x ws ih =>
      have htail : ∀ y ∈ ws, y.Keeps k P := fun y hy => hws y (List.mem_cons_of_mem _ hy)
      rw [World.writes_cons]
      rcases List.mem_cons.mp hset with rfl | hset
      · apply reads_writes htail
        intro v' hv'
        have hv : P v := hws _ List.mem_cons_self rfl
        rw [Store.get_set_self hv']
        exact hv
      · exact ih htail hset

/-- Keys only expire. -/
theorem reads_wait (d : ℕ) (h : w.Reads k P) : (w.wait d).Reads k P := by
  intro v hv
  apply h v
  apply Store.get_le _ hv
  simp [World.wait]

/-! ### The listed subscriptions -/

/-- What a write can add to the entries of a set. -/
theorem mem_entries_write {x : Write} {e : ℤ × ℤ} (h : e ∈ (w.write x).entries uid) :
    e ∈ w.entries uid ∨ ∃ m, x = .zadd uid m ∧ e ∈ m := by
  -- an entry that can be read after the write could be read before it
  have hold : ∀ z, w.redis.usubs.get w.now uid = some z → e ∈ z → e ∈ w.entries uid := by
    intro z hz he
    rw [World.entries, hz]
    exact he
  obtain ⟨z, hz, he⟩ : ∃ z, (w.write x).redis.usubs.get w.now uid = some z ∧ e ∈ z := by
    cases hz : (w.write x).redis.usubs.get w.now uid with
    | none =>
        rw [World.entries, show (w.write x).now = w.now from rfl, hz] at h
        cases h
    | some z =>
        rw [World.entries, show (w.write x).now = w.now from rfl, hz] at h
        exact ⟨z, rfl, h⟩
  cases x with
  | set k v ttl => exact Or.inl (hold z hz he)
  | del k => exact Or.inl (hold z hz he)
  | decrIfExists k n => exact Or.inl (hold z hz he)
  | incrBy k n => exact Or.inl (hold z hz he)
  | expireUsubs u ttl => exact Or.inl (hold z (Store.get_of_expire hz) he)
  | delUsubs u =>
      have hget : (w.redis.usubs.del u).get w.now uid = some z := hz
      rw [Store.get_del] at hget
      by_cases hu : uid = u
      · rw [if_pos hu] at hget
        cases hget
      · rw [if_neg hu] at hget
        exact Or.inl (hold z hget he)
  | zrem u s =>
      have hget : (w.redis.usubs.alter w.now u (·.filter fun y => y.2 ≠ s)).get w.now uid = some z :=
        hz
      rw [Store.get_alter] at hget
      by_cases hu : uid = u
      · subst hu
        rw [if_pos rfl] at hget
        obtain ⟨z', hz', rfl⟩ := Option.map_eq_some_iff.mp hget
        exact Or.inl (hold z' hz' (List.mem_of_mem_filter he))
      · rw [if_neg hu] at hget
        exact Or.inl (hold z hget he)
  | zadd u m =>
      have hget : (w.redis.usubs.alterOrCreate w.now u [] fun z => m.foldl zinsert z).get w.now uid =
          some z := hz
      rw [Store.get_alterOrCreate] at hget
      by_cases hu : uid = u
      · subst hu
        rw [if_pos rfl] at hget
        cases hget
        rcases mem_of_mem_zadd he with hm | hm
        · exact Or.inr ⟨m, rfl, hm⟩
        · exact Or.inl hm
      · rw [if_neg hu] at hget
        exact Or.inl (hold z hget he)

/-- What a write can add to the listed subscriptions. -/
theorem mem_members_write {x : Write} {sid : ℤ} (h : sid ∈ (w.write x).members uid) :
    sid ∈ w.members uid ∨ ∃ m, x = .zadd uid m ∧ sid ∈ m.map Prod.snd := by
  obtain ⟨e, he, rfl⟩ := List.mem_map.mp h
  rcases mem_entries_write he with he | ⟨m, hx, he⟩
  · exact Or.inl (List.mem_map_of_mem he)
  · exact Or.inr ⟨m, hx, List.mem_map_of_mem he⟩

/-- A single entry replaces the one of its subscription. -/
theorem mem_entries_zadd {u sid periodEnd : ℤ} {e : ℤ × ℤ}
    (h : e ∈ (w.write (.zadd u [(periodEnd, sid)])).entries uid) :
    uid = u ∧ e = (periodEnd, sid) ∨ e ∈ w.entries uid ∧ (uid = u → e.2 ≠ sid) := by
  have hget := @Store.get_alterOrCreate _ _ _ w.redis.usubs w.now u uid [] fun z =>
    [(periodEnd, sid)].foldl zinsert z
  replace h : e ∈ (Store.get (w.redis.usubs.alterOrCreate w.now u [] fun z =>
    [(periodEnd, sid)].foldl zinsert z) w.now uid).getD [] := h
  rw [hget] at h
  by_cases hu : uid = u
  · subst hu
    rw [if_pos rfl, Option.getD_some, List.foldl_cons, List.foldl_nil] at h
    rcases mem_zinsert_iff.mp h with rfl | ⟨he, hne⟩
    · exact Or.inl ⟨rfl, rfl⟩
    · exact Or.inr ⟨he, fun _ => hne⟩
  · rw [if_neg hu] at h
    exact Or.inr ⟨h, fun hu' => absurd hu' hu⟩

/-- The entry of a removed subscription is gone. -/
theorem mem_entries_zrem {u sid : ℤ} {e : ℤ × ℤ} (h : e ∈ (w.write (.zrem u sid)).entries uid) :
    e ∈ w.entries uid ∧ (uid = u → e.2 ≠ sid) := by
  have hget := @Store.get_alter _ _ _ w.redis.usubs w.now u uid (·.filter fun y => y.2 ≠ sid)
  replace h : e ∈ (Store.get (w.redis.usubs.alter w.now u (·.filter fun y => y.2 ≠ sid))
    w.now uid).getD [] := h
  rw [hget] at h
  by_cases hu : uid = u
  · subst hu
    rw [if_pos rfl] at h
    rw [World.entries]
    cases hz : w.redis.usubs.get w.now uid with
    | none =>
        rw [hz] at h
        cases h
    | some z =>
        rw [hz] at h
        obtain ⟨he, hne⟩ := List.mem_filter.mp h
        exact ⟨he, fun _ => by simpa using hne⟩
  · rw [if_neg hu] at h
    exact ⟨h, fun hu' => absurd hu' hu⟩

/-- A write to a counter leaves the sets alone. -/
theorem members_counter {x : Write} (hx : ∃ k, x.Touches k) :
    (w.write x).members uid = w.members uid := by
  obtain ⟨k, hk⟩ := hx
  cases x with
  | set k' v ttl => rfl
  | del k' => rfl
  | decrIfExists k' n => rfl
  | incrBy k' n => rfl
  | delUsubs u => cases hk
  | zadd u m => cases hk
  | expireUsubs u ttl => cases hk
  | zrem u sid => cases hk

/-- A pipeline of writes to counters leaves the sets alone. -/
theorem members_counters {ws : List Write} (hws : ∀ x ∈ ws, ∃ k, x.Touches k) :
    (w.writes ws).members uid = w.members uid := by
  induction ws generalizing w with
  | nil => rfl
  | cons x ws ih =>
      rw [World.writes_cons, ih fun y hy => hws y (List.mem_cons_of_mem _ hy)]
      exact members_counter (hws x List.mem_cons_self)

theorem mem_members_zadd {m : List (ℤ × ℤ)} {sid : ℤ} :
    sid ∈ (w.write (.zadd uid m)).members uid ↔ sid ∈ m.map Prod.snd ∨ sid ∈ w.members uid := by
  have hget : (w.write (.zadd uid m)).redis.usubs.get w.now uid =
      some (m.foldl zinsert ((w.redis.usubs.get w.now uid).getD [])) := by
    have hget := @Store.get_alterOrCreate _ _ _ w.redis.usubs w.now uid uid [] fun z =>
      m.foldl zinsert z
    rwa [if_pos rfl] at hget
  rw [World.members, show (w.write (.zadd uid m)).now = w.now from rfl, hget, Option.getD_some,
    mem_zadd, World.members]

theorem members_expire {ttl : ℤ} (ht : 0 < ttl) :
    (w.write (.expireUsubs uid ttl)).members uid = w.members uid := by
  have hget : (w.write (.expireUsubs uid ttl)).redis.usubs.get w.now uid =
      w.redis.usubs.get w.now uid := Store.get_expire ht
  rw [World.members, show (w.write (.expireUsubs uid ttl)).now = w.now from rfl, hget,
    World.members]

theorem mem_members_zrem {s sid : ℤ} :
    sid ∈ (w.write (.zrem uid s)).members uid ↔ sid ∈ w.members uid ∧ sid ≠ s := by
  have hget : (w.write (.zrem uid s)).redis.usubs.get w.now uid =
      (w.redis.usubs.get w.now uid).map (·.filter fun y => y.2 ≠ s) := by
    have hget := @Store.get_alter _ _ _ w.redis.usubs w.now uid uid (·.filter fun y => y.2 ≠ s)
    rwa [if_pos rfl] at hget
  rw [World.members, show (w.write (.zrem uid s)).now = w.now from rfl, hget, World.members]
  cases w.redis.usubs.get w.now uid with
  | none => simp
  | some z =>
      simp only [Option.map_some, Option.getD_some, List.mem_map, List.mem_filter,
        decide_eq_true_eq]
      constructor
      · rintro ⟨p, ⟨hp, hne⟩, rfl⟩
        exact ⟨⟨p, hp, rfl⟩, hne⟩
      · rintro ⟨⟨p, hp, rfl⟩, hne⟩
        exact ⟨p, ⟨hp, hne⟩, rfl⟩

theorem members_delUsubs : (w.write (.delUsubs uid)).members uid = [] := by
  have hget := @Store.get_del _ _ _ w.redis.usubs w.now uid uid
  rw [if_pos rfl] at hget
  rw [World.members]
  show (((w.redis.usubs.del uid).get w.now uid).getD []).map Prod.snd = []
  rw [hget]
  rfl

/-- What a pipeline can add to the listed subscriptions. -/
theorem mem_members_writes {ws : List Write} {sid : ℤ} (h : sid ∈ (w.writes ws).members uid) :
    sid ∈ w.members uid ∨ ∃ m, .zadd uid m ∈ ws ∧ sid ∈ m.map Prod.snd := by
  induction ws generalizing w with
  | nil => exact Or.inl h
  | cons x ws ih =>
      rw [World.writes_cons] at h
      rcases ih h with hw | ⟨m, hm, hsid⟩
      · rcases mem_members_write hw with hw | ⟨m, rfl, hsid⟩
        · exact Or.inl hw
        · exact Or.inr ⟨m, List.mem_cons_self, hsid⟩
      · exact Or.inr ⟨m, List.mem_cons_of_mem _ hm, hsid⟩

/-- Sets only expire. -/
theorem mem_entries_wait {d : ℕ} {e : ℤ × ℤ} (h : e ∈ (w.wait d).entries uid) :
    e ∈ w.entries uid := by
  have hnow : w.now ≤ (w.wait d).now := by simp [World.wait]
  rw [World.entries, show (w.wait d).redis = w.redis from rfl] at h
  cases hz : w.redis.usubs.get (w.wait d).now uid with
  | none =>
      rw [hz] at h
      cases h
  | some z =>
      rw [hz] at h
      rw [World.entries, Store.get_le hnow hz]
      exact h

theorem mem_members_wait {d : ℕ} {sid : ℤ} (h : sid ∈ (w.wait d).members uid) :
    sid ∈ w.members uid := by
  obtain ⟨e, he, rfl⟩ := List.mem_map.mp h
  exact List.mem_map_of_mem (mem_entries_wait he)

/-! ### Cold funds -/

/-- The cache knows nothing of the user's funds. -/
structure FundsCold (uid : ℤ) (w : World) : Prop where
  wallet : w.wallet uid = none
  members : w.members uid = []

/-- An absent counter is one that reads as nothing. -/
theorem reads_false_iff : w.Reads k (fun _ => False) ↔ w.redis.counter.get w.now k = none := by
  rw [Option.eq_none_iff_forall_ne_some]
  exact Iff.rfl

/-- A pipeline that neither sets the wallet nor lists subscriptions leaves cold funds
cold. -/
theorem fundsCold_writes {ws : List Write} (hwallet : ∀ x ∈ ws, x.Keeps (.wallet uid) fun _ => False)
    (hlist : ∀ m, .zadd uid m ∉ ws) (h : FundsCold uid w) : FundsCold uid (w.writes ws) := by
  constructor
  · apply reads_false_iff.mp
    exact reads_writes hwallet (reads_false_iff.mpr h.wallet)
  · apply List.eq_nil_iff_forall_not_mem.mpr
    intro sid hsid
    rcases mem_members_writes hsid with hold | ⟨m, hm, -⟩
    · rw [h.members] at hold
      cases hold
    · exact hlist m hm

/-- **An invalidation** leaves the funds cold. -/
theorem fundsCold_invalidate (sids : List ℤ) :
    FundsCold uid (w.writes (invalidateWrites uid sids)) := by
  -- after its first two writes the wallet and the set are gone, and the others only delete
  let w₂ := (w.write (.del (.wallet uid))).write (.delUsubs uid)
  have hcold : FundsCold uid w₂ := by
    constructor
    · have hget := @Store.get_del _ _ _ w.redis.counter w.now (.wallet uid) (.wallet uid)
      rw [if_pos rfl] at hget
      exact hget
    · have hget : w₂.redis.usubs.get w₂.now uid = none := by
        apply Store.get_del.trans
        exact if_pos rfl
      simp [World.members, hget]
  show FundsCold uid (w₂.writes (sids.map fun sid => .del (.subq sid)))
  apply fundsCold_writes _ _ hcold
  · intro x hx
    obtain ⟨sid, -, rfl⟩ := List.mem_map.mp hx
    trivial
  · intro m hm
    obtain ⟨sid, -, h⟩ := List.mem_map.mp hm
    cases h

theorem fundsCold_wait (d : ℕ) (h : FundsCold uid w) : FundsCold uid (w.wait d) := by
  constructor
  · apply reads_false_iff.mp
    exact reads_wait d (reads_false_iff.mpr h.wallet)
  · apply List.eq_nil_iff_forall_not_mem.mpr
    intro sid hsid
    have hold := mem_members_wait hsid
    rw [h.members] at hold
    cases hold

end Llmxy
