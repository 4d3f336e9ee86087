import Llmxy.Lib.OrderedDict
import Llmxy.Lib.WhileLoop

/-!
# The cache in memory

`TTLCache` keeps snapshots in front of the database.  An entry expires, and when there is no room
the entry that was set or read the longest time ago makes way.

Its purpose is told by the calls alone: a key has the value that was last set, unless that is too
old, or was popped, or at least `maxsize` other keys have been of use since (`LruAnswer`).  The
cache refines this; it has recency in the order of its dictionary, which `get` and `set` maintain.

Times are of any linear order with an addition.  Nothing is asked of the sum, so it may round.
Values are never `None`, so a read that answers `None` is a miss.

## Main definitions

* `TtlCache`, `TtlCache.get`, `TtlCache.set`, `TtlCache.pop` — the cache.
* `CacheCall`, `CacheRecord`, `TtlCache.serveAll` — its calls, and what they have answered.
* `lastSet`, `touches`, `LruAnswer` — what a call may answer.
* `TtlCache.Follows`, `TtlCache.refines_lru` — the invariant, and that the cache answers so.
-/

namespace Llmxy

universe u v w
variable {κ : Type u} {ν : Type v} {τ : Type w}

/-! ### The cache -/

/-- `TTLCache`.  An entry is its expiry and its value. -/
structure TtlCache (κ : Type u) (ν : Type v) (τ : Type w) where
  data : OrderedDict κ (τ × ν)
  maxsize : ℕ
  ttl : τ

namespace TtlCache

/-- `TTLCache(maxsize, ttl_seconds)`. -/
def init (maxsize : ℕ) (ttl : τ) : TtlCache κ ν τ := ⟨.empty, maxsize, ttl⟩

/-- The loop of `set` that drops the oldest entries. -/
def evict (maxsize : ℕ) (data : OrderedDict κ (τ × ν)) : OrderedDict κ (τ × ν) :=
  whileFuel (fun data => maxsize < data.length) OrderedDict.popFirst data.length data

/-- The loop of `set` drops one entry at most. -/
theorem evict_eq {maxsize : ℕ} {data : OrderedDict κ (τ × ν)} (h : data.length ≤ maxsize + 1) :
    evict maxsize data = if maxsize < data.length then data.popFirst else data := by
  split_ifs with hfull
  · have hexit : ¬ maxsize < data.popFirst.length := by
      rw [OrderedDict.length_popFirst]
      omega
    have hloop : While (fun data : OrderedDict κ (τ × ν) => maxsize < data.length)
        OrderedDict.popFirst 1 data data.popFirst := .next hfull (.exit hexit)
    exact hloop.whileFuel_eq (by omega)
  · have hloop : While (fun data : OrderedDict κ (τ × ν) => maxsize < data.length)
        OrderedDict.popFirst 0 data data := .exit hfull
    exact hloop.whileFuel_eq (Nat.zero_le _)

variable [DecidableEq κ]

/-- `pop`. -/
def pop (c : TtlCache κ ν τ) (key : κ) : TtlCache κ ν τ := { c with data := c.data.erase key }

variable [Add τ]

/-- `set`. -/
def set (c : TtlCache κ ν τ) (now : τ) (key : κ) (value : ν) : TtlCache κ ν τ :=
  let expiresAt := now + c.ttl
  let data := if key ∈ c.data.keys then c.data.moveToEnd key else c.data
  { c with data := evict c.maxsize (data.setItem key (expiresAt, value)) }

/-- The cache once an entry is set, before any makes way. -/
def renew (c : TtlCache κ ν τ) (now : τ) (key : κ) (value : ν) : TtlCache κ ν τ :=
  { c with
    data := (if key ∈ c.data.keys then c.data.moveToEnd key else c.data).setItem key
      (now + c.ttl, value) }

section
variable {c : TtlCache κ ν τ} {now : τ} {key : κ} {value : ν}

theorem entries_renew : (c.renew now key value).data.entries =
    (c.data.erase key).entries ++ [(key, now + c.ttl, value)] :=
  OrderedDict.entries_renewed c.data key (now + c.ttl, value)

theorem keys_renew : (c.renew now key value).data.keys = c.data.keys.filter (· ≠ key) ++ [key] := by
  rw [OrderedDict.keys, entries_renew, List.map_append, ← OrderedDict.keys, OrderedDict.keys_erase,
    List.map_singleton]

theorem length_renew_le : (c.renew now key value).data.length ≤ c.data.length + 1 := by
  have hle := @OrderedDict.length_erase_le _ _ _ c.data key
  rw [OrderedDict.length, entries_renew, List.length_append, List.length_singleton]
  exact Nat.add_le_add_right hle 1

/-- Where there was room, one entry makes way at most. -/
theorem set_eq (h : c.data.length ≤ c.maxsize) : c.set now key value =
    if c.maxsize < (c.renew now key value).data.length then
      { c with data := (c.renew now key value).data.popFirst }
    else c.renew now key value := by
  have hset : c.set now key value =
      { c with data := evict c.maxsize (c.renew now key value).data } := rfl
  rw [hset, evict_eq (length_renew_le.trans (Nat.add_le_add_right h 1))]
  split_ifs <;> rfl

end

variable [LinearOrder τ]

/-- `get`: an entry that has expired is deleted, any other is made the newest. -/
def get (c : TtlCache κ ν τ) (now : τ) (key : κ) : Option ν × TtlCache κ ν τ :=
  match c.data.get? key with
  | none => (none, c)
  | some (expiresAt, value) =>
      if expiresAt ≤ now then (none, { c with data := c.data.erase key })
      else (some value, { c with data := c.data.moveToEnd key })

end TtlCache

/-! ### Calls -/

/-- A call of the cache. -/
inductive CacheCall (κ : Type u) (ν : Type v) where
  | get (key : κ)
  | set (key : κ) (value : ν)
  | pop (key : κ)

/-- A call that was served, and its answer. -/
structure CacheRecord (κ : Type u) (ν : Type v) (τ : Type w) where
  now : τ
  call : CacheCall κ ν
  answer : Option ν

/-- The key that a call has set or read with success. -/
def CacheRecord.touched (r : CacheRecord κ ν τ) : Option κ :=
  match r.call, r.answer with
  | .set key _, _ => some key
  | .get key, some _ => some key
  | _, _ => none

/-- The keys that were set or read with success, the last one first. -/
def touches (past : List (CacheRecord κ ν τ)) : List κ := past.filterMap CacheRecord.touched

theorem touches_cons {r : CacheRecord κ ν τ} {key : κ} (h : r.touched = some key)
    (past : List (CacheRecord κ ν τ)) : touches (r :: past) = key :: touches past :=
  List.filterMap_cons_some h

theorem touches_idle {r : CacheRecord κ ν τ} (h : r.touched = none)
    (past : List (CacheRecord κ ν τ)) : touches (r :: past) = touches past :=
  List.filterMap_cons_none h

section
variable [DecidableEq κ]

/-- The value that was last set, with its time, unless the key was popped since. -/
def lastSet (key : κ) : List (CacheRecord κ ν τ) → Option (τ × ν)
  | [] => none
  | ⟨now, .set key' value, _⟩ :: past => if key' = key then some (now, value) else lastSet key past
  | ⟨_, .pop key', _⟩ :: past => if key' = key then none else lastSet key past
  | ⟨_, .get _, _⟩ :: past => lastSet key past

variable [LinearOrder τ] [Add τ]

/-- What a least-recently-used map of `maxsize` entries with expiry may answer to a read, after the
calls of the past. -/
structure LruAnswer (maxsize : ℕ) (ttl : τ) (past : List (CacheRecord κ ν τ)) (now : τ) (key : κ)
    (answer : Option ν) : Prop where
  /-- A value was the last one set, less than `ttl` ago, and was not popped. -/
  hit : ∀ value, answer = some value →
    ∃ t, lastSet key past = some (t, value) ∧ now < t + ttl
  /-- Where there is such a value, a miss needs `maxsize` other keys that were set or read with
  success since this one was. -/
  miss : answer = none → ∀ t value, lastSet key past = some (t, value) → now < t + ttl →
    maxsize ≤ (touchedSince (touches past) key).toFinset.card

namespace TtlCache

/-- One call. -/
def serve (c : TtlCache κ ν τ) (now : τ) : CacheCall κ ν → Option ν × TtlCache κ ν τ
  | .get key => c.get now key
  | .set key value => (none, c.set now key value)
  | .pop key => (none, c.pop key)

/-- The calls in order, from a cache and its past. -/
def serveAll : List (τ × CacheCall κ ν) → TtlCache κ ν τ → List (CacheRecord κ ν τ) →
    TtlCache κ ν τ × List (CacheRecord κ ν τ)
  | [], c, past => (c, past)
  | (now, call) :: calls, c, past =>
      serveAll calls (c.serve now call).2 (⟨now, call, (c.serve now call).1⟩ :: past)

/-! ### The invariant -/

/-- What the dictionary knows of the past. -/
structure Tracks (c : TtlCache κ ν τ) (past : List (CacheRecord κ ν τ)) : Prop where
  /-- An entry is the last value that was set. -/
  stored : ∀ key expiresAt value, (key, expiresAt, value) ∈ c.data.entries →
    ∃ t, lastSet key past = some (t, value) ∧ expiresAt = t + c.ttl
  order : RecentOrder (touches past) c.data.keys
  /-- A value without an entry had expired by some call of the past, or had to make way. -/
  missing : ∀ key t value, lastSet key past = some (t, value) → key ∈ c.data.keys ∨
    (∃ r ∈ past, t + c.ttl ≤ r.now) ∨ c.maxsize ≤ (touchedSince (touches past) key).toFinset.card

/-- The invariant: there is also room for the entries. -/
structure Follows (c : TtlCache κ ν τ) (past : List (CacheRecord κ ν τ)) : Prop
    extends c.Tracks past where
  length : c.data.length ≤ c.maxsize

section
variable {c : TtlCache κ ν τ} {past : List (CacheRecord κ ν τ)} {r : CacheRecord κ ν τ} {now : τ}
  {key : κ} {value : ν}

theorem follows_init (maxsize : ℕ) (ttl : τ) :
    (init maxsize ttl : TtlCache κ ν τ).Follows [] where
  stored := by simp [init]
  order := List.Pairwise.nil
  missing := by simp [lastSet]
  length := Nat.zero_le maxsize

/-- A key that a call has not touched, and not removed, is where it was, or still passed. -/
theorem Tracks.untouched (h : c.Tracks past) (r : CacheRecord κ ν τ) {keys : List κ} {t : τ} {v : ν}
    (hlast : lastSet key past = some (t, v)) (hr : r.touched ≠ some key)
    (hkept : key ∈ c.data.keys → key ∈ keys) :
    key ∈ keys ∨ (∃ r' ∈ r :: past, t + c.ttl ≤ r'.now) ∨
      c.maxsize ≤ (touchedSince (touches (r :: past)) key).toFinset.card := by
  obtain hkey | ⟨r', hr', hexpired⟩ | hpassed := h.missing key t v hlast
  · exact .inl (hkept hkey)
  · exact .inr (.inl ⟨r', List.mem_cons_of_mem r hr', hexpired⟩)
  · refine .inr (.inr (hpassed.trans ?_))
    cases htouched : r.touched with
    | none => rw [touches_idle htouched]
    | some k =>
        rw [touches_cons htouched]
        exact card_touchedSince_le fun heq => hr (heq ▸ htouched)

/-- A read that finds nothing. -/
theorem Tracks.absent (h : c.Tracks past) : c.Tracks (⟨now, .get key, none⟩ :: past) where
  stored := h.stored
  order := h.order
  missing _ _ _ hlast := h.untouched ⟨now, .get key, none⟩ hlast (by simp [CacheRecord.touched]) id

/-- A read that finds an entry that has expired. -/
theorem Tracks.expired (h : c.Tracks past) {expiresAt : τ}
    (hentry : (key, expiresAt, value) ∈ c.data.entries) (hnow : expiresAt ≤ now) :
    Tracks { c with data := c.data.erase key } (⟨now, .get key, none⟩ :: past) where
  stored k e v hk := h.stored k e v (OrderedDict.mem_erase.mp hk).1
  order := by
    show RecentOrder (touches past) (c.data.erase key).keys
    rw [OrderedDict.keys_erase]
    exact h.order.sublist List.filter_sublist
  missing := by
    intro k t v hlast
    by_cases hk : k = key
    · subst hk
      obtain ⟨t', hlast', rfl⟩ := h.stored k expiresAt value hentry
      cases hlast.symm.trans hlast'
      exact .inr (.inl ⟨_, List.mem_cons_self, hnow⟩)
    · exact h.untouched ⟨now, .get key, none⟩ hlast (by simp [CacheRecord.touched])
        fun hkept => by simp [hkept, hk]

/-- A read with success. -/
theorem Tracks.read (h : c.Tracks past) (hkey : key ∈ c.data.keys) :
    Tracks { c with data := c.data.moveToEnd key } (⟨now, .get key, some value⟩ :: past) where
  stored k e v hk := h.stored k e v (OrderedDict.mem_moveToEnd.mp hk)
  order := by
    show RecentOrder (key :: touches past) (c.data.moveToEnd key).keys
    rw [OrderedDict.keys_moveToEnd hkey]
    exact h.order.touch key
  missing := by
    intro k t v hlast
    by_cases hk : k = key
    · exact .inl (by simp [OrderedDict.keys_moveToEnd hkey, hk])
    · exact h.untouched ⟨now, .get key, some value⟩ hlast (fun heq => hk (Option.some.inj heq).symm)
        fun hkept => by simp [OrderedDict.keys_moveToEnd hkey, hkept, hk]

theorem Tracks.renew (h : c.Tracks past) :
    (c.renew now key value).Tracks (⟨now, .set key value, none⟩ :: past) where
  stored := by
    intro k e v hk
    rw [entries_renew, List.mem_append, List.mem_singleton] at hk
    obtain hk | hk := hk
    · obtain ⟨hk, hne⟩ := OrderedDict.mem_erase.mp hk
      obtain ⟨t, hlast, he⟩ := h.stored k e v hk
      exact ⟨t, by rw [lastSet, if_neg (Ne.symm hne), hlast], he⟩
    · cases hk
      exact ⟨now, by rw [lastSet, if_pos rfl], rfl⟩
  order := by
    rw [keys_renew]
    exact h.order.touch key
  missing := by
    intro k t v hlast
    rw [lastSet] at hlast
    split_ifs at hlast with hk
    · exact .inl (by simp [keys_renew, hk])
    · exact h.untouched ⟨now, .set key value, none⟩ hlast (fun heq => hk (Option.some.inj heq))
        fun hkept => by simp [keys_renew, hkept, Ne.symm hk]

/-- **The oldest entry makes way** only when `maxsize` others have been of use since. -/
theorem Tracks.popFirst (h : c.Tracks past) (hfull : c.data.length = c.maxsize + 1) :
    Tracks { c with data := c.data.popFirst } past where
  stored k e v hk := h.stored k e v (List.mem_of_mem_tail hk)
  order := by
    show RecentOrder (touches past) c.data.popFirst.keys
    rw [OrderedDict.keys_popFirst]
    exact h.order.sublist (List.tail_sublist _)
  missing := by
    intro k t v hlast
    obtain hkey | hgone := h.missing k t v hlast
    · have horder := h.order
      have hnodup := c.data.nodup_keys
      have hlength := c.data.length_keys
      rw [OrderedDict.keys_popFirst]
      cases hkeys : c.data.keys with
      | nil => rw [hkeys] at hkey; cases hkey
      | cons oldest rest =>
          rw [hkeys] at hkey horder hnodup hlength
          obtain rfl | hrest := List.mem_cons.mp hkey
          · have hpassed := horder.le_card (List.nodup_cons.mp hnodup).2
            rw [List.length_cons, hfull] at hlength
            exact .inr (.inr ((Nat.succ.inj hlength).ge.trans hpassed))
          · exact .inl hrest
    · exact .inr hgone

/-- A key that is popped has no last value. -/
theorem Tracks.popped (h : c.Tracks past) :
    (c.pop key).Tracks (⟨now, .pop key, none⟩ :: past) where
  stored := by
    intro k e v hk
    obtain ⟨hk, hne⟩ := OrderedDict.mem_erase.mp hk
    obtain ⟨t, hlast, he⟩ := h.stored k e v hk
    exact ⟨t, by rw [lastSet, if_neg (Ne.symm hne), hlast], he⟩
  order := by
    show RecentOrder (touches past) (c.data.erase key).keys
    rw [OrderedDict.keys_erase]
    exact h.order.sublist List.filter_sublist
  missing := by
    intro k t v hlast
    rw [lastSet] at hlast
    split_ifs at hlast with hk
    exact h.untouched ⟨now, .pop key, none⟩ hlast (by simp [CacheRecord.touched])
      fun hkept => by simp [pop, hkept, Ne.symm hk]

/-- **One call** keeps the invariant. -/
theorem Follows.serve (h : c.Follows past) (now : τ) (call : CacheCall κ ν) :
    (c.serve now call).2.Follows (⟨now, call, (c.serve now call).1⟩ :: past) := by
  cases call with
  | get key =>
      rw [TtlCache.serve, get]
      cases hget : c.data.get? key with
      | none => exact ⟨h.toTracks.absent, h.length⟩
      | some entry =>
          have hentry := OrderedDict.get?_eq_some.mp hget
          dsimp only
          split_ifs with hnow
          · exact ⟨h.toTracks.expired hentry hnow, OrderedDict.length_erase_le.trans h.length⟩
          · refine ⟨h.toTracks.read (OrderedDict.mem_keys_of_mem hentry), ?_⟩
            exact OrderedDict.length_moveToEnd.trans_le h.length
  | set key value =>
      rw [TtlCache.serve, set_eq h.length]
      split_ifs with hfull
      · have hlength : (c.renew now key value).data.length ≤ c.maxsize + 1 :=
          length_renew_le.trans (Nat.add_le_add_right h.length 1)
        refine ⟨h.toTracks.renew.popFirst (le_antisymm hlength hfull), ?_⟩
        show (c.renew now key value).data.popFirst.length ≤ c.maxsize
        rw [OrderedDict.length_popFirst]
        omega
      · exact ⟨h.toTracks.renew, not_lt.mp hfull⟩
  | pop key => exact ⟨h.toTracks.popped, OrderedDict.length_erase_le.trans h.length⟩

/-- The invariant answers a read. -/
theorem Follows.answer (h : c.Follows past) (hpast : ∀ r ∈ past, r.now ≤ now) (key : κ) :
    LruAnswer c.maxsize c.ttl past now key (c.get now key).1 := by
  rw [get]
  cases hget : c.data.get? key with
  | none =>
      refine ⟨by simp, fun _ t value hlast hfresh => ?_⟩
      obtain hkey | ⟨r, hr, hexpired⟩ | hpassed := h.missing key t value hlast
      · exact absurd hkey (OrderedDict.get?_eq_none.mp hget)
      · exact absurd (hexpired.trans (hpast r hr)) (not_le.mpr hfresh)
      · exact hpassed
  | some entry =>
      obtain ⟨expiresAt, value⟩ := entry
      obtain ⟨t, hlast, rfl⟩ := h.stored key expiresAt value (OrderedDict.get?_eq_some.mp hget)
      dsimp only
      split_ifs with hnow
      · refine ⟨by simp, fun _ t' value' hlast' hfresh => ?_⟩
        cases hlast.symm.trans hlast'
        exact absurd hnow (not_le.mpr hfresh)
      · refine ⟨fun value' heq => ?_, by simp⟩
        cases heq
        exact ⟨t, hlast, not_le.mp hnow⟩

end

/-! ### All calls -/

section
variable {c : TtlCache κ ν τ} {past : List (CacheRecord κ ν τ)} {calls : List (τ × CacheCall κ ν)}

theorem serve_const (c : TtlCache κ ν τ) (now : τ) (call : CacheCall κ ν) :
    (c.serve now call).2.maxsize = c.maxsize ∧ (c.serve now call).2.ttl = c.ttl := by
  cases call with
  | get key =>
      rw [serve, get]
      split
      · exact ⟨rfl, rfl⟩
      · split_ifs <;> exact ⟨rfl, rfl⟩
  | set key value => exact ⟨rfl, rfl⟩
  | pop key => exact ⟨rfl, rfl⟩

theorem serveAll_const : (serveAll calls c past).1.maxsize = c.maxsize ∧
    (serveAll calls c past).1.ttl = c.ttl := by
  induction calls generalizing c past with
  | nil => exact ⟨rfl, rfl⟩
  | cons call calls ih =>
      obtain ⟨hmaxsize, httl⟩ := serve_const c call.1 call.2
      exact ⟨ih.1.trans hmaxsize, ih.2.trans httl⟩

theorem Follows.serveAll (h : c.Follows past) (calls : List (τ × CacheCall κ ν)) :
    (serveAll calls c past).1.Follows (TtlCache.serveAll calls c past).2 := by
  induction calls generalizing c past with
  | nil => exact h
  | cons call calls ih => exact ih (h.serve call.1 call.2)

theorem time_of_mem {r : CacheRecord κ ν τ} (h : r ∈ (serveAll calls c past).2) :
    r ∈ past ∨ r.now ∈ calls.map Prod.fst := by
  induction calls generalizing c past with
  | nil => exact .inl h
  | cons call calls ih =>
      obtain hmem | hlater := ih h
      · obtain rfl | hpast := List.mem_cons.mp hmem
        · exact .inr List.mem_cons_self
        · exact .inl hpast
      · exact .inr (List.mem_cons_of_mem _ hlater)

/-- **The cache refines a least-recently-used map with expiry**: after any calls in the order of
time it has room for its entries, and a read is answered as such a map may answer it. -/
theorem refines_lru (maxsize : ℕ) (ttl : τ) (calls : List (τ × CacheCall κ ν)) (key : κ) (now : τ)
    (htimes : (calls.map Prod.fst ++ [now]).Pairwise (· ≤ ·)) :
    let r := TtlCache.serveAll calls (init maxsize ttl) []
    r.1.data.length ≤ maxsize ∧ LruAnswer maxsize ttl r.2 now key (r.1.get now key).1 := by
  intro r
  have hfollows : r.1.Follows r.2 := (follows_init maxsize ttl).serveAll calls
  obtain ⟨hmaxsize, httl⟩ : r.1.maxsize = maxsize ∧ r.1.ttl = ttl := serveAll_const
  have hpast : ∀ record ∈ r.2, record.now ≤ now := by
    intro record hrecord
    obtain hnil | hcall := time_of_mem hrecord
    · cases hnil
    · exact (List.pairwise_append.mp htimes).2.2 _ hcall now List.mem_cons_self
  have hlength := hfollows.length
  have hanswer := hfollows.answer hpast key
  rw [hmaxsize] at hlength hanswer
  rw [httl] at hanswer
  exact ⟨hlength, hanswer⟩

/-- With room for one entry, key 2 takes that of key 1. -/
theorem refines_lru_full :
    let r := TtlCache.serveAll [((0 : ℤ), CacheCall.set 1 10), (1, .set 2 20)]
      (init 1 30 : TtlCache ℤ ℤ ℤ) []
    r.1.data.length ≤ 1 ∧ LruAnswer 1 30 r.2 2 1 (r.1.get 2 1).1 :=
  refines_lru 1 30 [(0, .set 1 10), (1, .set 2 20)] 1 2 (by decide)

end
end TtlCache
end
end Llmxy
