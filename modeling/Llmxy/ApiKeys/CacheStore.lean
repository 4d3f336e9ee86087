import Llmxy.ApiKeys.TtlCache
import Llmxy.Lib.ExpiringStore

/-!
# The cache as a store

What reads a cache of snapshots need not know about recency: to it the cache is a store whose
entries expire, and may be dropped at any time.  The entries that expire under a read and those
that make way are such drops.

Times are those of the store.

## Main definitions

* `TtlCache.store` — the store of a cache.
* `StoreServes`, `StoreServesAll` — a store serves calls, and entries are dropped.
* `TtlCache.storeServesAll` — the cache answers as its store does.
-/

namespace Llmxy

universe u v
variable {κ : Type u} {ν : Type v} [DecidableEq κ]

/-- A store serves a call of the cache.  Then entries may be dropped. -/
inductive StoreServes (ttl : ℤ) (s : Store κ ν) (now : ℤ) :
    CacheCall κ ν → Option ν → Store κ ν → Prop where
  | get (key : κ) : StoreServes ttl s now (.get key) (s.get now key) s
  | set (key : κ) (value : ν) :
      StoreServes ttl s now (.set key value) none (s.set now key value ttl)
  | pop (key : κ) : StoreServes ttl s now (.pop key) none (s.del key)
  | drop {call : CacheCall κ ν} {answer : Option ν} {s' : Store κ ν} (key : κ)
      (h : StoreServes ttl s now call answer s') : StoreServes ttl s now call answer (s'.del key)

/-- A store serves calls in order, and this is the record of them, the last one first. -/
inductive StoreServesAll (ttl : ℤ) (s : Store κ ν) :
    List (CacheRecord κ ν ℤ) → Store κ ν → Prop where
  | nil : StoreServesAll ttl s [] s
  | cons {past : List (CacheRecord κ ν ℤ)} {s' s'' : Store κ ν} {r : CacheRecord κ ν ℤ}
      (h : StoreServesAll ttl s past s') (hcall : StoreServes ttl s' r.now r.call r.answer s'') :
      StoreServesAll ttl s (r :: past) s''

namespace TtlCache
variable {c : TtlCache κ ν ℤ} {now : ℤ} {key : κ} {value : ν}

/-- The store of a cache. -/
def store (c : TtlCache κ ν ℤ) : Store κ ν :=
  fun key => (c.data.get? key).map fun entry => ⟨entry.2, some entry.1⟩

theorem store_erase : store { c with data := c.data.erase key } = c.store.del key := by
  funext k
  simp only [store, Store.del, Store.put, OrderedDict.get?_erase]
  split_ifs <;> rfl

theorem store_moveToEnd : store { c with data := c.data.moveToEnd key } = c.store := by
  funext k
  simp only [store, OrderedDict.get?_moveToEnd]

theorem store_renew : (c.renew now key value).store = c.store.set now key value c.ttl := by
  funext k
  simp only [store, renew, Store.set, Store.put, OrderedDict.get?_renewed]
  split_ifs <;> rfl

/-- The entry that makes way is dropped. -/
theorem store_set (h : c.data.length ≤ c.maxsize) (now : ℤ) (key : κ) (value : ν) :
    (c.set now key value).store = (c.renew now key value).store ∨
      ∃ oldest, (c.set now key value).store = (c.renew now key value).store.del oldest := by
  rw [set_eq h]
  split_ifs with hfull
  · cases hentries : (c.renew now key value).data.entries with
    | nil => simp [OrderedDict.length, hentries] at hfull
    | cons entry rest =>
        refine .inr ⟨entry.1, ?_⟩
        rw [OrderedDict.popFirst_eq_erase hentries, ← store_erase]
        rfl
  · exact .inl rfl

theorem store_get_of_entry {expiresAt : ℤ} (h : c.data.get? key = some (expiresAt, value)) :
    c.store.get now key = if expiresAt ≤ now then none else some value := by
  simp only [store, Store.get, h, Option.map_some, Option.filter_some, Entry.live]
  by_cases hnow : expiresAt ≤ now
  · simp [hnow]
  · simp [hnow, not_le.mp hnow]

/-- **A call of the cache** is one of its store. -/
theorem storeServes (h : c.data.length ≤ c.maxsize) (now : ℤ) (call : CacheCall κ ν) :
    StoreServes c.ttl c.store now call (c.serve now call).1 (c.serve now call).2.store := by
  cases call with
  | get key =>
      have hread : StoreServes c.ttl c.store now (.get key) (c.store.get now key) c.store :=
        .get key
      rw [serve, get]
      cases hentry : c.data.get? key with
      | none =>
          have hmiss : c.store.get now key = none := by simp [store, Store.get, hentry]
          rw [hmiss] at hread
          exact hread
      | some entry =>
          obtain ⟨expiresAt, value⟩ := entry
          rw [store_get_of_entry hentry] at hread
          dsimp only
          split_ifs at hread ⊢ with hnow
          · rw [store_erase]
            exact hread.drop key
          · rw [store_moveToEnd]
            exact hread
  | set key value =>
      have hwrite : StoreServes c.ttl c.store now (.set key value) none
          (c.renew now key value).store := by
        rw [store_renew]
        exact .set key value
      obtain hset | ⟨oldest, hset⟩ := store_set h now key value
      · rw [serve, hset]
        exact hwrite
      · rw [serve, hset]
        exact hwrite.drop oldest
  | pop key =>
      rw [serve, pop, store_erase]
      exact .pop key

/-- **The cache is a store whose entries may be dropped**: any calls are answered as the store
answers them. -/
theorem storeServesAll (maxsize : ℕ) (ttl : ℤ) (calls : List (ℤ × CacheCall κ ν)) :
    StoreServesAll ttl Store.empty (serveAll calls (init maxsize ttl) []).2
      (serveAll calls (init maxsize ttl) []).1.store := by
  -- the cache and the store have served the same calls before
  have hrun : ∀ (c : TtlCache κ ν ℤ) (past : List (CacheRecord κ ν ℤ)),
      c.Follows past → StoreServesAll c.ttl Store.empty past c.store →
      StoreServesAll c.ttl Store.empty (serveAll calls c past).2
        (serveAll calls c past).1.store := by
    induction calls with
    | nil => exact fun _ _ _ hserved => hserved
    | cons call calls ih =>
        intro c past hfollows hserved
        have hstep := storeServes hfollows.length call.1 call.2
        have hnext := ih _ _ (hfollows.serve call.1 call.2)
        rw [(serve_const c call.1 call.2).2] at hnext
        exact hnext (.cons hserved hstep)
  exact hrun (init maxsize ttl) [] (follows_init maxsize ttl) .nil

end TtlCache
end Llmxy
