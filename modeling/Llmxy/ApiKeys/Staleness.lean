import Llmxy.ApiKeys.TtlCache
import Llmxy.Envoy.Revoked
import Llmxy.Lib.History

/-!
# How old a snapshot may be

The workers keep the snapshots of keys in caches of their own, in front of one database.  A
request that finds no entry reads the row and stores what it has read, some time later; a request
that has changed a row drops the entry of its worker and tells the others over Redis, which may
deliver the message late or not at all.  What bounds the age of a snapshot is the time to live of
its entry alone.

The machine is the cache of all workers, over what one `SELECT` reads: `db` is what it would
answer now.  The snapshot of a user is made of two, the row and then the plan, so of a user the
machine has the status alone, which is all from the first.  The clocks of the workers run alike,
so one clock stands for all.

## Main definitions

* `SnapshotFleet`, `SnapshotPhase` — the caches, and where a request stands.
* `fleetStep` — the two halves of a look-up, writes and their invalidations, messages, time.
* `InTime` — how long the database may take to answer.
* `fleetInv_run` — what is served was committed not long ago.
* `served_once_committed`, `revoked_key_denied`, `revoked_user_denied` — the same of the caches
  that the source has, and what it means for a decision.
-/

namespace Llmxy

universe u v w x
variable {ω : Type u} {ι : Type v} {κ : Type w} {ν : Type x}

/-! ### The caches of the workers -/

/-- Where a request stands.  `readAt` and `servedAt` are instants. -/
inductive SnapshotPhase (κ : Type w) (ν : Type x) where
  | idle
  /-- The cache has no entry. -/
  | missed (key : κ)
  /-- The `SELECT` has run. -/
  | read (key : κ) (value : Option ν) (readAt : ℤ)
  /-- An endpoint has refreshed a row that it has committed. -/
  | refreshed (key : κ) (value : Option ν) (readAt : ℤ)
  /-- The look-up has answered. -/
  | served (key : κ) (value : Option ν) (servedAt : ℤ)
deriving DecidableEq

/-- The row a request has read and will store. -/
def SnapshotPhase.held : SnapshotPhase κ ν → Option (κ × Option ν × ℤ)
  | .read key value readAt | .refreshed key value readAt => some (key, value, readAt)
  | .idle | .missed _ | .served _ _ _ => none

/-- The database, the caches of the workers, and the requests. -/
structure SnapshotFleet (ω : Type u) (ι : Type v) (κ : Type w) (ν : Type x) where
  /-- What a `SELECT` answers. -/
  db : κ → Option ν
  clock : ℤ
  /-- `none` in an entry is `_MISSING`. -/
  caches : ω → TtlCache κ (Option ν) ℤ
  /-- The messages that were published. -/
  published : List κ
  loc : ι → SnapshotPhase κ ν

/-- What can happen. -/
inductive FleetLabel (ω : Type u) (ι : Type v) (κ : Type w) (ν : Type x) where
  /-- A request looks a key up in the cache of its worker. -/
  | lookup (i : ι) (key : κ)
  /-- The `SELECT` of a request that has missed. -/
  | select (i : ι)
  /-- It stores what it has read, and goes on with it. -/
  | store (i : ι)
  /-- `db.refresh` of a row that the request has committed. -/
  | refresh (i : ι) (key : κ)
  /-- `update_apikey_snapshot` with that row. -/
  | seed (i : ι)
  /-- `invalidate_apikey`, after an `update_apikey_snapshot` with any object.  The entry is
  dropped before anybody else moves. -/
  | seedAndInvalidate (w : ω) (key : κ) (value : Option ν)
  /-- `invalidate_apikey`; the message may fail to be published. -/
  | invalidate (w : ω) (key : κ) (publishes : Bool)
  /-- A worker receives a message. -/
  | deliver (w : ω) (key : κ)
  /-- Somebody commits. -/
  | commit (db : κ → Option ν)
  | wait (d : ℕ)

variable [DecidableEq ω] [DecidableEq ι] [DecidableEq κ]

namespace SnapshotFleet

/-- Request `i` stores a row and is then in phase `l`. -/
def put (worker : ι → ω) (s : SnapshotFleet ω ι κ ν) (i : ι) (key : κ) (value : Option ν)
    (l : SnapshotPhase κ ν) : SnapshotFleet ω ι κ ν :=
  { s with
    caches := Function.update s.caches (worker i) ((s.caches (worker i)).set s.clock key value)
    loc := Function.update s.loc i l }

/-- An entry of one worker is dropped. -/
def drop (s : SnapshotFleet ω ι κ ν) (w : ω) (key : κ) : SnapshotFleet ω ι κ ν :=
  { s with caches := Function.update s.caches w ((s.caches w).pop key) }

/-- `get_apikey_snapshot`, up to its first await. -/
def lookup (worker : ι → ω) (s : SnapshotFleet ω ι κ ν) (i : ι) (key : κ) :
    SnapshotFleet ω ι κ ν :=
  let r := (s.caches (worker i)).get s.clock key
  { s with
    caches := Function.update s.caches (worker i) r.2
    loc := Function.update s.loc i <| match r.1 with
      | some value => .served key value s.clock
      | none => .missed key }

/-- Nothing is cached, and nobody has begun. -/
def start (db : κ → Option ν) (clock : ℤ) (cache : TtlCache κ (Option ν) ℤ) :
    SnapshotFleet ω ι κ ν :=
  ⟨db, clock, fun _ => cache, [], fun _ => .idle⟩

end SnapshotFleet

/-- One step; `worker` says where a request runs. -/
def fleetStep (worker : ι → ω) (s : SnapshotFleet ω ι κ ν) :
    FleetLabel ω ι κ ν → Option (SnapshotFleet ω ι κ ν)
  | .lookup i key => some (s.lookup worker i key)
  | .select i =>
      match s.loc i with
      | .missed key =>
          some { s with loc := Function.update s.loc i (.read key (s.db key) s.clock) }
      | _ => none
  | .store i =>
      match s.loc i with
      | .read key value _ => some (s.put worker i key value (.served key value s.clock))
      | _ => none
  | .refresh i key =>
      some { s with loc := Function.update s.loc i (.refreshed key (s.db key) s.clock) }
  | .seed i =>
      match s.loc i with
      | .refreshed key value _ => some (s.put worker i key value .idle)
      | _ => none
  | .seedAndInvalidate w key value =>
      let c := ((s.caches w).set s.clock key value).pop key
      some { s with caches := Function.update s.caches w c, published := key :: s.published }
  | .invalidate w key publishes =>
      let s := s.drop w key
      some (if publishes then { s with published := key :: s.published } else s)
  | .deliver w key => if key ∈ s.published then some (s.drop w key) else none
  | .commit db => some { s with db }
  | .wait d => some { s with clock := s.clock + d }

/-- The database answers within `delay`: a request that has read a row stores it before that
time is over. -/
def InTime (delay : ℤ) (s : SnapshotFleet ω ι κ ν) : FleetLabel ω ι κ ν → Prop
  | .wait d => ∀ i key value readAt, (s.loc i).held = some (key, value, readAt) →
      s.clock + d ≤ readAt + delay
  | _ => True

/-! ### The entries of a cache -/

namespace TtlCache
variable {c : TtlCache κ ν ℤ} {now : ℤ} {key : κ} {value : ν} {e : κ × ℤ × ν}

/-- A read keeps no new entry. -/
theorem mem_get (h : e ∈ (c.get now key).2.data.entries) : e ∈ c.data.entries := by
  unfold get at h
  split at h
  · exact h
  · split_ifs at h
    · exact (OrderedDict.mem_erase.mp h).1
    · exact OrderedDict.mem_moveToEnd.mp h

/-- What a read answers is in an entry that has not expired. -/
theorem entry_of_get (h : (c.get now key).1 = some value) :
    ∃ expiresAt, (key, expiresAt, value) ∈ c.data.entries ∧ now < expiresAt := by
  unfold get at h
  split at h
  · cases h
  · next expiresAt value' hget =>
    split_ifs at h with hexpired
    cases h
    exact ⟨expiresAt, OrderedDict.get?_eq_some.mp hget, not_le.mp hexpired⟩

/-- A write adds one entry. -/
theorem mem_set (hfits : c.data.length ≤ c.maxsize) (h : e ∈ (c.set now key value).data.entries) :
    e ∈ c.data.entries ∨ e = (key, now + c.ttl, value) := by
  have hrenew : e ∈ (c.renew now key value).data.entries := by
    rw [set_eq hfits] at h
    split_ifs at h
    · exact List.mem_of_mem_tail h
    · exact h
  rw [entries_renew, List.mem_append, List.mem_singleton] at hrenew
  exact hrenew.imp_left fun hmem => (OrderedDict.mem_erase.mp hmem).1

theorem length_set_le (hfits : c.data.length ≤ c.maxsize) :
    (c.set now key value).data.length ≤ c.maxsize := by
  have hrenew : (c.renew now key value).data.length ≤ c.data.length + 1 := length_renew_le
  rw [set_eq hfits]
  split_ifs with hfull
  · show (c.renew now key value).data.popFirst.length ≤ c.maxsize
    rw [OrderedDict.length_popFirst]
    omega
  · exact not_lt.mp hfull

theorem length_get_le : (c.get now key).2.data.length ≤ c.data.length := by
  unfold get
  split
  · exact le_rfl
  · split_ifs
    · exact OrderedDict.length_erase_le
    · exact OrderedDict.length_moveToEnd.le

end TtlCache

/-! ### What backs an entry -/

section Backed
variable {worker : ι → ω} {s₀ s t : SnapshotFleet ω ι κ ν} {as : List (FleetLabel ω ι κ ν)}
  {a : FleetLabel ω ι κ ν} {key key' : κ} {value value' : Option ν} {lo hi lo' hi' : ℤ}
  {ttl delay now now' : ℤ} {c : TtlCache κ (Option ν) ℤ}

/-- At some moment of the run, from `lo` to `hi`, this was the row. -/
def WasCommitted (worker : ι → ω) (s₀ : SnapshotFleet ω ι κ ν) (as : List (FleetLabel ω ι κ ν))
    (key : κ) (value : Option ν) (lo hi : ℤ) : Prop :=
  Once (fleetStep worker) s₀ as fun t => t.db key = value ∧ lo ≤ t.clock ∧ t.clock ≤ hi

theorem WasCommitted.widen (h : WasCommitted worker s₀ as key value lo hi) (hlo : lo' ≤ lo)
    (hhi : hi ≤ hi') : WasCommitted worker s₀ as key value lo' hi' :=
  h.mono fun _ ht => ⟨ht.1, hlo.trans ht.2.1, ht.2.2.trans hhi⟩

/-- The entries of a cache are rows that were committed, and not long before they were stored. -/
structure CacheBacked (worker : ι → ω) (s₀ : SnapshotFleet ω ι κ ν)
    (as : List (FleetLabel ω ι κ ν)) (ttl delay now : ℤ) (c : TtlCache κ (Option ν) ℤ) : Prop where
  fits : c.data.length ≤ c.maxsize
  ttl_eq : c.ttl = ttl
  entry : ∀ key expiresAt value, (key, expiresAt, value) ∈ c.data.entries →
    WasCommitted worker s₀ as key value (expiresAt - ttl - delay) now

theorem CacheBacked.later (h : CacheBacked worker s₀ as ttl delay now c) (hnow : now ≤ now')
    (bs : List (FleetLabel ω ι κ ν)) : CacheBacked worker s₀ (as ++ bs) ttl delay now' c :=
  ⟨h.fits, h.ttl_eq, fun _ _ _ hmem =>
    WasCommitted.widen (Once.later (h.entry _ _ _ hmem) bs) le_rfl hnow⟩

theorem CacheBacked.get (h : CacheBacked worker s₀ as ttl delay now c) (at_ : ℤ) (key : κ) :
    CacheBacked worker s₀ as ttl delay now (c.get at_ key).2 := by
  refine ⟨?_, ?_, fun _ _ _ hmem => h.entry _ _ _ (TtlCache.mem_get hmem)⟩
  · have hconst : (c.get at_ key).2.maxsize = c.maxsize := (c.serve_const at_ (.get key)).1
    rw [hconst]
    exact TtlCache.length_get_le.trans h.fits
  · exact (c.serve_const at_ (.get key)).2.trans h.ttl_eq

theorem CacheBacked.pop (h : CacheBacked worker s₀ as ttl delay now c) (key : κ) :
    CacheBacked worker s₀ as ttl delay now (c.pop key) :=
  ⟨OrderedDict.length_erase_le.trans h.fits, h.ttl_eq,
    fun _ _ _ hmem => h.entry _ _ _ (OrderedDict.mem_erase.mp hmem).1⟩

/-- A row that was read in time may be stored. -/
theorem CacheBacked.set (h : CacheBacked worker s₀ as ttl delay now c)
    (hvalue : WasCommitted worker s₀ as key value (now - delay) now) :
    CacheBacked worker s₀ as ttl delay now (c.set now key value) := by
  refine ⟨TtlCache.length_set_le h.fits, h.ttl_eq, fun k expiresAt v hmem => ?_⟩
  obtain hmem | heq := TtlCache.mem_set h.fits hmem
  · exact h.entry k expiresAt v hmem
  · cases heq
    refine hvalue.widen ?_ le_rfl
    rw [h.ttl_eq]
    omega

/-- Any object may be stored that is dropped at once. -/
theorem CacheBacked.set_pop (h : CacheBacked worker s₀ as ttl delay now c) (key : κ)
    (value : Option ν) :
    CacheBacked worker s₀ as ttl delay now ((c.set now key value).pop key) := by
  refine ⟨OrderedDict.length_erase_le.trans (TtlCache.length_set_le h.fits), h.ttl_eq,
    fun k expiresAt v hmem => ?_⟩
  obtain ⟨hmem, hne⟩ := OrderedDict.mem_erase.mp hmem
  obtain hmem | heq := TtlCache.mem_set h.fits hmem
  · exact h.entry k expiresAt v hmem
  · cases heq
    exact absurd rfl hne

/-- A read that hits answers a row of the last `ttl + delay`. -/
theorem CacheBacked.hit (h : CacheBacked worker s₀ as ttl delay now c)
    (hget : (c.get now key).1 = some value) :
    WasCommitted worker s₀ as key value (now - ttl - delay + 1) now := by
  obtain ⟨expiresAt, hmem, hlt⟩ := TtlCache.entry_of_get hget
  exact (h.entry key expiresAt value hmem).widen (by omega) le_rfl

/-! ### The invariant -/

/-- Every entry and every row that a request holds was committed, and so was what was served. -/
structure FleetInv (worker : ι → ω) (s₀ : SnapshotFleet ω ι κ ν) (ttl delay : ℤ)
    (as : List (FleetLabel ω ι κ ν)) (s : SnapshotFleet ω ι κ ν) : Prop where
  cache : ∀ w, CacheBacked worker s₀ as ttl delay s.clock (s.caches w)
  held : ∀ i key value readAt, (s.loc i).held = some (key, value, readAt) →
    s.clock ≤ readAt + delay ∧ WasCommitted worker s₀ as key value readAt s.clock
  served : ∀ i key value servedAt, s.loc i = .served key value servedAt →
    WasCommitted worker s₀ as key value (servedAt - ttl - delay + 1) servedAt

/-- The past stays. -/
theorem FleetInv.later (h : FleetInv worker s₀ ttl delay as s) (bs : List (FleetLabel ω ι κ ν)) :
    FleetInv worker s₀ ttl delay (as ++ bs) s where
  cache w := (h.cache w).later le_rfl bs
  held i key value readAt hi :=
    ⟨(h.held i key value readAt hi).1, (h.held i key value readAt hi).2.later bs⟩
  served i key value servedAt hi := (h.served i key value servedAt hi).later bs

/-- What one worker or request does keeps the invariant, if what they become fits. -/
theorem FleetInv.update (h : FleetInv worker s₀ ttl delay as s) {w : ω} {i : ι}
    {l : SnapshotPhase κ ν}
    (hc : CacheBacked worker s₀ as ttl delay s.clock c)
    (hheld : ∀ key value readAt, l.held = some (key, value, readAt) →
      s.clock ≤ readAt + delay ∧ WasCommitted worker s₀ as key value readAt s.clock)
    (hserved : ∀ key value servedAt, l = .served key value servedAt →
      WasCommitted worker s₀ as key value (servedAt - ttl - delay + 1) servedAt) :
    FleetInv worker s₀ ttl delay as
      { s with caches := Function.update s.caches w c, loc := Function.update s.loc i l } where
  cache w' := by
    by_cases hw : w' = w
    · subst hw
      simpa using hc
    · simpa [hw] using h.cache w'
  held j key value readAt hj := by
    by_cases hji : j = i
    · subst hji
      exact hheld key value readAt (by simpa using hj)
    · exact h.held j key value readAt (by simpa [hji] using hj)
  served j key value servedAt hj := by
    by_cases hji : j = i
    · subst hji
      exact hserved key value servedAt (by simpa using hj)
    · exact h.served j key value servedAt (by simpa [hji] using hj)

/-- What one worker does to its cache alone. -/
theorem FleetInv.updateCache (h : FleetInv worker s₀ ttl delay as s) {w : ω} {published : List κ}
    (hc : CacheBacked worker s₀ as ttl delay s.clock c) :
    FleetInv worker s₀ ttl delay as
      { s with caches := Function.update s.caches w c, published } where
  cache w' := by
    by_cases hw : w' = w
    · subst hw
      simpa using hc
    · simpa [hw] using h.cache w'
  held := h.held
  served := h.served

/-- What one request does without the cache. -/
theorem FleetInv.updateLoc (h : FleetInv worker s₀ ttl delay as s) {i : ι}
    {l : SnapshotPhase κ ν}
    (hheld : ∀ key value readAt, l.held = some (key, value, readAt) →
      s.clock ≤ readAt + delay ∧ WasCommitted worker s₀ as key value readAt s.clock)
    (hserved : ∀ key value servedAt, l ≠ .served key value servedAt) :
    FleetInv worker s₀ ttl delay as { s with loc := Function.update s.loc i l } := by
  have hupdate := h.update (w := worker i) (i := i) (h.cache (worker i)) hheld
    fun key value servedAt heq => absurd heq (hserved key value servedAt)
  rwa [Function.update_eq_self] at hupdate

variable {i : ι}

/-- A request stores the row that it holds. -/
theorem FleetInv.put (h : FleetInv worker s₀ ttl delay as s) (httl : 0 < ttl)
    {readAt : ℤ} (hi : (s.loc i).held = some (key, value, readAt)) {l : SnapshotPhase κ ν}
    (hl : l = .idle ∨ l = .served key value s.clock) :
    FleetInv worker s₀ ttl delay as (s.put worker i key value l) := by
  obtain ⟨hlate, hread⟩ := h.held i key value readAt hi
  have hvalue : WasCommitted worker s₀ as key value (s.clock - delay) s.clock :=
    hread.widen (by omega) le_rfl
  refine h.update ((h.cache (worker i)).set hvalue) ?_ ?_
  · intro key' value' readAt' heq
    obtain rfl | rfl := hl
    · cases heq
    · cases heq
  · intro key' value' servedAt heq
    obtain rfl | rfl := hl
    · cases heq
    · cases heq
      exact hvalue.widen (by omega) le_rfl

/-- **One step** keeps the invariant, if the database answers in time. -/
theorem fleetInv_step (hdelay : 0 ≤ delay) (httl : 0 < ttl)
    (hrun : run (fleetStep worker) as s₀ = some s) (hP : InTime delay s a)
    (h : FleetInv worker s₀ ttl delay as s) (hstep : fleetStep worker s a = some t) :
    FleetInv worker s₀ ttl delay (as ++ [a]) t := by
  suffices hnext : FleetInv worker s₀ ttl delay as t from hnext.later [a]
  -- The row of now is a committed row.
  have hnow : ∀ key, s.clock ≤ s.clock + delay ∧
      WasCommitted worker s₀ as key (s.db key) s.clock s.clock := fun key =>
    ⟨by omega, Once.now hrun ⟨rfl, le_rfl, le_rfl⟩⟩
  cases a with
  | lookup i key =>
      cases hstep
      refine h.update ((h.cache (worker i)).get s.clock key) ?_ ?_
      · intro key' value' readAt heq
        split at heq
        · cases heq
        · cases heq
      · intro key' value' servedAt heq
        split at heq
        · next value hget =>
          cases heq
          exact (h.cache (worker i)).hit hget
        · cases heq
  | select i =>
      rw [fleetStep] at hstep
      split at hstep
      · next key hi =>
        cases hstep
        refine h.updateLoc (fun key' value' readAt heq => ?_) nofun
        cases heq
        exact hnow key
      · cases hstep
  | store i =>
      rw [fleetStep] at hstep
      split at hstep
      · next key value readAt hi =>
        cases hstep
        exact h.put httl (by rw [hi]; rfl) (.inr rfl)
      · cases hstep
  | refresh i key =>
      cases hstep
      refine h.updateLoc (fun key' value' readAt heq => ?_) nofun
      cases heq
      exact hnow key
  | seed i =>
      rw [fleetStep] at hstep
      split at hstep
      · next key value readAt hi =>
        cases hstep
        exact h.put httl (by rw [hi]; rfl) (.inl rfl)
      · cases hstep
  | seedAndInvalidate w key value =>
      cases hstep
      exact h.updateCache ((h.cache w).set_pop key value)
  | invalidate w key publishes =>
      cases publishes with
      | true =>
          cases hstep
          exact h.updateCache ((h.cache w).pop key)
      | false =>
          cases hstep
          exact h.updateCache ((h.cache w).pop key)
  | deliver w key =>
      rw [fleetStep] at hstep
      split_ifs at hstep
      cases hstep
      exact h.updateCache ((h.cache w).pop key)
  | commit db =>
      cases hstep
      exact ⟨h.cache, h.held, h.served⟩
  | wait d =>
      cases hstep
      refine ⟨fun w => ?_, fun i key value readAt hi => ⟨hP i key value readAt hi, ?_⟩, h.served⟩
      · have hlater := (h.cache w).later (show s.clock ≤ s.clock + d by omega) []
        rwa [List.append_nil] at hlater
      · exact (h.held i key value readAt hi).2.widen le_rfl (by simp)

theorem fleetInv_start (worker : ι → ω) (db : κ → Option ν) (clock : ℤ) (maxsize : ℕ) :
    FleetInv worker (.start db clock (.init maxsize ttl)) ttl delay []
      (.start db clock (.init maxsize ttl)) :=
  ⟨fun _ => ⟨Nat.zero_le _, rfl, fun _ _ _ hmem => absurd hmem List.not_mem_nil⟩, nofun, nofun⟩

/-- **Every run** in which the database answers in time keeps the invariant. -/
theorem fleetInv_run (hdelay : 0 ≤ delay) (httl : 0 < ttl) {db : κ → Option ν} {clock : ℤ}
    {maxsize : ℕ}
    (hal : Along (fleetStep worker) (InTime delay) as (.start db clock (.init maxsize ttl)))
    (hrun : run (fleetStep worker) as (.start db clock (.init maxsize ttl)) = some t) :
    FleetInv worker (.start db clock (.init maxsize ttl)) ttl delay as t :=
  run_induction_history (fleetInv_start worker db clock maxsize)
    (fun _ _ _ _ hrun hP h hstep => fleetInv_step hdelay httl hrun hP h hstep) hal hrun

end Backed

/-! ### What a decision can rest on -/

section Decisions
variable {ω : Type u} {ι : Type v} [DecidableEq ω] [DecidableEq ι] {worker : ι → ω} {i : ι}
  {clock since delay servedAt id : ℤ} {gate : Gate} {req : ClientRequest}

/-- `_apikey_cache`, and `_user_cache` which is as large and keeps an entry as long. -/
def snapshotCache {ν : Type x} : TtlCache ℤ (Option ν) ℤ := .init 10000 snapshotTtl

theorem snapshotTtl_pos : 0 < snapshotTtl := by decide

/-- What holds of a row from some time on holds of what is served a while later. -/
theorem served_after {ν : Type x} {db : ℤ → Option ν} {as : List (FleetLabel ω ι ℤ ν)}
    {t : SnapshotFleet ω ι ℤ ν} {value : Option ν} {P : Option ν → Prop} (hdelay : 0 ≤ delay)
    (hal : Along (fleetStep worker) (InTime delay) as (.start db clock snapshotCache))
    (hrun : run (fleetStep worker) as (.start db clock snapshotCache) = some t)
    (hsince : ∀ bs s, bs <+: as →
      run (fleetStep worker) bs (.start db clock snapshotCache) = some s →
      since ≤ s.clock → P (s.db id))
    (hi : t.loc i = .served id value servedAt) (hlate : since + snapshotTtl + delay ≤ servedAt) :
    P value := by
  have hwas := (fleetInv_run hdelay snapshotTtl_pos hal hrun).served i id value servedAt hi
  obtain ⟨s, ⟨hdb, hlo, -⟩, hP⟩ := hwas.elim hsince
  exact hdb ▸ hP (by omega)

/-- **A snapshot that is served was committed not long ago.**  In every run of any number of
workers in which the database answers within `delay`, what a look-up of a key answers was its row
at some moment of the last `_APIKEY_TTL + delay`, whichever messages are lost. -/
theorem served_once_committed {db : ℤ → Option ApiKeySnapshot}
    {as : List (FleetLabel ω ι ℤ ApiKeySnapshot)} {t : SnapshotFleet ω ι ℤ ApiKeySnapshot}
    {value : Option ApiKeySnapshot} (hdelay : 0 ≤ delay)
    (hal : Along (fleetStep worker) (InTime delay) as (.start db clock snapshotCache))
    (hrun : run (fleetStep worker) as (.start db clock snapshotCache) = some t)
    (hi : t.loc i = .served id value servedAt) :
    WasCommitted worker (.start db clock snapshotCache) as id value
      (servedAt - snapshotTtl - delay + 1) servedAt :=
  (fleetInv_run hdelay snapshotTtl_pos hal hrun).served i id value servedAt hi

/-- Every key is there, with this status. -/
def allKeys (status : KeyStatus) (id : ℤ) : Option ApiKeySnapshot :=
  some ⟨id, 1, status, 0, .untilDepleted, none, none, none, none⟩

/-- The snapshot of a key is cached, the keys are deleted, and a microsecond later the key is
looked up again. -/
def deletedKeys : List (FleetLabel Unit Bool ℤ ApiKeySnapshot) :=
  [.lookup false 7, .select false, .store false, .commit fun _ => none, .wait 1, .lookup true 7]

/-- It is still served. -/
theorem served_once_committed_stale :
    ∃ t, run (fleetStep fun _ => ()) deletedKeys (.start (allKeys .active) 0 snapshotCache) =
        some t ∧ t.db 7 = none ∧ t.loc true = .served 7 (allKeys .active 7) 1 ∧
      WasCommitted (fun _ => ()) (.start (allKeys .active) 0 snapshotCache) deletedKeys 7
        (allKeys .active 7) (1 - snapshotTtl - 0 + 1) 1 := by
  have hal : Along (fleetStep fun _ => ()) (InTime 0) deletedKeys
      (.start (allKeys .active) 0 snapshotCache) := by
    refine ⟨trivial, fun s₁ h₁ => ⟨trivial, fun s₂ h₂ => ⟨trivial, fun s₃ h₃ => ⟨trivial,
      fun s₄ h₄ => ⟨?_, fun s₅ _ => ⟨trivial, fun _ _ => trivial⟩⟩⟩⟩⟩⟩
    cases h₁
    cases h₂
    cases h₃
    cases h₄
    intro i key value readAt hheld
    cases i with
    | false => cases hheld
    | true => cases hheld
  have hserved : (run (fleetStep fun _ => ()) deletedKeys
      (.start (allKeys .active) 0 snapshotCache)).any (fun t =>
        t.db 7 = none ∧ t.loc true = .served 7 (allKeys .active 7) 1) = true := by
    decide +kernel
  obtain ⟨t, hrun, ht⟩ := (Option.any_eq_true _ _).mp hserved
  obtain ⟨hdb, hi⟩ := of_decide_eq_true ht
  exact ⟨t, hrun, hdb, hi, served_once_committed le_rfl hal hrun hi⟩

/-- **A key that is revoked is soon refused everywhere.**  Where no state from `since` on has an
active row for the key, no worker lets a request with it pass from `_APIKEY_TTL` after that, and
the time the database may take, even if it never hears of the change. -/
theorem revoked_key_denied {db : ℤ → Option ApiKeySnapshot}
    {as : List (FleetLabel ω ι ℤ ApiKeySnapshot)} {t : SnapshotFleet ω ι ℤ ApiKeySnapshot}
    {value : Option ApiKeySnapshot} (hdelay : 0 ≤ delay)
    (hal : Along (fleetStep worker) (InTime delay) as (.start db clock snapshotCache))
    (hrun : run (fleetStep worker) as (.start db clock snapshotCache) = some t)
    (hrevoked : ∀ bs s, bs <+: as →
      run (fleetStep worker) bs (.start db clock snapshotCache) = some s →
      since ≤ s.clock → ∀ snap, s.db id = some snap → snap.status ≠ .active)
    (hi : t.loc i = .served id value servedAt) (hlate : since + snapshotTtl + delay ≤ servedAt)
    (user : Option UserSnapshot) (headers : Headers) :
    decideRequest (gate.withSnapshots value user) req ≠ .allow headers := by
  have hvalue : ∀ snap, value = some snap → snap.status ≠ .active :=
    served_after (P := fun v => ∀ snap, v = some snap → snap.status ≠ .active)
      hdelay hal hrun hrevoked hi hlate
  intro hallow
  obtain ⟨snap, rfl, hactive, -⟩ := decideRequest_withSnapshots hallow
  exact hvalue snap rfl hactive

/-- A key is cached; then the keys are disabled, and it is looked up again some time later. -/
def disabledKeys (later : ℕ) : List (FleetLabel Unit Unit ℤ ApiKeySnapshot) :=
  [.lookup () 7, .select (), .store (), .commit (allKeys .disabled), .wait later, .lookup () 7,
    .select (), .store ()]

/-- An active user. -/
def someUser : Option UserSnapshot := some ⟨.active, 60⟩

/-- A request for the list of models with one of the keys. -/
def listWithKey : ClientRequest :=
  ⟨[(str ":path", str "/v1/models"), (str "x-api-key", str "sk-1")], [],
    ⟨str "0123456789abcdef", length_hexDigits⟩⟩

/-- The request passes with the snapshot that was cached first, and is refused after half a
minute. -/
theorem revoked_key_denied_disabled :
    ∃ s t, run (fleetStep fun _ => ()) ((disabledKeys 30000001).take 3)
          (.start (allKeys .active) 0 snapshotCache) = some s ∧
        s.loc () = .served 7 (allKeys .active 7) 0 ∧
        (∃ headers, decideRequest (openGate.withSnapshots (allKeys .active 7) someUser)
          listWithKey = .allow headers) ∧
      run (fleetStep fun _ => ()) (disabledKeys 30000001)
          (.start (allKeys .active) 0 snapshotCache) = some t ∧
        t.loc () = .served 7 (allKeys .disabled 7) 30000001 ∧
        ∀ headers, decideRequest (openGate.withSnapshots (allKeys .disabled 7) someUser)
          listWithKey ≠ .allow headers := by
  have hal : ∀ later, Along (fleetStep fun _ => ()) (InTime 0) (disabledKeys later)
      (.start (allKeys .active) 0 snapshotCache) := by
    intro later
    refine ⟨trivial, fun s₁ h₁ => ⟨trivial, fun s₂ h₂ => ⟨trivial, fun s₃ h₃ => ⟨trivial,
      fun s₄ h₄ => ⟨?_, fun _ _ => ⟨trivial, fun _ _ => ⟨trivial, fun _ _ => ⟨trivial,
        fun _ _ => trivial⟩⟩⟩⟩⟩⟩⟩⟩
    cases h₁
    cases h₂
    cases h₃
    cases h₄
    intro i key value readAt hheld
    cases hheld
  have hrows : ∀ bs ∈ (disabledKeys 30000001).inits,
      ∀ s ∈ run (fleetStep fun _ => ()) bs (.start (allKeys .active) 0 snapshotCache),
      1 ≤ s.clock → ∀ snap ∈ s.db 7, snap.status ≠ .active := by
    decide +kernel
  have hrevoked : ∀ bs s, bs <+: disabledKeys 30000001 →
      run (fleetStep fun _ => ()) bs (.start (allKeys .active) 0 snapshotCache) = some s →
      1 ≤ s.clock → ∀ snap, s.db 7 = some snap → snap.status ≠ .active :=
    fun bs s hbs hs => hrows bs ((List.mem_inits _ _).mpr hbs) s hs
  have hserved : (run (fleetStep fun _ => ()) (disabledKeys 30000001)
      (.start (allKeys .active) 0 snapshotCache)).any (fun t =>
        t.loc () = .served 7 (allKeys .disabled 7) 30000001) = true := by
    decide +kernel
  obtain ⟨t, hrun, hi⟩ := (Option.any_eq_true _ _).mp hserved
  have hlate : (1 : ℤ) + snapshotTtl + 0 ≤ 30000001 := by decide
  refine ⟨_, t, rfl, rfl, ⟨_, rfl⟩, hrun, of_decide_eq_true hi, fun headers => ?_⟩
  exact revoked_key_denied le_rfl (hal _) hrun hrevoked (of_decide_eq_true hi) hlate someUser
    headers

/-- **The same of a user** that is disabled, whatever the limits of its plan. -/
theorem revoked_user_denied {db : ℤ → Option UserStatus}
    {as : List (FleetLabel ω ι ℤ UserStatus)} {t : SnapshotFleet ω ι ℤ UserStatus}
    {value : Option UserStatus} (hdelay : 0 ≤ delay)
    (hal : Along (fleetStep worker) (InTime delay) as (.start db clock snapshotCache))
    (hrun : run (fleetStep worker) as (.start db clock snapshotCache) = some t)
    (hrevoked : ∀ bs s, bs <+: as →
      run (fleetStep worker) bs (.start db clock snapshotCache) = some s →
      since ≤ s.clock → s.db id ≠ some .active)
    (hi : t.loc i = .served id value servedAt) (hlate : since + snapshotTtl + delay ≤ servedAt)
    (key : Option ApiKeySnapshot) (planRpm : ℤ) (headers : Headers) :
    decideRequest (gate.withSnapshots key (value.map fun status => ⟨status, planRpm⟩)) req ≠
      .allow headers := by
  have hvalue : value ≠ some .active :=
    served_after (P := fun v => v ≠ some .active) hdelay hal hrun hrevoked hi hlate
  intro hallow
  obtain ⟨-, -, -, snap, hsnap, hactive⟩ := decideRequest_withSnapshots hallow
  obtain ⟨status, rfl, rfl⟩ := Option.map_eq_some_iff.mp hsnap
  exact hvalue (congrArg some hactive)

end Decisions
end Llmxy
