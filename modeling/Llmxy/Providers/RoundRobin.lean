import Llmxy.Lib.Machine
import Llmxy.Providers.Router
import Mathlib.Data.List.Rotate

/-!
# Taking turns

A round robin asks Redis for the next value of a cursor that all workers share, and falls back
on a cursor of its own when Redis does not give one.  Requests of any routes are under way on any
number of workers, and each has its reply at some time after Redis has counted.

While Redis counts, every request of a route obtains its cursor and picks by it in two moves, so
`k` consecutive picks are the `k` enabled targets in their order, from somewhere in it.

## Main definitions

* `Cursors`, `robinStep` — the cursors, and a request of `_round_robin_pick`.
* `RobinOrder` — the requests of a route in the order of their cursors.
* `RobinMoves` — how far a request has come by its moves.
* `roundRobin_fair` — consecutive picks are a rotation of the enabled targets.
-/

namespace Llmxy
open Admin

/-! ### Requests -/

/-- `_ROUND_ROBIN_KEY_PREFIX` and the key of a policy. -/
def cursorKey (policy : Admin.RoutePolicy) : Str :=
  str "llmxy:route:round_robin" ++ str ":" ++
    (if policy.id = 0 then policy.userFacingModel else showInt policy.id)

/-- The largest value Redis counts to. -/
def maxRedisInt : ℤ := 2 ^ 63 - 1

/-- The cursors in Redis, and the `_local_round_robin_cursors` of each worker. -/
structure Cursors (W : Type) where
  shared : Str → ℤ
  own : W → Str → ℤ

/-- Where a request stands: it has asked, it has the reply of Redis or an error, or it has
picked, with the shared cursor it obtained. -/
inductive RobinPhase where
  | asking
  | replied (value : ℤ)
  | unavailable
  | picked (cursor : Option ℤ) (primary : Option RoutePair)

/-- The shared cursor a request has obtained. -/
def RobinPhase.cursor : RobinPhase → Option ℤ
  | replied value => some (value - 1)
  | picked cursor _ => cursor
  | _ => none

/-- The request has picked. -/
def RobinPhase.finished : RobinPhase → Prop
  | picked _ _ => True
  | _ => False

/-- What a request has picked. -/
def RobinPhase.primary : RobinPhase → Option RoutePair
  | picked _ primary => primary
  | _ => none

/-- A request for a route, on a worker. -/
structure RobinRequest (W : Type) where
  policy : Admin.RoutePolicy
  worker : W

/-- The moves of a request in `_round_robin_pick`. -/
def robinStep {W : Type} [DecidableEq W] (tables : RouteTables) (req : RobinRequest W)
    (cursors : Cursors W) : RobinPhase → Option (Cursors W × RobinPhase)
  | .asking =>
      let key := cursorKey req.policy
      if (uniquePairs (orderedTargets req.policy tables)).isEmpty then
        some (cursors, .picked none none)
      else if cursors.shared key < maxRedisInt then
        some ({ cursors with shared := Function.update cursors.shared key (cursors.shared key + 1) },
          .replied (cursors.shared key + 1))
      else some (cursors, .unavailable)
  | .replied value =>
      some (cursors, .picked (some (value - 1))
        (roundRobinPick (value - 1) (orderedTargets req.policy tables)))
  | .unavailable =>
      let key := cursorKey req.policy
      let cursor := cursors.own req.worker key
      let own := Function.update (cursors.own req.worker) key (cursor + 1)
      some ({ cursors with own := Function.update cursors.own req.worker own },
        .picked none (roundRobinPick cursor (orderedTargets req.policy tables)))
  | .picked _ _ => none

section
variable {W : Type} [DecidableEq W] {tables : RouteTables} {req : RobinRequest W}
  {cursors cursors' : Cursors W} {phase phase' : RobinPhase}

/-- A move obtains the shared cursor, which it moves on, or neither changes. -/
theorem robinStep_cases (h : robinStep tables req cursors phase = some (cursors', phase')) :
    phase.cursor = none ∧ phase'.cursor = some (cursors.shared (cursorKey req.policy)) ∧
        cursors'.shared = Function.update cursors.shared (cursorKey req.policy)
          (cursors.shared (cursorKey req.policy) + 1) ∨
      phase'.cursor = phase.cursor ∧ cursors'.shared = cursors.shared := by
  cases phase with
  | asking =>
      simp only [robinStep] at h
      split_ifs at h
      · cases h
        exact .inr ⟨rfl, rfl⟩
      · cases h
        exact .inl ⟨rfl, by simp [RobinPhase.cursor], rfl⟩
      · cases h
        exact .inr ⟨rfl, rfl⟩
  | replied value =>
      cases h
      exact .inr ⟨rfl, rfl⟩
  | unavailable =>
      cases h
      exact .inr ⟨rfl, rfl⟩
  | picked cursor primary => cases h

/-- What a request picks is decided by the shared cursor, if it has obtained it. -/
theorem robinStep_picked {c : ℤ} {primary : Option RoutePair}
    (h : robinStep tables req cursors phase = some (cursors', .picked (some c) primary)) :
    primary = roundRobinPick c (orderedTargets req.policy tables) := by
  cases phase with
  | asking =>
      simp only [robinStep] at h
      split_ifs at h <;> cases h
  | replied value =>
      cases h
      rfl
  | unavailable => cases h
  | picked cursor primary => cases h

end

/-! ### The keys of the cursors -/

/-- Two routes share no cursor. -/
theorem cursorKey_inj {p q : Admin.RoutePolicy} (hp : 0 < p.id) (hq : 0 < q.id)
    (h : cursorKey p = cursorKey q) : p.id = q.id := by
  rw [cursorKey, cursorKey, if_neg hp.ne', if_neg hq.ne'] at h
  exact showInt_injective (List.append_cancel_left h)

/-! ### Rotations -/

/-- Counting through a list from anywhere gives a rotation of it. -/
theorem map_getElem?_mod {α : Type} {l : List α} (hl : l ≠ []) (c : ℤ) :
    (List.range l.length).map (fun j : ℕ => l[((c + j) % l.length).toNat]?) =
      (l.rotate (c % l.length).toNat).map some := by
  have hlen : 0 < l.length := List.length_pos_iff.mpr hl
  refine List.ext_getElem (by simp) fun j hj _ => ?_
  have hj : j < l.length := by simpa using hj
  have hnonneg := Int.emod_nonneg c (by omega : (l.length : ℤ) ≠ 0)
  have hindex : ((c + j) % l.length).toNat = (j + (c % l.length).toNat) % l.length := by
    have hcast : (((j + (c % l.length).toNat) % l.length : ℕ) : ℤ) = (c + j) % l.length := by
      push_cast
      rw [Int.toNat_of_nonneg hnonneg, Int.add_emod, Int.emod_emod, ← Int.add_emod, add_comm]
    rw [← hcast, Int.toNat_natCast]
  rw [List.getElem_map, List.getElem_map, List.getElem_range, hindex, List.getElem_rotate,
    List.getElem?_eq_getElem (Nat.mod_lt _ hlen)]

/-! ### The order of the requests -/

section
variable {ι W : Type}

/-- The requests of a route that have obtained a shared cursor, in the order of their cursors,
which are those from `first` on. -/
structure RobinOrder (policy : Admin.RoutePolicy) (req : ι → RobinRequest W) (first : ℤ)
    (s : Net ι (Cursors W) RobinPhase) (order : List ι) : Prop where
  nodup : order.Nodup
  mem : ∀ i, i ∈ order ↔ (req i).policy.id = policy.id ∧ ∃ c, (s.loc i).cursor = some c
  cursor : ∀ n (h : n < order.length), (s.loc order[n]).cursor = some (first + n)

/-- The next cursor of a route is the one after those obtained, and each request of the route
with a cursor picks by it. -/
structure RobinInv (tables : RouteTables) (policy : Admin.RoutePolicy)
    (req : ι → RobinRequest W) (first : ℤ) (s : Net ι (Cursors W) RobinPhase) : Prop where
  order : ∃ order, RobinOrder policy req first s order ∧
    s.shared.shared (cursorKey policy) = first + order.length
  picked : ∀ i c primary, s.loc i = .picked (some c) primary →
    primary = roundRobinPick c (orderedTargets (req i).policy tables)

variable {tables : RouteTables} {policy : Admin.RoutePolicy} {req : ι → RobinRequest W}
  {first : ℤ} {s t : Net ι (Cursors W) RobinPhase} {order : List ι} {i : ι}

/-- A request that is given a cursor of the route joins the order. -/
theorem RobinOrder.concat (h : RobinOrder policy req first s order)
    (hid : (req i).policy.id = policy.id) (hnone : (s.loc i).cursor = none)
    (hcursor : (t.loc i).cursor = some (first + order.length))
    (hother : ∀ j ≠ i, t.loc j = s.loc j) : RobinOrder policy req first t (order ++ [i]) := by
  have hnew : i ∉ order := by
    intro hi
    obtain ⟨-, c, hc⟩ := (h.mem i).mp hi
    rw [hnone] at hc
    cases hc
  refine ⟨List.nodup_append.mpr ⟨h.nodup, List.nodup_singleton i, ?_⟩, fun j => ?_, ?_⟩
  · intro j hj k hk heq
    rw [heq, List.mem_singleton.mp hk] at hj
    exact hnew hj
  · by_cases hj : j = i
    · subst hj
      simp [hid, hcursor]
    · rw [List.mem_append, List.mem_singleton, h.mem, hother j hj]
      simp [hj]
  · intro n hn
    rw [List.length_append, List.length_singleton] at hn
    obtain hlt | rfl : n < order.length ∨ n = order.length := by omega
    · rw [List.getElem_append_left hlt, hother _ fun heq => hnew (heq ▸ List.getElem_mem hlt)]
      exact h.cursor n hlt
    · simpa using hcursor

/-- A request that is given nothing of the route leaves the order as it is. -/
theorem RobinOrder.keep (h : RobinOrder policy req first s order)
    (hsame : (req i).policy.id = policy.id → (t.loc i).cursor = (s.loc i).cursor)
    (hother : ∀ j ≠ i, t.loc j = s.loc j) : RobinOrder policy req first t order := by
  have hcursor : ∀ j, (req j).policy.id = policy.id → (t.loc j).cursor = (s.loc j).cursor := by
    intro j hid
    by_cases hj : j = i
    · subst hj
      exact hsame hid
    · rw [hother j hj]
  refine ⟨h.nodup, fun j => ?_, fun n hn => ?_⟩
  · rw [h.mem, and_congr_right_iff]
    intro hid
    rw [hcursor j hid]
  · rw [hcursor _ ((h.mem _).mp (List.getElem_mem hn)).1]
    exact h.cursor n hn

/-! ### Consecutive picks -/

/-- A request that has obtained a cursor and has finished has picked a target by it. -/
theorem primary_of_finished {phase : RobinPhase} {c : ℤ} (hfinished : phase.finished)
    (hcursor : phase.cursor = some c)
    (hpicked : ∀ c primary, phase = .picked (some c) primary →
      primary = roundRobinPick c (orderedTargets policy tables)) :
    phase.primary = roundRobinPick c (orderedTargets policy tables) := by
  cases phase with
  | picked cursor primary =>
      have hc : cursor = some c := hcursor
      subst hc
      exact hpicked c primary rfl
  | _ => cases hfinished

/-- As many consecutive requests as there are targets, all of which have picked, have picked a
rotation of the targets. -/
theorem RobinOrder.window (h : RobinOrder policy req first s order)
    (hpicked : ∀ i c primary, (req i).policy.id = policy.id → s.loc i = .picked (some c) primary →
      primary = roundRobinPick c (orderedTargets policy tables))
    (hne : uniquePairs (orderedTargets policy tables) ≠ []) (n : ℕ)
    (hroom : n + (uniquePairs (orderedTargets policy tables)).length ≤ order.length)
    (hfinished : ∀ i ∈ (order.drop n).take (uniquePairs (orderedTargets policy tables)).length,
      (s.loc i).finished) :
    ∃ picks : List RoutePair,
      ((order.drop n).take (uniquePairs (orderedTargets policy tables)).length).map
        (fun i => (s.loc i).primary) = picks.map some ∧
      picks.IsRotated (uniquePairs (orderedTargets policy tables)) := by
  set targets := uniquePairs (orderedTargets policy tables) with htargets
  refine ⟨targets.rotate ((first + n) % targets.length).toNat, ?_, List.IsRotated.forall targets _⟩
  rw [← map_getElem?_mod hne]
  refine List.ext_getElem (by simp; omega) fun j hj _ => ?_
  have hj : j < targets.length := by
    rw [List.length_map, List.length_take] at hj
    omega
  have hindex : n + j < order.length := by omega
  have hmem : order[n + j] ∈ (order.drop n).take targets.length := by
    refine List.mem_take_iff_getElem.mpr ⟨j, by simp; omega, ?_⟩
    rw [List.getElem_drop]
  have hid := ((h.mem _).mp (List.getElem_mem hindex)).1
  have hprimary := primary_of_finished (hfinished _ hmem) (h.cursor (n + j) hindex)
    fun c primary hphase => hpicked _ c primary hid hphase
  rw [List.getElem_map, List.getElem_map, List.getElem_range, List.getElem_take,
    List.getElem_drop, hprimary, roundRobinPick, ← htargets]
  push_cast
  rw [add_assoc]

/-! ### Every run -/

variable [DecidableEq ι] [DecidableEq W]

/-- The moves of all requests. -/
def robinNet (tables : RouteTables) (req : ι → RobinRequest W) :
    Net ι (Cursors W) RobinPhase → ι → Option (Net ι (Cursors W) RobinPhase) :=
  Net.step fun i => robinStep tables (req i)

/-- Every move keeps the invariant of every route. -/
theorem robinInv_step (hpolicy : 0 < policy.id) (hids : ∀ i, 0 < (req i).policy.id)
    (hsame : ∀ i, (req i).policy.id = policy.id → (req i).policy = policy)
    (h : RobinInv tables policy req first s) (hstep : robinNet tables req s i = some t) :
    RobinInv tables policy req first t := by
  have hother : ∀ j ≠ i, t.loc j = s.loc j := fun j hj => Net.step_loc_other hstep hj
  obtain ⟨shared, phase, hprog, rfl⟩ := Net.step_eq_some.mp hstep
  obtain ⟨order, horder, hshared⟩ := h.order
  have hphase : (⟨shared, Function.update s.loc i phase⟩ : Net ι (Cursors W) RobinPhase).loc i =
      phase := Function.update_self i phase s.loc
  constructor
  · obtain ⟨hnone, hcursor, hnext⟩ | ⟨hcursor, hnext⟩ := robinStep_cases hprog
    · by_cases hid : (req i).policy.id = policy.id
      · rw [hsame i hid, hshared] at hcursor hnext
        refine ⟨order ++ [i], horder.concat hid hnone (by rw [hphase]; exact hcursor) hother, ?_⟩
        simp only [hnext, Function.update_self, List.length_append, List.length_singleton]
        push_cast
        omega
      · refine ⟨order, horder.keep (fun h => absurd h hid) hother, ?_⟩
        have hkey : cursorKey policy ≠ cursorKey (req i).policy :=
          fun heq => hid (cursorKey_inj hpolicy (hids i) heq).symm
        simp only [hnext, Function.update_of_ne hkey, hshared]
    · refine ⟨order, horder.keep (fun _ => by rw [hphase]; exact hcursor) hother, ?_⟩
      simp only [hnext, hshared]
  · intro j c primary hj
    by_cases hji : j = i
    · subst hji
      rw [hphase] at hj
      subst hj
      exact robinStep_picked hprog
    · rw [hother j hji] at hj
      exact h.picked j c primary hj

/-- How far a request has come by its moves, of which these are done.  It does without the shared
cursor only when Redis counts no further. -/
def RobinMoves (tables : RouteTables) (req : ι → RobinRequest W) (done : List ι)
    (s : Net ι (Cursors W) RobinPhase) : Prop :=
  ∀ i, match s.loc i with
    | .asking => done.count i = 0
    | .replied _ => done.count i = 1
    | .unavailable => maxRedisInt ≤ s.shared.shared (cursorKey (req i).policy)
    | .picked none _ => uniquePairs (orderedTargets (req i).policy tables) = [] ∨
        maxRedisInt ≤ s.shared.shared (cursorKey (req i).policy)
    | .picked (some _) _ => True

/-- The shared cursors only move on. -/
theorem shared_mono {cursors cursors' : Cursors W} {phase phase' : RobinPhase}
    {r : RobinRequest W} (h : robinStep tables r cursors phase = some (cursors', phase'))
    (key : Str) : cursors.shared key ≤ cursors'.shared key := by
  obtain ⟨-, -, hnext⟩ | ⟨-, hnext⟩ := robinStep_cases h
  · rw [hnext]
    by_cases hkey : key = cursorKey r.policy
    · rw [hkey, Function.update_self]
      omega
    · rw [Function.update_of_ne hkey]
  · rw [hnext]

/-- Every move is one of a request that asks, picks by its reply, or picks by its own cursor. -/
theorem robinMoves_step {done : List ι} (h : RobinMoves tables req done s)
    (hstep : robinNet tables req s i = some t) : RobinMoves tables req (done ++ [i]) t := by
  intro j
  have hj := h j
  obtain ⟨shared, phase, hprog, rfl⟩ := Net.step_eq_some.mp hstep
  by_cases hji : j = i
  · subst hji
    have hcount : (done ++ [j]).count j = done.count j + 1 := by simp
    simp only [Function.update_self, hcount]
    cases hphase : s.loc j with
    | asking =>
        rw [hphase] at hj hprog
        simp only [robinStep] at hprog
        split_ifs at hprog with hnone hcounts
        · cases hprog
          exact .inl (List.isEmpty_iff.mp hnone)
        · cases hprog
          simp only [hj]
        · cases hprog
          exact not_lt.mp hcounts
    | replied value =>
        rw [hphase] at hprog
        cases hprog
        trivial
    | unavailable =>
        rw [hphase] at hj hprog
        cases hprog
        exact .inr hj
    | picked cursor primary =>
        rw [hphase] at hprog
        cases hprog
  · have hcount : (done ++ [i]).count j = done.count j := by simp [Ne.symm hji]
    have hmono := shared_mono hprog (cursorKey (req j).policy)
    simp only [Function.update_of_ne hji, hcount]
    cases hphase : s.loc j with
    | asking =>
        rw [hphase] at hj
        exact hj
    | replied value =>
        rw [hphase] at hj
        exact hj
    | unavailable =>
        rw [hphase] at hj
        exact hj.trans hmono
    | picked cursor primary =>
        rw [hphase] at hj
        cases cursor with
        | none => exact hj.imp_right fun hmax => hmax.trans hmono
        | some c => trivial

/-- A request has picked a target by the shared cursor, or it can move and has made fewer than two
moves. -/
def PicksInTwoMoves (tables : RouteTables) (req : ι → RobinRequest W) (done : List ι)
    (s : Net ι (Cursors W) RobinPhase) (targets : List RoutePair) (i : ι) : Prop :=
  (∃ c p, s.loc i = .picked (some c) (some p) ∧ p ∈ targets) ∨
    done.count i < 2 ∧ (robinNet tables req s i).isSome

/-- While Redis counts, every request of a route with targets picks in two moves. -/
theorem picksInTwoMoves {done : List ι} (h : RobinMoves tables req done s)
    (hpicked : ∀ c primary, s.loc i = .picked (some c) primary →
      primary = roundRobinPick c (orderedTargets (req i).policy tables))
    (hne : uniquePairs (orderedTargets (req i).policy tables) ≠ [])
    (hcounts : s.shared.shared (cursorKey (req i).policy) < maxRedisInt) :
    PicksInTwoMoves tables req done s (uniquePairs (orderedTargets (req i).policy tables)) i := by
  have hi := h i
  cases hphase : s.loc i with
  | asking =>
      rw [hphase] at hi
      refine .inr ⟨by omega, ?_⟩
      rw [robinNet, Net.step, hphase, Option.isSome_map, robinStep]
      split_ifs <;> rfl
  | replied value =>
      rw [hphase] at hi
      refine .inr ⟨by omega, ?_⟩
      rw [robinNet, Net.step, hphase]
      rfl
  | unavailable =>
      rw [hphase] at hi
      exact absurd hcounts (not_lt.mpr hi)
  | picked cursor primary =>
      rw [hphase] at hi
      cases cursor with
      | none => exact (hi.elim hne (not_lt.mpr · hcounts)).elim
      | some c =>
          have hprimary := hpicked c primary hphase
          cases primary with
          | none =>
              exact absurd (uniquePairs_eq_nil.mpr (roundRobinPick_eq_none.mp hprimary.symm)) hne
          | some p => exact .inl ⟨c, p, hphase, List.mem_of_getElem? hprimary.symm⟩

/-- The targets that take turns: the enabled ones, one for each model, in the order of the
policy. -/
structure TurnsInOrder (policy : Admin.RoutePolicy) (tables : RouteTables)
    (targets : List RoutePair) : Prop where
  nodup : (targets.map fun p => p.model.id).Nodup
  mem : ∀ id, id ∈ targets.map (fun p => p.model.id) ↔
    ∃ t, EnabledTarget policy tables t ∧ t.modelId = id
  sublist : (targets.map RoutePair.target).Sublist policy.targets

/-- The targets of the pairs are targets of the policy, in its order. -/
theorem orderedTargets_sublist (policy : Admin.RoutePolicy) (tables : RouteTables) :
    ((orderedTargets policy tables).map RoutePair.target).Sublist policy.targets := by
  rw [orderedTargets]
  induction policy.targets with
  | nil => simp
  | cons t targets ih =>
      rw [List.filterMap_cons]
      cases tables.serving t.modelId with
      | none => exact ih.cons t
      | some p => exact ih.cons_cons t

theorem turnsInOrder (policy : Admin.RoutePolicy) (tables : RouteTables) :
    TurnsInOrder policy tables (uniquePairs (orderedTargets policy tables)) := by
  refine ⟨nodup_firstSeen, fun id => ?_,
    (firstSeen_sublist.map _).trans (orderedTargets_sublist policy tables)⟩
  rw [uniquePairs, mem_map_firstSeen, List.mem_map]
  constructor
  · intro ⟨p, hp, hid⟩
    obtain ⟨ht, hmodel, hserves⟩ := mem_orderedTargets.mp hp
    exact ⟨p.target, ⟨ht, p.model, p.channel, hmodel, hserves⟩, hmodel.symm.trans hid⟩
  · intro ⟨t, ⟨ht, m, c, hmodel, hserves⟩, hid⟩
    exact ⟨⟨m, c, t⟩, mem_orderedTargets.mpr ⟨ht, hmodel, hserves⟩, hmodel.trans hid⟩

/-- **Round robin is fair.**  In every run of requests on any workers, those of a route that
obtained its shared cursor have consecutive cursors, and in their order any consecutive ones that
have finished, as many as there are enabled targets, have picked a rotation of these.  While Redis
counts, every request of the route obtains a cursor and picks a target in two moves. -/
theorem roundRobin_fair (tables : RouteTables) (policy : Admin.RoutePolicy)
    (req : ι → RobinRequest W) (cursors : Cursors W) (labels : List ι)
    (s : Net ι (Cursors W) RobinPhase) (hpolicy : 0 < policy.id)
    (hids : ∀ i, 0 < (req i).policy.id)
    (hsame : ∀ i, (req i).policy.id = policy.id → (req i).policy = policy)
    (htargets : ∃ t, EnabledTarget policy tables t)
    (hrun : run (robinNet tables req) labels ⟨cursors, fun _ => .asking⟩ = some s) :
    ∃ targets, TurnsInOrder policy tables targets ∧
      (∃ order, RobinOrder policy req (cursors.shared (cursorKey policy)) s order ∧
        ∀ n, n + targets.length ≤ order.length →
          (∀ i ∈ (order.drop n).take targets.length, (s.loc i).finished) →
          ∃ picks : List RoutePair, ((order.drop n).take targets.length).map
              (fun i => (s.loc i).primary) = picks.map some ∧ picks.IsRotated targets) ∧
      (s.shared.shared (cursorKey policy) < maxRedisInt →
        ∀ i, (req i).policy.id = policy.id →
          PicksInTwoMoves tables req labels s targets i) := by
  have hstart : RobinInv tables policy req (cursors.shared (cursorKey policy))
      ⟨cursors, fun _ => .asking⟩ :=
    ⟨⟨[], ⟨List.nodup_nil, by simp [RobinPhase.cursor], by simp⟩, by simp⟩, by simp⟩
  have hinv := run_induction (fun _ _ _ h hstep => robinInv_step hpolicy hids hsame h hstep)
    hstart hrun
  have hmoves : RobinMoves tables req ([] ++ labels) s := by
    refine run_induction_labels (fun _ _ _ _ h hstep => robinMoves_step h hstep) ?_ hrun
    intro i
    rfl
  have hne : uniquePairs (orderedTargets policy tables) ≠ [] :=
    mt uniquePairs_eq_nil.mp (orderedTargets_ne_nil.mpr htargets)
  obtain ⟨order, horder, -⟩ := hinv.order
  refine ⟨_, turnsInOrder policy tables, ⟨order, horder, fun n hroom hfinished => ?_⟩, ?_⟩
  · refine horder.window (fun i c primary hid hphase => ?_) hne n hroom hfinished
    rw [hinv.picked i c primary hphase, hsame i hid]
  · intro hcounts i hid
    have hpolicyOf := hsame i hid
    rw [← hpolicyOf] at hne hcounts ⊢
    exact picksInTwoMoves hmoves (hinv.picked i) hne hcounts

end

/-- Three models of one channel, of which the third is disabled. -/
def turnsTables : RouteTables where
  models := ⟨[⟨⟨str "a", 1, str "a", str "chat", none, true⟩, 1⟩,
    ⟨⟨str "b", 1, str "b", str "chat", none, true⟩, 2⟩,
    ⟨⟨str "c", 1, str "c", str "chat", none, false⟩, 3⟩], by simp [rowId]⟩
  channels := oneModelTables.channels
  models_id := by simp [IsRowId]
  channels_id := oneModelTables.channels_id

/-- A route to the three models, which names the first one twice. -/
def turnsRoute : Admin.RoutePolicy :=
  toOrm { userFacingModel := str "auto", strategy := .roundRobin,
          targets := [⟨3, 1, none⟩, ⟨1, 1, none⟩, ⟨1, 1, none⟩, ⟨2, 1, none⟩] } .public_ 0 1

/-- A request of that route on each of two workers. -/
def turnsRequest (worker : Fin 2) : RobinRequest (Fin 2) := ⟨turnsRoute, worker⟩

/-- Two requests on two workers, the second of which picks first. -/
theorem roundRobin_fair_two :
    ∃ s, run (robinNet turnsTables turnsRequest) [0, 1, 1, 0]
        ⟨⟨fun _ => 7, fun _ _ => 0⟩, fun _ => .asking⟩ = some s ∧
      ∃ targets, TurnsInOrder turnsRoute turnsTables targets ∧
        ∀ worker, ∃ c p, s.loc worker = .picked (some c) (some p) ∧ p ∈ targets := by
  obtain ⟨s, hs⟩ := Option.isSome_iff_exists.mp (show (run (robinNet turnsTables turnsRequest)
    [0, 1, 1, 0] ⟨⟨fun _ => 7, fun _ _ => 0⟩, fun _ => .asking⟩).isSome = true by decide +kernel)
  have htargets := orderedTargets_ne_nil.mp
    (show orderedTargets turnsRoute turnsTables ≠ [] by decide +kernel)
  have hids : ∀ worker, 0 < (turnsRequest worker).policy.id := by decide
  have hcursor : (run (robinNet turnsTables turnsRequest) [0, 1, 1, 0]
      ⟨⟨fun _ => 7, fun _ _ => 0⟩, fun _ => .asking⟩).map
        (fun s => s.shared.shared (cursorKey turnsRoute)) = some 9 := by decide +kernel
  obtain ⟨targets, hturns, -, hpicks⟩ := roundRobin_fair turnsTables turnsRoute turnsRequest _
    [0, 1, 1, 0] s (by decide) hids (fun _ _ => rfl) htargets hs
  refine ⟨s, hs, targets, hturns, fun worker => ?_⟩
  rw [hs] at hcursor
  have hcounts : s.shared.shared (cursorKey turnsRoute) < maxRedisInt := by
    have hnine : s.shared.shared (cursorKey turnsRoute) = 9 := Option.some.inj hcursor
    rw [hnine]
    decide
  have htwo : ∀ worker : Fin 2, ¬ [0, 1, 1, 0].count worker < 2 := by decide
  exact (hpicks hcounts worker rfl).resolve_right fun h => htwo worker h.1

end Llmxy
