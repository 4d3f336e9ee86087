import Llmxy.QuotaCache.Basic
import Mathlib.Order.Interval.Finset.Nat

/-!
# The rate limiter

`rate_limit` counts the calls of a user in a key of Redis.  The call that creates the key gives
it a minute to live, with a second command; every call is admitted if the count it gets is within
its limit.  The calls are made by any number of workers and take turns, one command at a time,
and any of them may be aborted before a command.

## Main definitions

* `LimiterStore.incr`, `LimiterStore.expire` — the two commands.
* `limitStep` — a command of a call, the end of an aborted call, or time that passes.
* `RateLimited` — no key without an expiry is left behind, and no lifetime of the key admits more
  calls than their limit.
* `rateLimited_run_iff` — when it is so in every state of a run.
-/

namespace Llmxy

/-- `limit` of a call with `per_min`. -/
def rateLimitOf (defaultRateLimitRpm : ℤ) (perMin : Option ℤ) : ℤ :=
  (perMin.filter fun m => 0 < m).getD defaultRateLimitRpm

/-- The keys of the limiter and the time.  The lifetimes of the key of the user are numbered, for
what is said of them. -/
structure LimiterStore where
  store : Store ℤ ℤ
  now : ℤ
  life : ℕ

section
variable (userId : ℤ)

/-- `INCR rl:u:{user_id}`. -/
def LimiterStore.incr (r : LimiterStore) : ℤ × LimiterStore :=
  let store := r.store.alterOrCreate r.now userId 0 (· + 1)
  ((store.get r.now userId).getD 0,
    ⟨store, r.now, if (r.store.get r.now userId).isSome then r.life else r.life + 1⟩)

/-- `EXPIRE rl:u:{user_id} 60`. -/
def LimiterStore.expire (r : LimiterStore) : LimiterStore :=
  { r with store := r.store.expire r.now userId (60 * sec) }

/-- Where a call stands. -/
inductive LimitPhase where
  | start
  /-- It has created the key, in this lifetime of it, and not yet made it expire. -/
  | counted (life : ℕ)
  | answered (life : ℕ) (n : ℤ) (admitted : Bool)
  | aborted
  deriving DecidableEq

variable {ι : Type} [DecidableEq ι]

/-- The commands of `rate_limit`, for calls with these limits. -/
def limitProg (limit : ι → ℤ) (i : ι) (r : LimiterStore) :
    LimitPhase → Option (LimiterStore × LimitPhase)
  | .start =>
      let (n, r) := r.incr userId
      some (r, if n = 1 then .counted r.life else .answered r.life n (n ≤ limit i))
  | .counted life => some (r.expire userId, .answered life 1 (1 ≤ limit i))
  | .answered _ _ _ | .aborted => none

/-- A call that has a command before it is aborted. -/
def limitAbort (_ : ι) (r : LimiterStore) : LimitPhase → Option (LimiterStore × LimitPhase)
  | .start | .counted _ => some (r, .aborted)
  | .answered _ _ _ | .aborted => none

/-- A command of a call, its end, or time that passes. -/
inductive LimitLabel (ι : Type) where
  | move (i : ι)
  | abort (i : ι)
  | wait (d : ℕ)

/-- The calls on the store. -/
abbrev LimitNet (ι : Type) := Net ι LimiterStore LimitPhase

def limitStep (limit : ι → ℤ) (s : LimitNet ι) : LimitLabel ι → Option (LimitNet ι)
  | .move i => Net.step (limitProg userId limit) s i
  | .abort i => Net.step limitAbort s i
  | .wait d => some { s with shared := { s.shared with now := s.shared.now + d } }

/-- No call has begun, and there is no key. -/
def LimitNet.start (now : ℤ) : LimitNet ι := ⟨⟨Store.empty, now, 0⟩, fun _ => .start⟩

/-! ### What is promised -/

/-- No call has created the key and not yet made it expire. -/
def NoneBetween (s : LimitNet ι) : Prop := ∀ i life, s.loc i ≠ .counted life

/-- The key is absent, or has an expiry. -/
def LimiterStore.Expires (r : LimiterStore) : Prop :=
  r.store.get r.now userId = none ∨ ∃ v d, r.store userId = some ⟨v, some d⟩

/-- **No user is locked out**: whenever no call is between its commands, the key is absent or has
an expiry; and of the calls of one lifetime of the key whose limit is at most some number, at most
so many are admitted. -/
structure RateLimited (limit : ι → ℤ) (s : LimitNet ι) : Prop where
  expires : NoneBetween s → s.shared.Expires userId
  admitted : ∀ (life most : ℕ) (calls : Finset ι),
    (∀ i ∈ calls, limit i ≤ most ∧ ∃ n, s.loc i = .answered life n true) → calls.card ≤ most

/-- The step aborts no call between its commands. -/
def NotCut (s : LimitNet ι) : LimitLabel ι → Prop
  | .abort i => ∀ life, s.loc i ≠ .counted life
  | _ => True

/-! ### The commands -/

variable {userId}

/-- What an increment does: it adds to a live key and keeps its expiry, or begins a lifetime. -/
theorem LimiterStore.incr_cases (userId : ℤ) (r : LimiterStore) :
    (∃ e, r.store userId = some e ∧ e.live r.now = true ∧
      r.incr userId = (e.value + 1,
        { r with store := r.store.put userId (some ⟨e.value + 1, e.deadline⟩) })) ∨
    r.store.get r.now userId = none ∧
      r.incr userId = (1, ⟨r.store.put userId (some ⟨1, none⟩), r.now, r.life + 1⟩) := by
  have hreply : (r.store.alterOrCreate r.now userId 0 (· + 1)).get r.now userId =
      some ((r.store.get r.now userId).getD 0 + 1) := by
    rw [Store.get_alterOrCreate, if_pos rfl]
  rw [LimiterStore.incr]
  simp only [hreply, Option.getD_some]
  cases he : (r.store userId).filter (·.live r.now) with
  | some e =>
      obtain ⟨hstore, hlive⟩ := Option.filter_eq_some_iff.mp he
      have hget : r.store.get r.now userId = some e.value := by
        rw [Store.get, he, Option.map_some]
      refine .inl ⟨e, hstore, hlive, ?_⟩
      rw [hget, Store.alterOrCreate, he]
      rfl
  | none =>
      have hget : r.store.get r.now userId = none := by
        rw [Store.get, he, Option.map_none]
      refine .inr ⟨hget, ?_⟩
      rw [hget, Store.alterOrCreate, he]
      rfl

/-- A key without an expiry is given one. -/
theorem LimiterStore.expires_expire {r : LimiterStore} {v : ℤ}
    (h : r.store userId = some ⟨v, none⟩) :
    ∃ d, (r.expire userId).store userId = some ⟨v, some d⟩ := by
  have hget : r.store.get r.now userId = some v := by
    rw [Store.get, h]
    rfl
  refine ⟨r.now + 60 * sec, ?_⟩
  show (r.store.expire r.now userId (60 * sec)) userId = _
  rw [Store.expire, hget]
  exact if_pos rfl

/-- What a step does. -/
theorem limitStep_cases {limit : ι → ℤ} {s t : LimitNet ι} {a : LimitLabel ι}
    (h : limitStep userId limit s a = some t) :
    (∃ i r l, a = .move i ∧ s.loc i = .start ∧ t = ⟨r, Function.update s.loc i l⟩ ∧
      r = (s.shared.incr userId).2 ∧ l = if (s.shared.incr userId).1 = 1 then .counted r.life
        else .answered r.life (s.shared.incr userId).1 ((s.shared.incr userId).1 ≤ limit i)) ∨
    (∃ i life, a = .move i ∧ s.loc i = .counted life ∧
      t = ⟨s.shared.expire userId, Function.update s.loc i (.answered life 1 (1 ≤ limit i))⟩) ∨
    (∃ i, a = .abort i ∧ t = ⟨s.shared, Function.update s.loc i .aborted⟩) ∨
    ∃ d : ℕ, a = .wait d ∧ t = ⟨{ s.shared with now := s.shared.now + d }, s.loc⟩ := by
  cases a with
  | move i =>
      obtain ⟨r, l, hprog, rfl⟩ := Net.step_eq_some.mp h
      cases hi : s.loc i with
      | start =>
          rw [hi] at hprog
          cases hprog
          exact .inl ⟨i, _, _, rfl, hi, rfl, rfl, rfl⟩
      | counted life =>
          rw [hi] at hprog
          cases hprog
          exact .inr (.inl ⟨i, life, rfl, hi, rfl⟩)
      | answered life n admitted =>
          rw [hi] at hprog
          cases hprog
      | aborted =>
          rw [hi] at hprog
          cases hprog
  | abort i =>
      obtain ⟨r, l, hprog, rfl⟩ := Net.step_eq_some.mp h
      refine .inr (.inr (.inl ⟨i, rfl, ?_⟩))
      cases hi : s.loc i with
      | start =>
          rw [hi] at hprog
          cases hprog
          rfl
      | counted life =>
          rw [hi] at hprog
          cases hprog
          rfl
      | answered life n admitted =>
          rw [hi] at hprog
          cases hprog
      | aborted =>
          rw [hi] at hprog
          cases hprog
  | wait d =>
      cases h
      exact .inr (.inr (.inr ⟨d, rfl, rfl⟩))

/-! ### The invariant -/

/-- The lifetime in which a call was counted, and the count that it got. -/
def LimitPhase.ticket : LimitPhase → Option (ℕ × ℤ)
  | .counted life => some (life, 1)
  | .answered life n _ => some (life, n)
  | .start | .aborted => none

/-- A ticket that the store has given out. -/
def LimiterStore.Gave (userId : ℤ) (r : LimiterStore) (ticket : ℕ × ℤ) : Prop :=
  1 ≤ ticket.2 ∧ ticket.1 ≤ r.life ∧
    (ticket.1 = r.life → ∃ e, r.store userId = some e ∧ ticket.2 ≤ e.value)

/-- The key of a call that has created it has no expiry yet. -/
def LimiterStore.Pending (userId : ℤ) (r : LimiterStore) (life : ℕ) : Prop :=
  life = r.life ∧ ∃ v, r.store userId = some ⟨v, none⟩

/-- What every step keeps. -/
structure LimiterInv (userId : ℤ) (limit : ι → ℤ) (s : LimitNet ι) : Prop where
  value : ∀ e, s.shared.store userId = some e → 1 ≤ e.value
  pending : ∀ i life, s.loc i = .counted life → s.shared.Pending userId life
  gave : ∀ i ticket, (s.loc i).ticket = some ticket → s.shared.Gave userId ticket
  distinct : ∀ i j ticket, (s.loc i).ticket = some ticket → (s.loc j).ticket = some ticket → i = j
  answer : ∀ i life n, s.loc i = .answered life n true → n ≤ limit i

section
variable {limit : ι → ℤ} {s t : LimitNet ι}

omit [DecidableEq ι] in
theorem limiterInv_start (userId : ℤ) (limit : ι → ℤ) (now : ℤ) :
    LimiterInv userId limit (.start now) :=
  ⟨nofun, nofun, nofun, nofun, nofun⟩

omit [DecidableEq ι] in
/-- One call at a time is between its commands. -/
theorem LimiterInv.one (h : LimiterInv userId limit s) {i j : ι} {life life' : ℕ}
    (hi : s.loc i = .counted life) (hj : s.loc j = .counted life') : i = j := by
  obtain ⟨rfl, -⟩ := h.pending i life hi
  obtain ⟨rfl, -⟩ := h.pending j life' hj
  exact h.distinct i j (s.shared.life, 1) (by rw [hi]; rfl) (by rw [hj]; rfl)

omit [DecidableEq ι] in
/-- **Of one lifetime**, no more calls are admitted than their limit. -/
theorem LimiterInv.admitted (h : LimiterInv userId limit s) (life most : ℕ) (calls : Finset ι)
    (hcalls : ∀ i ∈ calls, limit i ≤ most ∧ ∃ n, s.loc i = .answered life n true) :
    calls.card ≤ most := by
  have hticket : ∀ i ∈ calls, ∃ n : ℕ, (s.loc i).ticket = some (life, (n : ℤ)) ∧
      n ∈ Finset.Icc 1 most := by
    intro i hi
    obtain ⟨hlimit, n, hanswered⟩ := hcalls i hi
    have hgave := h.gave i (life, n) (by rw [hanswered]; rfl)
    have hbound := h.answer i life n hanswered
    have hpos : 1 ≤ n := hgave.1
    refine ⟨n.toNat, ?_, Finset.mem_Icc.mpr ⟨by omega, by omega⟩⟩
    rw [hanswered, Int.toNat_of_nonneg (by omega)]
    rfl
  choose! count hcount hmem using hticket
  calc calls.card ≤ (Finset.Icc 1 most).card :=
        Finset.card_le_card_of_injOn count hmem fun i hi j hj heq =>
          h.distinct i j _ (hcount i hi) (heq ▸ hcount j hj)
    _ = most := by rw [Nat.card_Icc, Nat.add_sub_cancel]

/-- The tickets stay valid: the count of a lifetime only grows. -/
def LimiterStore.Grows (userId : ℤ) (r r' : LimiterStore) : Prop :=
  r.life < r'.life ∨ r'.life = r.life ∧
    ∀ e, r.store userId = some e → ∃ e', r'.store userId = some e' ∧ e.value ≤ e'.value

theorem LimiterStore.Gave.grows {r r' : LimiterStore} {ticket : ℕ × ℤ} (h : r.Gave userId ticket)
    (hgrows : r.Grows userId r') : r'.Gave userId ticket := by
  obtain ⟨hpos, hlife, hvalue⟩ := h
  obtain hlt | ⟨hsame, hkept⟩ := hgrows
  · exact ⟨hpos, by omega, fun heq => by omega⟩
  · refine ⟨hpos, by omega, fun heq => ?_⟩
    obtain ⟨e, he, hle⟩ := hvalue (by omega)
    obtain ⟨e', he', hle'⟩ := hkept e he
    exact ⟨e', he', hle.trans hle'⟩

/-- **What one call does** keeps the invariant, if what it becomes fits. -/
theorem LimiterInv.update (h : LimiterInv userId limit s) {i : ι} {r : LimiterStore}
    {l : LimitPhase} (hgrows : s.shared.Grows userId r)
    (hvalue : ∀ e, r.store userId = some e → 1 ≤ e.value)
    (hpending : ∀ j life, j ≠ i → s.loc j = .counted life → r.Pending userId life)
    (hown : ∀ life, l = .counted life → r.Pending userId life)
    (hgave : ∀ ticket, l.ticket = some ticket → r.Gave userId ticket)
    (hnew : ∀ j ticket, j ≠ i → l.ticket = some ticket → (s.loc j).ticket ≠ some ticket)
    (hanswer : ∀ life n, l = .answered life n true → n ≤ limit i) :
    LimiterInv userId limit ⟨r, Function.update s.loc i l⟩ where
  value := hvalue
  pending j life hj := by
    by_cases hji : j = i
    · subst hji
      exact hown life (by simpa using hj)
    · exact hpending j life hji (by simpa [hji] using hj)
  gave j ticket hj := by
    by_cases hji : j = i
    · subst hji
      exact hgave ticket (by simpa using hj)
    · exact (h.gave j ticket (by simpa [hji] using hj)).grows hgrows
  distinct j k ticket hj hk := by
    by_cases hji : j = i
    · subst hji
      by_cases hkj : k = j
      · exact hkj.symm
      · exact absurd (by simpa [hkj] using hk) (hnew k ticket hkj (by simpa using hj))
    · by_cases hki : k = i
      · subst hki
        exact absurd (by simpa [hji] using hj) (hnew j ticket hji (by simpa using hk))
      · exact h.distinct j k ticket (by simpa [hji] using hj) (by simpa [hki] using hk)
  answer j life n hj := by
    by_cases hji : j = i
    · subst hji
      exact hanswer life n (by simpa using hj)
    · exact h.answer j life n (by simpa [hji] using hj)

omit [DecidableEq ι] in
/-- A key without an expiry is there. -/
theorem LimiterStore.get_of_pending {r : LimiterStore} {v : ℤ}
    (h : r.store userId = some ⟨v, none⟩) : r.store.get r.now userId = some v := by
  rw [Store.get, h]
  rfl

/-- A call that is counted. -/
theorem limiterInv_incr (h : LimiterInv userId limit s) {i : ι} {r : LimiterStore} {l : LimitPhase}
    (hr : r = (s.shared.incr userId).2) (hl : l = if (s.shared.incr userId).1 = 1
      then .counted r.life
      else .answered r.life (s.shared.incr userId).1 ((s.shared.incr userId).1 ≤ limit i)) :
    LimiterInv userId limit ⟨r, Function.update s.loc i l⟩ := by
  obtain ⟨e, he, hlive, hincr⟩ | ⟨hget, hincr⟩ := s.shared.incr_cases userId
  · have hpos := h.value e he
    have hstore : r.store userId = some ⟨e.value + 1, e.deadline⟩ := by
      rw [hr, hincr]
      exact if_pos rfl
    have hlife : r.life = s.shared.life := by rw [hr, hincr]
    rw [hincr, if_neg (by simp only; omega)] at hl
    subst hl
    refine h.update (.inr ⟨hlife, fun e' he' => ⟨_, hstore, ?_⟩⟩) (fun e' he' => ?_)
      (fun j life _ hj => ?_) nofun (fun ticket hticket => ?_) (fun j ticket _ hticket hj => ?_)
      (fun life n hanswered => ?_)
    · cases he.symm.trans he'
      simp only
      omega
    · cases hstore.symm.trans he'
      simp only
      omega
    · obtain ⟨hsame, v, hv⟩ := h.pending j life hj
      cases he.symm.trans hv
      exact ⟨hsame.trans hlife.symm, _, hstore⟩
    · cases hticket
      refine ⟨?_, le_rfl, fun _ => ⟨_, hstore, le_rfl⟩⟩
      simp only
      omega
    · cases hticket
      obtain ⟨-, -, hvalue⟩ := h.gave j _ hj
      obtain ⟨e', he', hle⟩ := hvalue hlife
      cases he.symm.trans he'
      simp only at hle
      omega
    · obtain ⟨-, rfl, hadmitted⟩ := LimitPhase.answered.inj hanswered
      exact of_decide_eq_true hadmitted
  · have hstore : r.store userId = some ⟨1, none⟩ := by
      rw [hr, hincr]
      exact if_pos rfl
    have hlife : r.life = s.shared.life + 1 := by rw [hr, hincr]
    rw [hincr, if_pos rfl] at hl
    subst hl
    refine h.update (.inl (by omega)) (fun e' he' => ?_) (fun j life _ hj => ?_)
      (fun life hcounted => ?_) (fun ticket hticket => ?_) (fun j ticket _ hticket hj => ?_) nofun
    · cases hstore.symm.trans he'
      exact le_rfl
    · obtain ⟨-, v, hv⟩ := h.pending j life hj
      rw [LimiterStore.get_of_pending hv] at hget
      cases hget
    · cases hcounted
      exact ⟨rfl, 1, hstore⟩
    · cases hticket
      exact ⟨le_rfl, le_rfl, fun _ => ⟨_, hstore, le_rfl⟩⟩
    · cases hticket
      have hle := (h.gave j _ hj).2.1
      simp only at hle
      omega

/-- A call that makes the key expire. -/
theorem limiterInv_expire (h : LimiterInv userId limit s) {i : ι} {life : ℕ}
    (hi : s.loc i = .counted life) : LimiterInv userId limit
      ⟨s.shared.expire userId, Function.update s.loc i (.answered life 1 (1 ≤ limit i))⟩ := by
  obtain ⟨-, v, hv⟩ := h.pending i life hi
  obtain ⟨d, hd⟩ := LimiterStore.expires_expire hv
  have hticket : (s.loc i).ticket = some (life, 1) := by rw [hi]; rfl
  have hgrows : s.shared.Grows userId (s.shared.expire userId) := by
    refine .inr ⟨rfl, fun e he => ⟨_, hd, ?_⟩⟩
    cases hv.symm.trans he
    exact le_rfl
  refine h.update hgrows (fun e he => ?_) (fun j life' hji hj => absurd (h.one hj hi) hji) nofun
    (fun ticket hown => ?_) (fun j ticket hji hown hj => ?_) (fun life' n hanswered => ?_)
  · cases hd.symm.trans he
    exact h.value ⟨v, none⟩ hv
  · cases hown
    exact (h.gave i _ hticket).grows hgrows
  · cases hown
    exact hji (h.distinct j i _ hj hticket)
  · obtain ⟨-, rfl, hadmitted⟩ := LimitPhase.answered.inj hanswered
    exact of_decide_eq_true hadmitted

/-- **One step** keeps the invariant. -/
theorem limiterInv_step {a : LimitLabel ι} (h : LimiterInv userId limit s)
    (hstep : limitStep userId limit s a = some t) : LimiterInv userId limit t := by
  obtain ⟨i, r, l, -, -, rfl, hr, hl⟩ | ⟨i, life, -, hi, rfl⟩ | ⟨i, -, rfl⟩ | ⟨d, -, rfl⟩ :=
    limitStep_cases hstep
  · exact limiterInv_incr h hr hl
  · exact limiterInv_expire h hi
  · exact h.update (.inr ⟨rfl, fun e he => ⟨e, he, le_rfl⟩⟩) h.value
      (fun j life _ hj => h.pending j life hj) nofun nofun nofun nofun
  · exact ⟨h.value, h.pending, h.gave, h.distinct, h.answer⟩

omit [DecidableEq ι] in
theorem LimiterStore.not_expires {r : LimiterStore} {v : ℤ}
    (h : r.store userId = some ⟨v, none⟩) : ¬r.Expires userId := by
  rintro (hget | ⟨v', d, hv'⟩)
  · rw [LimiterStore.get_of_pending h] at hget
    cases hget
  · cases h.symm.trans hv'

/-- What is not between its commands after a call has moved was not so before. -/
theorem quiet_of_update {i : ι} {r : LimiterStore} {l : LimitPhase}
    (hi : ∀ life, s.loc i ≠ .counted life) (h : NoneBetween ⟨r, Function.update s.loc i l⟩) :
    NoneBetween s := by
  intro j life hj
  by_cases hji : j = i
  · exact hi life (hji ▸ hj)
  · exact h j life (by simpa [hji] using hj)

/-- **One step** leaves a key without an expiry exactly when it cuts a call short. -/
theorem expires_step {a : LimitLabel ι} (h : LimiterInv userId limit s)
    (hexpires : NoneBetween s → s.shared.Expires userId)
    (hstep : limitStep userId limit s a = some t) :
    (NoneBetween t → t.shared.Expires userId) ↔ NotCut s a := by
  obtain ⟨i, r, l, rfl, hi, rfl, hr, hl⟩ | ⟨i, life, rfl, hi, rfl⟩ | ⟨i, rfl, rfl⟩ |
    ⟨d, rfl, rfl⟩ := limitStep_cases hstep
  · refine iff_of_true (fun hquiet => ?_) trivial
    obtain ⟨e, he, hlive, hincr⟩ | ⟨hget, hincr⟩ := s.shared.incr_cases userId
    · have hbefore := hexpires (quiet_of_update (by rw [hi]; nofun) hquiet)
      have hstore : r.store userId = some ⟨e.value + 1, e.deadline⟩ := by
        rw [hr, hincr]
        exact if_pos rfl
      obtain hnone | ⟨v, d, hv⟩ := hbefore
      · rw [Store.get, he, Entry.read_of_live hlive] at hnone
        cases hnone
      · cases he.symm.trans hv
        exact .inr ⟨_, d, hstore⟩
    · rw [hincr, if_pos rfl] at hl
      exact absurd (by rw [hl]; exact Function.update_self ..) (hquiet i r.life)
  · obtain ⟨-, v, hv⟩ := h.pending i life hi
    obtain ⟨d, hd⟩ := LimiterStore.expires_expire hv
    exact iff_of_true (fun _ => .inr ⟨v, d, hd⟩) trivial
  · constructor
    · intro hafter life hi
      obtain ⟨-, v, hv⟩ := h.pending i life hi
      refine LimiterStore.not_expires hv (hafter fun j life' hj => ?_)
      by_cases hji : j = i
      · subst hji
        simp at hj
      · exact hji (h.one (by simpa [hji] using hj) hi)
    · exact fun hcut hquiet => hexpires (quiet_of_update hcut hquiet)
  · refine iff_of_true (fun hquiet => ?_) trivial
    obtain hnone | hsome := hexpires hquiet
    · refine .inl ?_
      by_contra hlater
      obtain ⟨v, hv⟩ := Option.ne_none_iff_exists'.mp hlater
      rw [Store.get_le (by simp only; omega) hv] at hnone
      cases hnone
    · exact .inr hsome

/-- **No user is locked out** in any state of a run exactly when the run aborts no call between
its commands. -/
theorem rateLimited_run_iff (userId : ℤ) (defaultRateLimitRpm : ℤ) (perMin : ι → Option ℤ)
    (now : ℤ) (labels : List (LimitLabel ι)) :
    (∀ before t, before <+: labels →
      run (limitStep userId fun i => rateLimitOf defaultRateLimitRpm (perMin i)) before
        (.start now) = some t →
      RateLimited userId (fun i => rateLimitOf defaultRateLimitRpm (perMin i)) t) ↔
      Along (limitStep userId fun i => rateLimitOf defaultRateLimitRpm (perMin i)) NotCut labels
        (.start now) := by
  refine forall_prefix_iff_along
    (J := LimiterInv userId fun i => rateLimitOf defaultRateLimitRpm (perMin i))
    (fun s a t h hstep => limiterInv_step h hstep) (fun s a hnone => ?_)
    (fun s a t h hlimited hstep => ?_) labels (limiterInv_start ..) ?_
  · cases a with
    | abort i =>
        intro life hi
        rw [limitStep, Net.step, hi] at hnone
        cases hnone
    | move i => trivial
    | wait d => trivial
  · have hadmitted := (limiterInv_step h hstep).admitted
    rw [← expires_step h hlimited.expires hstep]
    exact ⟨RateLimited.expires, fun hexpires => ⟨hexpires, hadmitted⟩⟩
  · exact ⟨fun _ => .inl rfl, (limiterInv_start userId _ now).admitted⟩

/-- A key without an expiry that no call is about to make expire. -/
def Stuck (userId : ℤ) (atLeast : ℤ) (s : LimitNet ι) : Prop :=
  NoneBetween s ∧ ∃ v, 1 ≤ v ∧ atLeast ≤ v ∧ s.shared.store userId = some ⟨v, none⟩

theorem stuck_step {a : LimitLabel ι} {atLeast : ℤ} (h : Stuck userId atLeast s)
    (hstep : limitStep userId limit s a = some t) : Stuck userId atLeast t := by
  obtain ⟨hquiet, v, hpos, hle, hv⟩ := h
  obtain ⟨i, r, l, -, -, rfl, hr, hl⟩ | ⟨i, life, -, hi, -⟩ | ⟨i, -, rfl⟩ | ⟨d, -, rfl⟩ :=
    limitStep_cases hstep
  · obtain ⟨e, he, -, hincr⟩ | ⟨hget, -⟩ := s.shared.incr_cases userId
    · cases hv.symm.trans he
      rw [hincr, if_neg (by simp only; omega)] at hl
      refine ⟨fun j life hj => ?_, v + 1, by omega, by omega, ?_⟩
      · by_cases hji : j = i
        · subst hji
          rw [hl] at hj
          simp at hj
        · exact hquiet j life (by simpa [hji] using hj)
      · rw [hr, hincr]
        exact if_pos rfl
    · rw [LimiterStore.get_of_pending hv] at hget
      cases hget
  · exact absurd hi (hquiet i life)
  · refine ⟨fun j life hj => ?_, v, hpos, hle, hv⟩
    by_cases hji : j = i
    · subst hji
      simp at hj
    · exact hquiet j life (by simpa [hji] using hj)
  · exact ⟨hquiet, v, hpos, hle, hv⟩

/-- **A key without an expiry stays**, and its count with it, whatever the calls do then. -/
theorem stuck_run {labels : List (LimitLabel ι)} {atLeast : ℤ} (h : Stuck userId atLeast s)
    (hrun : run (limitStep userId limit) labels s = some t) : Stuck userId atLeast t :=
  run_induction (fun _ _ _ h hstep => stuck_step h hstep) h hrun

end

/-! ### A call that is cut short -/

/-- One call, which is cancelled after its `INCR`. -/
def cancelledCall : List (LimitLabel ℕ) := [.move 0, .abort 0]

/-- The key stays for good. -/
theorem cancelledCall_locks_out :
    ¬∀ before t, before <+: cancelledCall →
      run (limitStep 1 fun _ => rateLimitOf 600 none) before (.start 0) = some t →
      RateLimited 1 (fun _ => rateLimitOf 600 none) t := by
  intro h
  obtain ⟨hexpires, -⟩ := h cancelledCall _ (List.prefix_refl _) rfl
  refine LimiterStore.not_expires (v := 1) rfl (hexpires fun j life hj => ?_)
  by_cases hj0 : j = 0
  · subst hj0
    cases hj
  · change Function.update (Function.update (fun _ => LimitPhase.start) 0 _) 0 .aborted j = _ at hj
    rw [Function.update_of_ne hj0, Function.update_of_ne hj0] at hj
    cases hj

end
end Llmxy
