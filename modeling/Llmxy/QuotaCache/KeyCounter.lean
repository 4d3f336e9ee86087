import Llmxy.ApiKeys
import Llmxy.QuotaCache.Exhausted

/-!
# The cached counter of an API key

The operations on one key run one after the other: checks with their hydrations,
charges over the direct endpoints and over Envoy, PATCHes, window rolls, restarts and
the passing of time.  A check that is answered from the cache should read a counter
that is not below the committed `used_cents`.

The counter is written by few of these, but it does not have to be right all the time:
while nothing of the user's funds is cached, every check misses and hydrates the counter
before it answers.  So `CounterSafe` asks for cold funds or a counter that covers the
row.  A direct charge makes the funds cold.  The mirror of a charge over Envoy adds the
cost once where the row got it twice, and that breaks it.

## Main definitions

* `KeyOp`, `KeyOp.exec`, `keyStep` — the operations.
* `NeverUndercounts` — a check answered from the cache has read enough.
* `CounterSafe` — the invariant, `KeyOp.Covers` — the operations that keep it.
* `neverUndercounts_run` — every run of such operations.
-/

namespace Llmxy

/-- The operations on one key of one user. -/
inductive KeyOp where
  | check
  /-- A direct or translated request. -/
  | charge (cost : ℤ) (refId note : Option Str)
  /-- A request through Envoy. -/
  | alsCharge (cost : ℤ) (refId note : Option Str)
  | patch (req : ApiKeyUpdate)
  /-- The state machine of the hot path, with the window roll. -/
  | enforce
  /-- Time passes, and keys expire. -/
  | wait (microseconds : ℕ)
  | resync

/-- The committed row of a key. -/
def World.key (w : World) (kid : ℤ) : Option ApiKey := w.pg.apiKeys.get? kid

/-- The world after a check of the key. -/
def afterCheck (uid : ℤ) (key : ApiKey) (w : World) : World :=
  ((hasQuotaFast uid key.id key.quotaCents key.windowStartEpoch).runWith exec w).2

/-- The world after an operation.  The snapshot of the key is the one of its row, which
each operation that writes the row refreshes. -/
def KeyOp.exec (uid kid : ℤ) (w : World) : KeyOp → World
  | .check =>
      match w.key kid with
      | none => w
      | some key => afterCheck uid key w
  | .charge cost refId note =>
      (((QuotaTask.charge (some kid) cost refId note).proc uid).runWith Llmxy.exec w).2
  | .alsCharge cost refId note =>
      let ws := ((w.key kid).map ApiKey.windowStartEpoch).getD 0
      (((QuotaTask.alsCharge (some kid) cost ws refId note).proc uid).runWith Llmxy.exec w).2
  | .patch req => (updateKey uid kid req w).2
  | .enforce =>
      match w.key kid with
      | none => w
      | some key => (enforceKeyStateCached key.snapshot w).2
  | .wait d => w.wait d
  | .resync => (resyncOnStartup.runWith Llmxy.exec w).2

/-- Operations always complete. -/
def keyStep (uid kid : ℤ) (w : World) (op : KeyOp) : Option World := some (op.exec uid kid w)

/-- If a check of the key, which has a quota, answers ok and its last check was not a
miss, the counter it has read is not below what the row says is used. -/
def NeverUndercounts (uid kid : ℤ) (w : World) : Prop :=
  ∀ key, w.key kid = some key → 0 < key.quotaCents →
    ((hasQuotaFast uid key.id key.quotaCents key.windowStartEpoch).runWith exec w).1.1 = true →
    verdict (afterCheck uid key w) uid key.id key.quotaCents key.windowStartEpoch ≠ miss →
    ∃ u, (afterCheck uid key w).kused key.id key.windowStartEpoch = some u ∧ key.usedCents ≤ u

/-- The counters of the key are not negative, and the funds are cold or the counter of
the current window covers the row. -/
structure CounterSafe (uid kid : ℤ) (w : World) : Prop where
  nonneg : ∀ ws, w.Reads (.kused kid ws) (0 ≤ ·)
  used : ∀ key, w.key kid = some key → 0 ≤ key.usedCents
  current : FundsCold uid w ∨
    ∀ key, w.key kid = some key → w.Reads (.kused kid key.windowStartEpoch) (key.usedCents ≤ ·)

/-- An operation that keeps the counter safe: not a charge over Envoy while funds of the
user are cached, unless the counter is ahead of the row by the cost. -/
def KeyOp.Covers (uid kid : ℤ) (w : World) : KeyOp → Prop
  | .alsCharge cost refId note =>
      0 < cost → (chargeTxn w.pg uid (some kid) cost refId note w.now).isSome →
        FundsCold uid w ∨ ∀ key ∈ w.key kid,
          key.usedCents + cost ≤ (w.kused kid key.windowStartEpoch).getD 0
  | _ => True

variable {uid kid : ℤ} {w : World} {key : ApiKey}

/-- What is safe stays safe when the row stays, the counters keep what they read as and
cold funds stay cold. -/
theorem safe_congr {w' : World} (hkey : w'.key kid = w.key kid)
    (hreads : ∀ ws P, w.Reads (.kused kid ws) P → w'.Reads (.kused kid ws) P)
    (hcold : FundsCold uid w → FundsCold uid w') (h : CounterSafe uid kid w) :
    CounterSafe uid kid w' := by
  refine ⟨fun ws => hreads ws _ (h.nonneg ws), ?_, ?_⟩
  · intro key hk
    exact h.used key (hkey ▸ hk)
  · rcases h.current with hc | hc
    · exact Or.inl (hcold hc)
    · apply Or.inr
      intro key hk
      exact hreads _ _ (hc key (hkey ▸ hk))

/-! ### Checks -/

/-- A command that leaves the tables and the counters of keys alone. -/
def sparesKeys : Cmd → Prop
  | .pipe xs => ∀ x ∈ xs, ∀ kid ws, ¬ x.Touches (.kused kid ws)
  | .scanDel | .charge _ _ _ _ _ => False
  | _ => True

theorem sparesKeys_of_quiet (c : Cmd) (hc : c.Quiet) : sparesKeys c := by
  cases c with
  | pipe xs => cases hc
  | scanDel => cases hc
  | charge _ _ _ _ _ => cases hc
  | _ => trivial

theorem exec_sparesKeys {c : Cmd} (hc : sparesKeys c) :
    (exec c w).2.pg = w.pg ∧ (exec c w).2.now = w.now ∧
      ∀ kid ws, (exec c w).2.kused kid ws = w.kused kid ws := by
  cases c with
  | pipe xs =>
      refine ⟨rfl, rfl, fun kid ws => ?_⟩
      exact counter_writes_other fun x hx => hc x hx kid ws
  | scanDel => cases hc
  | charge _ _ _ _ _ => cases hc
  | _ => exact ⟨rfl, rfl, fun _ _ => rfl⟩

/-- The hydration of the funds leaves the tables and the counters of keys alone. -/
theorem hydrateUserQuota_sparesKeys (uid : ℤ) (w : World) :
    ((hydrateUserQuota uid).runWith exec w).2.pg = w.pg ∧
      ((hydrateUserQuota uid).runWith exec w).2.now = w.now ∧
      ∀ kid ws, ((hydrateUserQuota uid).runWith exec w).2.kused kid ws = w.kused kid ws := by
  have hobeys : (hydrateUserQuota uid).Obeys (fun _ _ => True) sparesKeys := by
    apply obeys_hydrateUserQuota sparesKeys_of_quiet
    intro user now subs _ _ _ x hx kid ws
    rcases mem_hydrateWrites.mp hx with rfl | rfl | ⟨-, rfl | rfl⟩ | ⟨s, -, rfl⟩
    · simp [Write.Touches]
    · simp [Write.Touches]
    · simp [Write.Touches]
    · simp [Write.Touches]
    · simp [Write.Touches]
  let I : World → Prop := fun s =>
    s.pg = w.pg ∧ s.now = w.now ∧ ∀ kid ws, s.kused kid ws = w.kused kid ws
  have hstart : I w := ⟨rfl, rfl, fun _ _ => rfl⟩
  refine Proc.runWith_of_obeys ?_ hobeys hstart
  intro c s hc hs
  obtain ⟨hpg, hnow, hkused⟩ := hs
  obtain ⟨hpg', hnow', hkused'⟩ := exec_sparesKeys (w := s) hc
  exact ⟨⟨hpg'.trans hpg, hnow'.trans hnow, fun kid ws => (hkused' kid ws).trans (hkused kid ws)⟩,
    trivial⟩

/-- **What a check does to the counters**: nothing, or it hydrates that of the current
window. -/
theorem afterCheck_cases (uid : ℤ) (hkey : w.key key.id = some key) :
    (afterCheck uid key w = w ∧
        verdict w uid key.id key.quotaCents key.windowStartEpoch ≠ miss) ∨
      (afterCheck uid key w).pg = w.pg ∧
        (afterCheck uid key w).kused key.id key.windowStartEpoch = some key.usedCents ∧
        ∀ kid ws, (kid, ws) ≠ (key.id, key.windowStartEpoch) →
          (afterCheck uid key w).kused kid ws = w.kused kid ws := by
  rw [afterCheck, runWith_hasQuotaFast]
  by_cases hv : (verdict w uid key.id key.quotaCents key.windowStartEpoch).1 = true ∨
      (verdict w uid key.id key.quotaCents key.windowStartEpoch).2 ≠ miss.2
  · rw [if_pos hv]
    refine Or.inl ⟨rfl, fun hmiss => ?_⟩
    rw [hmiss] at hv
    simp at hv
  · rw [if_neg hv]
    apply Or.inr
    obtain ⟨hpg, hnow, hkused⟩ := hydrateUserQuota_sparesKeys uid w
    dsimp only
    generalize ((hydrateUserQuota uid).runWith exec w).2 = w₁ at hpg hnow hkused
    rw [runWith_hydrateKeyUsed key.windowStartEpoch (by rw [hpg]; exact hkey)]
    refine ⟨hpg, ?_, ?_⟩
    · exact (Store.get_set (by decide)).trans (if_pos rfl)
    · intro kid ws hne
      rw [← hkused kid ws]
      apply Store.get_set_other
      intro h
      cases h
      exact hne rfl

/-- A check keeps the counter safe. -/
theorem safe_check (hkey : w.key kid = some key) (h : CounterSafe uid kid w) :
    CounterSafe uid kid (afterCheck uid key w) := by
  have hid : key.id = kid := (Table.get?_eq_some.mp hkey).2
  subst hid
  rcases afterCheck_cases uid hkey with ⟨hsame, -⟩ | ⟨hpg, hcur, hother⟩
  · rw [hsame]
    exact h
  · have hrow : (afterCheck uid key w).key key.id = some key := by
      rw [World.key, hpg]
      exact hkey
    have hcovers : (afterCheck uid key w).Reads (.kused key.id key.windowStartEpoch)
        (key.usedCents ≤ ·) := by
      intro v hv
      have heq : some key.usedCents = some v := hcur.symm.trans hv
      exact (Option.some.inj heq).le
    have hused := h.used key hkey
    refine ⟨?_, ?_, Or.inr ?_⟩
    · intro ws v hv
      by_cases hws : ws = key.windowStartEpoch
      · subst hws
        exact le_trans hused (hcovers v hv)
      · apply h.nonneg ws v
        rw [← hv]
        exact (hother key.id ws (by simpa using hws)).symm
    · intro k hk
      rw [hrow] at hk
      cases hk
      exact hused
    · intro k hk
      rw [hrow] at hk
      cases hk
      exact hcovers

/-- Over cold funds a check does not answer ok. -/
theorem verdict_of_fundsCold (hcold : FundsCold uid w) (kid quota ws : ℤ) :
    verdict w uid kid quota ws ≠ okFast := by
  intro hv
  rw [verdict, hcold.members, hcold.wallet] at hv
  cases hk : checkKey quota (w.kused kid ws) with
  | some r =>
      rw [hk] at hv
      have hfst := checkKey_fst hk
      rw [show r = okFast from hv] at hfst
      cases hfst
  | none =>
      rw [hk] at hv
      have hfst : miss.1 = true := congrArg Prod.fst (show miss = okFast from hv)
      cases hfst

/-- **A check answered from the cache** over a safe counter has read enough. -/
theorem neverUndercounts_of_safe (h : CounterSafe uid kid w) : NeverUndercounts uid kid w := by
  intro key hkey hquota hreply hlast
  have hid : key.id = kid := (Table.get?_eq_some.mp hkey).2
  subst hid
  -- the answer is the verdict of the last check
  have hok : verdict (afterCheck uid key w) uid key.id key.quotaCents key.windowStartEpoch =
      okFast := by
    rw [hasQuotaFast_fst, ← afterCheck] at hreply
    rcases verdict_cases (afterCheck uid key w) uid key.id key.quotaCents key.windowStartEpoch with
      hv | hv | hv | hv
    · exact absurd hv hlast
    · simp [hv] at hreply
    · simp [hv] at hreply
    · exact hv
  rcases afterCheck_cases uid hkey with ⟨hsame, -⟩ | ⟨-, hcur, -⟩
  · rw [hsame] at hok ⊢
    rcases h.current with hcold | hcovers
    · exact absurd hok (verdict_of_fundsCold hcold _ _ _)
    · cases hk : w.kused key.id key.windowStartEpoch with
      | some u => exact ⟨u, rfl, hcovers key hkey u hk⟩
      | none =>
          rw [verdict, hk, checkKey, if_pos hquota] at hok
          have hfst : miss.1 = true := congrArg Prod.fst (show miss = okFast from hok)
          cases hfst
  · exact ⟨key.usedCents, hcur, le_refl _⟩

/-! ### Charges -/

/-- What a committed charge adds to the row of the key: the cost, twice. -/
theorem key_chargeTxn {pg after : Pg} {cost now : ℤ} {refId note : Option Str} {bd : List Share}
    (h : chargeTxn pg uid (some kid) cost refId note now = some (bd, after)) :
    after.apiKeys.get? kid = (pg.apiKeys.get? kid).map fun k =>
      if 0 < cost then { k with usedCents := k.usedCents + cost + cost } else k := by
  obtain ⟨user, -, -, hkeys, -⟩ := chargeTxn_eq_some h
  rw [hkeys, Option.bind_some]
  by_cases hc : 0 < cost
  · rw [pgAfter, if_pos hc, chargedPg]
    cases hk : pg.apiKeys.get? kid with
    | none => exact hk
    | some k =>
        have hid : k.id = kid := (Table.get?_eq_some.mp hk).2
        show (pg.apiKeys.update k.id _).get? kid = _
        rw [hid, Table.get?_update_self, hk]
        simp [hc]
  · rw [pgAfter, if_neg hc]
    cases hk : pg.apiKeys.get? kid with
    | none => exact hk
    | some k =>
        simp only [Option.map_some, if_neg hc]
        exact hk

/-- What is used does not fall below zero. -/
theorem used_chargeTxn {after : Pg} {cost now : ℤ} {refId note : Option Str} {bd : List Share}
    (hused : ∀ key, w.key kid = some key → 0 ≤ key.usedCents)
    (h : chargeTxn w.pg uid (some kid) cost refId note now = some (bd, after)) {key : ApiKey}
    (hkey : after.apiKeys.get? kid = some key) : 0 ≤ key.usedCents := by
  rw [key_chargeTxn h] at hkey
  obtain ⟨k, hk, rfl⟩ := Option.map_eq_some_iff.mp hkey
  have hle := hused k hk
  split_ifs
  · show 0 ≤ k.usedCents + cost + cost
    omega
  · exact hle

/-- **A direct charge** keeps the counter safe: it leaves the funds cold. -/
theorem safe_charge (cost : ℤ) (refId note : Option Str) (h : CounterSafe uid kid w) :
    CounterSafe uid kid ((KeyOp.charge cost refId note).exec uid kid w) := by
  cases htxn : chargeTxn w.pg uid (some kid) cost refId note w.now with
  | none =>
      have hexec : (KeyOp.charge cost refId note).exec uid kid w = w := by
        simp [KeyOp.exec, QuotaTask.proc, ask, exec, htxn]
      rw [hexec]
      exact h
  | some r =>
      let w₁ : World := { w with pg := r.2 }
      have hexec : (KeyOp.charge cost refId note).exec uid kid w =
          w₁.writes (invalidateWrites uid (w₁.members uid)) := by
        simp only [KeyOp.exec, QuotaTask.proc, ask, Proc.cmd_bind, Proc.runWith_call, exec, htxn]
        rfl
      rw [hexec]
      refine ⟨fun ws => ?_, fun key hkey => ?_, Or.inl (fundsCold_invalidate _)⟩
      · apply reads_writes _ (h.nonneg ws)
        intro x hx
        rcases mem_invalidateWrites.mp hx with rfl | rfl | ⟨sid, -, rfl⟩
        · trivial
        · trivial
        · trivial
      · exact used_chargeTxn h.used htxn hkey

theorem not_touches_share {b : Share} {ws : ℤ} {x : Write} (hx : x ∈ shareWrites uid b) :
    ¬ x.Touches (.kused kid ws) := by
  obtain ⟨k, n, -, hk, rfl⟩ := mem_shareWrites hx
  rcases hk with rfl | ⟨sid, rfl⟩
  · simp [Write.Touches]
  · simp [Write.Touches]

/-- The counter after the mirror of a charge. -/
theorem kused_chargeWrites (cost ws : ℤ) (bd : List Share) :
    (w.writes (chargeWrites uid (some kid) cost ws bd)).kused kid ws =
      some ((w.kused kid ws).getD 0 + cost) := by
  let shares := bd.flatMap (shareWrites uid)
  have hshares : (w.writes shares).kused kid ws = w.kused kid ws := by
    apply counter_writes_other
    intro x hx
    obtain ⟨b, -, hx⟩ := List.mem_flatMap.mp hx
    exact not_touches_share hx
  have hincr := @Store.get_alterOrCreate _ _ _ (w.writes shares).redis.counter w.now
    (.kused kid ws) (.kused kid ws) 0 (· + cost)
  rw [if_pos rfl] at hincr
  rw [chargeWrites, World.writes_append, ← hshares]
  exact hincr

/-- The mirror of a charge keeps the counters from falling below zero. -/
theorem nonneg_chargeWrites {cost ws ws' : ℤ} {bd : List Share} (hc : 0 < cost)
    (h : w.Reads (.kused kid ws') (0 ≤ ·)) :
    (w.writes (chargeWrites uid (some kid) cost ws bd)).Reads (.kused kid ws') (0 ≤ ·) := by
  apply reads_writes _ h
  intro x hx
  rcases List.mem_append.mp hx with hx | hx
  · obtain ⟨b, -, hx⟩ := List.mem_flatMap.mp hx
    obtain ⟨k, n, -, hk, rfl⟩ := mem_shareWrites hx
    intro heq
    rcases hk with rfl | ⟨sid, rfl⟩
    · cases heq
    · cases heq
  · rw [List.mem_singleton.mp hx]
    exact fun _ => ⟨hc.le, fun v hv => by omega⟩

/-- The mirror of a charge creates no funds. -/
theorem fundsCold_chargeWrites (cost ws : ℤ) (bd : List Share) (h : FundsCold uid w) :
    FundsCold uid (w.writes (chargeWrites uid (some kid) cost ws bd)) := by
  have hmem : ∀ x ∈ chargeWrites uid (some kid) cost ws bd,
      (∃ k n, x = .decrIfExists k n) ∨ x = .incrBy (.kused kid ws) cost := by
    intro x hx
    rcases List.mem_append.mp hx with hx | hx
    · obtain ⟨b, -, hx⟩ := List.mem_flatMap.mp hx
      obtain ⟨k, n, -, -, rfl⟩ := mem_shareWrites hx
      exact Or.inl ⟨k, n, rfl⟩
    · exact Or.inr (List.mem_singleton.mp hx)
  apply fundsCold_writes _ _ h
  · intro x hx
    rcases hmem x hx with ⟨k, n, rfl⟩ | rfl
    · exact fun _ _ hv => hv
    · intro heq
      cases heq
  · intro m hm
    rcases hmem _ hm with ⟨k, n, heq⟩ | heq
    · cases heq
    · cases heq

/-- **A charge over Envoy** keeps the counter safe if the funds are cold or the counter
is ahead. -/
theorem safe_alsCharge {cost : ℤ} {refId note : Option Str} (h : CounterSafe uid kid w)
    (hcovers : (KeyOp.alsCharge cost refId note).Covers uid kid w) :
    CounterSafe uid kid ((KeyOp.alsCharge cost refId note).exec uid kid w) := by
  let ws := ((w.key kid).map ApiKey.windowStartEpoch).getD 0
  cases htxn : chargeTxn w.pg uid (some kid) cost refId note w.now with
  | none =>
      have hexec : (KeyOp.alsCharge cost refId note).exec uid kid w = w := by
        simp [KeyOp.exec, QuotaTask.proc, ask, exec, htxn]
      rw [hexec]
      exact h
  | some r =>
      let w₁ : World := { w with pg := r.2 }
      have hkey := key_chargeTxn htxn
      by_cases hc : 0 < cost
      · have hexec : (KeyOp.alsCharge cost refId note).exec uid kid w =
            w₁.writes (chargeWrites uid (some kid) cost ws r.1) := by
          simp only [KeyOp.exec, QuotaTask.proc, ask, Proc.cmd_bind, Proc.runWith_call, exec, htxn,
            applyCharge, if_neg (not_le.mpr hc)]
          rfl
        rw [hexec]
        refine ⟨fun ws' => nonneg_chargeWrites hc (h.nonneg ws'),
          fun key hk => used_chargeTxn h.used htxn hk, ?_⟩
        rcases hcovers hc (by rw [htxn]; rfl) with hcold | hahead
        · exact Or.inl (fundsCold_chargeWrites cost ws r.1 ⟨hcold.wallet, hcold.members⟩)
        · apply Or.inr
          intro key hk v hv
          -- the row got the cost twice, the counter once
          rw [show World.key _ kid = r.2.apiKeys.get? kid from rfl, hkey] at hk
          obtain ⟨k, hrow, rfl⟩ := Option.map_eq_some_iff.mp hk
          have hws : ws = k.windowStartEpoch := by
            show ((w.key kid).map ApiKey.windowStartEpoch).getD 0 = _
            rw [World.key, hrow]
            rfl
          have hle := hahead k hrow
          have hcount : (w₁.writes (chargeWrites uid (some kid) cost ws r.1)).kused kid ws =
              some ((w₁.kused kid ws).getD 0 + cost) := kused_chargeWrites cost ws r.1
          simp only [if_pos hc] at hv ⊢
          rw [hws] at hcount hv
          have heq : v = (w.kused kid k.windowStartEpoch).getD 0 + cost :=
            Option.some.inj (hv.symm.trans hcount)
          omega
      · have hexec : (KeyOp.alsCharge cost refId note).exec uid kid w = w₁ := by
          simp only [KeyOp.exec, QuotaTask.proc, ask, Proc.cmd_bind, Proc.runWith_call, exec, htxn,
            applyCharge, if_pos (not_lt.mp hc)]
          rfl
        rw [hexec]
        have hsame : w₁.key kid = w.key kid := by
          show r.2.apiKeys.get? kid = w.pg.apiKeys.get? kid
          rw [hkey]
          cases w.pg.apiKeys.get? kid with
          | none => rfl
          | some k => simp [hc]
        exact safe_congr hsame (fun _ _ hr => hr) (fun hcold => ⟨hcold.wallet, hcold.members⟩) h

/-! ### The other operations -/

/-- A saved row keeps the counter safe if it keeps what is used and its window, or
starts with nothing used. -/
theorem safe_saveKey {row k : ApiKey} (hrow : w.key kid = some row) (hid : k.id = row.id)
    (hused : k.usedCents = 0 ∨
      k.usedCents = row.usedCents ∧ k.windowStartEpoch = row.windowStartEpoch)
    (h : CounterSafe uid kid w) : CounterSafe uid kid (w.saveKey kid k) := by
  have hkey : (w.saveKey kid k).key kid = some k := get?_saveKey hrow hid
  refine ⟨h.nonneg, ?_, ?_⟩
  · intro key hk
    rw [hkey] at hk
    cases hk
    rcases hused with h0 | ⟨hsame, -⟩
    · exact h0.ge
    · rw [hsame]
      exact h.used row hrow
  · rcases hused with h0 | ⟨hsame, hws⟩
    · apply Or.inr
      intro key hk v hv
      rw [hkey] at hk
      cases hk
      rw [h0]
      exact h.nonneg k.windowStartEpoch v hv
    · rcases h.current with hcold | hcovers
      · exact Or.inl ⟨hcold.wallet, hcold.members⟩
      · apply Or.inr
        intro key hk
        rw [hkey] at hk
        cases hk
        rw [hsame, hws]
        exact hcovers row hrow

/-- Dropping a counter keeps the others safe. -/
theorem safe_windowRoll (kid' ws : ℤ) (h : CounterSafe uid kid w) :
    CounterSafe uid kid ((applyWindowRoll kid' ws).runWith exec w).2 := by
  have hexec : ((applyWindowRoll kid' ws).runWith exec w).2 = w.writes [.del (.kused kid' ws)] := rfl
  rw [hexec]
  apply safe_congr _ _ _ h
  · rfl
  · intro ws' P hr
    apply reads_writes _ hr
    intro x hx
    rw [List.mem_singleton.mp hx]
    trivial
  · apply fundsCold_writes
    · intro x hx
      rw [List.mem_singleton.mp hx]
      trivial
    · intro m hm
      cases List.mem_singleton.mp hm

theorem safe_patch (req : ApiKeyUpdate) (h : CounterSafe uid kid w) :
    CounterSafe uid kid ((KeyOp.patch req).exec uid kid w) := by
  show CounterSafe uid kid (updateKey uid kid req w).2
  unfold updateKey
  cases hrow : w.pg.apiKeys.get? kid with
  | none => exact h
  | some row =>
      dsimp only
      split_ifs with huser
      · exact h
      · cases req.modePeriod row with
        | error e => exact h
        | ok r =>
            obtain ⟨mode, period⟩ := r
            dsimp only
            split_ifs with hsame
            · obtain ⟨rfl, rfl⟩ := hsame
              exact safe_saveKey hrow rfl (Or.inr ⟨rfl, rfl⟩) h
            · apply safe_windowRoll
              exact safe_saveKey hrow rfl (Or.inl rfl) h

theorem safe_enforce (h : CounterSafe uid kid w) :
    CounterSafe uid kid (KeyOp.enforce.exec uid kid w) := by
  cases hrow : w.key kid with
  | none => simpa only [KeyOp.exec, hrow] using h
  | some key =>
      have hid : key.id = kid := (Table.get?_eq_some.mp hrow).2
      subst hid
      simp only [KeyOp.exec, hrow]
      rcases @enforceKeyStateCached_cases key.snapshot w key hrow with
        hw | hw | ⟨period, periodEnd, oldEpoch, hw⟩
      · rw [hw]
        exact h
      · rw [hw]
        exact safe_saveKey hrow rfl (Or.inr ⟨rfl, rfl⟩) h
      · rw [hw]
        apply safe_windowRoll
        exact safe_saveKey hrow rfl (Or.inl rfl) h

theorem safe_resync (h : CounterSafe uid kid w) :
    CounterSafe uid kid (KeyOp.resync.exec uid kid w) := by
  have hlock : CounterSafe uid kid { w with redis := { w.redis with
      lock := (w.redis.lock.setNX w.now .resync () (60 * sec)).2 } } :=
    ⟨h.nonneg, h.used, h.current.imp_left fun hcold => ⟨hcold.wallet, hcold.members⟩⟩
  simp only [KeyOp.exec, resyncOnStartup, ask, Proc.cmd_bind, Proc.runWith_call]
  by_cases hgot : (exec (.setNX .resync (60 * sec)) w).1 = true
  · rw [if_pos hgot]
    -- every quota key is gone
    refine ⟨?_, h.used, Or.inl ⟨rfl, rfl⟩⟩
    intro ws v hv
    cases hv
  · rw [if_neg hgot]
    exact hlock

theorem safe_wait (d : ℕ) (h : CounterSafe uid kid w) : CounterSafe uid kid (w.wait d) := by
  have hkey : (w.wait d).key kid = w.key kid := rfl
  exact safe_congr hkey (fun _ _ hr => reads_wait d hr) (fun hcold => fundsCold_wait d hcold) h

/-! ### Runs -/

/-- **One operation.** -/
theorem safe_exec {op : KeyOp} (h : CounterSafe uid kid w) (hcovers : op.Covers uid kid w) :
    CounterSafe uid kid (op.exec uid kid w) := by
  cases op with
  | check =>
      cases hkey : w.key kid with
      | none => simpa only [KeyOp.exec, hkey] using h
      | some key =>
          simp only [KeyOp.exec, hkey]
          exact safe_check hkey h
  | charge cost refId note => exact safe_charge cost refId note h
  | alsCharge cost refId note => exact safe_alsCharge h hcovers
  | patch req => exact safe_patch req h
  | enforce => exact safe_enforce h
  | wait d => exact safe_wait d h
  | resync => exact safe_resync h

/-- **The cached counter never undercounts** in a run of covered operations of a key
whose counters were not cached at its start. -/
theorem neverUndercounts_run {w' : World} {ops : List KeyOp}
    (hfresh : ∀ ws, w.kused kid ws = none)
    (hused : ∀ key, w.key kid = some key → 0 ≤ key.usedCents)
    (hcovers : Along (keyStep uid kid) (fun w op => op.Covers uid kid w) ops w)
    (hrun : run (keyStep uid kid) ops w = some w') : NeverUndercounts uid kid w' := by
  apply neverUndercounts_of_safe
  have hnone : ∀ ws P, w.Reads (.kused kid ws) P := by
    intro ws P v hv
    rw [show w.redis.counter.get w.now (.kused kid ws) = none from hfresh ws] at hv
    cases hv
  have hstart : CounterSafe uid kid w :=
    ⟨fun ws => hnone ws _, hused, Or.inr fun key _ => hnone _ _⟩
  apply run_induction_along _ hcovers hstart hrun
  intro s op s' hop hs hstep
  cases hstep
  exact safe_exec hs hop

/-! ### One key -/

/-- Key 3 with a quota of 1000 cents, of which some are used. -/
def limitedKey (used : ℤ) : ApiKey := { keyThree with quotaCents := 1000, usedCents := used }

/-- User 1 with a wallet of 100 cents and that key, unused, and a fresh Redis. -/
def limitedWorld : World :=
  coldWorld { oneSubPg 100 0 with apiKeys := .single (limitedKey 0) }

/-- A charge over Envoy before anything is cached, a check, and a direct charge. -/
theorem neverUndercounts_coldCharges :
    ∃ w', run (keyStep 1 3) [.alsCharge 10 none none, .check, .charge 5 none none] limitedWorld =
      some w' ∧ NeverUndercounts 1 3 w' := by
  have hused : ∀ key, limitedWorld.key 3 = some key → 0 ≤ key.usedCents := by
    intro key hkey
    rw [show limitedWorld.key 3 = some (limitedKey 0) by decide +kernel] at hkey
    cases hkey
    decide
  have hcovers : Along (keyStep 1 3) (fun w op => op.Covers 1 3 w)
      [.alsCharge 10 none none, .check, .charge 5 none none] limitedWorld := by
    refine ⟨fun _ _ => Or.inl ⟨rfl, rfl⟩, ?_⟩
    intro _ _
    exact ⟨trivial, fun _ _ => ⟨trivial, fun _ _ => trivial⟩⟩
  have hrun : ∃ w', run (keyStep 1 3) [.alsCharge 10 none none, .check, .charge 5 none none]
      limitedWorld = some w' := ⟨_, rfl⟩
  obtain ⟨w', hrun⟩ := hrun
  exact ⟨w', hrun, neverUndercounts_run (fun _ => rfl) hused hcovers hrun⟩

/-- **A charge over Envoy is counted once in the cache and twice in the row**: after a
check and a charge of 10 cents, the next check answers ok from a counter of 10 while the
row says 20. -/
theorem counter_undercounts :
    ∃ w', run (keyStep 1 3) [.check, .alsCharge 10 none none] limitedWorld = some w' ∧
      ¬ NeverUndercounts 1 3 w' := by
  refine ⟨_, rfl, fun h => ?_⟩
  obtain ⟨u, hu, hle⟩ := h (limitedKey 20) (by decide +kernel) (by decide) (by decide +kernel)
    (by decide +kernel)
  have hten : some (10 : ℤ) = some u := by
    rw [← hu]
    decide +kernel
  cases hten
  exact absurd hle (by decide)

end Llmxy
