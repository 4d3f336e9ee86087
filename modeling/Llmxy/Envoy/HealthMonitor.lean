import Llmxy.Envoy.Instances
import Llmxy.Lib.ExpiringStore
import Llmxy.Lib.Machine
import Llmxy.QuotaCache.Basic

/-!
# The health monitor of the replicas

Every replica of the API runs `_health_loop`: it asks Redis to be the leader, and a leader reads
the instances that run or have failed, probes one after the other and commits what it has
assigned, if a status has changed.  Each replica counts in its own memory how often a probe of an
instance has failed since one succeeded.

The replicas take turns, one command at a time, between any other requests that write the table.
A session holds each row as it was loaded beside what it has been assigned, and a commit writes
the columns that differ.  Redis and the table are read with one clock.

## Main definitions

* `MonitorPhase`, `HealthReplica` — where a replica stands, and what it remembers.
* `HealthReplica.move` — the commands of `_acquire_leader_lock` and of a tick.
* `healthStep` — a command, one that raises, a restart, another writer, or time that passes.
* `atMostOneLeader` — who acts as the leader.
* `failCount_eq_streak`, `monitor_marks` — what the counters count, and what a commit marks.
-/

namespace Llmxy

/-! ### Settings -/

/-- The settings that the loop reads. -/
structure HealthConfig where
  envoyHealthIntervalSeconds : ℤ := 30
  envoyHealthFailThreshold : ℤ := 3

/-- `interval`, in seconds. -/
def HealthConfig.interval (cfg : HealthConfig) : ℤ := max 5 cfg.envoyHealthIntervalSeconds

/-- `threshold`. -/
def HealthConfig.threshold (cfg : HealthConfig) : ℕ := (max 1 cfg.envoyHealthFailThreshold).toNat

/-- The time to live of the lock. -/
def HealthConfig.ttl (cfg : HealthConfig) : ℤ := cfg.interval * 2 * sec

/-- `_HEALTH_LEADER_KEY`. -/
def healthLeaderKey : Str := str "llmxy:envoy:health-leader"

theorem HealthConfig.ttl_pos (cfg : HealthConfig) : 0 < cfg.ttl := by
  have h5 : (5 : ℤ) ≤ cfg.interval := le_max_left _ _
  unfold HealthConfig.ttl sec
  omega

theorem HealthConfig.threshold_pos (cfg : HealthConfig) : 0 < cfg.threshold := by
  have h1 : (1 : ℤ) ≤ max 1 cfg.envoyHealthFailThreshold := le_max_left _ _
  unfold HealthConfig.threshold
  omega

/-! ### Sessions -/

/-- A row of a session: as it was loaded, and as it is now. -/
structure LoadedRow where
  old : EnvoyInstance
  cur : EnvoyInstance
  deriving DecidableEq

/-- The `UPDATE` of a row writes the columns that differ. -/
def LoadedRow.flush (x : LoadedRow) : RowUpdate EnvoyInstance :=
  ⟨fun row => { row with
      status := if x.cur.status = x.old.status then row.status else x.cur.status
      lastHealthAt :=
        if x.cur.lastHealthAt = x.old.lastHealthAt then row.lastHealthAt else x.cur.lastHealthAt
      lastError := if x.cur.lastError = x.old.lastError then row.lastError else x.cur.lastError },
    fun _ => rfl⟩

/-- `commit`.  An `UPDATE` that finds no row raises, and nothing is written. -/
def commitLoaded (rows : List LoadedRow) (t : EnvoyTable) : EnvoyTable :=
  if ∀ x ∈ rows, x.cur = x.old ∨ (t.get? x.old.id).isSome then
    rows.foldl (fun t x => t.update x.old.id x.flush) t
  else t

/-! ### Probes -/

/-- The url that `_probe_one` asks. -/
def EnvoyInstance.probeUrl (inst : EnvoyInstance) : Option Str :=
  match inst.mode with
  | .local_ => (inst.adminPort.filter (· ≠ 0)).map fun port =>
      str "http://127.0.0.1:" ++ showInt port ++ str "/ready"
  | .remote => (inst.adminUrl.filter (· ≠ [])).map fun url =>
      (url.reverse.dropWhile (· = 47)).reverse ++ str "/ready"

/-- `_probe_one`, where `ready` says which urls answer 200 in time. -/
def probeOne (ready : Str → Bool) (inst : EnvoyInstance) : Bool :=
  match inst.probeUrl with
  | some url => ready url
  | none => false

/-- What a probe assigns to a row, with the failures in a row that the replica has counted by
now.  The flag is `changed`. -/
def LoadedRow.assign (threshold : ℕ) (now : ℤ) (ok : Bool) (n : ℕ) (inst : EnvoyInstance) :
    EnvoyInstance × Bool :=
  if ok then
    if inst.status = .error then
      ({ inst with lastHealthAt := some now, status := .running, lastError := none }, true)
    else ({ inst with lastHealthAt := some now }, false)
  else if threshold ≤ n ∧ inst.status ≠ .error then
    ({ inst with
      status := .error
      lastError := some (showNat n ++ str " consecutive health probe failures") }, true)
  else (inst, false)

/-! ### Replicas -/

/-- Where a replica stands in its loop. -/
inductive MonitorPhase where
  | asleep
  /-- The `SET` did not take the key. -/
  | refused
  /-- The `GET` answered its own id. -/
  | ours
  | leading
  /-- In a session, with the rows that are probed and those that are not. -/
  | probing (changed : Bool) (done : List LoadedRow) (todo : List EnvoyInstance)

/-- The replica takes itself for the leader. -/
def MonitorPhase.Acting : MonitorPhase → Prop
  | .leading | .probing _ _ _ => True
  | .asleep | .refused | .ours => False

/-- A replica.  `grantedAt` and `probes` are kept for what is said of them: when Redis last gave
it the lock, and which instances it has probed with which result, the newest first. -/
structure HealthReplica where
  leaderId : Str
  failCount : ℤ → ℕ
  phase : MonitorPhase
  grantedAt : ℤ
  probes : List (ℤ × Bool)

/-- A process that has just begun. -/
def HealthReplica.boot (leaderId : Str) : HealthReplica where
  leaderId := leaderId
  failCount := fun _ => 0
  phase := .asleep
  grantedAt := 0
  probes := []

/-- What the replicas share. -/
structure HealthWorld where
  redis : Store Str Str
  table : EnvoyTable
  now : ℤ

/-- The rows that a tick reads. -/
def monitored (t : EnvoyTable) : List EnvoyInstance :=
  t.rows.filter fun inst => inst.status = .running ∨ inst.status = .error

/-- One probe of a tick. -/
def HealthReplica.probe (cfg : HealthConfig) (now : ℤ) (ok : Bool) (r : HealthReplica)
    (changed : Bool) (done : List LoadedRow) (inst : EnvoyInstance) (todo : List EnvoyInstance) :
    HealthReplica :=
  let n := if ok then 0 else r.failCount inst.id + 1
  let assigned := LoadedRow.assign cfg.threshold now ok n inst
  { r with
    failCount := Function.update r.failCount inst.id n
    phase := .probing (changed || assigned.2) (done ++ [⟨inst, assigned.1⟩]) todo
    probes := (inst.id, ok) :: r.probes }

/-- The next command of a replica. -/
def HealthReplica.move (cfg : HealthConfig) (ready : Str → Bool) (w : HealthWorld)
    (r : HealthReplica) : HealthWorld × HealthReplica :=
  match r.phase with
  | .asleep =>
      let (ok, redis) := w.redis.setNX w.now healthLeaderKey r.leaderId cfg.ttl
      ({ w with redis },
        if ok then { r with phase := .leading, grantedAt := w.now }
        else { r with phase := .refused })
  | .refused =>
      (w, { r with
        phase := if w.redis.get w.now healthLeaderKey = some r.leaderId then .ours else .asleep })
  | .ours =>
      ({ w with redis := w.redis.expire w.now healthLeaderKey cfg.ttl },
        { r with phase := .leading, grantedAt := w.now })
  | .leading => (w, { r with phase := .probing false [] (monitored w.table) })
  | .probing changed done (inst :: todo) =>
      (w, r.probe cfg w.now (probeOne ready inst) changed done inst todo)
  | .probing changed done [] =>
      (if changed then { w with table := commitLoaded done w.table } else w,
        { r with phase := .asleep })

/-- The next command raises.  Without Redis a replica leads; another failure ends the tick. -/
def HealthReplica.fail (r : HealthReplica) : HealthReplica :=
  match r.phase with
  | .asleep | .refused | .ours => { r with phase := .leading }
  | .leading | .probing _ _ _ => { r with phase := .asleep }

/-- What can happen. -/
inductive HealthLabel (ι : Type) where
  /-- A command of a replica, and what the network answers to it. -/
  | move (i : ι) (ready : Str → Bool)
  | fail (i : ι)
  | restart (i : ι) (leaderId : Str)
  /-- Another request commits. -/
  | write (table : EnvoyTable)
  | wait (d : ℕ)

/-- The replicas. -/
abbrev HealthNet (ι : Type) := Net ι HealthWorld HealthReplica

variable {ι : Type} [DecidableEq ι]

/-- One step. -/
def healthStep (cfg : HealthConfig) (s : HealthNet ι) : HealthLabel ι → Option (HealthNet ι)
  | .move i ready => Net.step (fun _ w r => some (r.move cfg ready w)) s i
  | .fail i => Net.step (fun _ w r => some (w, r.fail)) s i
  | .restart i leaderId => Net.step (fun _ w _ => some (w, .boot leaderId)) s i
  | .write table => some { s with shared := { s.shared with table } }
  | .wait d => some { s with shared := { s.shared with now := s.shared.now + d } }

/-- Every process has just begun. -/
def HealthNet.start (w : HealthWorld) (leaderId : ι → Str) : HealthNet ι :=
  ⟨w, fun i => .boot (leaderId i)⟩

/-! ### At most one leader -/

/-- The step leaves the ticks within their leases: Redis answers, no process takes the id of
another, no tick lasts as long as its lock lives, and no lock expires between the `GET` and the
`EXPIRE` of its owner. -/
def WithinLease (cfg : HealthConfig) (s : HealthNet ι) : HealthLabel ι → Prop
  | .move _ _ | .write _ => True
  | .fail i => (s.loc i).phase.Acting
  | .restart i leaderId => ∀ j, j ≠ i → (s.loc j).leaderId ≠ leaderId
  | .wait d => ∀ i,
      ((s.loc i).phase.Acting → s.shared.now + d < (s.loc i).grantedAt + cfg.ttl) ∧
      ((s.loc i).phase = .ours →
        (s.shared.redis.get (s.shared.now + d) healthLeaderKey).isSome)

/-- The ids differ; a replica that acts holds the key for as long as it was promised, and one
that has read its own id holds it now. -/
structure LeaseInv (cfg : HealthConfig) (s : HealthNet ι) : Prop where
  ids : Function.Injective fun i => (s.loc i).leaderId
  acting : ∀ i, (s.loc i).phase.Acting → s.shared.now < (s.loc i).grantedAt + cfg.ttl ∧
    s.shared.redis.get ((s.loc i).grantedAt + cfg.ttl - 1) healthLeaderKey =
      some (s.loc i).leaderId
  ours : ∀ i, (s.loc i).phase = .ours →
    s.shared.redis.get s.shared.now healthLeaderKey = some (s.loc i).leaderId

section Lease
variable {cfg : HealthConfig} {s t : HealthNet ι} {i j : ι}

/-- A key reads as what was written until its time to live is over. -/
theorem get_set_until {w : HealthWorld} {leaderId : Str} {now' : ℤ} (h : now' < w.now + cfg.ttl) :
    (w.redis.set w.now healthLeaderKey leaderId cfg.ttl).get now' healthLeaderKey =
      some leaderId := by
  have hlive : (⟨leaderId, some (w.now + cfg.ttl)⟩ : Entry Str).live now' = true := by
    simpa [Entry.live] using h
  rw [Store.set, Store.get_put, if_pos rfl, Entry.read_of_live hlive]

omit [DecidableEq ι] in
/-- A replica that acts holds the key now. -/
theorem LeaseInv.get_of_acting (h : LeaseInv cfg s) (hi : (s.loc i).phase.Acting) :
    s.shared.redis.get s.shared.now healthLeaderKey = some (s.loc i).leaderId := by
  obtain ⟨hlt, hget⟩ := h.acting i hi
  exact Store.get_le (by omega) hget

omit [DecidableEq ι] in
/-- One replica at a time acts. -/
theorem LeaseInv.unique (h : LeaseInv cfg s) (hi : (s.loc i).phase.Acting)
    (hj : (s.loc j).phase.Acting) : i = j := by
  have heq := (h.get_of_acting hi).symm.trans (h.get_of_acting hj)
  exact h.ids (Option.some.inj heq)

/-- **What one replica does** keeps the invariant, if what it becomes fits and the others may
keep what they hold. -/
theorem LeaseInv.update (h : LeaseInv cfg s) {w : HealthWorld} {r : HealthReplica}
    (hnow : w.now = s.shared.now)
    (hids : ∀ j, j ≠ i → (s.loc j).leaderId ≠ r.leaderId)
    (hothers : ∀ j now', j ≠ i →
      s.shared.redis.get s.shared.now healthLeaderKey = some (s.loc j).leaderId →
      w.redis.get now' healthLeaderKey = s.shared.redis.get now' healthLeaderKey)
    (hacting : r.phase.Acting → w.now < r.grantedAt + cfg.ttl ∧
      w.redis.get (r.grantedAt + cfg.ttl - 1) healthLeaderKey = some r.leaderId)
    (hours : r.phase = .ours → w.redis.get w.now healthLeaderKey = some r.leaderId) :
    LeaseInv cfg ⟨w, Function.update s.loc i r⟩ where
  ids j k hjk := by
    by_cases hj : j = i
    · subst hj
      by_cases hk : k = j
      · exact hk.symm
      · exact absurd (by simpa [hk] using hjk.symm) (hids k hk)
    · by_cases hk : k = i
      · subst hk
        exact absurd (by simpa [hj] using hjk) (hids j hj)
      · exact h.ids (by simpa [hj, hk] using hjk)
  acting j hj := by
    by_cases hji : j = i
    · subst hji
      simpa using hacting (by simpa using hj)
    · simp only [Function.update_of_ne hji] at hj ⊢
      obtain ⟨hlt, hget⟩ := h.acting j hj
      exact ⟨hnow ▸ hlt, (hothers j _ hji (h.get_of_acting hj)).trans hget⟩
  ours j hj := by
    by_cases hji : j = i
    · subst hji
      simpa using hours (by simpa using hj)
    · simp only [Function.update_of_ne hji] at hj ⊢
      have hget := h.ours j hj
      rw [hnow]
      exact (hothers j _ hji hget).trans hget

/-- The commands of a replica keep the invariant. -/
theorem LeaseInv.move (h : LeaseInv cfg s) (i : ι) (ready : Str → Bool) :
    LeaseInv cfg ⟨((s.loc i).move cfg ready s.shared).1,
      Function.update s.loc i ((s.loc i).move cfg ready s.shared).2⟩ := by
  have hids : ∀ j, j ≠ i → (s.loc j).leaderId ≠ (s.loc i).leaderId := fun j hj heq =>
    hj (h.ids heq)
  -- Another owner of the key would have been in the way.
  have hnone : ∀ j, j ≠ i → s.shared.redis.get s.shared.now healthLeaderKey =
      some (s.loc j).leaderId → s.shared.redis.get s.shared.now healthLeaderKey ≠
      some (s.loc i).leaderId := fun j hj hget heq =>
    hids j hj (Option.some.inj (hget.symm.trans heq))
  have hgrant : s.shared.now < s.shared.now + cfg.ttl ∧
      (s.shared.redis.set s.shared.now healthLeaderKey (s.loc i).leaderId cfg.ttl).get
        (s.shared.now + cfg.ttl - 1) healthLeaderKey = some (s.loc i).leaderId := by
    have hpos := cfg.ttl_pos
    exact ⟨by omega, get_set_until (by omega)⟩
  unfold HealthReplica.move
  cases hphase : (s.loc i).phase with
  | asleep =>
      cases hget : s.shared.redis.get s.shared.now healthLeaderKey with
      | none =>
          rw [Store.setNX_of_free hget]
          refine h.update rfl hids (fun j _ _ hj => ?_) (fun _ => ?_) (fun hours => by cases hours)
          · rw [hget] at hj
            cases hj
          · exact hgrant
      | some owner =>
          rw [Store.setNX_of_held hget]
          exact h.update rfl hids (fun _ _ _ _ => rfl) False.elim (fun hours => by cases hours)
  | refused =>
      refine h.update rfl hids (fun _ _ _ _ => rfl) (fun hact => ?_) (fun hours => ?_)
      · dsimp only at hact
        split_ifs at hact
        · cases hact
        · cases hact
      · dsimp only at hours ⊢
        split_ifs at hours with hown
        exact hown
  | ours =>
      have hown := h.ours i hphase
      have hset : s.shared.redis.expire s.shared.now healthLeaderKey cfg.ttl =
          s.shared.redis.set s.shared.now healthLeaderKey (s.loc i).leaderId cfg.ttl := by
        rw [Store.expire, hown]
      refine h.update rfl hids (fun j _ hj hget => ?_) (fun _ => ?_) (fun hours => by cases hours)
      · exact absurd hown (hnone j hj hget)
      · dsimp only
        rw [hset]
        exact hgrant
  | leading =>
      refine h.update rfl hids (fun _ _ _ _ => rfl) (fun _ => ?_) (fun hours => by cases hours)
      exact h.acting i (by rw [hphase]; trivial)
  | probing changed done todo =>
      have hact := h.acting i (by rw [hphase]; trivial)
      cases todo with
      | cons inst todo =>
          exact h.update rfl hids (fun _ _ _ _ => rfl) (fun _ => hact) (fun hours => by cases hours)
      | nil =>
          refine h.update ?_ hids (fun _ _ _ _ => ?_) False.elim (fun hours => by cases hours)
          · dsimp only
            split_ifs
            · rfl
            · rfl
          · dsimp only
            split_ifs
            · rfl
            · rfl

/-- A step within the leases keeps the invariant. -/
theorem leaseInv_step {a : HealthLabel ι} (hP : WithinLease cfg s a) (h : LeaseInv cfg s)
    (hstep : healthStep cfg s a = some t) : LeaseInv cfg t := by
  cases a with
  | move i ready =>
      cases hstep
      exact h.move i ready
  | fail i =>
      cases hstep
      have hids : ∀ j, j ≠ i → (s.loc j).leaderId ≠ (s.loc i).leaderId := fun j hj heq =>
        hj (h.ids heq)
      have hact : (s.loc i).phase.Acting := hP
      have hasleep : (s.loc i).fail = { s.loc i with phase := .asleep } := by
        unfold HealthReplica.fail
        cases hphase : (s.loc i).phase with
        | asleep | refused | ours => rw [hphase] at hact; cases hact
        | leading | probing changed done todo => rfl
      rw [hasleep]
      exact h.update rfl hids (fun _ _ _ _ => rfl) nofun nofun
  | restart i leaderId =>
      cases hstep
      exact h.update rfl hP (fun _ _ _ _ => rfl) nofun nofun
  | write table =>
      cases hstep
      exact ⟨h.ids, h.acting, h.ours⟩
  | wait d =>
      cases hstep
      refine ⟨h.ids, fun i hi => ⟨(hP i).1 hi, (h.acting i hi).2⟩, fun i hi => ?_⟩
      obtain ⟨owner, howner⟩ := Option.isSome_iff_exists.mp ((hP i).2 hi)
      have hsame := (Store.get_le (by omega) howner).symm.trans (h.ours i hi)
      exact howner.trans hsame

end Lease

/-- **One replica at a time acts as the leader**, in every run that stays within the leases. -/
theorem atMostOneLeader (cfg : HealthConfig) {w : HealthWorld} {leaderId : ι → Str}
    {as : List (HealthLabel ι)} {t : HealthNet ι} (hids : Function.Injective leaderId)
    (hal : Along (healthStep cfg) (WithinLease cfg) as (.start w leaderId))
    (hrun : run (healthStep cfg) as (.start w leaderId) = some t) {i j : ι}
    (hi : (t.loc i).phase.Acting) (hj : (t.loc j).phase.Acting) : i = j := by
  have h0 : LeaseInv cfg (.start w leaderId) := ⟨hids, nofun, nofun⟩
  have hinv : LeaseInv cfg t :=
    run_induction_along (fun _ _ _ hP h hstep => leaseInv_step hP h hstep) hal h0 hrun
  exact hinv.unique hi hj

/-- Two replicas that take turns: the one that came first acts, the other was refused. -/
theorem atMostOneLeader_two :
    ∃ t, run (healthStep {}) [.move 0 fun _ => true, .move 1 fun _ => true, .wait 1000000]
        (.start ⟨Store.empty, .empty, 0⟩ fun i : Fin 2 => showNat i.val) = some t ∧
      (t.loc 0).phase.Acting ∧ ∀ j, (t.loc j).phase.Acting → 0 = j := by
  have hal : Along (healthStep {}) (WithinLease {})
      [.move 0 fun _ => true, .move 1 fun _ => true, .wait 1000000]
      (.start ⟨Store.empty, .empty, 0⟩ fun i : Fin 2 => showNat i.val) := by
    refine ⟨trivial, fun s₁ h₁ => ?_⟩
    cases h₁
    refine ⟨trivial, fun s₂ h₂ => ?_⟩
    cases h₂
    refine ⟨Fin.forall_fin_two.mpr ⟨⟨fun _ => by decide, nofun⟩, nofun, nofun⟩, ?_⟩
    exact fun _ _ => trivial
  refine ⟨_, rfl, trivial, fun j hj => ?_⟩
  exact atMostOneLeader {} (by decide) hal rfl trivial hj

/-! ### What the counters count -/

/-- How many of the newest probes of an instance failed in a row. -/
def streak (id : ℤ) (probes : List (ℤ × Bool)) : ℕ :=
  ((probes.filter (·.1 = id)).takeWhile fun p => !p.2).length

/-- The result of the newest probe of an instance. -/
def lastProbe (id : ℤ) (probes : List (ℤ × Bool)) : Option Bool :=
  ((probes.filter (·.1 = id)).head?).map Prod.snd

section Marks
variable {cfg : HealthConfig} {s t : HealthNet ι} {i : ι} {id id' : ℤ} {ok : Bool}
  {probes : List (ℤ × Bool)} {r : HealthReplica}

theorem streak_cons_self (id : ℤ) (ok : Bool) (probes : List (ℤ × Bool)) :
    streak id ((id, ok) :: probes) = if ok then 0 else streak id probes + 1 := by
  cases ok <;> simp [streak]

theorem streak_cons_other (h : id' ≠ id) : streak id ((id', ok) :: probes) = streak id probes := by
  simp [streak, h]

theorem lastProbe_cons_self : lastProbe id ((id, ok) :: probes) = some ok := by simp [lastProbe]

theorem lastProbe_cons_other (h : id' ≠ id) :
    lastProbe id ((id', ok) :: probes) = lastProbe id probes := by
  simp [lastProbe, h]

/-- What a session may say of a row: its other columns are as they were, and a new status has
its reason. -/
structure LoadedRow.Justified (cfg : HealthConfig) (probes : List (ℤ × Bool)) (x : LoadedRow) :
    Prop where
  failed : x.cur.status ≠ x.old.status → x.cur.status = .error →
    cfg.threshold ≤ streak x.old.id probes
  recovered : x.cur.status ≠ x.old.status → x.cur.status ≠ .error →
    x.cur.status = .running ∧ lastProbe x.old.id probes = some true

/-- Later probes of other instances change nothing. -/
theorem LoadedRow.Justified.cons {x : LoadedRow} (h : x.Justified cfg probes)
    (hid : id ≠ x.old.id) : x.Justified cfg ((id, ok) :: probes) where
  failed hne herr := by
    rw [streak_cons_other hid]
    exact h.failed hne herr
  recovered hne herr := by
    rw [lastProbe_cons_other hid]
    exact h.recovered hne herr

/-- What one probe assigns has its reason. -/
theorem justified_assign (now : ℤ) (inst : EnvoyInstance) (ok : Bool) :
    LoadedRow.Justified cfg ((inst.id, ok) :: probes)
      ⟨inst, (LoadedRow.assign cfg.threshold now ok
        (if ok then 0 else streak inst.id probes + 1) inst).1⟩ := by
  cases ok with
  | true =>
      refine ⟨fun hne herr => ?_, fun hne _ => ?_⟩
      · simp only [LoadedRow.assign, if_true] at hne herr
        split_ifs at hne herr with hwas
        exact absurd rfl hne
      · simp only [LoadedRow.assign, if_true] at hne ⊢
        split_ifs at hne ⊢ with hwas
        · exact ⟨rfl, lastProbe_cons_self⟩
        · exact absurd rfl hne
  | false =>
      refine ⟨fun hne _ => ?_, fun hne herr => ?_⟩
      · rw [streak_cons_self, if_neg (by decide)]
        simp only [LoadedRow.assign, Bool.false_eq_true, if_false] at hne
        split_ifs at hne with hmark
        · exact hmark.1
        · exact absurd rfl hne
      · simp only [LoadedRow.assign, Bool.false_eq_true, if_false] at hne herr
        split_ifs at hne herr with hmark
        · exact absurd rfl herr
        · exact absurd rfl hne

/-- The counters are the streaks, and a session marks no row without its reason. -/
structure MarkInv (cfg : HealthConfig) (r : HealthReplica) : Prop where
  count : ∀ id, r.failCount id = streak id r.probes
  nodup : ∀ changed done todo, r.phase = .probing changed done todo →
    (done.map (·.old.id) ++ todo.map EnvoyInstance.id).Nodup
  justified : ∀ changed done todo, r.phase = .probing changed done todo →
    ∀ x ∈ done, x.Justified cfg r.probes

/-- Between sessions only the counters matter. -/
theorem MarkInv.of_phase (h : MarkInv cfg r) {phase : MonitorPhase} {grantedAt : ℤ}
    (hphase : ∀ changed done todo, phase ≠ .probing changed done todo) :
    MarkInv cfg { r with phase, grantedAt } :=
  ⟨h.count, fun _ _ _ heq => absurd heq (hphase _ _ _),
    fun _ _ _ heq => absurd heq (hphase _ _ _)⟩

theorem markInv_boot (leaderId : Str) : MarkInv cfg (.boot leaderId) :=
  ⟨fun _ => rfl, nofun, nofun⟩

/-- The rows that a tick reads are distinct. -/
theorem nodup_monitored (t : EnvoyTable) : ((monitored t).map EnvoyInstance.id).Nodup :=
  t.table.nodup.sublist (List.filter_sublist.map _)

/-- A session begins with no row marked. -/
theorem MarkInv.select (h : MarkInv cfg r) (t : EnvoyTable) :
    MarkInv cfg { r with phase := .probing false [] (monitored t) } := by
  refine ⟨h.count, ?_, ?_⟩
  · rintro _ _ _ heq
    cases heq
    simpa using nodup_monitored t
  · rintro _ _ _ heq x hx
    cases heq
    cases hx

/-- A probe keeps the invariant. -/
theorem MarkInv.probe (h : MarkInv cfg r) {changed : Bool} {done : List LoadedRow}
    {inst : EnvoyInstance} {todo : List EnvoyInstance} (now : ℤ) (ok : Bool)
    (hphase : r.phase = .probing changed done (inst :: todo)) :
    MarkInv cfg (r.probe cfg now ok changed done inst todo) := by
  have hnodup := h.nodup _ _ _ hphase
  have hfresh : ∀ x ∈ done, inst.id ≠ x.old.id := by
    intro x hx heq
    have hdis := (List.nodup_append.mp hnodup).2.2 x.old.id (List.mem_map_of_mem hx) inst.id
      (by simp)
    exact hdis heq.symm
  refine ⟨fun id => ?_, ?_, ?_⟩
  · show Function.update r.failCount inst.id _ id = streak id ((inst.id, ok) :: r.probes)
    by_cases hid : id = inst.id
    · rw [hid, Function.update_self, streak_cons_self, h.count]
    · rw [Function.update_of_ne hid, streak_cons_other (Ne.symm hid), h.count]
  · rintro _ _ _ heq
    cases heq
    simpa using hnodup
  · rintro _ _ _ heq x hx
    cases heq
    obtain hx | hx := List.mem_append.mp hx
    · exact (h.justified _ _ _ hphase x hx).cons (hfresh x hx)
    · rw [List.mem_singleton.mp hx, h.count]
      exact justified_assign now inst ok

/-- The commands of a replica keep it. -/
theorem MarkInv.move (h : MarkInv cfg r) (ready : Str → Bool) (w : HealthWorld) :
    MarkInv cfg (r.move cfg ready w).2 := by
  unfold HealthReplica.move
  cases hphase : r.phase with
  | asleep =>
      dsimp only
      split_ifs
      · exact h.of_phase nofun
      · exact h.of_phase nofun
  | refused =>
      dsimp only
      split_ifs
      · exact h.of_phase nofun
      · exact h.of_phase nofun
  | ours => exact h.of_phase nofun
  | leading => exact h.select w.table
  | probing changed done todo =>
      cases todo with
      | cons inst todo => exact h.probe w.now (probeOne ready inst) hphase
      | nil => exact h.of_phase nofun

theorem MarkInv.fail (h : MarkInv cfg r) : MarkInv cfg r.fail := by
  unfold HealthReplica.fail
  cases r.phase with
  | asleep | refused | ours | leading | probing => exact h.of_phase nofun

/-- Every step keeps it, of every replica. -/
theorem markInv_step {a : HealthLabel ι} (h : ∀ j, MarkInv cfg (s.loc j))
    (hstep : healthStep cfg s a = some t) (j : ι) : MarkInv cfg (t.loc j) := by
  have hupdate : ∀ (i : ι) (r : HealthReplica), MarkInv cfg r →
      MarkInv cfg (Function.update s.loc i r j) := by
    intro i r hr
    by_cases hj : j = i
    · subst hj
      simpa using hr
    · simpa [hj] using h j
  cases a with
  | move i ready =>
      cases hstep
      exact hupdate i _ ((h i).move ready s.shared)
  | fail i =>
      cases hstep
      exact hupdate i _ (h i).fail
  | restart i leaderId =>
      cases hstep
      exact hupdate i _ (markInv_boot leaderId)
  | write table =>
      cases hstep
      exact h j
  | wait d =>
      cases hstep
      exact h j

theorem markInv_run {w : HealthWorld} {leaderId : ι → Str} {as : List (HealthLabel ι)}
    (hrun : run (healthStep cfg) as (.start w leaderId) = some s) (i : ι) : MarkInv cfg (s.loc i) :=
  run_induction (I := fun s => ∀ j, MarkInv cfg (s.loc j))
    (fun _ _ _ h hstep j => markInv_step h hstep j) (fun j => markInv_boot (leaderId j)) hrun i

/-! ### What a commit marks -/

/-- The rows after the `UPDATE`s of a session. -/
theorem get?_flushAll {rows : List LoadedRow} (hnodup : (rows.map (·.old.id)).Nodup)
    (t : EnvoyTable) (id : ℤ) :
    (rows.foldl (fun t x => t.update x.old.id x.flush) t).get? id =
      match rows.find? (·.old.id = id) with
      | some x => (t.get? id).map x.flush.1
      | none => t.get? id := by
  induction rows generalizing t with
  | nil => rfl
  | cons x rows ih =>
      obtain ⟨hx, hnodup⟩ := List.nodup_cons.mp hnodup
      rw [List.foldl_cons, ih hnodup, SerialTable.get?_update, List.find?_cons]
      by_cases hid : x.old.id = id
      · have hnone : rows.find? (·.old.id = id) = none := by
          rw [List.find?_eq_none]
          intro y hy
          rw [decide_eq_true_iff, ← hid]
          exact fun heq => hx (List.mem_map.mpr ⟨y, hy, heq⟩)
        rw [hnone, if_pos hid.symm, decide_eq_true hid]
      · rw [if_neg (Ne.symm hid), decide_eq_false hid]

/-- **The counters count failures in a row**: a replica has counted, for an instance, its probes
of it since the last that succeeded, whatever the other replicas and requests do. -/
theorem failCount_eq_streak (cfg : HealthConfig) {w : HealthWorld} {leaderId : ι → Str}
    {as : List (HealthLabel ι)} (hrun : run (healthStep cfg) as (.start w leaderId) = some s)
    (i : ι) (id : ℤ) : (s.loc i).failCount id = streak id (s.loc i).probes :=
  (markInv_run hrun i).count id

/-- One instance, which runs. -/
def oneInstance : EnvoyTable :=
  SerialTable.empty.insert
    (fun k => ⟨k, str "edge", .local_, str "llmxy-edge", 8080, some 9901, none, .running, none,
      none, none, none⟩)
    fun _ => rfl

end Marks

/-! ### One leader, undisturbed -/

/-- The step leaves replica `i` alone with the table: no request writes it, no other replica
acts, and `i` neither restarts nor has a tick cut short. -/
def Undisturbed (i : ι) (s : HealthNet ι) : HealthLabel ι → Prop
  | .move j _ => j = i ∨ ¬ (s.loc j).phase.Acting
  | .fail j => j = i → ¬ (s.loc i).phase.Acting
  | .restart j _ => j ≠ i
  | .write _ => False
  | .wait _ => True

/-- The loop reads rows of this status. -/
def EnvoyStatus.Monitored (status : EnvoyStatus) : Prop := status = .running ∨ status = .error

instance (status : EnvoyStatus) : Decidable status.Monitored :=
  inferInstanceAs (Decidable (_ ∨ _))

/-- The status that its probes give to an instance that began with status `first`: failed, if so
many of the newest failed, or if it had failed before and none has succeeded. -/
def settledStatus (cfg : HealthConfig) (first : EnvoyStatus) (id : ℤ) (probes : List (ℤ × Bool)) :
    EnvoyStatus :=
  if first.Monitored then
    if cfg.threshold ≤ streak id probes ∨ first = .error ∧ ∀ p ∈ probes, p.1 = id → p.2 = false
    then .error else .running
  else first

/-- The status of a row, once the session under way has committed. -/
def MonitorPhase.pendingStatus (id : ℤ) (status : EnvoyStatus) : MonitorPhase → EnvoyStatus
  | .probing _ done _ =>
      match done.find? (·.old.id = id) with
      | some x => x.cur.status
      | none => status
  | .asleep | .refused | .ours | .leading => status

section Undisturbed
variable {cfg : HealthConfig} {s t : HealthNet ι} {i : ι} {id : ℤ} {ok : Bool}
  {probes : List (ℤ × Bool)} {first : EnvoyStatus}

theorem settledStatus_cons_other {id' : ℤ} (h : id' ≠ id) :
    settledStatus cfg first id ((id', ok) :: probes) = settledStatus cfg first id probes := by
  have hall : (∀ p ∈ (id', ok) :: probes, p.1 = id → p.2 = false) ↔
      ∀ p ∈ probes, p.1 = id → p.2 = false := by
    rw [List.forall_mem_cons]
    exact and_iff_right fun heq => absurd heq h
  simp only [settledStatus, streak_cons_other h, hall]

/-- A probe assigns the status that the probes now give. -/
theorem status_assign (now : ℤ) {inst : EnvoyInstance} (hmon : inst.status.Monitored)
    (h : inst.status = settledStatus cfg first inst.id probes) :
    (LoadedRow.assign cfg.threshold now ok (if ok then 0 else streak inst.id probes + 1)
      inst).1.status = settledStatus cfg first inst.id ((inst.id, ok) :: probes) := by
  have hfirst : first.Monitored := by
    by_contra hne
    rw [settledStatus, if_neg hne] at h
    exact hne (h ▸ hmon)
  rw [settledStatus, if_pos hfirst] at h ⊢
  rw [streak_cons_self]
  cases ok with
  | true =>
      have hnone : ¬ (cfg.threshold ≤ 0 ∨
          first = .error ∧ ∀ p ∈ (inst.id, true) :: probes, p.1 = inst.id → p.2 = false) := by
        rintro (hle | ⟨-, hall⟩)
        · exact absurd hle (by have := cfg.threshold_pos; omega)
        · exact Bool.noConfusion (hall (inst.id, true) List.mem_cons_self rfl)
      rw [if_pos rfl, if_neg hnone, LoadedRow.assign, if_pos rfl]
      split_ifs with hwas
      · rfl
      · exact hmon.resolve_right hwas
  | false =>
      have hall : (∀ p ∈ (inst.id, false) :: probes, p.1 = inst.id → p.2 = false) ↔
          ∀ p ∈ probes, p.1 = inst.id → p.2 = false := by
        rw [List.forall_mem_cons]
        exact and_iff_right fun _ => rfl
      simp only [hall, Bool.false_eq_true, if_false]
      rw [LoadedRow.assign, if_neg (by decide)]
      by_cases hle : cfg.threshold ≤ streak inst.id probes + 1
      · have herr : cfg.threshold ≤ streak inst.id probes + 1 ∨
            first = .error ∧ ∀ p ∈ probes, p.1 = inst.id → p.2 = false := .inl hle
        rw [if_pos herr]
        split_ifs with hmark
        · rfl
        · exact not_not.mp fun hne => hmark ⟨hle, hne⟩
      · have hmark : ¬ (cfg.threshold ≤ streak inst.id probes + 1 ∧ inst.status ≠ .error) :=
          fun hand => hle hand.1
        rw [if_neg hmark, h]
        refine if_congr ?_ rfl rfl
        exact or_congr_left (iff_of_false (by omega) hle)

/-- What a session knows of the table while nobody else writes it. -/
structure TickInv (t : EnvoyTable) (changed : Bool) (done : List LoadedRow)
    (todo : List EnvoyInstance) : Prop where
  loaded : ∀ x ∈ done, t.get? x.old.id = some x.old
  waiting : ∀ inst ∈ todo, t.get? inst.id = some inst ∧ inst.status.Monitored
  unchanged : changed = false → ∀ x ∈ done, x.cur.status = x.old.status

/-- Every row that was there is there, and its status, the session under way included, is the
one that the probes give it. -/
structure SettledInv (cfg : HealthConfig) (t₀ : EnvoyTable) (w : HealthWorld) (r : HealthReplica) :
    Prop where
  mark : MarkInv cfg r
  session : ∀ changed done todo, r.phase = .probing changed done todo →
    TickInv w.table changed done todo
  settled : ∀ id row₀, t₀.get? id = some row₀ → ∃ row, w.table.get? id = some row ∧
    r.phase.pendingStatus id row.status = settledStatus cfg row₀.status id r.probes

/-- A row that a tick reads. -/
theorem mem_monitored {t : EnvoyTable} {inst : EnvoyInstance} (h : inst ∈ monitored t) :
    t.get? inst.id = some inst ∧ inst.status.Monitored := by
  obtain ⟨hmem, hmon⟩ := List.mem_filter.mp h
  refine ⟨SerialTable.get?_eq_some.mpr ⟨hmem, rfl⟩, ?_⟩
  simpa [EnvoyStatus.Monitored] using hmon

/-- What an `if` of the probe leaves alone. -/
theorem unchanged_assign {threshold n : ℕ} {now : ℤ} {inst : EnvoyInstance}
    (h : (LoadedRow.assign threshold now ok n inst).2 = false) :
    (LoadedRow.assign threshold now ok n inst).1.status = inst.status := by
  unfold LoadedRow.assign at h ⊢
  split_ifs at h ⊢
  · rfl
  · rfl

variable {t₀ : EnvoyTable} {w : HealthWorld} {r : HealthReplica}

/-- A probe keeps the invariant. -/
theorem SettledInv.probe (h : SettledInv cfg t₀ w r) {changed : Bool} {done : List LoadedRow}
    {inst : EnvoyInstance} {todo : List EnvoyInstance} (ok : Bool)
    (hphase : r.phase = .probing changed done (inst :: todo)) :
    SettledInv cfg t₀ w (r.probe cfg w.now ok changed done inst todo) := by
  have hsession := h.session _ _ _ hphase
  obtain ⟨hrow, hmon⟩ := hsession.waiting inst List.mem_cons_self
  have hfresh : ∀ x ∈ done, x.old.id ≠ inst.id := fun x hx heq =>
    (List.nodup_append.mp (h.mark.nodup _ _ _ hphase)).2.2 x.old.id
      (List.mem_map_of_mem hx) inst.id (by simp) heq
  refine ⟨h.mark.probe w.now ok hphase, ?_, fun id row₀ hrow₀ => ?_⟩
  · rintro _ _ _ heq
    cases heq
    refine ⟨fun x hx => ?_, fun y hy => hsession.waiting y (List.mem_cons_of_mem _ hy),
      fun hfalse x hx => ?_⟩
    · obtain hx | hx := List.mem_append.mp hx
      · exact hsession.loaded x hx
      · rw [List.mem_singleton.mp hx]
        exact hrow
    · obtain ⟨hchanged, hassign⟩ := Bool.or_eq_false_iff.mp hfalse
      obtain hx | hx := List.mem_append.mp hx
      · exact hsession.unchanged hchanged x hx
      · rw [List.mem_singleton.mp hx]
        exact unchanged_assign hassign
  · obtain ⟨row, hget, hpending⟩ := h.settled id row₀ hrow₀
    refine ⟨row, hget, ?_⟩
    rw [hphase] at hpending
    simp only [HealthReplica.probe, MonitorPhase.pendingStatus, List.find?_append,
      List.find?_singleton] at hpending ⊢
    by_cases hid : inst.id = id
    · subst hid
      have hnone : done.find? (·.old.id = inst.id) = none := by
        rw [List.find?_eq_none]
        intro x hx
        simpa using hfresh x hx
      have heq : row = inst := Option.some.inj (hget.symm.trans hrow)
      rw [hnone] at hpending ⊢
      simp only [heq] at hpending
      rw [Option.none_or, decide_eq_true rfl, if_pos rfl, h.mark.count]
      exact status_assign w.now hmon hpending
    · rw [decide_eq_false hid, if_neg (by decide), Option.or_none, settledStatus_cons_other hid]
      exact hpending

/-- A commit keeps it: no row of the session is missing. -/
theorem SettledInv.commit (h : SettledInv cfg t₀ w r) {done : List LoadedRow}
    (hphase : r.phase = .probing true done []) :
    SettledInv cfg t₀ { w with table := commitLoaded done w.table }
      { r with phase := .asleep } := by
  have hsession := h.session _ _ _ hphase
  have hnodup := h.mark.nodup _ _ _ hphase
  rw [List.map_nil, List.append_nil] at hnodup
  refine ⟨h.mark.of_phase nofun, nofun, fun id row₀ hrow₀ => ?_⟩
  obtain ⟨row, hget, hpending⟩ := h.settled id row₀ hrow₀
  have hall : ∀ x ∈ done, x.cur = x.old ∨ (w.table.get? x.old.id).isSome := fun x hx =>
    .inr (by rw [hsession.loaded x hx]; rfl)
  rw [hphase] at hpending
  dsimp only [MonitorPhase.pendingStatus] at hpending ⊢
  rw [commitLoaded, if_pos hall, get?_flushAll hnodup]
  cases hfind : done.find? (·.old.id = id) with
  | none =>
      rw [hfind] at hpending
      exact ⟨row, hget, hpending⟩
  | some x =>
      rw [hfind] at hpending
      refine ⟨x.flush.1 row, by rw [hget]; rfl, ?_⟩
      have hid : x.old.id = id := by simpa using List.find?_some hfind
      have hold : row = x.old := by
        have hx := hsession.loaded x (List.mem_of_find?_eq_some hfind)
        rw [hid] at hx
        exact Option.some.inj (hget.symm.trans hx)
      rw [← hpending, hold]
      show (if x.cur.status = x.old.status then x.old.status else x.cur.status) = x.cur.status
      split_ifs with hsame
      · exact hsame.symm
      · rfl

/-- Outside a session only the table counts. -/
theorem SettledInv.of_phase (h : SettledInv cfg t₀ w r) {w' : HealthWorld} {phase : MonitorPhase}
    {grantedAt : ℤ} (htable : w'.table = w.table)
    (hout : ∀ id row, w.table.get? id = some row →
      r.phase.pendingStatus id row.status = row.status)
    (hphase : ∀ changed done todo, phase ≠ .probing changed done todo) :
    SettledInv cfg t₀ w' { r with phase, grantedAt } := by
  refine ⟨h.mark.of_phase hphase, fun _ _ _ heq => absurd heq (hphase _ _ _),
    fun id row₀ hrow₀ => ?_⟩
  obtain ⟨row, hget, hpending⟩ := h.settled id row₀ hrow₀
  rw [hout id row hget] at hpending
  refine ⟨row, htable ▸ hget, ?_⟩
  rw [← hpending]
  cases phase with
  | asleep | refused | ours | leading => rfl
  | probing changed done todo => exact absurd rfl (hphase changed done todo)

/-- The commands of the replica keep it. -/
theorem SettledInv.move (h : SettledInv cfg t₀ w r) (ready : Str → Bool) :
    SettledInv cfg t₀ (r.move cfg ready w).1 (r.move cfg ready w).2 := by
  have hout : ∀ {phase}, r.phase = phase →
      (∀ id status, phase.pendingStatus id status = status) →
      ∀ id row, w.table.get? id = some row → r.phase.pendingStatus id row.status = row.status :=
    fun heq h id row _ => heq ▸ h id row.status
  unfold HealthReplica.move
  cases hphase : r.phase with
  | asleep =>
      dsimp only
      split_ifs
      · exact h.of_phase rfl (hout hphase fun _ _ => rfl) nofun
      · exact h.of_phase rfl (hout hphase fun _ _ => rfl) nofun
  | refused =>
      dsimp only
      split_ifs
      · exact h.of_phase rfl (hout hphase fun _ _ => rfl) nofun
      · exact h.of_phase rfl (hout hphase fun _ _ => rfl) nofun
  | ours => exact h.of_phase rfl (hout hphase fun _ _ => rfl) nofun
  | leading =>
      refine ⟨h.mark.select w.table, ?_, fun id row₀ hrow₀ => ?_⟩
      · rintro _ _ _ heq
        cases heq
        exact ⟨fun _ hx => absurd hx List.not_mem_nil, fun _ hinst => mem_monitored hinst,
          fun _ _ hx => absurd hx List.not_mem_nil⟩
      · obtain ⟨row, hget, hpending⟩ := h.settled id row₀ hrow₀
        rw [hphase, MonitorPhase.pendingStatus] at hpending
        refine ⟨row, hget, ?_⟩
        rw [MonitorPhase.pendingStatus, List.find?_nil]
        exact hpending
  | probing changed done todo =>
      cases todo with
      | cons inst todo => exact h.probe (probeOne ready inst) hphase
      | nil =>
          cases changed with
          | true => exact h.commit hphase
          | false =>
              -- Nothing was assigned to a status, so nothing is lost.
              show SettledInv cfg t₀ w { r with phase := .asleep }
              refine h.of_phase rfl (fun id row hget => ?_) nofun
              have hsession := h.session _ _ _ hphase
              rw [hphase, MonitorPhase.pendingStatus]
              cases hfind : done.find? (·.old.id = id) with
              | none => rfl
              | some x =>
                  have hmem := List.mem_of_find?_eq_some hfind
                  have hid : x.old.id = id := by simpa using List.find?_some hfind
                  have hx := hsession.loaded x hmem
                  rw [hid] at hx
                  rw [Option.some.inj (hget.symm.trans hx)]
                  exact hsession.unchanged rfl x hmem

/-- Another replica that does not act leaves the table alone. -/
theorem move_table_of_not_acting (ready : Str → Bool) (h : ¬ r.phase.Acting) :
    (r.move cfg ready w).1.table = w.table := by
  unfold HealthReplica.move
  cases hphase : r.phase with
  | asleep | refused | ours => rfl
  | leading | probing => exact absurd (by rw [hphase]; trivial) h

/-- The invariant reads nothing but the table. -/
theorem SettledInv.of_table (h : SettledInv cfg t₀ w r) {w' : HealthWorld}
    (htable : w'.table = w.table) : SettledInv cfg t₀ w' r :=
  ⟨h.mark, fun _ _ _ heq => htable ▸ h.session _ _ _ heq, fun id row₀ hrow₀ => by
    rw [htable]
    exact h.settled id row₀ hrow₀⟩

/-- A failure outside a tick keeps it. -/
theorem SettledInv.fail (h : SettledInv cfg t₀ w r) (hact : ¬ r.phase.Acting) :
    SettledInv cfg t₀ w r.fail := by
  have hout : ∀ id row, w.table.get? id = some row →
      r.phase.pendingStatus id row.status = row.status := by
    intro id row _
    cases hphase : r.phase with
    | asleep | refused | ours | leading => rfl
    | probing => exact absurd (by rw [hphase]; trivial) hact
  unfold HealthReplica.fail
  cases r.phase with
  | asleep | refused | ours => exact h.of_phase rfl hout nofun
  | leading | probing => exact h.of_phase rfl hout nofun

/-- An undisturbed step keeps it. -/
theorem settledInv_step {a : HealthLabel ι} (hP : Undisturbed i s a)
    (h : SettledInv cfg t₀ s.shared (s.loc i)) (hstep : healthStep cfg s a = some t) :
    SettledInv cfg t₀ t.shared (t.loc i) := by
  cases a with
  | move j ready =>
      cases hstep
      by_cases hj : j = i
      · subst hj
        simpa using h.move ready
      · have hact := hP.resolve_left hj
        simp only [Function.update_of_ne (Ne.symm hj)]
        exact h.of_table (move_table_of_not_acting ready hact)
  | fail j =>
      cases hstep
      by_cases hj : j = i
      · subst hj
        simpa using h.fail (hP rfl)
      · simpa [Ne.symm hj] using h
  | restart j leaderId =>
      cases hstep
      have hj : i ≠ j := Ne.symm hP
      simpa [hj] using h
  | write table => exact hP.elim
  | wait d =>
      cases hstep
      exact h.of_table rfl

theorem settledInv_start (w : HealthWorld) (leaderId : Str) :
    SettledInv cfg w.table w (.boot leaderId) := by
  refine ⟨markInv_boot leaderId, nofun, fun id row hrow => ⟨row, hrow, ?_⟩⟩
  show row.status = settledStatus cfg row.status id []
  have hpos := cfg.threshold_pos
  have hnone : ¬ cfg.threshold ≤ streak id [] := not_le.mpr hpos
  cases hstatus : row.status with
  | stopped | starting => rfl
  | running =>
      have hmon : EnvoyStatus.running.Monitored := .inl rfl
      simp [settledStatus, hmon, hnone]
  | error =>
      have hmon : EnvoyStatus.error.Monitored := .inr rfl
      simp [settledStatus, hmon]

/-- **The table follows the probes.**  While one replica is alone with the table, an instance
that the loop reads is marked as failed, whenever that replica is between two ticks, exactly when
so many of its newest probes failed, or it was so marked before and no probe has succeeded; and
an instance that the loop does not read keeps its status. -/
theorem status_follows_probes (cfg : HealthConfig) {w : HealthWorld} {leaderId : ι → Str}
    {as : List (HealthLabel ι)}
    (hal : Along (healthStep cfg) (Undisturbed i) as (.start w leaderId))
    (hrun : run (healthStep cfg) as (.start w leaderId) = some s)
    (hidle : (s.loc i).phase = .asleep) {row₀ : EnvoyInstance}
    (hrow₀ : w.table.get? id = some row₀) :
    ∃ row, s.shared.table.get? id = some row ∧
      row.status = settledStatus cfg row₀.status id (s.loc i).probes := by
  have h0 : SettledInv cfg w.table (HealthNet.start w leaderId).shared
      ((HealthNet.start w leaderId).loc i) := settledInv_start w (leaderId i)
  have hinv : SettledInv cfg w.table s.shared (s.loc i) :=
    run_induction_along (I := fun s => SettledInv cfg w.table s.shared (s.loc i))
      (fun _ _ _ hP h hstep => settledInv_step hP h hstep) hal h0 hrun
  obtain ⟨row, hget, hpending⟩ := hinv.settled id row₀ hrow₀
  rw [hidle] at hpending
  exact ⟨row, hget, hpending⟩

/-- A tick without an answer: the instance is marked as failed. -/
theorem status_follows_probes_down :
    ∃ s : HealthNet Unit,
      run (healthStep ⟨30, 1⟩) (List.replicate 4 (.move () fun _ => false))
        (.start ⟨Store.empty, oneInstance, 0⟩ fun _ => []) = some s ∧
      ∃ row, s.shared.table.get? 1 = some row ∧ row.status = .error ∧
        row.status = settledStatus ⟨30, 1⟩ .running 1 (s.loc ()).probes := by
  have hal : Along (healthStep ⟨30, 1⟩) (Undisturbed ())
      (List.replicate 4 (.move () fun _ => false))
      (.start ⟨Store.empty, oneInstance, 0⟩ fun _ => []) := by
    refine ⟨.inl rfl, fun s₁ h₁ => ⟨.inl rfl, fun s₂ h₂ => ⟨.inl rfl, fun s₃ h₃ => ⟨.inl rfl, ?_⟩⟩⟩⟩
    exact fun _ _ => trivial
  have hrow₀ : oneInstance.get? 1 = some _ := rfl
  obtain ⟨row, hrow, hstatus⟩ := status_follows_probes ⟨30, 1⟩ hal rfl rfl hrow₀
  exact ⟨_, rfl, row, hrow, hstatus, hstatus⟩

end Undisturbed

end Llmxy
