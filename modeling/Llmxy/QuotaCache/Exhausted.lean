import Llmxy.QuotaCache.Agreement
import Llmxy.QuotaCache.SecondCheck

/-!
# A user without funds on the hot path

The programs of one user's requests take turns, one command at a time, and the clock
runs on in between (`quotaStep`).  A charge leaves the user without funds and its
invalidation drops the cached ones.  From then on nothing brings funds back into the
cache, except a hydration that had read them before the charge and writes them after
the invalidation; and a later call is refused, except when its second check misses as
well and it allows the request.

The invariant is `Dry`.  Every party keeps it, because what it reads while there are
no funds makes it write none (`AddsNoFunds`).  A call is refused in every state that the
others can make of a dry one, if it can load its counters and nobody drops them before its
second check (`Unhindered`); this is the rely–guarantee rule of `Proc.Sound`.

## Main definitions

* `QuotaTask`, `QuotaNet`, `quotaStep` — the parties and their steps.
* `Exhausted` — a charge has left nothing.
* `AddsNoFunds` — what is left of a program brings no funds back.
* `Unhindered` — a step that lets a call find what it checks.
* `exhausted_call_denied` — a later call is refused.
-/

namespace Llmxy

/-! ### The parties -/

/-- What a party does for the user. -/
inductive QuotaTask where
  | hydrateUser
  | hydrateKey (kid ws : ℤ)
  | hasQuota (kid keyQuotaCents ws : ℤ)
  /-- A direct or translated request: the charge, then the invalidation that its
  commit schedules. -/
  | charge (kid : Option ℤ) (cost : ℤ) (refId note : Option Str)
  /-- A request through Envoy: the charge, then its mirror. -/
  | alsCharge (kid : Option ℤ) (cost ws : ℤ) (refId note : Option Str)

/-- The program of a task.  A quota check ends with its verdict. -/
def QuotaTask.proc (uid : ℤ) : QuotaTask → QProc (Option Bool)
  | .hydrateUser => do
      hydrateUserQuota uid
      pure none
  | .hydrateKey kid ws => do
      hydrateKeyUsed kid ws
      pure none
  | .hasQuota kid keyQuotaCents ws => do
      let r ← hasQuotaFast uid kid keyQuotaCents ws
      pure (some r.1)
  | .charge kid cost refId note => do
      match ← ask (.charge uid kid cost refId note) with
      | none => pure none
      | some _ =>
          invalidateUserQuota uid
          pure none
  | .alsCharge kid cost ws refId note => do
      match ← ask (.charge uid kid cost refId note) with
      | none => pure none
      | some breakdown =>
          applyCharge uid kid cost ws breakdown
          pure none

/-- The parties with what is left of their programs, over the shared world. -/
abbrev QuotaNet (ι : Type) := Net ι World (QProc (Option Bool))

/-- A command of one party, or some time. -/
inductive QuotaLabel (ι : Type) where
  | move (i : ι)
  | tick (microseconds : ℕ)
  deriving DecidableEq

variable {ι : Type} [DecidableEq ι]

/-- One step of the system. -/
def quotaStep (s : QuotaNet ι) : QuotaLabel ι → Option (QuotaNet ι)
  | .move i => Proc.sched exec s i
  | .tick d => some { s with shared := s.shared.wait d }

/-- The wallet of the user is exactly zero and no subscription has quota left. -/
structure Exhausted (uid : ℤ) (w : World) : Prop where
  wallet : (w.pg.users.get? uid).map User.balanceCents = some 0
  quota : activeSubscriptions w.pg uid w.now = []

/-- What is left of a program brings the user no funds back, as long as it reads
none from now on. -/
def AddsNoFunds {α : Type} (uid T : ℤ) (p : QProc α) : Prop :=
  p.Obeys (dryReply uid T) (dryCommand uid)

variable {uid T : ℤ} {w : World}

theorem booksDry_of_exhausted (h : Exhausted uid w) : BooksDry uid w.now w := by
  refine ⟨le_refl _, ?_, ?_⟩
  · intro u hu
    have hzero := h.wallet
    rw [hu, Option.map_some, Option.some.injEq] at hzero
    omega
  · intro s hs
    apply not_lt.mp
    exact activeSubscriptions_isEmpty.mp (by rw [h.quota]; rfl) s hs

/-! ### Programs that bring no funds -/

theorem dryCommand_of_quiet (c : Cmd) (hc : c.Quiet) : dryCommand uid c := by
  cases c with
  | pipe ws => cases hc
  | _ => trivial

/-- A hydration about to write brings no funds exactly when it has read none. -/
theorem addsNoFunds_write_iff {user : User} {subs : List Subscription} {now : ℤ} :
    AddsNoFunds user.id T (ask (.pipe (hydrateWrites user subs now))) ↔
      user.balanceCents ≤ 0 ∧ ∀ s ∈ subs, s.remainingCents ≤ 0 := by
  rw [← fundless_hydrateWrites_iff]
  exact obeys_ask

theorem addsNoFunds_hydrateUserQuota : AddsNoFunds uid T (hydrateUserQuota uid) := by
  apply obeys_hydrateUserQuota dryCommand_of_quiet
  intro user now subs huser hnow hsubs
  obtain ⟨rfl, hbalance⟩ := huser rfl user rfl
  exact fundless_hydrateWrites_iff.mpr ⟨hbalance, hsubs rfl hnow⟩

theorem addsNoFunds_hydrateKeyUsed (kid ws : ℤ) : AddsNoFunds uid T (hydrateKeyUsed kid ws) := by
  apply obeys_hydrateKeyUsed fun c hc => dryCommand_of_quiet c hc.quiet
  intro row _
  exact fundless_setKused kid ws row.usedCents subqTtlFallback

/-- **A task that starts after the charge** brings no funds. -/
theorem addsNoFunds_task (task : QuotaTask) : AddsNoFunds uid T (task.proc uid) := by
  cases task with
  | hydrateUser => exact Proc.obeys_bind addsNoFunds_hydrateUserQuota fun _ => trivial
  | hydrateKey kid ws => exact Proc.obeys_bind (addsNoFunds_hydrateKeyUsed kid ws) fun _ => trivial
  | hasQuota kid quota ws =>
      refine Proc.obeys_bind ?_ fun _ => trivial
      exact obeys_hasQuotaFast quota dryCommand_of_quiet trivial addsNoFunds_hydrateUserQuota
        (addsNoFunds_hydrateKeyUsed kid ws)
  | charge kid cost refId note =>
      apply obeys_ask_bind.mpr
      refine ⟨trivial, fun r _ => ?_⟩
      cases r with
      | none => trivial
      | some bd =>
          refine Proc.obeys_bind ?_ fun _ => trivial
          exact obeys_invalidateUserQuota (fun c hc => dryCommand_of_quiet c hc.quiet)
            fundless_invalidateWrites
  | alsCharge kid cost ws refId note =>
      apply obeys_ask_bind.mpr
      refine ⟨trivial, fun r _ => ?_⟩
      cases r with
      | none => trivial
      | some bd =>
          refine Proc.obeys_bind ?_ fun _ => trivial
          exact obeys_applyCharge fun _ => fundless_chargeWrites kid cost ws bd

/-! ### A check -/

/-- The program keeps the user dry whatever the others do within `KeepsDry`, and ends
with a result in `Q`. -/
abbrev SoundDry {α : Type} (uid T : ℤ) (Ok : World → Cmd → Prop) (Q : α → Prop) (p : QProc α)
    (w : World) : Prop :=
  p.Sound exec (KeepsDry uid T) Ok Q w

section
variable {α : Type} {Ok : World → Cmd → Prop}

theorem soundDry_ask_bind {Q : α → Prop} {c : Cmd} {f : c.Reply → QProc α} (h : Dry uid T w)
    (hc : dryCommand uid c)
    (hf : ∀ w', Dry uid T w' → (∀ sid, w.Spent (.subq sid) → w'.Spent (.subq sid)) →
      SoundDry uid T Ok Q (f (exec c w').1) (exec c w').2) :
    SoundDry uid T Ok Q (ask c >>= f) w := by
  intro w' hw' _
  obtain ⟨hdry, hspent⟩ := hw' h
  exact ⟨exec_dry c hc, hf w' hdry hspent⟩

/-- The loop over spent subscriptions finds no quota. -/
theorem soundDry_checkSubs {sids : List ℤ} (h : Dry uid T w)
    (hsids : ∀ sid ∈ sids, w.Spent (.subq sid)) :
    SoundDry uid T Ok (fun r => ∀ x, r = some x → x.1 = false) (checkSubs sids) w := by
  induction sids generalizing w with
  | nil =>
      intro x hx
      cases hx
  | cons sid sids ih =>
      rw [checkSubs]
      apply soundDry_ask_bind h (by trivial)
      intro w' hw' hspent
      have hsid : w'.Spent (.subq sid) := hspent sid (hsids sid List.mem_cons_self)
      have hrest : ∀ s ∈ sids, w'.Spent (.subq s) :=
        fun s hs => hspent s (hsids s (List.mem_cons_of_mem _ hs))
      simp only [exec]
      cases hv : w'.redis.counter.get w'.now (.subq sid) with
      | none =>
          intro x hx
          cases hx
          rfl
      | some iv =>
          have hle : iv ≤ 0 := hsid iv hv
          by_cases hneg : iv < 0
          · simp only [if_pos hneg]
            intro x hx
            cases hx
            rfl
          · simp only [if_neg hneg, if_neg (show ¬ 0 < iv by omega)]
            exact ih hw' hrest

theorem checkKey_fst {quota : ℤ} {used : Option ℤ} {r : Bool × Str}
    (h : checkKey quota used = some r) : r.1 = false := by
  rcases checkKey_eq_some h with rfl | rfl
  · rfl
  · rfl

/-- **A check refuses a user without funds.** -/
theorem soundDry_check (kid quota ws : ℤ) (h : Dry uid T w) :
    SoundDry uid T Ok (fun r => r.1 = false) (check uid kid quota ws) w := by
  rw [check]
  apply soundDry_ask_bind h (by trivial)
  intro w₁ h₁ _
  simp only [exec]
  cases hkey : checkKey quota (w₁.redis.counter.get w₁.now (.kused kid ws)) with
  | some r => exact checkKey_fst hkey
  | none =>
      apply soundDry_ask_bind h₁ (by trivial)
      intro w₂ h₂ _
      apply Proc.sound_bind KeepsDry.refl KeepsDry.trans (soundDry_checkSubs h₂ h₂.cachedQuota)
      intro r w₃ hw₃ hr
      have h₃ := (hw₃ h₂).1
      cases r with
      | some r => exact hr r rfl
      | none =>
          apply soundDry_ask_bind h₃ (by trivial)
          intro w₄ h₄ _
          show (checkWallet (w₄.redis.counter.get w₄.now (.wallet uid))).1 = false
          cases hv : w₄.redis.counter.get w₄.now (.wallet uid) with
          | none => rfl
          | some v =>
              have hle : v ≤ 0 := h₄.cachedWallet v hv
              by_cases hneg : v < 0
              · simp [checkWallet, hneg]
              · simp [checkWallet, hneg, show ¬ 0 < v by omega]

end

/-! ### What follows a miss -/

/-- The second check of a call and its verdict. -/
def checkAgain (uid kid quota ws : ℤ) : QProc (Option Bool) := do
  let r ← check uid kid quota ws
  if r.2 = miss.2 then
    ask .warnPersistentMiss
    pure (some true)
  else pure (some r.1)

/-- What a call does after a miss. -/
def retryCall (uid kid quota ws : ℤ) : QProc (Option Bool) := do
  hydrateUserQuota uid
  hydrateKeyUsed kid ws
  checkAgain uid kid quota ws

/-- The call goes on after its first check. -/
def afterFirstCheck (uid kid quota ws : ℤ) (r : Bool × Str) : QProc (Option Bool) :=
  if r.1 || r.2 ≠ miss.2 then pure (some r.1) else retryCall uid kid quota ws

theorem proc_hasQuota (uid kid quota ws : ℤ) :
    (QuotaTask.hasQuota kid quota ws).proc uid =
      check uid kid quota ws >>= afterFirstCheck uid kid quota ws := by
  rw [QuotaTask.proc, hasQuotaFast, Proc.bind_bind]
  congr 1
  funext r
  rw [afterFirstCheck]
  split_ifs
  · rfl
  · rw [Proc.bind_bind, retryCall]
    congr 1
    funext _
    rw [Proc.bind_bind]
    congr 1
    funext _
    rw [Proc.bind_bind, checkAgain]
    congr 1
    funext r
    split_ifs <;> rfl

/-- What everybody may do to a call that is checking again. -/
def KeepsBoth (uid T kid quota ws : ℤ) (w w' : World) : Prop :=
  KeepsDry uid T w w' ∧ KeepsReadable uid kid quota ws w w'

variable {kid quota ws : ℤ}

theorem KeepsBoth.refl (w : World) : KeepsBoth uid T kid quota ws w w := ⟨.refl w, .refl w⟩

theorem KeepsBoth.trans (w w' w'' : World) (h : KeepsBoth uid T kid quota ws w w')
    (h' : KeepsBoth uid T kid quota ws w' w'') : KeepsBoth uid T kid quota ws w w'' :=
  ⟨h.1.trans _ _ _ h'.1, h.2.trans _ _ _ h'.2⟩

/-- The call is refused, whatever the others do within `KeepsBoth`, if it loads what it reads. -/
abbrev Refuses (uid T kid quota ws : ℤ) (p : QProc (Option Bool)) (w : World) : Prop :=
  p.Sound exec (KeepsBoth uid T kid quota ws) (Loads uid quota) (· = some false) w

/-- A read, and what follows it. -/
theorem refuses_read {c : Cmd} {f : c.Reply → QProc (Option Bool)} (h : Dry uid T w)
    (hread : ∀ w, (exec c w).2 = w)
    (hf : ∀ w', Dry uid T w' → KeepsReadable uid kid quota ws w w' → Loads uid quota w' c →
      Refuses uid T kid quota ws (f (exec c w').1) w') :
    Refuses uid T kid quota ws (ask c >>= f) w := by
  intro w' hw' hloads
  rw [hread w']
  exact ⟨.refl w', hf w' (hw'.1 h).1 hw'.2 hloads⟩

/-- A pipeline, and what follows it. -/
theorem refuses_pipe {xs : List Write} {f : Unit → QProc (Option Bool)} (h : Dry uid T w)
    (hxs : Fundless uid xs)
    (hf : ∀ w', Dry uid T (w'.writes xs) → KeepsReadable uid kid quota ws w w' →
      KeepsReadable uid kid quota ws w' (w'.writes xs) ∧
        Refuses uid T kid quota ws (f ()) (w'.writes xs)) :
    Refuses uid T kid quota ws (ask (.pipe xs) >>= f) w := by
  intro w' hw' _
  have hdry : KeepsDry uid T w' (w'.writes xs) := exec_dry (.pipe xs) hxs
  obtain ⟨hkeeps, hrest⟩ := hf w' (hdry (hw'.1 h).1).1 hw'.2
  exact ⟨⟨hdry, hkeeps⟩, hrest⟩

/-- A second check that finds every counter refuses. -/
theorem refuses_checkAgain (h : Dry uid T w) (hcall : CallReadable uid kid quota ws w) :
    Refuses uid T kid quota ws (checkAgain uid kid quota ws) w := by
  refine Proc.sound_bind KeepsBoth.refl KeepsBoth.trans
    (Proc.sound_and (soundDry_check kid quota ws h) (soundReadable_check hcall)) ?_
  intro r _ _ hr
  rw [if_neg hr.2, hr.1]
  exact rfl

/-- With readable funds, the used counter is loaded and the second check refuses. -/
theorem refuses_hydrateKeyUsed (h : Dry uid T w) (hfunds : FundsReadable uid w) :
    Refuses uid T kid quota ws (hydrateKeyUsed kid ws >>= fun _ => checkAgain uid kid quota ws)
      w := by
  refine refuses_read h (fun _ => rfl) fun w₁ h₁ hw₁ hloads => ?_
  have hfunds₁ := hfunds.mono hw₁
  simp only [exec]
  cases hrow : w₁.pg.apiKeys.get? kid with
  | none =>
      -- a key without a row has no quota
      have hquota : ¬ 0 < quota := fun hq => by
        have hsome := hloads hq
        rw [hrow] at hsome
        cases hsome
      exact refuses_checkAgain h₁ ⟨hfunds₁, fun hq => absurd hq hquota⟩
  | some row =>
      refine refuses_pipe h₁ (fundless_setKused kid ws row.usedCents subqTtlFallback) ?_
      intro w₂ h₂ hw₂
      have hset := @keepsReadable_setKused uid kid quota ws w₂ row.usedCents
      exact ⟨hset.2, refuses_checkAgain h₂
        ⟨(hfunds₁.mono hw₂).mono hset.2, fun _ => hset.1⟩⟩

/-- The call after it has asked for the lock. -/
def afterLock (uid kid quota ws : ℤ) (gotLock : Bool) : QProc (Option Bool) :=
  (if gotLock then
    ask (.getUser uid) >>= fun row =>
      match row with
      | none => pure ()
      | some user => do
          let now ← ask .now
          let subs ← ask (.selectSubs uid now)
          ask (.pipe (hydrateWrites user subs now))
  else pure ()) >>= fun _ => hydrateKeyUsed kid ws >>= fun _ => checkAgain uid kid quota ws

theorem retryCall_eq : retryCall uid kid quota ws =
    ask (.setNX (.hydr uid) hydrLockTtl) >>= afterLock uid kid quota ws := by
  rw [retryCall, hydrateUserQuota, Proc.bind_bind]
  rfl

/-- **A call that has got the lock**, or did not need it, is refused. -/
theorem refuses_afterLock (h : Dry uid T w) {gotLock : Bool}
    (hlock : gotLock = true ∨ FundsReadable uid w) :
    Refuses uid T kid quota ws (afterLock uid kid quota ws gotLock) w := by
  cases gotLock with
  | false => exact refuses_hydrateKeyUsed h (hlock.resolve_left Bool.false_ne_true)
  | true =>
      refine refuses_read h (fun _ => rfl) fun w₁ h₁ _ hloads => ?_
      obtain ⟨user, huser, hbalance⟩ := hloads
      have hid : user.id = uid := (Table.get?_eq_some.mp huser).2
      have hwallet := h₁.wallet user huser
      simp only [exec, huser]
      refine refuses_read h₁ (fun _ => rfl) fun w₂ h₂ _ _ => ?_
      refine refuses_read h₂ (fun _ => rfl) fun w₃ h₃ _ hrest => ?_
      -- the rows that are read here have nothing left, and are not overdrawn
      have hsubs : ∀ sub ∈ openSubscriptions w₃.pg uid w₂.now,
          OwnSub uid w₃.pg sub.id ∧ 0 ≤ sub.remainingCents ∧ sub.remainingCents ≤ 0 := by
        intro sub hsub
        obtain ⟨hget, huserId, -⟩ := mem_openSubscriptions.mp hsub
        exact ⟨⟨sub, hget, huserId⟩, hrest sub hsub,
          h₃.quota sub (openSubscriptions_anti h₂.past hsub)⟩
      subst hid
      refine refuses_pipe h₃ (fundless_hydrateWrites_iff.mpr
        ⟨hwallet, fun sub hsub => (hsubs sub hsub).2.2⟩) fun w₄ h₄ hw₄ => ?_
      obtain ⟨hfunds, hkeeps⟩ := @fundsReadable_hydrateWrites kid quota ws w₄ user
        (openSubscriptions w₃.pg user.id w₂.now) w₂.now hbalance fun sub hsub =>
          ⟨hw₄.subs sub.id (hsubs sub hsub).1, (hsubs sub hsub).2.1⟩
      exact ⟨hkeeps, refuses_hydrateKeyUsed h₄ hfunds⟩

/-! ### Runs -/

/-- The tables have no funds, whatever the parties do. -/
theorem booksDry_step {s t : QuotaNet ι} {a : QuotaLabel ι} (h : BooksDry uid T s.shared)
    (hstep : quotaStep s a = some t) : BooksDry uid T t.shared := by
  cases a with
  | move i =>
      have hmove : Proc.sched exec s i = some t := hstep
      obtain ⟨sh, l, hm, rfl⟩ := Net.step_eq_some.mp hmove
      obtain ⟨c, k, -, rfl, -⟩ := Proc.move_eq_some.mp hm
      exact exec_booksDry c h
  | tick d =>
      cases hstep
      exact ⟨le_trans h.past (by simp [World.wait]), h.wallet, h.quota⟩

/-- The call has the lock of its hydration behind it and has not ended. -/
def PastLock (p : QProc (Option Bool)) : Prop :=
  p.result? = none ∧ p.Obeys (fun _ _ => True) fun c => ∀ l ttl, c ≠ .setNX l ttl

/-- A step that lets call `j` find what it checks: the call loads what it reads, and from its
lock to its end nobody else drops a counter of it. -/
structure Unhindered (uid kid quota ws : ℤ) (j : ι) (s : QuotaNet ι) (a : QuotaLabel ι) :
    Prop where
  loads : a = .move j → ∀ c, (s.loc j).next? = some c → Loads uid quota s.shared c
  undropped : a ≠ .move j → PastLock (s.loc j) → ∀ t, quotaStep s a = some t →
    Undropped uid kid quota ws s.shared t.shared

/-- Where a call stands that is going to be refused. -/
inductive CallPhase (uid T kid quota ws : ℤ) (w : World) : QProc (Option Bool) → Prop where
  /-- In its first check. -/
  | checking (p : QProc (Bool × Str))
      (h : SoundDry uid T (fun _ _ => True) (fun r => r.1 = false) p w) :
      CallPhase uid T kid quota ws w (p >>= afterFirstCheck uid kid quota ws)
  /-- Past its lock. -/
  | retrying (p : QProc (Option Bool)) (hpast : PastLock p) (h : Refuses uid T kid quota ws p w) :
      CallPhase uid T kid quota ws w p
  | refused : CallPhase uid T kid quota ws w (.ret (some false))

/-- The user is dry, every party keeps it so, and call `j` is going to be refused. -/
structure Denies (uid T kid quota ws : ℤ) (j : ι) (s : QuotaNet ι) : Prop where
  dry : Dry uid T s.shared
  funds : ∀ k, AddsNoFunds uid T (s.loc k)
  call : CallPhase uid T kid quota ws s.shared (s.loc j)

/-- Past its lock a call asks for no other. -/
theorem obeys_afterLock (gotLock : Bool) : (afterLock uid kid quota ws gotLock).Obeys
    (fun _ _ => True) fun c => ∀ l ttl, c ≠ .setNX l ttl := by
  have hread : ∀ c : Cmd, c.IsRead → ∀ l ttl, c ≠ .setNX l ttl := by
    rintro c hc l ttl rfl
    cases hc
  have hpipe : ∀ xs l ttl, Cmd.pipe xs ≠ .setNX l ttl := by
    intro xs l ttl h
    cases h
  refine Proc.obeys_bind ?_ fun _ => Proc.obeys_bind (obeys_hydrateKeyUsed hread fun _ _ => hpipe _)
    fun _ => Proc.obeys_bind (obeys_check hread uid kid quota ws) fun r => ?_
  · cases gotLock with
    | false => trivial
    | true =>
        refine obeys_ask_bind.mpr ⟨hread _ trivial, fun row _ => ?_⟩
        cases row with
        | none => trivial
        | some user =>
            refine obeys_ask_bind.mpr ⟨hread _ trivial, fun now _ => ?_⟩
            refine obeys_ask_bind.mpr ⟨hread _ trivial, fun subs _ => ?_⟩
            exact obeys_ask.mpr (hpipe _)
  · split_ifs
    · refine obeys_ask_bind.mpr ⟨fun l ttl h => ?_, fun _ _ => trivial⟩
      cases h
    · trivial

/-- A party whose program ends with a refusal has been refused. -/
theorem callPhase_of_refuses {p : QProc (Option Bool)}
    (hpast : p.Obeys (fun _ _ => True) fun c => ∀ l ttl, c ≠ .setNX l ttl)
    (h : Refuses uid T kid quota ws p w) : CallPhase uid T kid quota ws w p := by
  cases p with
  | ret r =>
      obtain rfl : r = some false := h
      exact .refused
  | call c k => exact .retrying _ ⟨rfl, hpast⟩ h

/-- A call that has ended was refused. -/
theorem eq_of_callPhase_ret {r : Option Bool} (h : CallPhase uid T kid quota ws w (.ret r)) :
    r = some false := by
  generalize hp : Proc.ret r = p at h
  cases h with
  | checking first h =>
      cases first with
      | call c k => cases hp
      | ret r' =>
          have hr : r'.1 = false := h
          rw [Proc.ret_bind, afterFirstCheck, hr] at hp
          split_ifs at hp
          · cases hp
            rfl
          · rw [retryCall_eq] at hp
            cases hp
  | retrying p hpast h =>
      subst hp
      exact h
  | refused =>
      cases hp
      rfl

/-- **A command of the call.** -/
theorem callPhase_move {p q : QProc (Option Bool)} (hdry : Dry uid T w)
    (h : CallPhase uid T kid quota ws w p) (hloads : ∀ c, p.next? = some c → Loads uid quota w c)
    (hmove : p.move exec w = some (w', q)) : CallPhase uid T kid quota ws w' q := by
  cases h with
  | checking p h =>
      cases p with
      | call c k =>
          obtain ⟨c', k', heq, rfl, rfl⟩ := Proc.move_eq_some.mp hmove
          cases heq
          exact .checking _ (h w (.refl w) trivial).2
      | ret r =>
          -- the first check has ended, and the call asks for the lock if it missed
          have hr : r.1 = false := h
          rw [Proc.ret_bind, afterFirstCheck] at hmove hloads
          by_cases hmiss : (r.1 || decide (r.2 ≠ miss.2)) = true
          · rw [if_pos hmiss] at hmove
            cases hmove
          · rw [if_neg hmiss, retryCall_eq] at hmove hloads
            obtain ⟨c, k, heq, rfl, rfl⟩ := Proc.move_eq_some.mp hmove
            cases heq
            have hlock := hloads _ rfl
            have hkeeps : KeepsReadable uid kid quota ws w
                (exec (.setNX (.hydr uid) hydrLockTtl) w).2 :=
              keepsReadable_exec (by simp) (by simp)
            refine callPhase_of_refuses (obeys_afterLock _) (refuses_afterLock
              (exec_dry (.setNX (.hydr uid) hydrLockTtl) trivial hdry).1
              (hlock.imp (fun hfree => ?_) fun hfunds => hfunds.mono hkeeps))
            simp only [exec, Store.setNX_of_free hfree]
  | retrying p hpast h =>
      obtain ⟨-, hq⟩ := Proc.sound_move KeepsBoth.refl h hloads hmove
      obtain ⟨-, hobeys⟩ := Proc.move_of_obeys hpast.2 (fun _ _ => trivial) hmove
      exact callPhase_of_refuses hobeys hq
  | refused => cases hmove

/-- **A step of somebody else**, or some time. -/
theorem callPhase_other {p : QProc (Option Bool)} (h : CallPhase uid T kid quota ws w p)
    (hdry : KeepsDry uid T w w') (hreadable : PastLock p → KeepsReadable uid kid quota ws w w') :
    CallPhase uid T kid quota ws w' p := by
  cases h with
  | checking p h => exact .checking p (Proc.sound_rely KeepsDry.trans h hdry)
  | retrying p hpast h =>
      exact .retrying p hpast (Proc.sound_rely KeepsBoth.trans h ⟨hdry, hreadable hpast⟩)
  | refused => exact .refused

/-- **One step** of any party, or some time. -/
theorem denies_step {j : ι} {s t : QuotaNet ι} {a : QuotaLabel ι}
    (hcalm : Unhindered uid kid quota ws j s a) (h : Denies uid T kid quota ws j s)
    (hstep : quotaStep s a = some t) : Denies uid T kid quota ws j t := by
  cases a with
  | tick d =>
      have hundropped := hcalm.undropped (by simp) (t := t)
      cases hstep
      refine ⟨(wait_dry d h.dry).1, h.funds, callPhase_other h.call (wait_dry d) fun hpast => ?_⟩
      exact ⟨hundropped hpast rfl, fun _ h => h⟩
  | move i =>
      have hmove : Proc.sched exec s i = some t := hstep
      obtain ⟨⟨c, hc, hshared⟩, hfunds⟩ := Proc.sched_of_obeys h.funds
        (fun c _ => reply_dry c h.dry.toBooksDry) hmove
      have hdry : KeepsDry uid T s.shared t.shared := by
        rw [hshared]
        exact exec_dry c hc
      refine ⟨(hdry h.dry).1, hfunds, ?_⟩
      by_cases hij : i = j
      · subst hij
        obtain ⟨sh, l, hm, rfl⟩ := Net.step_eq_some.mp hmove
        simpa using callPhase_move h.dry h.call (hcalm.loads rfl) hm
      · rw [Net.step_loc_other hmove (Ne.symm hij)]
        refine callPhase_other h.call hdry fun hpast => ?_
        refine ⟨hcalm.undropped (fun heq => hij (QuotaLabel.move.inj heq)) hpast t hstep, ?_⟩
        rw [hshared]
        exact fun sid => ownSub_exec c

/-- **A later call is refused.**  The tables have no funds since `s₁`; the pipeline of
an invalidation of the user runs from `s₂` to `s₃`; and call `j` starts after it.  If
what is in flight then brings no funds back, and every step of the run leaves the call
unhindered, the call ends with `False`. -/
theorem exhausted_call_denied {s₁ s₂ s₃ s₄ : QuotaNet ι} {as₁ as₂ : List (QuotaLabel ι)}
    {i j : ι} {sids : List ℤ} {kid quota ws : ℤ} {r : Option Bool}
    (hfunds : Exhausted uid s₁.shared) (hrun₁ : run quotaStep as₁ s₁ = some s₂)
    (hnext : (s₂.loc i).next? = some (.pipe (invalidateWrites uid sids)))
    (hinval : quotaStep s₂ (.move i) = some s₃)
    (hflight : ∀ k, AddsNoFunds uid s₁.shared.now (s₃.loc k))
    (hcall : s₃.loc j = (QuotaTask.hasQuota kid quota ws).proc uid)
    (hcalm : Along quotaStep (Unhindered uid kid quota ws j) as₂ s₃)
    (hrun₂ : run quotaStep as₂ s₃ = some s₄) (hret : s₄.loc j = .ret r) : r = some false := by
  have hbooks : BooksDry uid s₁.shared.now s₂.shared :=
    run_induction (fun _ _ _ h hstep => booksDry_step h hstep) (booksDry_of_exhausted hfunds) hrun₁
  have hdry : Dry uid s₁.shared.now s₃.shared := by
    have hmove : Proc.sched exec s₂ i = some s₃ := hinval
    obtain ⟨sh, l, hm, rfl⟩ := Net.step_eq_some.mp hmove
    obtain ⟨c, k, hc, rfl, -⟩ := Proc.move_eq_some.mp hm
    rw [hc] at hnext
    cases hnext
    exact dry_invalidate sids hbooks
  have hstart : Denies uid s₁.shared.now kid quota ws j s₃ := by
    refine ⟨hdry, hflight, ?_⟩
    rw [hcall, proc_hasQuota]
    exact .checking _ (soundDry_check kid quota ws hdry)
  have hend := run_induction_along (I := Denies uid s₁.shared.now kid quota ws j)
    (fun _ _ _ hcalm h hstep => denies_step hcalm h hstep) hcalm hstart hrun₂
  have hphase := hend.call
  rw [hret] at hphase
  exact eq_of_callPhase_ret hphase

/-! ### Three requests of one user -/

/-- The user has 10 cents and a subscription without quota; party 0 hydrates, party 1
charges the 10 cents and party 2 asks whether there is quota. -/
def lastTenCents : QuotaNet (Fin 3) where
  shared := coldWorld (oneSubPg 10 0)
  loc i :=
    match i with
    | 0 => QuotaTask.hydrateUser.proc 1
    | 1 => (QuotaTask.charge (some 3) 10 none none).proc 1
    | 2 => (QuotaTask.hasQuota 3 0 0).proc 1

/-- Party `i` moves `n` times. -/
def moves (i : Fin 3) (n : ℕ) : List (QuotaLabel (Fin 3)) := List.replicate n (.move i)

/-- The charge has committed. -/
def chargedFirst : QuotaNet (Fin 3) :=
  (run quotaStep (moves 1 1) lastTenCents).get (by decide +kernel)

/-- A hydration has read what is left, its lock is over, and the invalidation of the charge is
about to delete. -/
def invalidating : QuotaNet (Fin 3) :=
  (run quotaStep (moves 0 4 ++ [.tick 5000000] ++ moves 1 1) chargedFirst).get (by decide +kernel)

def invalidated : QuotaNet (Fin 3) :=
  (quotaStep invalidating (.move 1)).get (by decide +kernel)

/-- The call has ended. -/
def answered : QuotaNet (Fin 3) :=
  (run quotaStep (moves 2 14) invalidated).get (by decide +kernel)

/-- A call that nobody else moves beside is unhindered when it loads what it reads. -/
theorem unhindered_moves {uid kid quota ws : ℤ} {j : Fin 3} {n : ℕ} {s : QuotaNet (Fin 3)}
    (h : Along quotaStep (fun s _ => ∀ c ∈ (s.loc j).next?, Loads uid quota s.shared c)
      (moves j n) s) : Along quotaStep (Unhindered uid kid quota ws j) (moves j n) s := by
  have hself := h.and_forall fun a ha => List.eq_of_mem_replicate ha
  refine along_of_inv (I := fun _ => True) (fun _ _ _ _ _ _ => trivial) (fun s a _ h => ?_) hself
    trivial
  exact ⟨fun _ => h.1, fun hne => absurd h.2 hne⟩

theorem exhausted_call_denied_answered : (answered.loc 2).result? = some (some false) := by
  obtain ⟨r, hr⟩ := Option.isSome_iff_exists.mp
    (show (answered.loc 2).result?.isSome = true by decide +kernel)
  have hflight : ∀ k, AddsNoFunds 1 chargedFirst.shared.now (invalidated.loc k) := by
    intro k
    match k with
    | 0 =>
        have hloc : invalidated.loc 0 = (ask (.pipe (hydrateWrites (userOne 0)
            (openSubscriptions chargedFirst.shared.pg 1 0) 0)) >>= fun _ => pure none) := rfl
        have hwrite : AddsNoFunds (userOne 0).id chargedFirst.shared.now (ask (.pipe (hydrateWrites
            (userOne 0) (openSubscriptions chargedFirst.shared.pg 1 0) 0))) :=
          addsNoFunds_write_iff.mpr (by decide +kernel)
        rw [hloc]
        exact Proc.obeys_bind hwrite fun _ => trivial
    | 1 => trivial
    | 2 => exact addsNoFunds_task (.hasQuota 3 0 0)
  have hnext : (invalidating.loc 1).next? = some (.pipe (invalidateWrites 1 [])) := by
    decide +kernel
  have hcall : invalidated.loc 2 = (QuotaTask.hasQuota 3 0 0).proc 1 := rfl
  have hcalm : Along quotaStep (Unhindered 1 3 0 0 2) (moves 2 14) invalidated :=
    unhindered_moves (by decide +kernel)
  have hdenied := exhausted_call_denied ⟨by decide +kernel, by decide +kernel⟩
    (Option.some_get (by decide +kernel)).symm hnext (Option.some_get (by decide +kernel)).symm
    hflight hcall hcalm (Option.some_get (by decide +kernel)).symm (Proc.eq_ret_of_result? hr)
  rw [hr, hdenied]

/-- **A call is allowed after the last cent is spent**, with no two requests at the
same time: a hydration, the charge of all there is, its invalidation, and a call while
the lock of that hydration still lasts. -/
theorem exhausted_call_allowed :
    ∃ s₁ s₂ s₃ s₄ : QuotaNet (Fin 3),
      run quotaStep (moves 0 5 ++ moves 1 1) lastTenCents = some s₁ ∧ Exhausted 1 s₁.shared ∧
      run quotaStep (moves 1 1) s₁ = some s₂ ∧
      (s₂.loc 1).next? = some (.pipe (invalidateWrites 1 [7])) ∧
      quotaStep s₂ (.move 1) = some s₃ ∧
      s₃.loc 2 = (QuotaTask.hasQuota 3 0 0).proc 1 ∧
      run quotaStep (moves 2 10) s₃ = some s₄ ∧ (s₄.loc 2).result? = some (some true) := by
  refine ⟨(run quotaStep (moves 0 5 ++ moves 1 1) lastTenCents).get (by decide +kernel),
    (run quotaStep (moves 0 5 ++ moves 1 2) lastTenCents).get (by decide +kernel),
    (run quotaStep (moves 0 5 ++ moves 1 3) lastTenCents).get (by decide +kernel),
    (run quotaStep (moves 0 5 ++ moves 1 3 ++ moves 2 10) lastTenCents).get (by decide +kernel),
    ?_, ⟨?_, ?_⟩, ?_, ?_, ?_, ?_, ?_, ?_⟩
  · exact (Option.some_get _).symm
  · decide +kernel
  · decide +kernel
  · rfl
  · decide +kernel
  · rfl
  · rfl
  · rfl
  · decide +kernel

/-- A hydration that read the last cents before the charge and writes them after the
invalidation brings them back. -/
example :
    (run quotaStep (moves 0 4 ++ moves 1 3 ++ moves 0 1 ++ moves 2 4) lastTenCents).map
      (fun s => (s.loc 2).result?) = some (some (some true)) := by
  decide +kernel

end Llmxy
