import Llmxy.Billing.FundsLock

/-!
# Concurrent image requests

`execute_image_relay` statement by statement: for each candidate a gate, a hold of the
estimate, the upstream, and the refund or the adjustment; one transaction for the whole
chain, with its row locks held while the upstream works.

The gate adds the quota it reads to the balance of the user object, which was loaded when
the request began and is renewed only by what the transaction itself writes.  A request that
waited for the lock of another debits a wallet that the gate has not seen.

## Main definitions

* `ImageRequest`, `ImagePhase`, `imageProg`, `imageStep` — the machine.
* `NoOverdraft` — no hold has left a wallet negative.
* `HoldCovered`, `holds_covered_iff` — exactly when none does.
-/

namespace Llmxy

/-- Everything that a user can spend, as `available_cents` adds it up. -/
def availableCents (pg : Pg) (user : User) (now : ℤ) : ℤ :=
  ((activeSubscriptions pg user.id now).map (·.remainingCents)).sum + max 0 user.balanceCents

/-- A candidate that can serve the request: the estimate, and the actual cost if its upstream
returns images. -/
structure ImageAttempt where
  estimate : ℤ
  actual : Option ℤ
  deriving DecidableEq

/-- An image request with its chain. -/
structure ImageRequest where
  uid : ℤ
  requestId : Str
  userFacingModel : Str
  attempts : List ImageAttempt
  deriving DecidableEq

/-- Where a request stands; `todo` are the candidates still to be tried. -/
inductive ImagePhase where
  | start
  | gating (user : User) (todo : List ImageAttempt)
  | holding (user : User) (attempt : ImageAttempt) (todo : List ImageAttempt) (c : ChargePhase)
  /-- A refund, after which the chain goes on with `todo`, or is at its end. -/
  | refunding (user : User) (todo : Option (List ImageAttempt)) (breakdown : List Share)
      (cents : ℤ) (r : RefundPhase)
  | adjusting (user : User) (cost : ℤ) (c : ChargePhase)
  | finished
  | done
  | insufficient
  | rolledBack
  deriving DecidableEq

/-- The user object after a statement that returned a balance. -/
def User.returning (user : User) (after : Option ℤ) : User :=
  { user with balanceCents := after.getD user.balanceCents }

/-- What the upstream's answer leads to. -/
def settle (user : User) (attempt : ImageAttempt) (todo : List ImageAttempt)
    (breakdown : List Share) : ImagePhase :=
  match attempt.actual with
  | some actual =>
      if actual < attempt.estimate then
        .refunding user none breakdown (attempt.estimate - actual) .begun
      else if attempt.estimate < actual then .adjusting user (actual - attempt.estimate) .begun
      else .finished
  | none =>
      if 0 < attempt.estimate then .refunding user (some todo) breakdown attempt.estimate .begun
      else .gating user todo

variable {n : ℕ}

/-- The statements of a request. -/
def imageProg (reqs : Fin n → ImageRequest) (now : ℤ) (i : Fin n) (rows : FundsRows n) :
    ImagePhase → Option (FundsRows n × ImagePhase)
  | .start =>
      ((rows.view i).users.get? (reqs i).uid).map fun user =>
        (rows, .gating user (reqs i).attempts)
  | .gating _ [] => some (rows, .finished)
  | .gating user (attempt :: todo) =>
      if 0 < attempt.estimate && availableCents (rows.view i) user now < attempt.estimate then
        some (rows.rollback i, .insufficient)
      else some (rows, .holding user attempt todo .begun)
  | .holding user attempt todo (.returned breakdown after) =>
      some (rows, settle (user.returning after) attempt todo breakdown)
  | .holding user attempt todo c =>
      (chargeProg user attempt.estimate (some (reqs i).requestId)
        (some ((reqs i).userFacingModel ++ str " [image-hold]")) now i rows c).map fun r =>
          (r.1, .holding user attempt todo r.2)
  | .refunding user todo _ _ (.returned after) =>
      match todo with
      | some todo => some (rows, .gating (user.returning after) todo)
      | none => some (rows, .finished)
  | .refunding user todo breakdown cents r =>
      (refundProg user breakdown cents (some (reqs i).requestId)
        (some ((reqs i).userFacingModel ++ str " [image-refund]")) now i rows r).map fun r =>
          (r.1, .refunding user todo breakdown cents r.2)
  | .adjusting _ _ (.returned _ _) => some (rows, .finished)
  | .adjusting user cost c =>
      (chargeProg user cost (some (reqs i).requestId)
        (some ((reqs i).userFacingModel ++ str " [image-adjust]")) now i rows c).map fun r =>
          (r.1, .adjusting user cost r.2)
  | .finished => some (rows.commit i, .done)
  | .done | .insufficient | .rolledBack => none

/-- A request that has not ended is rolled back. -/
def ImagePhase.abort : ImagePhase → Option ImagePhase
  | .done | .insufficient | .rolledBack => none
  | _ => some .rolledBack

/-- The wallet that a hold has just left, if it debited the wallet. -/
def ImagePhase.heldAt : ImagePhase → Option ℤ
  | .holding _ _ _ (.returned _ after) => after
  | _ => none

/-- A request, and the wallets that its holds have left. -/
structure ImageLoc where
  phase : ImagePhase
  holds : List ℤ
  deriving DecidableEq

/-- The requests on the tables. -/
abbrev ImageNet (n : ℕ) := Net (Fin n) (FundsRows n) ImageLoc

/-- A statement of a request, which is remembered if it was the debit of a hold. -/
def imageLocProg (reqs : Fin n → ImageRequest) (now : ℤ) (i : Fin n) (rows : FundsRows n)
    (l : ImageLoc) : Option (FundsRows n × ImageLoc) :=
  (imageProg reqs now i rows l.phase).map fun r =>
    (r.1, ⟨r.2, l.holds ++ r.2.heldAt.toList⟩)

/-- One step of the system. -/
def imageStep (reqs : Fin n → ImageRequest) : ImageNet n → FundsLabel n → Option (ImageNet n) :=
  fundsStep (imageLocProg reqs) fun l => l.phase.abort.map fun phase => { l with phase := phase }

/-- No request has begun. -/
def ImageNet.start (pg : Pg) : ImageNet n := ⟨.idle pg, fun _ => ⟨.start, []⟩⟩

/-- No hold has left a wallet negative. -/
def NoOverdraft (s : ImageNet n) : Prop := ∀ i, ∀ after ∈ (s.loc i).holds, 0 ≤ after

/-- A hold that is about to debit the wallet, and has its lock, would pass the gate again, on
the quota it has locked and the balance of the row. -/
def ImagePhase.Covered (rows : FundsRows n) (i : Fin n) : ImagePhase → Prop
  | .holding user attempt _ (.drained held) =>
      0 < shortfall held attempt.estimate →
        rows.holder (.user user.id) = none ∨ rows.holder (.user user.id) = some i →
          ∀ row ∈ (rows.view i).users.get? user.id,
            attempt.estimate ≤ (held.map Prod.snd).sum + max 0 row.balanceCents
  | _ => True

/-- A step in which no hold debits a wallet that does not cover it. -/
def HoldCovered (s : ImageNet n) : FundsLabel n → Prop
  | .move i _ => (s.loc i).phase.Covered s.shared i
  | .rollback _ => True

/-! ### The debit of a hold -/

/-- What a hold has taken from subscriptions is not negative. -/
def ImagePhase.Held : ImagePhase → Prop
  | .holding _ _ _ (.drained held) => ∀ d ∈ held, 0 ≤ d.2
  | _ => True

variable {reqs : Fin n → ImageRequest} {s t : ImageNet n} {rows rows' : FundsRows n} {i : Fin n}

theorem lockedSources_pos {pg : Pg} {ids : List ℤ} {uid now : ℤ} :
    ∀ d ∈ lockedSources pg ids uid now, 0 ≤ d.2 := by
  intro d hd
  obtain ⟨sub, hsub, rfl⟩ := List.mem_map.mp hd
  have hactive := (List.mem_filter.mp hsub).2
  exact (Subscription.isActive_iff.mp hactive).2.2.2.le

/-- The wallet after the debit of a hold is not negative exactly if the gate would have
passed. -/
theorem debit_nonneg_iff {held : List (ℤ × ℤ)} {estimate : ℤ} (balance : ℤ) (hheld : ∀ d ∈ held, 0 ≤ d.2)
    (hpos : 0 < shortfall held estimate) :
    0 ≤ balance - shortfall held estimate ↔ estimate ≤ (held.map Prod.snd).sum + max 0 balance := by
  have hshort := shortfall_of_pos hheld hpos
  omega

/-- A hold debits the wallet when its lock is free. -/
theorem chargeProg_debit (user : User) (cost : ℤ) (refId note : Option Str) (now : ℤ)
    {held : List (ℤ × ℤ)} {row : User}
    (hfree : rows.holder (.user user.id) = none ∨ rows.holder (.user user.id) = some i)
    (hrow : (rows.view i).users.get? user.id = some row) :
    chargeProg user cost refId note now i rows (.drained held) ≠ none := by
  simp only [chargeProg]
  split_ifs with hpos
  · rw [RowStore.update, if_pos hfree, Option.bind_some]
    simp only [RowStore.view, Function.update_self, Function.comp_apply, payAndLog, if_pos hpos,
      Table.get?_update_self]
    rw [RowStore.view] at hrow
    rw [hrow]
    exact Option.some_ne_none _
  · exact Option.some_ne_none _

/-- A statement that is not the debit of a hold is covered, and returns no wallet; the debit
of a hold returns what it leaves. -/
theorem heldAt_step {now : ℤ} {phase phase' : ImagePhase}
    (h : imageProg reqs now i rows phase = some (rows', phase')) :
    phase'.Held ∧ ((phase'.heldAt = none ∧ phase.Covered rows i) ∨
      ∃ user attempt todo held row, phase = .holding user attempt todo (.drained held) ∧
        0 < shortfall held attempt.estimate ∧
        (rows.holder (.user user.id) = none ∨ rows.holder (.user user.id) = some i) ∧
        (rows.view i).users.get? user.id = some row ∧
        phase'.heldAt = some (row.balanceCents - shortfall held attempt.estimate)) := by
  cases phase with
  | start =>
      obtain ⟨user, -, heq⟩ := Option.map_eq_some_iff.mp h
      cases heq
      exact ⟨trivial, Or.inl ⟨rfl, trivial⟩⟩
  | gating user todo =>
      cases todo with
      | nil =>
          cases h
          exact ⟨trivial, Or.inl ⟨rfl, trivial⟩⟩
      | cons attempt todo =>
          simp only [imageProg] at h
          split_ifs at h <;> cases h <;> exact ⟨trivial, Or.inl ⟨rfl, trivial⟩⟩
  | holding user attempt todo c =>
      cases c with
      | begun =>
          obtain ⟨⟨rows₁, c'⟩, hc, heq⟩ := Option.map_eq_some_iff.mp h
          cases heq
          simp only [chargeProg] at hc
          split_ifs at hc <;> cases hc <;> exact ⟨trivial, Or.inl ⟨rfl, trivial⟩⟩
      | waiting ids asked =>
          obtain ⟨⟨rows₁, c'⟩, hc, heq⟩ := Option.map_eq_some_iff.mp h
          cases heq
          obtain ⟨locked, -, heq⟩ := Option.map_eq_some_iff.mp hc
          cases heq
          exact ⟨lockedSources_pos, Or.inl ⟨rfl, trivial⟩⟩
      | drained held =>
          obtain ⟨⟨rows₁, c'⟩, hc, heq⟩ := Option.map_eq_some_iff.mp h
          cases heq
          by_cases hpos : 0 < shortfall held attempt.estimate
          · simp only [chargeProg, if_pos hpos] at hc
            obtain ⟨paid, hupd, hret⟩ := Option.bind_eq_some_iff.mp hc
            obtain ⟨row', hrow', heq⟩ := Option.map_eq_some_iff.mp hret
            cases heq
            obtain ⟨hfree, rfl⟩ := RowStore.update_eq_some hupd
            simp only [RowStore.view, Function.update_self, Function.comp_apply, payAndLog,
              if_pos hpos, Table.get?_update_self] at hrow'
            obtain ⟨row, hrow, rfl⟩ := Option.map_eq_some_iff.mp hrow'
            exact ⟨trivial, Or.inr ⟨user, attempt, todo, held, row, rfl, hpos, hfree, hrow, rfl⟩⟩
          · simp only [chargeProg, if_neg hpos] at hc
            cases hc
            exact ⟨trivial, Or.inl ⟨rfl, fun hshort => absurd hshort hpos⟩⟩
      | returned breakdown after =>
          cases h
          unfold settle
          split
          · split_ifs <;> exact ⟨trivial, Or.inl ⟨rfl, trivial⟩⟩
          · split_ifs <;> exact ⟨trivial, Or.inl ⟨rfl, trivial⟩⟩
  | refunding user todo breakdown cents r =>
      cases r with
      | returned after =>
          cases todo <;> cases h <;> exact ⟨trivial, Or.inl ⟨rfl, trivial⟩⟩
      | _ =>
          obtain ⟨r', -, heq⟩ := Option.map_eq_some_iff.mp h
          cases heq
          exact ⟨trivial, Or.inl ⟨rfl, trivial⟩⟩
  | adjusting user cost c =>
      cases c with
      | returned breakdown after =>
          cases h
          exact ⟨trivial, Or.inl ⟨rfl, trivial⟩⟩
      | _ =>
          obtain ⟨r', -, heq⟩ := Option.map_eq_some_iff.mp h
          cases heq
          exact ⟨trivial, Or.inl ⟨rfl, trivial⟩⟩
  | finished =>
      cases h
      exact ⟨trivial, Or.inl ⟨rfl, trivial⟩⟩
  | _ => cases h

/-- A statement that waits for a lock is covered. -/
theorem covered_of_stuck (reqs : Fin n → ImageRequest) (now : ℤ) {phase : ImagePhase}
    (h : imageProg reqs now i rows phase = none) : phase.Covered rows i := by
  cases phase with
  | holding user attempt todo c =>
      cases c with
      | drained held =>
          intro _ hfree row hrow
          exact absurd (Option.map_eq_none_iff.mp h) (chargeProg_debit _ _ _ _ _ hfree hrow)
      | _ => trivial
  | _ => trivial

/-- What the holds of a request have left, after one more statement. -/
theorem noOverdraft_update {l : ImageLoc} (h : NoOverdraft s) :
    NoOverdraft ⟨rows, Function.update s.loc i l⟩ ↔ ∀ after ∈ l.holds, 0 ≤ after := by
  constructor
  · intro hall after hafter
    refine hall i after ?_
    simpa using hafter
  · intro hl j
    by_cases hj : j = i
    · subst hj
      simpa using hl
    · simpa [Function.update_of_ne hj] using h j

/-- **One step** leaves no wallet negative by a hold exactly if the hold is covered. -/
theorem noOverdraft_step {a : FundsLabel n} (hheld : ∀ i, (s.loc i).phase.Held)
    (h : NoOverdraft s) (hstep : imageStep reqs s a = some t) : NoOverdraft t ↔ HoldCovered s a := by
  cases a with
  | rollback i =>
      obtain ⟨l, habort, rfl⟩ := fundsStep_rollback.mp hstep
      obtain ⟨phase, -, rfl⟩ := Option.map_eq_some_iff.mp habort
      exact iff_of_true ((noOverdraft_update h).mpr (h i)) trivial
  | move i now =>
      obtain ⟨rows, l, hprog, rfl⟩ := fundsStep_move.mp hstep
      obtain ⟨⟨rows', phase'⟩, hmove, heq⟩ := Option.map_eq_some_iff.mp hprog
      cases heq
      rw [noOverdraft_update h]
      rcases (heldAt_step hmove).2 with ⟨hnone, hcovered⟩ |
        ⟨user, attempt, todo, held, row, hphase, hpos, hfree, hrow, hafter⟩
      · refine iff_of_true ?_ hcovered
        simp only [hnone, Option.toList_none, List.append_nil]
        exact h i
      · have hnonneg := hheld i
        simp only [HoldCovered, hphase, ImagePhase.Held, ImagePhase.Covered, hafter] at hnonneg ⊢
        have hdebit := debit_nonneg_iff row.balanceCents hnonneg hpos
        constructor
        · intro hall _ _ row' hrow'
          rw [hrow] at hrow'
          cases hrow'
          exact hdebit.mp (hall _ (by simp))
        · intro hcovered after hmem
          rcases List.mem_append.mp hmem with hmem | hmem
          · exact h i after hmem
          · simp only [Option.toList_some, List.mem_singleton] at hmem
            rw [hmem]
            exact hdebit.mpr (hcovered hpos hfree row hrow)

theorem held_imageStep {a : FundsLabel n} (h : ∀ i, (s.loc i).phase.Held)
    (hstep : imageStep reqs s a = some t) (j : Fin n) : (t.loc j).phase.Held := by
  have hupdate : ∀ {rows : FundsRows n} {i : Fin n} {l : ImageLoc}, l.phase.Held →
      ((⟨rows, Function.update s.loc i l⟩ : ImageNet n).loc j).phase.Held := by
    intro rows i l hl
    by_cases hj : j = i
    · subst hj
      simpa using hl
    · simpa [Function.update_of_ne hj] using h j
  cases a with
  | rollback i =>
      obtain ⟨l, habort, rfl⟩ := fundsStep_rollback.mp hstep
      obtain ⟨phase, habort, rfl⟩ := Option.map_eq_some_iff.mp habort
      refine hupdate ?_
      cases hphase : (s.loc i).phase <;> rw [hphase] at habort <;> cases habort <;> trivial
  | move i now =>
      obtain ⟨rows, l, hprog, rfl⟩ := fundsStep_move.mp hstep
      obtain ⟨⟨rows', phase'⟩, hmove, heq⟩ := Option.map_eq_some_iff.mp hprog
      cases heq
      exact hupdate (heldAt_step hmove).1

/-- **No hold makes the wallet negative** at any point of a run exactly when every hold that
debits the wallet would pass the gate again at that moment. -/
theorem holds_covered_iff (pg : Pg) (as : List (FundsLabel n)) :
    (∀ bs t, bs <+: as → run (imageStep reqs) bs (ImageNet.start pg) = some t → NoOverdraft t) ↔
      Along (imageStep reqs) HoldCovered as (ImageNet.start pg) := by
  refine forall_prefix_iff_along (J := fun s => ∀ i, (s.loc i).phase.Held) ?_ ?_ ?_ as ?_ ?_
  · exact fun s a t hJ hs => held_imageStep hJ hs
  · intro s a hnone
    cases a with
    | rollback i => trivial
    | move i now =>
        refine covered_of_stuck reqs now ?_
        simpa [imageStep, fundsStep, Net.step, imageLocProg] using hnone
  · exact fun s a t hJ hI hs => noOverdraft_step hJ hI hs
  · exact fun i => trivial
  · intro i after hafter
    cases hafter

/-! ### One wallet -/

/-- An image for 40 cents, which its first upstream makes. -/
def image40 : ImageRequest := ⟨1, str "r", str "m", [⟨40, some 40⟩]⟩

/-- Both requests load the user, one holds and commits, and then the other holds. -/
def bothLoaded : List (FundsLabel 2) :=
  .move 0 10 :: List.replicate 7 (.move 1 10) ++ List.replicate 5 (.move 0 20)

/-- Both gates see 50 cents; the second hold leaves the wallet at -30. -/
theorem hold_overdraws :
    (run (imageStep fun _ => image40) bothLoaded (ImageNet.start (oneSubPg 50 0))).map
      (fun t => ((t.loc 0).holds, (t.loc 1).holds)) = some ([-30], [10]) := by
  decide +kernel

end Llmxy
