import Mathlib.Algebra.BigOperators.Fin
import Mathlib.Algebra.BigOperators.Group.Finset.Basic
import Mathlib.Algebra.Group.Int.Defs
import Mathlib.Logic.Function.Basic
import Mathlib.Tactic.Common

/-!
# Runs of a partial step function, and parties that share a state

A machine here is a partial step function `step : σ → ι → Option σ`: the label
names who moves, and `none` says that the label is not enabled.  A schedule is a
list of labels, so a statement about every interleaving is a statement about
every list.

`Along` collects a condition on the steps a run takes, and `run_induction_along`
is the invariant rule under such a condition.  A result about every run whose
steps are all well behaved is proved with it: one obligation for one step.

A `Net` gives each party a local state beside the shared one.  `Net.step` moves
one party and touches nobody else's local state, so an invariant about a party
that does not move survives for free.

## Main definitions

* `run step as s` — execute the labels `as` from `s`.
* `Along step P as s` — every step of that run is taken in a state and with a
  label that satisfy `P`.
* `Net`, `Net.step` — parties with local states over a shared state.
* `run_induction`, `run_induction_along` — the invariant rules.
-/

namespace Llmxy

universe u v w

/-- Two parties, and three. -/
instance neZeroTwo : NeZero 2 := ⟨by decide⟩
instance neZeroThree : NeZero 3 := ⟨by decide⟩

section Run
variable {σ : Type u} {ι : Type v}

/-- Execute the labels in order.  A label that is not enabled ends the run with
`none`. -/
def run (step : σ → ι → Option σ) : List ι → σ → Option σ
  | [], s => some s
  | a :: as, s => (step s a).bind (run step as)

variable {step : σ → ι → Option σ}

@[simp] theorem run_nil (s : σ) : run step [] s = some s := rfl

theorem run_cons (a : ι) (as : List ι) (s : σ) :
    run step (a :: as) s = (step s a).bind (run step as) := rfl

theorem run_cons_eq_some {a : ι} {as : List ι} {s t : σ} :
    run step (a :: as) s = some t ↔ ∃ s', step s a = some s' ∧ run step as s' = some t := by
  simp [run_cons, Option.bind_eq_some_iff]

theorem run_append (as bs : List ι) (s : σ) :
    run step (as ++ bs) s = (run step as s).bind (run step bs) := by
  induction as generalizing s with
  | nil => rfl
  | cons a as ih =>
      rw [List.cons_append, run_cons, run_cons]
      cases step s a with
      | none => rfl
      | some s' => exact ih s'

theorem run_append_eq_some {as bs : List ι} {s t : σ} :
    run step (as ++ bs) s = some t ↔ ∃ s', run step as s = some s' ∧ run step bs s' = some t := by
  simp [run_append, Option.bind_eq_some_iff]

/-- Every step of the run meets `P`, judged in the state it is taken in. -/
def Along (step : σ → ι → Option σ) (P : σ → ι → Prop) : List ι → σ → Prop
  | [], _ => True
  | a :: as, s => P s a ∧ ∀ s', step s a = some s' → Along step P as s'

instance decidableAlong (step : σ → ι → Option σ) (P : σ → ι → Prop)
    [∀ s a, Decidable (P s a)] : (as : List ι) → (s : σ) → Decidable (Along step P as s)
  | [], _ => isTrue trivial
  | a :: as, s =>
      have : Decidable (∀ s', step s a = some s' → Along step P as s') :=
        match h : step s a with
        | none => isTrue (by intro s' hs; cases hs)
        | some s₁ =>
            match decidableAlong step P as s₁ with
            | isTrue ht => isTrue (by intro s' hs; cases hs; exact ht)
            | isFalse hf => isFalse (fun hall => hf (hall s₁ rfl))
      inferInstanceAs (Decidable (P s a ∧ _))

@[simp] theorem along_nil (P : σ → ι → Prop) (s : σ) : Along step P [] s := trivial

/-- The two parts of a run. -/
theorem along_append {P : σ → ι → Prop} {as bs : List ι} {s : σ} :
    Along step P (as ++ bs) s ↔
      Along step P as s ∧ ∀ t, run step as s = some t → Along step P bs t := by
  induction as generalizing s with
  | nil => simp
  | cons a as ih =>
      simp only [List.cons_append, Along, ih, run_cons_eq_some]
      constructor
      · rintro ⟨hP, htail⟩
        exact ⟨⟨hP, fun s' hs => (htail s' hs).1⟩,
          fun t ⟨s', hs, hrun⟩ => (htail s' hs).2 t hrun⟩
      · rintro ⟨⟨hP, htail⟩, hrest⟩
        exact ⟨hP, fun s' hs => ⟨htail s' hs, fun t hrun => hrest t ⟨s', hs, hrun⟩⟩⟩

/-- A run starts as its prefixes do. -/
theorem Along.of_prefix {P : σ → ι → Prop} {as bs : List ι} {s : σ} (h : Along step P as s)
    (hbs : bs <+: as) : Along step P bs s := by
  obtain ⟨cs, rfl⟩ := hbs
  exact (along_append.mp h).1

/-- What holds of every label holds along the run. -/
theorem Along.and_forall {P : σ → ι → Prop} {Q : ι → Prop} {as : List ι} {s : σ}
    (h : Along step P as s) (hQ : ∀ a ∈ as, Q a) : Along step (fun s a => P s a ∧ Q a) as s := by
  induction as generalizing s with
  | nil => exact trivial
  | cons a as ih =>
      exact ⟨⟨h.1, hQ a List.mem_cons_self⟩,
        fun s' hs => ih (h.2 s' hs) fun b hb => hQ b (List.mem_cons_of_mem _ hb)⟩

/-- What holds of every step out of an invariant state holds along the run. -/
theorem along_of_inv {P Q : σ → ι → Prop} {I : σ → Prop}
    (hstep : ∀ s a s', P s a → I s → step s a = some s' → I s')
    (hQ : ∀ s a, I s → P s a → Q s a) :
    ∀ {as : List ι} {s : σ}, Along step P as s → I s → Along step Q as s := by
  intro as
  induction as with
  | nil => exact fun _ _ => trivial
  | cons a as ih =>
      intro s hal h0
      exact ⟨hQ s a h0 hal.1, fun s' hs => ih (hal.2 s' hs) (hstep s a s' hal.1 h0 hs)⟩

/-- **The invariant rule under a condition on the steps.**  What one well behaved
step preserves, a run of well behaved steps preserves. -/
theorem run_induction_along {P : σ → ι → Prop} {I : σ → Prop}
    (hstep : ∀ s a s', P s a → I s → step s a = some s' → I s') :
    ∀ {as : List ι} {s t : σ}, Along step P as s → I s → run step as s = some t → I t := by
  intro as
  induction as with
  | nil => intro s t _ h0 hr; cases hr; exact h0
  | cons a as ih =>
      intro s t hal h0 hr
      obtain ⟨s', hs, hr'⟩ := run_cons_eq_some.mp hr
      exact ih (hal.2 s' hs) (hstep s a s' hal.1 h0 hs) hr'

/-- **The invariant rule.**  What every step preserves, every run preserves. -/
theorem run_induction {I : σ → Prop}
    (hstep : ∀ s a s', I s → step s a = some s' → I s')
    {as : List ι} {s t : σ} (h0 : I s) (hr : run step as s = some t) : I t := by
  induction as generalizing s with
  | nil => cases hr; exact h0
  | cons a as ih =>
      obtain ⟨s', hs, hr'⟩ := run_cons_eq_some.mp hr
      exact ih (hstep s a s' h0 hs) hr'

/-- The invariant rule for an invariant of the state and the steps taken so far. -/
theorem run_induction_labels {I : List ι → σ → Prop}
    (hstep : ∀ as s a s', I as s → step s a = some s' → I (as ++ [a]) s')
    {as bs : List ι} {s t : σ} (h0 : I bs s) (hr : run step as s = some t) : I (bs ++ as) t := by
  induction as generalizing s bs with
  | nil =>
      cases hr
      rw [List.append_nil]
      exact h0
  | cons a as ih =>
      obtain ⟨s', hs, hr'⟩ := run_cons_eq_some.mp hr
      have hrest := ih (hstep bs s a s' h0 hs) hr'
      rw [List.append_assoc] at hrest
      exact hrest

/-- **An invariant that a step keeps exactly under a condition** holds in every state of a
run exactly when every step of the run meets the condition.  `J` is what every step keeps
anyway; a label that is not enabled breaks nothing. -/
theorem forall_prefix_iff_along {I J : σ → Prop} {P : σ → ι → Prop}
    (hkeep : ∀ s a s', J s → step s a = some s' → J s')
    (hstuck : ∀ s a, step s a = none → P s a)
    (hstep : ∀ s a s', J s → I s → step s a = some s' → (I s' ↔ P s a)) (as : List ι) :
    ∀ {s : σ}, J s → I s →
      ((∀ bs t, bs <+: as → run step bs s = some t → I t) ↔ Along step P as s) := by
  induction as with
  | nil =>
      intro s _ h0
      refine iff_of_true ?_ trivial
      intro bs t hbs hrun
      rw [List.prefix_nil.mp hbs] at hrun
      cases hrun
      exact h0
  | cons a as ih =>
      intro s hJ h0
      constructor
      · intro hall
        have htail : ∀ s', step s a = some s' → P s a ∧ Along step P as s' := by
          intro s' hs
          have hrun : ∀ bs t, run step bs s' = some t → run step (a :: bs) s = some t := by
            intro bs t h
            rw [run_cons, hs, Option.bind_some]
            exact h
          have h1 : I s' := hall [a] s' (by simp) (hrun [] s' rfl)
          refine ⟨(hstep s a s' hJ h0 hs).mp h1, (ih (hkeep s a s' hJ hs) h1).mp ?_⟩
          intro bs t hbs h
          exact hall (a :: bs) t (List.cons_prefix_cons.mpr ⟨rfl, hbs⟩) (hrun bs t h)
        cases hs : step s a with
        | none => exact ⟨hstuck s a hs, fun s' hs' => by rw [hs] at hs'; cases hs'⟩
        | some s' => exact ⟨(htail s' hs).1, fun s'' hs' => (htail s'' hs').2⟩
      · rintro ⟨hP, htail⟩ bs t hbs hrun
        cases bs with
        | nil =>
            cases hrun
            exact h0
        | cons b bs =>
            obtain ⟨hb, htl⟩ := List.cons_prefix_cons.mp hbs
            subst hb
            obtain ⟨s', hs, hrun'⟩ := run_cons_eq_some.mp hrun
            have h1 : I s' := (hstep s b s' hJ h0 hs).mpr hP
            exact (ih (hkeep s b s' hJ hs) h1).mpr (htail s' hs) bs t htl hrun'

/-- A second, total machine that follows the labels of the first: a relation
between the two that each step keeps holds at the end of the run. -/
theorem run_shadow {τ : Type w} {R : σ → τ → Prop} {shadow : τ → ι → τ}
    (hstep : ∀ s a s' x, R s x → step s a = some s' → R s' (shadow x a)) :
    ∀ {as : List ι} {s t : σ} {x : τ}, R s x → run step as s = some t →
      R t (as.foldl shadow x) := by
  intro as
  induction as with
  | nil => intro s t x h0 hr; cases hr; exact h0
  | cons a as ih =>
      intro s t x h0 hr
      obtain ⟨s', hs, hr'⟩ := run_cons_eq_some.mp hr
      exact ih (hstep s a s' x h0 hs) hr'

end Run

/-- A shared state and one local state for each party. -/
@[ext] structure Net (ι : Type u) (σ : Type v) (lam : Type w) where
  /-- What all parties see. -/
  shared : σ
  /-- Where each party stands. -/
  loc : ι → lam

namespace Net
variable {ι : Type u} {σ : Type v} {lam : Type w} [DecidableEq ι]

/-- One move of party `i`, which runs `prog i` on the shared and its own state. -/
def step (prog : ι → σ → lam → Option (σ × lam)) (s : Net ι σ lam) (i : ι) :
    Option (Net ι σ lam) :=
  (prog i s.shared (s.loc i)).map fun r => ⟨r.1, Function.update s.loc i r.2⟩

variable {prog : ι → σ → lam → Option (σ × lam)}

theorem step_eq_some {s t : Net ι σ lam} {i : ι} :
    step prog s i = some t ↔
      ∃ sh l, prog i s.shared (s.loc i) = some (sh, l) ∧ t = ⟨sh, Function.update s.loc i l⟩ := by
  simp only [step, Option.map_eq_some_iff, Prod.exists]
  constructor
  · rintro ⟨sh, l, h, rfl⟩; exact ⟨sh, l, h, rfl⟩
  · rintro ⟨sh, l, h, rfl⟩; exact ⟨sh, l, h, rfl⟩

/-- A move leaves every other party where it was. -/
theorem step_loc_other {s t : Net ι σ lam} {i j : ι} (h : step prog s i = some t) (hj : j ≠ i) :
    t.loc j = s.loc j := by
  obtain ⟨sh, l, -, rfl⟩ := step_eq_some.mp h
  exact Function.update_of_ne hj l s.loc

/-- A party that moves changes a sum over the parties by what it adds. -/
theorem sum_update [Fintype ι] {loc : ι → lam} {i : ι} {g : lam → ℤ} (h : g (loc i) = 0) (l : lam) :
    ∑ j, g (Function.update loc i l j) = ∑ j, g (loc j) + g l := by
  have heach : ∀ j, g (Function.update loc i l j) = g (loc j) + if j = i then g l else 0 := by
    intro j
    by_cases hj : j = i
    · subst hj
      simp [h]
    · simp [hj]
  rw [Finset.sum_congr rfl fun j _ => heach j, Finset.sum_add_distrib, Finset.sum_ite_eq',
    if_pos (Finset.mem_univ i)]

end Net
end Llmxy
