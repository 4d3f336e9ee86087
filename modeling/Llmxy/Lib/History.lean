import Llmxy.Lib.Machine

/-!
# What a run has been through

A result about a machine may speak of an earlier state of the same run: what a party knows was
true at some moment.  `Once` says so of a run, by one of its prefixes, and survives whatever
follows.  `run_induction_history` is the invariant rule for invariants that speak of the labels
so far; with `Once` in it, an invariant can refer to the past without a field in the state.

## Main definitions

* `Once step s as P` — some state of the run `as` from `s` meets `P`.
* `run_induction_history` — the invariant rule.
-/

namespace Llmxy

universe u v

section
variable {σ : Type u} {ι : Type v} {step : σ → ι → Option σ} {s t t' : σ} {as bs : List ι}
  {P Q : σ → Prop}

/-- Some state of the run, the first and the last included, meets `P`. -/
def Once (step : σ → ι → Option σ) (s : σ) (as : List ι) (P : σ → Prop) : Prop :=
  ∃ bs t, bs <+: as ∧ run step bs s = some t ∧ P t

/-- The last state is one of the run. -/
theorem Once.now (hrun : run step as s = some t) (h : P t) : Once step s as P :=
  ⟨as, t, List.prefix_refl as, hrun, h⟩

/-- What has been, has been. -/
theorem Once.later (h : Once step s as P) (bs : List ι) : Once step s (as ++ bs) P := by
  obtain ⟨cs, t, hcs, hrun, ht⟩ := h
  exact ⟨cs, t, hcs.trans (List.prefix_append as bs), hrun, ht⟩

theorem Once.mono (h : Once step s as P) (hPQ : ∀ t, P t → Q t) : Once step s as Q := by
  obtain ⟨cs, t, hcs, hrun, ht⟩ := h
  exact ⟨cs, t, hcs, hrun, hPQ t ht⟩

/-- What every state of the run meets, that one meets. -/
theorem Once.elim (h : Once step s as P)
    (hall : ∀ bs t, bs <+: as → run step bs s = some t → Q t) : ∃ t, P t ∧ Q t := by
  obtain ⟨cs, t, hcs, hrun, ht⟩ := h
  exact ⟨t, ht, hall cs t hcs hrun⟩

/-- **The invariant rule for invariants about the run so far.**  It holds at the start; and a
step that meets the condition takes it from one prefix of the run to the next. -/
theorem run_induction_history {C : σ → ι → Prop} {I : List ι → σ → Prop} (h0 : I [] s)
    (hstep : ∀ bs t a t', run step bs s = some t → C t a → I bs t → step t a = some t' →
      I (bs ++ [a]) t') :
    ∀ {as : List ι} {t : σ}, Along step C as s → run step as s = some t → I as t := by
  intro as
  induction as using List.reverseRecOn with
  | nil =>
      intro t _ hrun
      cases hrun
      exact h0
  | append_singleton bs a ih =>
      intro t hal hrun
      obtain ⟨hbs, hlast⟩ := along_append.mp hal
      obtain ⟨t₁, hrun₁, hrun₂⟩ := run_append_eq_some.mp hrun
      obtain ⟨t₂, hone, hnil⟩ := run_cons_eq_some.mp hrun₂
      cases hnil
      exact hstep bs t₁ a t hrun₁ (hlast t₁ hrun₁).1 (ih hbs hrun₁) hone

end
end Llmxy
