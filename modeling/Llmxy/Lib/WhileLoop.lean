import Mathlib.Logic.Function.Iterate
import Mathlib.Tactic.Common

/-!
# While loops

`While guard body n s t` says that `while guard: body`, started in `s`, stops in `t` after `n`
iterations.  A loop that runs forever is in no such relation, so a statement of this form is a
statement of termination.

A natural number that each iteration lowers bounds the iterations.  A definition that runs the
loop on fuel computes its result once the fuel covers them.

## Main definitions

* `While` — the loop and its iterations.
* `exists_while` — the rule for termination, `While.inv` — the rule for invariants.
* `whileFuel` — the loop on fuel, `While.whileFuel_eq`.
-/

namespace Llmxy

universe u
variable {σ : Type u}

/-- The loop, the number of its iterations, and the states in which it starts and stops. -/
inductive While (guard : σ → Prop) (body : σ → σ) : ℕ → σ → σ → Prop where
  | exit {s : σ} (h : ¬guard s) : While guard body 0 s s
  | next {n : ℕ} {s t : σ} (h : guard s) (rest : While guard body n (body s) t) :
      While guard body (n + 1) s t

/-- Run the loop for so many iterations at most. -/
def whileFuel (guard : σ → Prop) [DecidablePred guard] (body : σ → σ) : ℕ → σ → σ
  | 0, s => s
  | fuel + 1, s => if guard s then whileFuel guard body fuel (body s) else s

variable {guard : σ → Prop} {body : σ → σ} {n fuel : ℕ} {s t : σ}

/-- The loop stops where its guard fails. -/
theorem While.not_guard (h : While guard body n s t) : ¬guard t := by
  induction h with
  | exit h => exact h
  | next _ _ ih => exact ih

/-- The rule for invariants. -/
theorem While.inv {I : σ → Prop} (h : While guard body n s t)
    (hbody : ∀ s, guard s → I s → I (body s)) (h0 : I s) : I t := by
  induction h with
  | exit _ => exact h0
  | next h _ ih => exact ih (hbody _ h h0)

/-- The loop stops in an iterate of its body. -/
theorem While.iterate (h : While guard body n s t) : t = body^[n] s := by
  induction h with
  | exit _ => rfl
  | next _ _ ih => rw [Function.iterate_succ_apply, ih]

/-- The rule for termination: what each iteration lowers bounds the iterations. -/
theorem exists_while (I : σ → Prop) (variant : σ → ℕ) (hbody : ∀ s, guard s → I s → I (body s))
    (hvariant : ∀ s, guard s → I s → variant (body s) < variant s) (h0 : I s) :
    ∃ n t, n ≤ variant s ∧ While guard body n s t := by
  induction hv : variant s using Nat.strongRecOn generalizing s with
  | _ v ih =>
      by_cases hs : guard s
      · have hlt := hvariant s hs h0
        rw [hv] at hlt
        obtain ⟨n, t, hn, hrest⟩ := ih _ hlt (hbody s hs h0) rfl
        exact ⟨n + 1, t, by omega, .next hs hrest⟩
      · exact ⟨0, s, v.zero_le, .exit hs⟩

/-- Fuel that covers the iterations is enough. -/
theorem While.whileFuel_eq [DecidablePred guard] (h : While guard body n s t) (hfuel : n ≤ fuel) :
    whileFuel guard body fuel s = t := by
  induction h generalizing fuel with
  | exit h =>
      cases fuel with
      | zero => rfl
      | succ fuel => exact if_neg h
  | next h _ ih =>
      cases fuel with
      | zero => omega
      | succ fuel =>
          rw [whileFuel, if_pos h]
          exact ih (by omega)

end Llmxy
