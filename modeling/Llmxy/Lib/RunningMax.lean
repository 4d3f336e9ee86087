import Mathlib.Data.List.MinMax

/-!
# The best of a list so far

A loop that keeps the name of the element with the highest score, from a lowest score on.  The
first of several elements with the highest score stays.

## Main definitions

* `keepBest`, `runningBest` — the body of the loop, and the loop.
* `coe_runningBest_snd` — the score that is kept is the maximum.
* `runningBest_attains` — it is that of an element with the name that is kept.
-/

namespace Llmxy

variable {α β γ : Type} [LinearOrder β]

/-- Keep the best so far, unless the next element has a higher score. -/
def keepBest (name : α → γ) (score : α → β) (best : Option γ × β) (x : α) : Option γ × β :=
  if best.2 < score x then (some (name x), score x) else best

/-- The name and the score of the best element, if one has more than the lowest score. -/
def runningBest (name : α → γ) (score : α → β) (lowest : β) (xs : List α) : Option γ × β :=
  xs.foldl (keepBest name score) (none, lowest)

section
variable {name : α → γ} {score : α → β} {best : Option γ × β} {lowest : β} {xs : List α}

theorem snd_keepBest (x : α) : (keepBest name score best x).2 = max best.2 (score x) := by
  rw [keepBest]
  split_ifs with h
  · exact (max_eq_right h.le).symm
  · exact (max_eq_left (not_lt.mp h)).symm

theorem coe_snd_foldl_keepBest :
    ((xs.foldl (keepBest name score) best).2 : WithBot β) =
      max (best.2 : WithBot β) (xs.map score).maximum := by
  induction xs generalizing best with
  | nil => exact (max_eq_left (bot_le : (⊥ : WithBot β) ≤ best.2)).symm
  | cons x xs ih =>
      rw [List.foldl_cons, ih, snd_keepBest, List.map_cons, List.maximum_cons, WithBot.coe_max,
        max_assoc]

/-- **The score that is kept** is the maximum. -/
theorem coe_runningBest_snd : ((runningBest name score lowest xs).2 : WithBot β) =
    max (lowest : WithBot β) (xs.map score).maximum :=
  coe_snd_foldl_keepBest

/-- The loop keeps what it began with, or an element. -/
theorem foldl_keepBest_cases : xs.foldl (keepBest name score) best = best ∨
    ∃ x ∈ xs, xs.foldl (keepBest name score) best = (some (name x), score x) := by
  induction xs generalizing best with
  | nil => exact .inl rfl
  | cons x xs ih =>
      rw [List.foldl_cons]
      obtain hkept | ⟨y, hy, hbest⟩ := @ih (keepBest name score best x)
      · rw [hkept, keepBest]
        split_ifs
        · exact .inr ⟨x, List.mem_cons_self, rfl⟩
        · exact .inl rfl
      · exact .inr ⟨y, List.mem_cons_of_mem x hy, hbest⟩

/-- **The name that is kept** is that of an element with the score that is kept. -/
theorem runningBest_attains {kept : γ} (h : (runningBest name score lowest xs).1 = some kept) :
    ∃ x ∈ xs, name x = kept ∧ score x = (runningBest name score lowest xs).2 := by
  rw [runningBest] at h ⊢
  obtain hkept | ⟨x, hx, hbest⟩ := @foldl_keepBest_cases _ _ _ _ name score (none, lowest) xs
  · rw [hkept] at h
    cases h
  · rw [hbest] at h ⊢
    exact ⟨x, hx, Option.some_inj.mp h, rfl⟩

/-- A score above the lowest one has a name. -/
theorem runningBest_isSome (h : lowest < (runningBest name score lowest xs).2) :
    ∃ kept, (runningBest name score lowest xs).1 = some kept := by
  rw [runningBest] at h ⊢
  obtain hkept | ⟨x, hx, hbest⟩ := @foldl_keepBest_cases _ _ _ _ name score (none, lowest) xs
  · rw [hkept] at h
    exact absurd h (lt_irrefl lowest)
  · exact ⟨name x, by rw [hbest]⟩

end

theorem maximum_lt_iff {xs : List β} {b : β} : xs.maximum < b ↔ ∀ x ∈ xs, x < b := by
  induction xs with
  | nil => exact iff_of_true (WithBot.bot_lt_coe b) nofun
  | cons x xs ih => rw [List.maximum_cons, max_lt_iff, ih, WithBot.coe_lt_coe, List.forall_mem_cons]

end Llmxy
