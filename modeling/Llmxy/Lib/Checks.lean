import Mathlib.Tactic.Common

/-!
# Checks that refuse

A function that validates before it writes is a chain of checks in `Except`.  When the chain
returns, each check has passed; the lemmas here take the chain apart from the front.

## Main definitions

* `refuseIf`, `checkWhen` — one check, and a check that is made on a condition.
* `bind_ok`, `check_ok`, `map_ok` — what a chain that returns has passed.
-/

namespace Llmxy

section
variable {ε α β : Type}

/-- Raise `e` when `p` holds. -/
def refuseIf (p : Prop) [Decidable p] (e : ε) : Except ε Unit := if p then .error e else .ok ()

theorem refuseIf_ok {p : Prop} [Decidable p] {e : ε} : refuseIf p e = .ok () ↔ ¬p := by
  by_cases hp : p
  · simp [refuseIf, hp]
  · simp [refuseIf, hp]

/-- Make the check `x` when `p` holds. -/
def checkWhen (p : Prop) [Decidable p] (x : Except ε Unit) : Except ε Unit :=
  if p then x else .ok ()

theorem checkWhen_ok {p : Prop} [Decidable p] {x : Except ε Unit} :
    checkWhen p x = .ok () ↔ (p → x = .ok ()) := by
  by_cases hp : p
  · simp [checkWhen, hp]
  · simp [checkWhen, hp]

theorem bind_ok {x : Except ε α} {f : α → Except ε β} {b : β} :
    x.bind f = .ok b ↔ ∃ a, x = .ok a ∧ f a = .ok b := by
  cases x with
  | error e => simp [Except.bind]
  | ok a => simp [Except.bind]

theorem check_ok {x : Except ε Unit} {f : Unit → Except ε β} {b : β} :
    x.bind f = .ok b ↔ x = .ok () ∧ f () = .ok b := by
  cases x with
  | error e => simp [Except.bind]
  | ok a => simp [Except.bind]

theorem map_ok {x : Except ε α} {f : α → β} {b : β} :
    x.map f = .ok b ↔ ∃ a, x = .ok a ∧ f a = b := by
  cases x with
  | error e => simp [Except.map]
  | ok a => simp [Except.map]

end

end Llmxy
