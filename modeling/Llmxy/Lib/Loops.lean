import Mathlib.Data.List.Forall2
import Mathlib.Algebra.Order.BigOperators.Group.List
import Mathlib.Algebra.Order.Group.Nat
import Mathlib.Data.Option.Basic

/-!
# What a loop over a list collects

A loop appends what each element gives, keeps what was given last, or stops at an element that
gives nothing.

## Main definitions

* `mapM_cons_eq_some`, `mapM_eq_some_map`, `isSome_mapM_iff` — a loop that an element may stop.
* `forall₂_flatMap`, `flatMap_ite` — a list that each element adds at most one to.
* `getLast?_filterMap_cons`, `getLast?_filterMap_concat` — what was given last.
-/

namespace Llmxy

/-! ### Loops that stop -/

section
variable {α β : Type} {f : α → Option β} {xs : List α}

theorem mapM_cons_eq_some {x : α} {zs : List β} :
    (x :: xs).mapM f = some zs ↔ ∃ y ys, f x = some y ∧ xs.mapM f = some ys ∧ zs = y :: ys := by
  rw [List.mapM_cons]
  constructor
  · intro h
    obtain ⟨y, hy, h⟩ := Option.bind_eq_some_iff.mp h
    obtain ⟨ys, hys, h⟩ := Option.bind_eq_some_iff.mp h
    exact ⟨y, ys, hy, hys, (Option.some.inj h).symm⟩
  · rintro ⟨y, ys, hy, hys, rfl⟩
    rw [hy, hys]
    rfl

theorem mapM_eq_some_map {g : α → β} (h : ∀ x ∈ xs, f x = some (g x)) :
    xs.mapM f = some (xs.map g) := by
  induction xs with
  | nil => rfl
  | cons x xs ih =>
      rw [List.forall_mem_cons] at h
      exact mapM_cons_eq_some.mpr ⟨g x, xs.map g, h.1, ih h.2, rfl⟩

theorem exists_of_mem_mapM {ys : List β} (h : xs.mapM f = some ys) {y : β} (hy : y ∈ ys) :
    ∃ x ∈ xs, f x = some y := by
  induction xs generalizing ys with
  | nil =>
      cases h
      cases hy
  | cons x xs ih =>
      obtain ⟨y', ys', hx, hxs, rfl⟩ := mapM_cons_eq_some.mp h
      obtain rfl | hy := List.mem_cons.mp hy
      · exact ⟨x, List.mem_cons_self, hx⟩
      · obtain ⟨x', hx', heq⟩ := ih hxs hy
        exact ⟨x', List.mem_cons_of_mem _ hx', heq⟩

/-- What is known of each result, of all of them. -/
theorem map_of_mapM {γ : Type} {g : β → γ} {k : α → γ} (hf : ∀ x y, f x = some y → g y = k x) :
    ∀ {xs : List α} {ys : List β}, xs.mapM f = some ys → ys.map g = xs.map k := by
  intro xs
  induction xs with
  | nil =>
      intro ys h
      cases h
      rfl
  | cons x xs ih =>
      intro ys h
      obtain ⟨y, ys', hx, hxs, rfl⟩ := mapM_cons_eq_some.mp h
      rw [List.map_cons, List.map_cons, hf x y hx, ih hxs]

/-- A loop ends when no element stops it. -/
theorem isSome_mapM_iff : (xs.mapM f).isSome ↔ ∀ x ∈ xs, (f x).isSome := by
  induction xs with
  | nil => exact iff_of_true rfl nofun
  | cons x xs ih =>
      rw [List.forall_mem_cons, ← ih]
      simp only [Option.isSome_iff_exists, mapM_cons_eq_some]
      constructor
      · rintro ⟨_, y, ys, hx, hxs, -⟩
        exact ⟨⟨y, hx⟩, ys, hxs⟩
      · rintro ⟨⟨y, hx⟩, ys, hxs⟩
        exact ⟨_, y, ys, hx, hxs, rfl⟩

end

/-! ### Loops that append -/

/-- **Element by element**: a list that each element adds at most one to is related to
the elements when each has added one that is. -/
theorem forall₂_flatMap {α β : Type} {R : α → β → Prop} {f : α → List β} {xs : List α}
    (h : ∀ x ∈ xs, (f x).length ≤ 1) :
    List.Forall₂ R xs (xs.flatMap f) ↔ ∀ x ∈ xs, ∃ y, f x = [y] ∧ R x y := by
  induction xs with
  | nil => simp
  | cons x xs ih =>
      rw [List.forall_mem_cons] at h ⊢
      rw [← ih h.2, List.flatMap_cons]
      have hlength : (xs.flatMap f).length ≤ xs.length := by
        rw [List.length_flatMap]
        calc (xs.map fun x => (f x).length).sum ≤ (xs.map fun _ => 1).sum :=
              List.sum_le_sum h.2
          _ = xs.length := by simp
      constructor
      · intro hall
        match hx : f x, h.1 with
        | [], _ =>
            rw [hx, List.nil_append] at hall
            have := hall.length_eq
            rw [List.length_cons] at this
            omega
        | [y], _ =>
            rw [hx, List.singleton_append] at hall
            cases hall with
            | cons hy hrest => exact ⟨⟨y, rfl, hy⟩, hrest⟩
        | _ :: _ :: _, hle =>
            rw [List.length_cons, List.length_cons] at hle
            omega
      · rintro ⟨⟨y, hx, hy⟩, hrest⟩
        rw [hx]
        exact .cons hy hrest

/-- A loop that skips elements. -/
theorem flatMap_ite {α β : Type} (p : α → Prop) [DecidablePred p] (f : α → β) (xs : List α) :
    (xs.flatMap fun x => if p x then [f x] else []) = (xs.filter p).map f := by
  induction xs with
  | nil => rfl
  | cons x xs ih =>
      rw [List.flatMap_cons, ih, List.filter_cons]
      by_cases h : p x
      · rw [if_pos h, if_pos (decide_eq_true h)]
        rfl
      · rw [if_neg h, if_neg (by simpa using h)]
        rfl

/-! ### What was given last -/

/-- What is given last, after one more element. -/
theorem getLast?_filterMap_cons {α β : Type} (f : α → Option β) (d : β) (x : α) (xs : List α) :
    ((x :: xs).filterMap f).getLast?.getD d =
      (xs.filterMap f).getLast?.getD ((f x).getD d) := by
  rw [List.filterMap_cons]
  cases f x with
  | none => rfl
  | some y => rw [List.getLast?_cons, Option.getD_some, Option.getD_some]

/-- What is given last, before one more element. -/
theorem getLast?_filterMap_concat {α β : Type} (f : α → Option β) (d : β) (xs : List α) (x : α) :
    ((xs ++ [x]).filterMap f).getLast?.getD d = (f x).getD ((xs.filterMap f).getLast?.getD d) := by
  rw [List.filterMap_append]
  cases hx : f x with
  | none => simp [hx]
  | some y => simp [hx]

end Llmxy
