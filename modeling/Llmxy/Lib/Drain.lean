import Mathlib.Algebra.Order.Group.Defs
import Mathlib.Algebra.BigOperators.Group.List.Basic
import Mathlib.Algebra.Order.BigOperators.Group.List
import Mathlib.Algebra.Order.Group.Unbundled.Basic
import Mathlib.Tactic.Abel

/-!
# Draining sources greedily

An amount is met from an ordered list of sources: each source in turn gives as
much as it holds, until the amount is met.  `drain` lists what was taken from
whom, and `shortfall` is what no source could cover.

The amounts live in any linearly ordered additive commutative group.

## Main definitions

* `drain sources amount` — the source and the amount of each deduction.
* `shortfall sources amount` — the part the sources do not cover.
* `sum_drain_add_shortfall` — nothing is lost.
* `drain_of_lt`, `drain_of_le` — the first source covers the amount, or is
  emptied.
* `mem_drain_of_later` — a source is asked only when those before it are empty.
-/

namespace Llmxy

universe u v
variable {κ : Type u} {α : Type v} [AddCommGroup α] [LinearOrder α]

/-- Take from each source in turn as much as it holds, until the amount is met.
A source that gives nothing is not listed. -/
def drain : List (κ × α) → α → List (κ × α)
  | [], _ => []
  | (k, cap) :: rest, amount =>
      if amount ≤ 0 then []
      else if min cap amount ≤ 0 then drain rest amount
      else (k, min cap amount) :: drain rest (amount - min cap amount)

/-- What is left of the amount when every source has been asked. -/
def shortfall : List (κ × α) → α → α
  | [], amount => amount
  | (_, cap) :: rest, amount =>
      if amount ≤ 0 then amount
      else if min cap amount ≤ 0 then shortfall rest amount
      else shortfall rest (amount - min cap amount)

@[simp] theorem drain_nil (a : α) : drain ([] : List (κ × α)) a = [] := rfl
@[simp] theorem shortfall_nil (a : α) : shortfall ([] : List (κ × α)) a = a := rfl

/-- Every listed deduction is positive. -/
theorem drain_pos : ∀ (l : List (κ × α)) (a : α), ∀ d ∈ drain l a, 0 < d.2 := by
  intro l
  induction l with
  | nil => intro a d hd; cases hd
  | cons s l ih =>
      obtain ⟨k, cap⟩ := s
      intro a d hd
      unfold drain at hd
      split_ifs at hd with ha hm
      · cases hd
      · exact ih a d hd
      · rcases List.mem_cons.mp hd with rfl | hd
        · exact not_le.mp hm
        · exact ih _ d hd

/-- **Nothing is lost**: the deductions and the shortfall add up to the amount. -/
theorem sum_drain_add_shortfall (l : List (κ × α)) (a : α) :
    ((drain l a).map Prod.snd).sum + shortfall l a = a := by
  induction l generalizing a with
  | nil => simp
  | cons s l ih =>
      obtain ⟨k, cap⟩ := s
      unfold drain shortfall
      split_ifs with ha hm
      · simp
      · exact ih a
      · rw [List.map_cons, List.sum_cons, add_assoc, ih]
        abel

/-- A met amount asks nobody. -/
theorem drain_of_nonpos (l : List (κ × α)) {a : α} (ha : a ≤ 0) :
    drain l a = [] ∧ shortfall l a = a := by
  cases l with
  | nil => exact ⟨rfl, rfl⟩
  | cons s l => obtain ⟨k, cap⟩ := s; simp [drain, shortfall, ha]

/-- The first source is emptied. -/
theorem drain_of_le {k : κ} {cap a : α} (l : List (κ × α)) (hc : 0 < cap) (h : cap ≤ a) :
    drain ((k, cap) :: l) a = (k, cap) :: drain l (a - cap) ∧
      shortfall ((k, cap) :: l) a = shortfall l (a - cap) := by
  have hmin : min cap a = cap := min_eq_left h
  have ha : 0 < a := lt_of_lt_of_le hc h
  simp [drain, shortfall, hmin, not_le.mpr ha, not_le.mpr hc]

/-- The first source covers the amount with something to spare. -/
theorem drain_of_lt {k : κ} {cap a : α} (l : List (κ × α)) (ha : 0 < a) (h : a < cap) :
    drain ((k, cap) :: l) a = [(k, a)] ∧ shortfall ((k, cap) :: l) a = 0 := by
  have hmin : min cap a = a := min_eq_right h.le
  have hrest := drain_of_nonpos l (le_refl (0 : α))
  simp [drain, shortfall, hmin, not_le.mpr ha, hrest.1, hrest.2]

/-- What no source covers is what they do not hold together. -/
theorem shortfall_of_pos {l : List (κ × α)} {a : α} (hcap : ∀ s ∈ l, 0 ≤ s.2)
    (h : 0 < shortfall l a) : shortfall l a = a - (l.map Prod.snd).sum := by
  induction l generalizing a with
  | nil => simp
  | cons s l ih =>
      obtain ⟨k, cap⟩ := s
      have hcap' := fun s hs => hcap s (List.mem_cons_of_mem _ hs)
      have hnonneg : 0 ≤ cap := hcap (k, cap) List.mem_cons_self
      unfold shortfall at h ⊢
      split_ifs at h ⊢ with ha hm
      · exact absurd h (not_lt.mpr ha)
      · have hzero : cap = 0 := by
          rcases min_le_iff.mp hm with hle | hle
          · exact le_antisymm hle hnonneg
          · exact absurd hle ha
        rw [ih hcap' h, List.map_cons, List.sum_cons, hzero, zero_add]
      · rcases le_total cap a with hle | hle
        · rw [min_eq_left hle] at h ⊢
          rw [ih hcap' h, List.map_cons, List.sum_cons, sub_sub]
        · rw [min_eq_right hle, sub_self, (drain_of_nonpos l (le_refl (0 : α))).2] at h
          exact absurd h (lt_irrefl 0)

section Ordered
variable [IsOrderedAddMonoid α]

theorem shortfall_nonneg (l : List (κ × α)) {a : α} (ha : 0 ≤ a) : 0 ≤ shortfall l a := by
  induction l generalizing a with
  | nil => exact ha
  | cons s l ih =>
      obtain ⟨k, cap⟩ := s
      unfold shortfall
      split_ifs
      · exact ha
      · exact ih ha
      · exact ih (sub_nonneg.mpr (min_le_right cap a))

theorem sum_map_nonneg {β : Type u} {l : List β} {f : β → α} (h : ∀ b ∈ l, 0 ≤ f b) :
    0 ≤ (l.map f).sum := by
  refine List.sum_nonneg fun a ha => ?_
  obtain ⟨b, hb, rfl⟩ := List.mem_map.mp ha
  exact h b hb

/-- What the sources hold and the shortfall cover the amount. -/
theorem le_sum_add_shortfall {l : List (κ × α)} (hcap : ∀ s ∈ l, 0 ≤ s.2) (a : α) :
    a ≤ (l.map Prod.snd).sum + shortfall l a := by
  induction l generalizing a with
  | nil => simp
  | cons s l ih =>
      obtain ⟨k, cap⟩ := s
      have hcap' : ∀ s ∈ l, 0 ≤ s.2 := fun s hs => hcap s (List.mem_cons_of_mem _ hs)
      have hnonneg : 0 ≤ cap := hcap (k, cap) List.mem_cons_self
      have hrest : 0 ≤ (l.map Prod.snd).sum := sum_map_nonneg hcap'
      rw [List.map_cons, List.sum_cons, shortfall]
      split_ifs
      · exact le_add_of_nonneg_left (add_nonneg hnonneg hrest)
      · calc a ≤ (l.map Prod.snd).sum + shortfall l a := ih hcap' a
          _ ≤ cap + (l.map Prod.snd).sum + shortfall l a := by
            rw [add_assoc]
            exact le_add_of_nonneg_left hnonneg
      · have hle := ih hcap' (a - min cap a)
        rw [sub_le_iff_le_add] at hle
        calc a ≤ (l.map Prod.snd).sum + shortfall l (a - min cap a) + min cap a := hle
          _ ≤ (l.map Prod.snd).sum + shortfall l (a - min cap a) + cap :=
            add_le_add_right (min_le_left cap a) _
          _ = cap + (l.map Prod.snd).sum + shortfall l (a - min cap a) := by abel

end Ordered

/-- Every deduction comes from a listed source and is at most what it holds. -/
theorem exists_of_mem_drain : ∀ {l : List (κ × α)} {a : α} {d : κ × α}, d ∈ drain l a →
    ∃ s ∈ l, s.1 = d.1 ∧ d.2 ≤ s.2 := by
  intro l
  induction l with
  | nil => intro a d hd; cases hd
  | cons s l ih =>
      obtain ⟨k, cap⟩ := s
      intro a d hd
      unfold drain at hd
      split_ifs at hd with ha hm
      · cases hd
      · obtain ⟨s, hs, h⟩ := ih hd
        exact ⟨s, List.mem_cons_of_mem _ hs, h⟩
      · rcases List.mem_cons.mp hd with rfl | hd
        · exact ⟨(k, cap), List.mem_cons_self, rfl, min_le_left _ _⟩
        · obtain ⟨s, hs, h⟩ := ih hd
          exact ⟨s, List.mem_cons_of_mem _ hs, h⟩

/-- The drained sources keep their order. -/
theorem drain_keys_sublist (l : List (κ × α)) (a : α) :
    ((drain l a).map Prod.fst).Sublist (l.map Prod.fst) := by
  induction l generalizing a with
  | nil => exact List.Sublist.refl _
  | cons s l ih =>
      obtain ⟨k, cap⟩ := s
      unfold drain
      split_ifs
      · exact List.nil_sublist _
      · exact (ih a).cons k
      · exact (ih _).cons_cons k

/-! ### Order -/

/-- The sources that come first are asked first. -/
theorem drain_append (l l' : List (κ × α)) (a : α) :
    drain (l ++ l') a = drain l a ++ drain l' (shortfall l a) := by
  induction l generalizing a with
  | nil => simp
  | cons s l ih =>
      obtain ⟨k, cap⟩ := s
      simp only [List.cons_append, drain, shortfall]
      split_ifs with ha hm
      · rw [(drain_of_nonpos l' ha).1, List.append_nil]
      · exact ih a
      · rw [ih, List.cons_append]

/-- Sources that do not cover the amount are all emptied. -/
theorem drain_eq_self {l : List (κ × α)} {a : α} (hcap : ∀ s ∈ l, 0 < s.2)
    (h : 0 < shortfall l a) : drain l a = l := by
  induction l generalizing a with
  | nil => simp
  | cons s l ih =>
      obtain ⟨k, cap⟩ := s
      have hpos : 0 < cap := hcap (k, cap) List.mem_cons_self
      have hcap' : ∀ s ∈ l, 0 < s.2 := fun s hs => hcap s (List.mem_cons_of_mem _ hs)
      have ha : 0 < a := by
        by_contra hle
        rw [(drain_of_nonpos _ (not_lt.mp hle)).2] at h
        exact hle h
      obtain hle | hlt := le_or_gt cap a
      · obtain ⟨hdrain, hshort⟩ := drain_of_le (k := k) l hpos hle
        rw [hshort] at h
        rw [hdrain, ih hcap' h]
      · rw [(drain_of_lt (k := k) l ha hlt).2] at h
        exact absurd h (lt_irrefl 0)

/-- **A source is asked only when those before it are empty.** -/
theorem mem_drain_of_later {l l' : List (κ × α)} {a : α} {d s : κ × α} (hcap : ∀ s ∈ l, 0 < s.2)
    (hd : d ∈ drain (l ++ l') a) (hlater : d.1 ∉ l.map Prod.fst) (hs : s ∈ l) :
    s ∈ drain (l ++ l') a := by
  rw [drain_append, List.mem_append] at hd ⊢
  obtain hd | hd := hd
  · exact absurd ((drain_keys_sublist l a).subset (List.mem_map_of_mem hd)) hlater
  · have hleft : 0 < shortfall l a := by
      by_contra hle
      rw [(drain_of_nonpos l' (not_lt.mp hle)).1] at hd
      cases hd
    rw [drain_eq_self hcap hleft]
    exact .inl hs

section Keys
variable [DecidableEq κ]

omit [LinearOrder α] in
/-- What is taken from a source is its entry, where the keys are distinct. -/
theorem sum_filter_key {ds : List (κ × α)} (hnodup : (ds.map Prod.fst).Nodup) {d : κ × α}
    (hd : d ∈ ds) : ((ds.filter fun x => x.1 = d.1).map Prod.snd).sum = d.2 := by
  induction ds with
  | nil => cases hd
  | cons x ds ih =>
      obtain ⟨hnew, hnodup'⟩ := List.nodup_cons.mp hnodup
      obtain rfl | hd := List.mem_cons.mp hd
      · have hrest : (ds.filter fun x => x.1 = d.1) = [] := by
          rw [List.filter_eq_nil_iff]
          intro x hx heq
          exact hnew (of_decide_eq_true heq ▸ List.mem_map_of_mem hx)
        simp [hrest]
      · have hne : x.1 ≠ d.1 := by
          intro heq
          exact hnew (heq ▸ List.mem_map_of_mem hd)
        simp [hne, ih hnodup' hd]

/-- Nothing is taken from a key that is no source. -/
theorem filter_drain_eq_nil {l : List (κ × α)} {k : κ} (h : k ∉ l.map Prod.fst) (a : α) :
    ((drain l a).filter fun d => d.1 = k) = [] := by
  refine List.filter_eq_nil_iff.mpr ?_
  intro d hd hk
  rw [decide_eq_true_eq] at hk
  exact h (hk ▸ (drain_keys_sublist l a).subset (List.mem_map_of_mem hd))

/-- **No source gives more than it holds**, where the keys are distinct. -/
theorem sum_drained_le {l : List (κ × α)} (hnodup : (l.map Prod.fst).Nodup) {s : κ × α}
    (hs : s ∈ l) (h0 : 0 ≤ s.2) (a : α) :
    (((drain l a).filter fun d => d.1 = s.1).map Prod.snd).sum ≤ s.2 := by
  induction l generalizing a with
  | nil => cases hs
  | cons head l ih =>
      obtain ⟨k, cap⟩ := head
      obtain ⟨hnotMem, hnodup'⟩ := List.nodup_cons.mp hnodup
      unfold drain
      rcases List.mem_cons.mp hs with rfl | htail
      · split_ifs with ha hm
        · exact h0
        · rw [filter_drain_eq_nil hnotMem]
          exact h0
        · rw [List.filter_cons_of_pos (by simp), filter_drain_eq_nil hnotMem]
          simp
      · have hne : k ≠ s.1 := by
          intro hk
          exact hnotMem (List.mem_map.mpr ⟨s, htail, hk.symm⟩)
        split_ifs with ha hm
        · exact h0
        · exact ih hnodup' htail a
        · rw [List.filter_cons_of_neg (by simpa using hne)]
          exact ih hnodup' htail _

end Keys

end Llmxy
