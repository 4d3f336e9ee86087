import Mathlib.Logic.Function.Basic
import Mathlib.Algebra.Ring.Int.Defs
import Mathlib.Tactic.Common

/-!
# A store whose entries expire

A key holds a value and possibly a deadline, after which the key reads as absent.
An increment keeps the deadline and creates an absent key without one.

Time is an integer and a deadline is an instant, so a read needs the current time
and an entry never has to be collected.

## Main definitions

* `Store`, `Store.get` — a read sees live entries only.
* `Store.set`, `Store.setNX`, `Store.del`, `Store.alter`, `Store.alterOrCreate`.
* `Store.get_le` — what a later time can still read.
-/

namespace Llmxy

universe u v

/-- A value with the instant it expires at. -/
structure Entry (ν : Type v) where
  /-- The value. -/
  value : ν
  /-- The first instant the entry is gone.  `none` means never. -/
  deadline : Option ℤ
  deriving DecidableEq

/-- Is the entry still there at `now`? -/
def Entry.live {ν : Type v} (e : Entry ν) (now : ℤ) : Bool :=
  match e.deadline with
  | none => true
  | some d => decide (now < d)

/-- A live entry reads as its value. -/
theorem Entry.read_of_live {ν : Type v} {e : Entry ν} {now : ℤ} (h : e.live now = true) :
    ((some e).filter (·.live now)).map Entry.value = some e.value := by
  rw [Option.filter_some, if_pos h, Option.map_some]

/-- Keys with values and deadlines. -/
def Store (κ : Type u) (ν : Type v) := κ → Option (Entry ν)

namespace Store
variable {κ : Type u} {ν : Type v}

/-- No keys. -/
def empty : Store κ ν := fun _ => none

/-- The live value of a key. -/
def get (s : Store κ ν) (now : ℤ) (k : κ) : Option ν :=
  ((s k).filter (·.live now)).map Entry.value

/-- A value that is read at some time was there at every earlier time. -/
theorem get_le {s : Store κ ν} {k : κ} {v : ν} {now now' : ℤ} (hle : now ≤ now')
    (h : s.get now' k = some v) : s.get now k = some v := by
  unfold get at h ⊢
  obtain ⟨e, he, rfl⟩ := Option.map_eq_some_iff.mp h
  obtain ⟨hk, hlive⟩ := Option.filter_eq_some_iff.mp he
  have hlive' : e.live now = true := by
    unfold Entry.live at hlive ⊢
    cases hd : e.deadline with
    | none => rfl
    | some d =>
        rw [hd] at hlive
        simp only [decide_eq_true_eq] at hlive ⊢
        omega
  rw [hk, Option.filter_some, if_pos hlive', Option.map_some]

@[simp] theorem get_empty (now : ℤ) (k : κ) : (empty : Store κ ν).get now k = none := rfl

variable [DecidableEq κ]

/-- Replace the entry of one key. -/
def put (s : Store κ ν) (k : κ) (e : Option (Entry ν)) : Store κ ν :=
  fun k' => if k' = k then e else s k'

/-- Write a key with a time to live. -/
def set (s : Store κ ν) (now : ℤ) (k : κ) (v : ν) (ttl : ℤ) : Store κ ν :=
  s.put k (some ⟨v, some (now + ttl)⟩)

/-- Write a key with a time to live unless it is there.  The flag says whether
the write happened. -/
def setNX (s : Store κ ν) (now : ℤ) (k : κ) (v : ν) (ttl : ℤ) : Bool × Store κ ν :=
  match s.get now k with
  | some _ => (false, s)
  | none => (true, s.set now k v ttl)

/-- Remove a key. -/
def del (s : Store κ ν) (k : κ) : Store κ ν := s.put k none

/-- Give a live key a new time to live. -/
def expire (s : Store κ ν) (now : ℤ) (k : κ) (ttl : ℤ) : Store κ ν :=
  match s.get now k with
  | some v => s.set now k v ttl
  | none => s

/-- Change a live key, keeping its deadline. -/
def alter (s : Store κ ν) (now : ℤ) (k : κ) (f : ν → ν) : Store κ ν :=
  match (s k).filter (·.live now) with
  | some e => s.put k (some ⟨f e.value, e.deadline⟩)
  | none => s

/-- Change a live key, keeping its deadline, or create the key from `v₀` without
one. -/
def alterOrCreate (s : Store κ ν) (now : ℤ) (k : κ) (v₀ : ν) (f : ν → ν) : Store κ ν :=
  match (s k).filter (·.live now) with
  | some e => s.put k (some ⟨f e.value, e.deadline⟩)
  | none => s.put k (some ⟨f v₀, none⟩)

section
variable {s : Store κ ν} {now now' ttl : ℤ} {k k' : κ} {v v₀ : ν} {f : ν → ν}
  {e : Option (Entry ν)}

theorem get_put :
    (s.put k e).get now k' =
      if k' = k then (e.filter (·.live now)).map Entry.value else s.get now k' := by
  unfold get put
  by_cases hk : k' = k
  · rw [if_pos hk, if_pos hk]
  · rw [if_neg hk, if_neg hk]

theorem get_set (ht : 0 < ttl) :
    (s.set now k v ttl).get now k' = if k' = k then some v else s.get now k' := by
  have hlive : (⟨v, some (now + ttl)⟩ : Entry ν).live now = true := by
    simp only [Entry.live, decide_eq_true_eq]
    omega
  rw [set, get_put, Entry.read_of_live hlive]

theorem get_set_other (hk : k' ≠ k) : (s.set now k v ttl).get now' k' = s.get now' k' := by
  simp [set, get_put, hk]

@[simp] theorem get_del : (s.del k).get now k' = if k' = k then none else s.get now k' := by
  simp [del, get_put]

/-- What a write can make a key read, at any time. -/
theorem get_set_cases (h : (s.set now k v ttl).get now' k' = some v₀) :
    (k' = k ∧ v₀ = v) ∨ s.get now' k' = some v₀ := by
  rw [set, get_put] at h
  split_ifs at h with hk
  · obtain ⟨e, he, rfl⟩ := Option.map_eq_some_iff.mp h
    obtain ⟨hke, -⟩ := Option.filter_eq_some_iff.mp he
    cases hke
    exact Or.inl ⟨hk, rfl⟩
  · exact Or.inr h

/-- A written key reads as what was written, if it reads at all. -/
theorem get_set_self (h : (s.set now k v ttl).get now' k = some v₀) : v₀ = v := by
  rw [set, get_put, if_pos rfl] at h
  obtain ⟨e, he, rfl⟩ := Option.map_eq_some_iff.mp h
  obtain ⟨hke, -⟩ := Option.filter_eq_some_iff.mp he
  cases hke
  rfl

theorem setNX_of_free (h : s.get now k = none) :
    s.setNX now k v ttl = (true, s.set now k v ttl) := by simp [setNX, h]

theorem setNX_of_held (h : s.get now k = some v₀) : s.setNX now k v ttl = (false, s) := by
  simp [setNX, h]

theorem get_expire (ht : 0 < ttl) : (s.expire now k ttl).get now k' = s.get now k' := by
  unfold expire
  cases h : s.get now k with
  | none => rfl
  | some v =>
      rw [get_set ht]
      split_ifs with hk
      · rw [hk, h]
      · rfl

/-- A new time to live changes no value. -/
theorem get_of_expire (h : (s.expire now k ttl).get now k' = some v) : s.get now k' = some v := by
  cases hk : s.get now k with
  | none => simpa [expire, hk] using h
  | some v' =>
      rw [expire, hk] at h
      rcases get_set_cases h with ⟨rfl, rfl⟩ | h
      · exact hk
      · exact h

theorem get_alter :
    (s.alter now k f).get now k' = if k' = k then (s.get now k).map f else s.get now k' := by
  unfold alter
  cases he : (s k).filter (·.live now) with
  | none =>
      have hnone : s.get now k = none := by simp [get, he]
      split_ifs with hk
      · rw [hk, hnone]; rfl
      · rfl
  | some e =>
      have hsome : s.get now k = some e.value := by simp [get, he]
      have hl : (⟨f e.value, e.deadline⟩ : Entry ν).live now = true :=
        (Option.filter_eq_some_iff.mp he).2
      simp only [get_put, Entry.read_of_live hl, hsome, Option.map_some]

theorem get_alterOrCreate :
    (s.alterOrCreate now k v₀ f).get now k' =
      if k' = k then some (f ((s.get now k).getD v₀)) else s.get now k' := by
  unfold alterOrCreate
  cases he : (s k).filter (·.live now) with
  | none =>
      have hnone : s.get now k = none := by simp [get, he]
      have hl : (⟨f v₀, none⟩ : Entry ν).live now = true := rfl
      simp only [get_put, Entry.read_of_live hl, hnone, Option.getD_none]
  | some e =>
      have hsome : s.get now k = some e.value := by simp [get, he]
      have hl : (⟨f e.value, e.deadline⟩ : Entry ν).live now = true :=
        (Option.filter_eq_some_iff.mp he).2
      simp only [get_put, Entry.read_of_live hl, hsome, Option.getD_some]

end
end Store
end Llmxy
