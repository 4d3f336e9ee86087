import Llmxy.Lib.Json
import Mathlib.Data.List.Forall2
import Mathlib.Data.Option.Basic

/-!
# What the keys of dictionaries hold

Dictionaries are compared by what their keys hold: Python's `==` does not see the order
in which the items were inserted.

## Main definitions

* `Json.lookup_append`, `Json.lookup_cons` — the value of a key, item by item.
* `Json.Same` — the same value, whatever the order of the items.
* `Json.OnlyKeys` — a dictionary without other keys.
* `Json.lookup_without` — a dictionary that a key is removed from.
-/

namespace Llmxy

namespace Json

theorem lookup_nil (key : Str) : lookup key [] = none := rfl

theorem lookup_cons (key : Str) (f : Str × Json) (fs : List (Str × Json)) :
    lookup key (f :: fs) = if f.1 = key then some f.2 else lookup key fs := by
  by_cases h : f.1 = key <;> simp [lookup, h]

theorem lookup_append (key : Str) (fs gs : List (Str × Json)) :
    lookup key (fs ++ gs) = (lookup key fs).or (lookup key gs) := by
  induction fs with
  | nil => rfl
  | cons f fs ih =>
      rw [List.cons_append, lookup_cons, lookup_cons, ih]
      split_ifs <;> rfl

theorem get?_obj (key : Str) (fs : List (Str × Json)) : (obj fs).get? key = lookup key fs :=
  rfl

/-- Only a dictionary holds something under a key. -/
theorem eq_obj_of_get? {key : Str} {v x : Json} (h : v.get? key = some x) : ∃ fs, v = obj fs := by
  cases v with
  | obj fs => exact ⟨fs, rfl⟩
  | _ => cases h

/-- The same value, whatever the order of the items of dictionaries. -/
inductive Same : Json → Json → Prop
  | refl (v : Json) : Same v v
  | arr {xs ys : List Json} : List.Forall₂ Same xs ys → Same (arr xs) (arr ys)
  | obj {fs gs : List (Str × Json)} :
      (∀ key, Option.Rel Same (lookup key fs) (lookup key gs)) → Same (obj fs) (obj gs)

theorem same_arr_iff {xs ys : List Json} : Same (arr xs) (arr ys) ↔ List.Forall₂ Same xs ys := by
  refine ⟨fun h => ?_, .arr⟩
  cases h with
  | refl => exact List.forall₂_same.mpr fun x _ => .refl x
  | arr h => exact h

theorem same_obj_iff {fs gs : List (Str × Json)} : Same (obj fs) (obj gs) ↔
    ∀ key, Option.Rel Same (lookup key fs) (lookup key gs) := by
  refine ⟨fun h key => ?_, .obj⟩
  cases h with
  | refl =>
      cases lookup key fs with
      | none => exact .none
      | some x => exact .some (.refl x)
  | obj h => exact h key

theorem same_str_iff {v : Json} {s : Str} : Same v (str s) ↔ v = str s :=
  ⟨fun h => by cases h; rfl, fun h => h ▸ .refl v⟩

/-- The dictionary has no keys but these. -/
def OnlyKeys (keys : List Str) (v : Json) : Prop := ∀ key, key ∉ keys → v.get? key = none

theorem lookup_eq_none_iff {key : Str} {fs : List (Str × Json)} :
    lookup key fs = none ↔ key ∉ fs.map Prod.fst := by
  induction fs with
  | nil => exact ⟨fun _ => List.not_mem_nil, fun _ => rfl⟩
  | cons f fs ih =>
      rw [lookup_cons, List.map_cons, List.mem_cons, not_or]
      by_cases h : f.1 = key
      · rw [if_pos h]
        exact ⟨nofun, fun hne => absurd h.symm hne.1⟩
      · rw [if_neg h, ih]
        exact ⟨fun hnot => ⟨fun heq => h heq.symm, hnot⟩, fun hnot => hnot.2⟩

theorem lookup_of_mem {f : Str × Json} {fs : List (Str × Json)} (hnew : (fs.map Prod.fst).Nodup)
    (h : f ∈ fs) : lookup f.1 fs = some f.2 := by
  induction fs with
  | nil => cases h
  | cons g fs ih =>
      rw [List.map_cons, List.nodup_cons] at hnew
      rw [lookup_cons]
      rcases List.mem_cons.mp h with rfl | h
      · exact if_pos rfl
      · have hne : g.1 ≠ f.1 := fun heq => hnew.1 (heq ▸ List.mem_map_of_mem h)
        rw [if_neg hne]
        exact ih hnew.2 h

/-- What the keys hold after one is removed. -/
theorem lookup_without (source : Str) (body : List (Str × Json)) (key : Str) :
    lookup key (body.filter fun f => f.1 ≠ source) =
      if key = source then none else lookup key body := by
  induction body with
  | nil => exact (ite_self none).symm
  | cons f fs ih =>
      rw [List.filter_cons, lookup_cons]
      by_cases hf : f.1 = source
      · rw [if_neg (by simp [hf]), ih]
        by_cases hkey : key = source
        · rw [if_pos hkey, if_pos hkey]
        · rw [if_neg hkey, if_neg hkey, if_neg fun h => hkey (h.symm.trans hf)]
      · rw [if_pos (by simp [hf]), lookup_cons, ih]
        by_cases hkey : f.1 = key
        · rw [if_pos hkey, if_pos hkey, if_neg fun h => hf (hkey.trans h)]
        · rw [if_neg hkey, if_neg hkey]

/-- **A dictionary is the same as one that is written out** when each key of that one
holds the same, and it has no other keys. -/
theorem same_written_iff {fs gs : List (Str × Json)} (hnew : (gs.map Prod.fst).Nodup) :
    Same (obj fs) (obj gs) ↔ (∀ g ∈ gs, ∃ x, lookup g.1 fs = some x ∧ Same x g.2) ∧
      OnlyKeys (gs.map Prod.fst) (obj fs) := by
  rw [same_obj_iff]
  constructor
  · intro h
    refine ⟨fun g hg => ?_, fun key hkey => ?_⟩
    · have hrel := h g.1
      rw [lookup_of_mem hnew hg] at hrel
      generalize hx : lookup g.1 fs = x at hrel
      cases hrel with
      | some hrel => exact ⟨_, rfl, hrel⟩
    · have hrel := h key
      rw [lookup_eq_none_iff.mpr hkey] at hrel
      rw [get?_obj]
      generalize lookup key fs = x at hrel ⊢
      cases hrel with
      | none => rfl
  · rintro ⟨hsame, honly⟩ key
    by_cases hkey : key ∈ gs.map Prod.fst
    · obtain ⟨g, hg, rfl⟩ := List.mem_map.mp hkey
      obtain ⟨x, hx, hrel⟩ := hsame g hg
      rw [hx, lookup_of_mem hnew hg]
      exact .some hrel
    · have hnone := honly key hkey
      rw [get?_obj] at hnone
      rw [hnone, lookup_eq_none_iff.mpr hkey]
      exact .none

end Json

end Llmxy
