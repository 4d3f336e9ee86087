import Mathlib.Data.Finset.Card
import Mathlib.Data.List.Nodup
import Mathlib.Tactic.Common

/-!
# Dictionaries in order

An `OrderedDict` lists its entries from the oldest to the newest, one for each key.  Writing a key
that is there keeps its place; `moveToEnd` makes it the newest.

A history of touched keys, the last one first, orders keys by recency.  Where every touch moves its
key to the end, the order of the dictionary is that of recency (`RecentOrder`): the keys after a
key have all been touched since it was, so the oldest key has been passed by all the others.

## Main definitions

* `OrderedDict`, `OrderedDict.get?`, `erase`, `moveToEnd`, `setItem`, `popFirst`.
* `touchedSince` — the keys touched after the last touch of a key.
* `RecentOrder` — keys in the order of recency, `RecentOrder.touch`, `RecentOrder.le_card`.
-/

namespace Llmxy

universe u v

/-- The entries of a dictionary, the oldest first. -/
@[ext] structure OrderedDict (κ : Type u) (ν : Type v) where
  entries : List (κ × ν)
  /-- A key has one entry. -/
  nodup : (entries.map Prod.fst).Nodup

namespace OrderedDict
variable {κ : Type u} {ν : Type v}

/-- The keys, the oldest first. -/
def keys (d : OrderedDict κ ν) : List κ := d.entries.map Prod.fst

/-- `len(d)`. -/
def length (d : OrderedDict κ ν) : ℕ := d.entries.length

/-- No entries. -/
def empty : OrderedDict κ ν := ⟨[], List.nodup_nil⟩

/-- `d.popitem(last=False)`, where there is an entry. -/
def popFirst (d : OrderedDict κ ν) : OrderedDict κ ν :=
  ⟨d.entries.tail, d.nodup.sublist ((List.tail_sublist d.entries).map Prod.fst)⟩

section
variable {d : OrderedDict κ ν} {k : κ} {v : ν}

@[simp] theorem entries_empty : (empty : OrderedDict κ ν).entries = [] := rfl

theorem nodup_keys (d : OrderedDict κ ν) : d.keys.Nodup := d.nodup

theorem length_keys (d : OrderedDict κ ν) : d.keys.length = d.length := List.length_map _

theorem mem_keys : k ∈ d.keys ↔ ∃ v, (k, v) ∈ d.entries := by
  simp [keys]

theorem mem_keys_of_mem (h : (k, v) ∈ d.entries) : k ∈ d.keys := mem_keys.mpr ⟨v, h⟩

@[simp] theorem keys_popFirst : d.popFirst.keys = d.keys.tail := List.map_tail

@[simp] theorem length_popFirst : d.popFirst.length = d.length - 1 := List.length_tail

/-- A key splits the entries at its own. -/
theorem exists_split (h : k ∈ d.keys) : ∃ a v b, d.entries = a ++ (k, v) :: b ∧
    k ∉ a.map Prod.fst ∧ k ∉ b.map Prod.fst := by
  obtain ⟨v, hv⟩ := mem_keys.mp h
  obtain ⟨a, b, hsplit⟩ := List.append_of_mem hv
  have hnodup := d.nodup
  rw [hsplit, List.map_append, List.map_cons, List.nodup_append'] at hnodup
  obtain ⟨-, hb, hdisjoint⟩ := hnodup
  exact ⟨a, v, b, hsplit, fun ha => hdisjoint ha List.mem_cons_self, (List.nodup_cons.mp hb).1⟩

end

variable [DecidableEq κ]

/-- `d.get(key)`. -/
def get? (d : OrderedDict κ ν) (key : κ) : Option ν :=
  (d.entries.find? fun e => e.1 = key).map Prod.snd

/-- `d.pop(key, None)`. -/
def erase (d : OrderedDict κ ν) (key : κ) : OrderedDict κ ν :=
  ⟨d.entries.filter fun e => e.1 ≠ key, d.nodup.sublist (List.filter_sublist.map Prod.fst)⟩

theorem nodup_filter_append {l : List (κ × ν)} (hl : (l.map Prod.fst).Nodup) (key : κ) :
    (((l.filter fun e => e.1 ≠ key) ++ l.filter fun e => e.1 = key).map Prod.fst).Nodup := by
  have hperm : ((l.filter fun e => e.1 ≠ key) ++ l.filter fun e => e.1 = key).Perm l := by
    refine List.perm_append_comm.trans ?_
    simpa using List.filter_append_perm (fun e : κ × ν => decide (e.1 = key)) l
  exact (hperm.map Prod.fst).nodup_iff.mpr hl

/-- `d.move_to_end(key)`, where the key is there. -/
def moveToEnd (d : OrderedDict κ ν) (key : κ) : OrderedDict κ ν :=
  ⟨(d.entries.filter fun e => e.1 ≠ key) ++ d.entries.filter fun e => e.1 = key,
    nodup_filter_append d.nodup key⟩

theorem keys_replaced (l : List (κ × ν)) (key : κ) (value : ν) :
    (l.map fun e => if e.1 = key then (key, value) else e).map Prod.fst = l.map Prod.fst := by
  rw [List.map_map]
  refine List.map_congr_left fun e _ => ?_
  by_cases h : e.1 = key
  · simp [h]
  · simp [h]

theorem nodup_replaced {l : List (κ × ν)} (hl : (l.map Prod.fst).Nodup) (key : κ) (value : ν) :
    ((l.map fun e => if e.1 = key then (key, value) else e).map Prod.fst).Nodup := by
  rw [keys_replaced]
  exact hl

omit [DecidableEq κ] in
theorem nodup_concat {l : List (κ × ν)} (hl : (l.map Prod.fst).Nodup) {key : κ}
    (hkey : key ∉ l.map Prod.fst) (value : ν) : ((l ++ [(key, value)]).map Prod.fst).Nodup := by
  rw [List.map_append, List.map_singleton, ← List.concat_eq_append]
  exact hl.concat hkey

/-- `d[key] = value`: a key that is there keeps its place. -/
def setItem (d : OrderedDict κ ν) (key : κ) (value : ν) : OrderedDict κ ν :=
  if h : key ∈ d.entries.map Prod.fst then
    ⟨d.entries.map fun e => if e.1 = key then (key, value) else e, nodup_replaced d.nodup key value⟩
  else ⟨d.entries ++ [(key, value)], nodup_concat d.nodup h value⟩

section
variable {d : OrderedDict κ ν} {key k : κ} {value v : ν} {e : κ × ν}

/-- What a key reads as is its entry. -/
theorem get?_eq_some : d.get? k = some v ↔ (k, v) ∈ d.entries := by
  obtain ⟨entries, hnodup⟩ := d
  simp only [get?]
  induction entries with
  | nil => simp
  | cons e entries ih =>
      obtain ⟨hnew, hnodup'⟩ := List.nodup_cons.mp hnodup
      by_cases he : e.1 = k
      · have habsent : (k, v) ∉ entries := fun h => hnew (he ▸ List.mem_map_of_mem h)
        obtain ⟨k', v'⟩ := e
        obtain rfl : k' = k := he
        simp [habsent, eq_comm]
      · have hne : (k, v) ≠ e := fun h => he (congrArg Prod.fst h.symm)
        rw [List.find?_cons_of_neg (by simpa using he), ih hnodup', List.mem_cons]
        simp [hne]

theorem get?_eq_none : d.get? k = none ↔ k ∉ d.keys := by
  constructor
  · intro hnone hk
    obtain ⟨v, hv⟩ := mem_keys.mp hk
    rw [get?_eq_some.mpr hv] at hnone
    cases hnone
  · intro hk
    by_contra hsome
    obtain ⟨v, hv⟩ := Option.ne_none_iff_exists'.mp hsome
    exact hk (mem_keys_of_mem (get?_eq_some.mp hv))

@[simp] theorem mem_erase : e ∈ (d.erase key).entries ↔ e ∈ d.entries ∧ e.1 ≠ key := by
  simp [erase]

@[simp] theorem keys_erase : (d.erase key).keys = d.keys.filter (· ≠ key) := by
  simp [erase, keys, List.filter_map, Function.comp_def]

theorem length_erase_le : (d.erase key).length ≤ d.length := List.length_filter_le _ _

@[simp] theorem mem_moveToEnd : e ∈ (d.moveToEnd key).entries ↔ e ∈ d.entries := by
  by_cases he : e.1 = key
  · simp [moveToEnd, he]
  · simp [moveToEnd, he]

@[simp] theorem length_moveToEnd : (d.moveToEnd key).length = d.length := by
  have hperm := List.filter_append_perm (fun e : κ × ν => decide (e.1 = key)) d.entries
  have hlength := hperm.length_eq
  simp only [List.length_append] at hlength
  simp only [length, moveToEnd, List.length_append, ne_eq, decide_not]
  omega

/-- Entries without a key are not changed by filtering it. -/
theorem filter_of_notMem {l : List (κ × ν)} (h : key ∉ l.map Prod.fst) :
    (l.filter fun e => e.1 ≠ key) = l ∧ (l.filter fun e => e.1 = key) = [] := by
  have hne : ∀ e ∈ l, e.1 ≠ key := fun e he heq => h (heq ▸ List.mem_map_of_mem he)
  exact ⟨List.filter_eq_self.mpr fun e he => by simpa using hne e he,
    List.filter_eq_nil_iff.mpr fun e he => by simpa using hne e he⟩

/-- A key has one entry. -/
theorem filter_of_mem (h : (key, v) ∈ d.entries) :
    (d.entries.filter fun e => e.1 = key) = [(key, v)] := by
  obtain ⟨a, v', b, hsplit, ha, hb⟩ := exists_split (mem_keys_of_mem h)
  have hfilter : (d.entries.filter fun e => e.1 = key) = [(key, v')] := by
    rw [hsplit, List.filter_append, (filter_of_notMem ha).2, List.filter_cons_of_pos (by simp),
      (filter_of_notMem hb).2, List.nil_append]
  have hmem : (key, v) ∈ d.entries.filter fun e => e.1 = key :=
    List.mem_filter.mpr ⟨h, by simp⟩
  rw [hfilter, List.mem_singleton] at hmem
  rw [hfilter, hmem]

theorem entries_moveToEnd (h : (key, v) ∈ d.entries) :
    (d.moveToEnd key).entries = (d.erase key).entries ++ [(key, v)] :=
  congrArg ((d.erase key).entries ++ ·) (filter_of_mem h)

theorem keys_moveToEnd (h : key ∈ d.keys) :
    (d.moveToEnd key).keys = d.keys.filter (· ≠ key) ++ [key] := by
  obtain ⟨v, hv⟩ := mem_keys.mp h
  rw [keys, entries_moveToEnd hv, List.map_append, ← keys, keys_erase, List.map_singleton]

/-- A key that is moved to the end, if it is there, and then set is the newest. -/
theorem entries_renewed (d : OrderedDict κ ν) (key : κ) (value : ν) :
    ((if key ∈ d.keys then d.moveToEnd key else d).setItem key value).entries =
      (d.erase key).entries ++ [(key, value)] := by
  by_cases h : key ∈ d.keys
  · obtain ⟨v, hv⟩ := mem_keys.mp h
    have hmoved : key ∈ (d.moveToEnd key).entries.map Prod.fst :=
      List.mem_map_of_mem (mem_moveToEnd.mpr hv)
    have hkept : ∀ e ∈ (d.erase key).entries, (if e.1 = key then (key, value) else e) = e :=
      fun e he => if_neg (mem_erase.mp he).2
    rw [if_pos h, setItem, dif_pos hmoved]
    simp only [entries_moveToEnd hv, List.map_append, List.map_congr_left hkept, List.map_id',
      List.map_singleton, if_true]
  · have habsent : key ∉ d.entries.map Prod.fst := h
    rw [if_neg h, setItem, dif_neg habsent]
    exact congrArg (· ++ [(key, value)]) (filter_of_notMem habsent).1.symm

/-! ### Reads -/

theorem get?_erase : (d.erase key).get? k = if k = key then none else d.get? k := by
  refine Option.ext fun v => ?_
  rw [get?_eq_some, mem_erase]
  split_ifs with hk
  · simp [hk]
  · simp [hk, get?_eq_some]

theorem get?_moveToEnd : (d.moveToEnd key).get? k = d.get? k := by
  refine Option.ext fun v => ?_
  rw [get?_eq_some, get?_eq_some, mem_moveToEnd]

theorem get?_renewed : ((if key ∈ d.keys then d.moveToEnd key else d).setItem key value).get? k =
    if k = key then some value else d.get? k := by
  refine Option.ext fun v => ?_
  rw [get?_eq_some, entries_renewed, List.mem_append, mem_erase, List.mem_singleton]
  split_ifs with hk
  · simp [hk, eq_comm]
  · simp [hk, get?_eq_some]

/-- The oldest entry is the one of its key. -/
theorem popFirst_eq_erase {rest : List (κ × ν)} (h : d.entries = (key, v) :: rest) :
    d.popFirst = d.erase key := by
  have hkey : key ∉ rest.map Prod.fst := by
    have hnodup := d.nodup
    rw [h] at hnodup
    exact (List.nodup_cons.mp hnodup).1
  ext1
  simp only [popFirst, erase, h, List.tail_cons]
  rw [List.filter_cons_of_neg (by simp), (filter_of_notMem hkey).1]

end

end OrderedDict

/-! ### Recency -/

section
variable {κ : Type u} [DecidableEq κ] {ts keys rest : List κ} {key k t : κ}

/-- The keys touched after the last touch of a key.  The last touch comes first. -/
def touchedSince (ts : List κ) (key : κ) : List κ := ts.takeWhile (· ≠ key)

/-- Each key was touched after those before it. -/
def RecentOrder (ts keys : List κ) : Prop :=
  keys.Pairwise fun older newer => newer ∈ touchedSince ts older

theorem touchedSince_cons_of_ne (h : t ≠ key) :
    touchedSince (t :: ts) key = t :: touchedSince ts key := by
  simp [touchedSince, h]

/-- Touching another key adds to what was touched since. -/
theorem card_touchedSince_le (h : t ≠ key) :
    (touchedSince ts key).toFinset.card ≤ (touchedSince (t :: ts) key).toFinset.card := by
  refine Finset.card_le_card fun k hk => ?_
  rw [List.mem_toFinset] at hk ⊢
  rw [touchedSince_cons_of_ne h]
  exact List.mem_cons_of_mem t hk

namespace RecentOrder

theorem sublist (h : RecentOrder ts keys) (hsub : rest.Sublist keys) : RecentOrder ts rest :=
  List.Pairwise.sublist hsub h

/-- A key that is touched becomes the newest. -/
theorem touch (h : RecentOrder ts keys) (key : κ) :
    RecentOrder (key :: ts) (keys.filter (· ≠ key) ++ [key]) := by
  have hne : ∀ k ∈ keys.filter (· ≠ key), key ≠ k := fun k hk heq => by
    simp [heq] at hk
  refine List.pairwise_append.mpr ⟨?_, List.pairwise_singleton _ _, fun k hk k' hk' => ?_⟩
  · refine (h.sublist List.filter_sublist).imp_of_mem fun hk _ hsince => ?_
    rw [touchedSince_cons_of_ne (hne _ hk)]
    exact List.mem_cons_of_mem key hsince
  · rw [List.mem_singleton.mp hk', touchedSince_cons_of_ne (hne k hk)]
    exact List.mem_cons_self

/-- The oldest key has been passed by all the others. -/
theorem le_card (h : RecentOrder ts (k :: rest)) (hnodup : rest.Nodup) :
    rest.length ≤ (touchedSince ts k).toFinset.card := by
  rw [← List.toFinset_card_of_nodup hnodup]
  refine Finset.card_le_card fun k' hk' => ?_
  rw [List.mem_toFinset] at hk' ⊢
  exact (List.pairwise_cons.mp h).1 k' hk'

end RecentOrder
end

end Llmxy
