import Llmxy.Providers.Router
import Mathlib.Order.Interval.Set.Basic
import Mathlib.Tactic.Linarith

/-!
# Drawing a target by its weight

A draw between zero and the total of the weights falls on the first target whose running total
reaches it.  The draws that fall on a target form one interval, which begins where that of the
target before ends.  Two things keep its length from being the weight of the target, or a draw
from falling on a target that has one: a draw of zero falls on the first target whatever its
weight, and the running total is a binary64 number.

## Main definitions

* `pickedAt` — the position that a draw falls on.
* `IsInterval` — the rationals of a set are one interval of a length.
* `TotalsExact` — the rounding of the running total does not matter.
* `weightedPick_iff` — when the draws follow the weights.
-/

namespace Llmxy

/-- A set of rationals is an interval of this length, with or without its end points. -/
def IsInterval (s : Set ℚ) (length : ℚ) : Prop :=
  0 ≤ length ∧ ∃ a, Set.Ioo a (a + length) ⊆ s ∧ s ⊆ Set.Icc a (a + length)

/-- An interval has one length. -/
theorem IsInterval.length_unique {s : Set ℚ} {x y : ℚ} (hx : IsInterval s x)
    (hy : IsInterval s y) : x = y := by
  have hle : ∀ {x y : ℚ}, IsInterval s x → IsInterval s y → x ≤ y := by
    intro x y ⟨_, a, hin, _⟩ ⟨hy, b, _, hout⟩
    by_contra! hlt
    -- two points of the longer interval that are further apart than the shorter one is long
    have hsub : Set.Ioo a (a + x) ⊆ Set.Icc b (b + y) := hin.trans hout
    have hlow := hsub (show a + (x - y) / 4 ∈ Set.Ioo a (a + x) by constructor <;> linarith)
    have hhigh := hsub (show a + x - (x - y) / 4 ∈ Set.Ioo a (a + x) by constructor <;> linarith)
    linarith [hlow.1, hhigh.2]
  exact le_antisymm (hle hx hy) (hle hy hx)

section
variable {α β : Type} {weight : α → ℤ} {pairs : List α} {draw : ℚ} {i : ℕ}

/-- The position of the pair that a draw falls on. -/
def pickedAt (draw : ℚ) (weight : α → ℤ) (pairs : List α) : Option ℕ :=
  (weightedPick draw (fun q : α × ℕ => weight q.1) pairs.zipIdx).map Prod.snd

/-- The binary64 total of the first `i` weights. -/
def runningTotal (weight : α → ℤ) (pairs : List α) (i : ℕ) : ℕ :=
  sumBinary64 ((pairs.take i).map fun p => (weight p).toNat)

/-- The running totals are exact, as far as they do not exceed the total. -/
def TotalsExact (weight : α → ℤ) (pairs : List α) : Prop :=
  ∀ i < pairs.length,
    min (runningTotal weight pairs i) (totalWeight weight pairs) =
      totalWeight weight (pairs.take i)

/-- Totals of at most 53 bits are exact. -/
theorem totalsExact_of_lt (h : totalWeight weight pairs < 2 ^ precision) :
    TotalsExact weight pairs := by
  intro i _
  have hle : totalWeight weight (pairs.take i) ≤ totalWeight weight pairs :=
    ((List.take_sublist i pairs).map _).sum_le_sum fun _ _ => Nat.zero_le _
  have hexact : runningTotal weight pairs i = totalWeight weight (pairs.take i) :=
    sumBinary64_eq_sum (lt_of_le_of_lt hle h)
  omega

/-! ### Positions -/

/-- A pick does not look at what it picks among, only at the weights. -/
theorem pickReaching_map (f : β → α) (acc : ℕ) (l : List β) :
    pickReaching draw weight acc (l.map f) =
      (pickReaching draw (fun b => weight (f b)) acc l).map f := by
  induction l generalizing acc with
  | nil => rfl
  | cons b l ih =>
      simp only [List.map_cons, pickReaching]
      split
      · rfl
      · exact ih _

theorem totalWeight_map (f : β → α) (l : List β) :
    totalWeight weight (l.map f) = totalWeight (fun b => weight (f b)) l := by
  simp [totalWeight, Function.comp_def]

theorem weightedPick_map (draw : ℚ) (weight : α → ℤ) (f : β → α) (l : List β) :
    weightedPick draw weight (l.map f) =
      (weightedPick draw (fun b => weight (f b)) l).map f := by
  rw [weightedPick, weightedPick, totalWeight_map, pickReaching_map, List.head?_map,
    List.getLast?_map]
  split
  · rfl
  · cases pickReaching draw (fun b => weight (f b)) 0 l <;> simp

/-- The pair that is picked is the one at the position that the draw falls on. -/
theorem weightedPick_eq_getElem? (draw : ℚ) (weight : α → ℤ) (pairs : List α) :
    weightedPick draw weight pairs = (pickedAt draw weight pairs).bind (pairs[·]?) := by
  have hmap := weightedPick_map draw weight Prod.fst pairs.zipIdx
  rw [List.zipIdx_map_fst] at hmap
  rw [hmap, pickedAt]
  cases hpick : weightedPick draw (fun q : α × ℕ => weight q.1) pairs.zipIdx with
  | none => rfl
  | some q =>
      have hmem := List.mem_zipIdx_iff_getElem?.mp (weightedPick_mem hpick)
      simpa using hmem.symm

/-- The total of the first `i` weights, from one that was reached before. -/
def totalFrom (weight : α → ℤ) (acc : ℕ) (pairs : List α) (i : ℕ) : ℕ :=
  ((pairs.take i).map fun p => (weight p).toNat).foldl addBinary64 acc

theorem totalFrom_cons (a : α) (acc : ℕ) : totalFrom weight acc (a :: pairs) (i + 1) =
    totalFrom weight (addBinary64 acc (weight a).toNat) pairs i := rfl

theorem le_totalFrom {acc : ℕ} (h : toBinary64 acc = acc) : acc ≤ totalFrom weight acc pairs i :=
  le_foldl_addBinary64 h

/-- A draw falls on a position of the loop when its total reaches the draw, and that of the
position before does not. -/
theorem pickReaching_zipIdx {acc n : ℕ} (hacc : toBinary64 acc = acc) :
    (pickReaching draw (fun q : α × ℕ => weight q.1) acc (pairs.zipIdx n)).map Prod.snd =
        some (n + i) ↔
      i < pairs.length ∧ draw ≤ totalFrom weight acc pairs (i + 1) ∧
        (0 < i → totalFrom weight acc pairs i < draw) := by
  induction pairs generalizing acc n i with
  | nil => simp [pickReaching]
  | cons a l ih =>
      have hnext := toBinary64_addBinary64 acc (weight a).toNat
      simp only [List.zipIdx_cons, pickReaching, totalFrom_cons]
      split_ifs with hreach
      · simp only [Option.map_some, Option.some.injEq]
        cases i with
        | zero => simpa [totalFrom] using hreach
        | succ i =>
            have hle : (addBinary64 acc (weight a).toNat : ℚ) ≤ totalFrom weight _ l i :=
              Nat.cast_le.mpr (le_totalFrom hnext)
            refine iff_of_false (by omega) fun h => ?_
            exact absurd (h.2.2 (by omega)) (not_lt.mpr (hreach.trans hle))
      · cases i with
        | zero =>
            refine iff_of_false (fun h => ?_) fun h => hreach h.2.1
            obtain ⟨q, hq, hqn⟩ := Option.map_eq_some_iff.mp h
            have hmem := List.le_snd_of_mem_zipIdx (pickReaching_mem hq)
            omega
        | succ i =>
            rw [show n + (i + 1) = n + 1 + i by omega, ih hnext, totalFrom_cons, List.length_cons]
            cases i with
            | zero => simp [totalFrom, not_le.mp hreach]
            | succ i => simp

/-- Totals do not shrink. -/
theorem totalFrom_mono {acc j : ℕ} (hacc : toBinary64 acc = acc) (h : i ≤ j) :
    totalFrom weight acc pairs i ≤ totalFrom weight acc pairs j := by
  induction pairs generalizing acc i j with
  | nil => simp [totalFrom]
  | cons a l ih =>
      cases i with
      | zero => exact le_totalFrom hacc
      | succ i =>
          cases j with
          | zero => omega
          | succ j => exact ih (toBinary64_addBinary64 acc _) (Nat.le_of_succ_le_succ h)

/-- Where the loop finds nothing, no total reaches the draw. -/
theorem totalFrom_lt_of_eq_none {acc : ℕ} (h : pickReaching draw weight acc pairs = none)
    (hi : i < pairs.length) : totalFrom weight acc pairs (i + 1) < draw := by
  induction pairs generalizing acc i with
  | nil => simp at hi
  | cons a l ih =>
      simp only [pickReaching] at h
      split at h
      · cases h
      · next hreach =>
          cases i with
          | zero => exact not_le.mp hreach
          | succ i => exact ih h (by simpa using hi)

theorem runningTotal_eq : runningTotal weight pairs i = totalFrom weight 0 pairs i := rfl

theorem toBinary64_zero : toBinary64 0 = 0 := toBinary64_of_lt (Nat.two_pow_pos _)

/-- Where the draws of a position begin: those of the last one end at the total. -/
def cut (weight : α → ℤ) (pairs : List α) (i : ℕ) : ℕ :=
  if i < pairs.length then min (runningTotal weight pairs i) (totalWeight weight pairs)
  else totalWeight weight pairs

theorem cut_le (weight : α → ℤ) (pairs : List α) (i : ℕ) :
    cut weight pairs i ≤ totalWeight weight pairs := by
  rw [cut]
  split
  · exact Nat.min_le_right _ _
  · exact le_rfl

theorem cut_zero : cut weight pairs 0 = 0 := by
  cases pairs with
  | nil => rfl
  | cons a l => simp [cut, runningTotal, sumBinary64]

theorem cut_mono (weight : α → ℤ) (pairs : List α) (i : ℕ) :
    cut weight pairs i ≤ cut weight pairs (i + 1) := by
  by_cases hnext : i + 1 < pairs.length
  · have hmono : runningTotal weight pairs i ≤ runningTotal weight pairs (i + 1) :=
      totalFrom_mono toBinary64_zero (Nat.le_succ i)
    simp only [cut, hnext, (by omega : i < pairs.length), if_true]
    omega
  · rw [cut, cut, if_neg hnext]
    exact cut_le weight pairs i

/-- A draw up to the total is compared with a cut as with the running total. -/
theorem le_cut_iff (hle : draw ≤ totalWeight weight pairs) (hi : i < pairs.length) :
    draw ≤ cut weight pairs i ↔ draw ≤ runningTotal weight pairs i := by
  rw [cut, if_pos hi, Nat.cast_min, le_min_iff, and_iff_left hle]

theorem totalWeight_zipIdx (weight : α → ℤ) (pairs : List α) (n : ℕ) :
    totalWeight (fun q : α × ℕ => weight q.1) (pairs.zipIdx n) = totalWeight weight pairs := by
  rw [← totalWeight_map Prod.fst (pairs.zipIdx n), List.zipIdx_map_fst]

/-- **The draws that fall on a position** are those between its cut and the next one. -/
theorem pickedAt_eq_some (hpos : 0 < totalWeight weight pairs)
    (hle : draw ≤ totalWeight weight pairs) :
    pickedAt draw weight pairs = some i ↔
      i < pairs.length ∧ (0 < i → cut weight pairs i < draw) ∧
        draw ≤ cut weight pairs (i + 1) := by
  have hne : pairs ≠ [] := by
    rintro rfl
    simp [totalWeight] at hpos
  have hlast : cut weight pairs pairs.length = totalWeight weight pairs := by simp [cut]
  rw [pickedAt, weightedPick, totalWeight_zipIdx, if_neg (by omega)]
  cases hpick : pickReaching draw (fun q : α × ℕ => weight q.1) 0 pairs.zipIdx with
  | none =>
      have hlt : ∀ k < pairs.length, runningTotal weight pairs (k + 1) < draw := by
        intro k hk
        have hnone := hpick
        rw [← Option.map_eq_none_iff (f := Prod.fst),
          ← pickReaching_map, List.zipIdx_map_fst] at hnone
        exact totalFrom_lt_of_eq_none hnone hk
      have hlen := List.length_pos_iff.mpr hne
      have hpicked : pairs.zipIdx.getLast?.map Prod.snd = some (pairs.length - 1) := by
        rw [List.getLast?_eq_getElem?]
        simp [hlen]
      rw [Option.none_or, hpicked, Option.some.injEq]
      constructor
      · intro heq
        refine ⟨by omega, fun h0 => ?_, by rw [← heq, Nat.sub_add_cancel hlen, hlast]; exact hle⟩
        rw [← not_le, le_cut_iff hle (by omega), not_le]
        have hprev := hlt (i - 1) (by omega)
        rwa [Nat.sub_add_cancel h0] at hprev
      · rintro ⟨hi, -, hreach⟩
        by_contra hne
        rw [le_cut_iff hle (by omega)] at hreach
        exact absurd hreach (not_le.mpr (hlt i hi))
  | some q =>
      obtain ⟨hj, hreach, hbefore⟩ := (pickReaching_zipIdx (n := 0) (i := q.2) toBinary64_zero).mp
        (by rw [hpick, Nat.zero_add]; rfl)
      simp only [← runningTotal_eq] at hreach hbefore
      rw [Option.some_or, Option.map_some, Option.some.injEq]
      constructor
      · rintro rfl
        refine ⟨hj, fun h0 => ?_, ?_⟩
        · rw [← not_le, le_cut_iff hle hj, not_le]
          exact hbefore h0
        · obtain hnext | heq : q.2 + 1 < pairs.length ∨ q.2 + 1 = pairs.length := by omega
          · exact (le_cut_iff hle hnext).mpr hreach
          · rw [heq, hlast]
            exact hle
      · rintro ⟨hi, hcut, hnext⟩
        obtain hlt | heq | hgt := lt_trichotomy i q.2
        · -- a total before that of the position would reach the draw
          rw [le_cut_iff hle (by omega)] at hnext
          have hmono : runningTotal weight pairs (i + 1) ≤ runningTotal weight pairs q.2 :=
            totalFrom_mono toBinary64_zero hlt
          have hreach := hnext.trans (Nat.cast_le.mpr hmono)
          exact absurd hreach (not_le.mpr (hbefore (by omega)))
        · exact heq.symm
        · have hmono : runningTotal weight pairs (q.2 + 1) ≤ runningTotal weight pairs i :=
            totalFrom_mono toBinary64_zero hgt
          have hreach := (le_cut_iff hle hi).mpr (hreach.trans (Nat.cast_le.mpr hmono))
          exact absurd hreach (not_le.mpr (hcut (by omega)))

/-! ### When the draws follow the weights -/

/-- The draws between zero and the total that fall on a position. -/
def drawsOf (weight : α → ℤ) (pairs : List α) (i : ℕ) : Set ℚ :=
  {draw | 0 ≤ draw ∧ draw ≤ totalWeight weight pairs ∧ pickedAt draw weight pairs = some i}

/-- The draws of a position are an interval, from its cut to the next one. -/
theorem isInterval_drawsOf (hpos : 0 < totalWeight weight pairs) (hi : i < pairs.length) :
    IsInterval (drawsOf weight pairs i)
      (cut weight pairs (i + 1) - cut weight pairs i : ℚ) := by
  have hmono : (cut weight pairs i : ℚ) ≤ cut weight pairs (i + 1) :=
    Nat.cast_le.mpr (cut_mono weight pairs i)
  have hle : (cut weight pairs (i + 1) : ℚ) ≤ totalWeight weight pairs :=
    Nat.cast_le.mpr (cut_le weight pairs (i + 1))
  have hnonneg : (0 : ℚ) ≤ cut weight pairs i := Nat.cast_nonneg _
  refine ⟨by linarith, cut weight pairs i, fun draw hdraw => ?_, fun draw hdraw => ?_⟩
  · rw [add_sub_cancel] at hdraw
    have htotal := hdraw.2.le.trans hle
    refine ⟨hnonneg.trans hdraw.1.le, htotal, ?_⟩
    exact (pickedAt_eq_some hpos htotal).mpr ⟨hi, fun _ => hdraw.1, hdraw.2.le⟩
  · rw [add_sub_cancel]
    obtain ⟨h0, htotal, hpicked⟩ := hdraw
    obtain ⟨-, hcut, hnext⟩ := (pickedAt_eq_some hpos htotal).mp hpicked
    refine ⟨?_, hnext⟩
    obtain rfl | h := Nat.eq_zero_or_pos i
    · rw [cut_zero]
      exact h0
    · exact (hcut h).le

theorem totalWeight_take_succ (hi : i < pairs.length) :
    totalWeight weight (pairs.take (i + 1)) =
      totalWeight weight (pairs.take i) + (weight pairs[i]).toNat := by
  rw [totalWeight, totalWeight, List.map_take, List.map_take,
    List.sum_take_succ _ _ (by simpa using hi), List.getElem_map]

/-- All cuts are the exact totals when the running totals are exact. -/
theorem TotalsExact.cut_eq (h : TotalsExact weight pairs) (i : ℕ) :
    cut weight pairs i = totalWeight weight (pairs.take i) := by
  rw [cut]
  split
  · next hi => exact h i hi
  · next hi => rw [List.take_of_length_le (by omega)]

/-- The intervals have the weights as their lengths exactly when the totals are exact. -/
theorem isInterval_weight_iff (hpos : 0 < totalWeight weight pairs) :
    (∀ i (hi : i < pairs.length),
      IsInterval (drawsOf weight pairs i) ((weight pairs[i]).toNat : ℚ)) ↔
        TotalsExact weight pairs := by
  constructor
  · intro h
    -- the intervals before a position have the lengths of the weights before it
    have hcut : ∀ i ≤ pairs.length, cut weight pairs i = totalWeight weight (pairs.take i) := by
      intro i
      induction i with
      | zero =>
          intro _
          rw [cut_zero, List.take_zero]
          rfl
      | succ i ih =>
          intro hi
          have hlength := (h i hi).length_unique (isInterval_drawsOf hpos hi)
          have hsum : (cut weight pairs (i + 1) : ℚ) =
              cut weight pairs i + (weight pairs[i]).toNat := by linarith
          rw [totalWeight_take_succ hi, ← ih (by omega)]
          exact_mod_cast hsum
    intro i hi
    rw [← hcut i hi.le, cut, if_pos hi]
  · intro h i hi
    have hlength : ((weight pairs[i]).toNat : ℚ) =
        cut weight pairs (i + 1) - cut weight pairs i := by
      rw [h.cut_eq, h.cut_eq, totalWeight_take_succ hi]
      push_cast
      linarith
    rw [hlength]
    exact isInterval_drawsOf hpos hi

/-- Where the totals are exact, a pair without a weight is picked only when it is the first one
and the draw is zero. -/
theorem weight_pos_iff (hpos : 0 < totalWeight weight pairs)
    (hle : draw ≤ totalWeight weight pairs) (hexact : TotalsExact weight pairs) :
    (∃ p, weightedPick draw weight pairs = some p ∧ 0 < weight p) ↔
      0 < draw ∨ ∃ p ∈ pairs.head?, 0 < weight p := by
  have hne : pairs ≠ [] := by
    rintro rfl
    simp [totalWeight] at hpos
  obtain ⟨i, hpicked⟩ : ∃ i, pickedAt draw weight pairs = some i := by
    rw [← Option.ne_none_iff_exists', pickedAt, Ne, Option.map_eq_none_iff, weightedPick_eq_none]
    simpa using hne
  obtain ⟨hi, hcut, hnext⟩ := (pickedAt_eq_some hpos hle).mp hpicked
  have hpick : weightedPick draw weight pairs = some pairs[i] := by
    rw [weightedPick_eq_getElem?, hpicked, Option.bind_some, List.getElem?_eq_getElem hi]
  rw [hexact.cut_eq, totalWeight_take_succ hi] at hnext
  rw [hexact.cut_eq] at hcut
  simp only [hpick, Option.some.injEq, exists_eq_left']
  cases i with
  | zero =>
      have hhead : pairs.head? = some pairs[0] :=
        List.head?_eq_getElem? ▸ List.getElem?_eq_getElem hi
      have hlow : 0 < draw → 0 < weight pairs[0] := by
        intro hdraw
        have hcast : (0 : ℚ) < (totalWeight weight (pairs.take 0) + (weight pairs[0]).toNat : ℕ) :=
          hdraw.trans_le hnext
        have hnat : 0 < totalWeight weight (pairs.take 0) + (weight pairs[0]).toNat :=
          Nat.cast_pos.mp hcast
        simp only [List.take_zero, totalWeight, List.map_nil, List.sum_nil] at hnat
        omega
      simp only [hhead, Option.mem_some_iff, exists_eq_left']
      exact ⟨.inr, fun h => h.elim hlow id⟩
  | succ i =>
      have hlow := hcut (by omega)
      have hnat := Nat.cast_lt.mp (hlow.trans_le hnext)
      have hnonneg : (0 : ℚ) ≤ totalWeight weight (pairs.take (i + 1)) := Nat.cast_nonneg _
      exact iff_of_true (by omega) (.inl (hnonneg.trans_lt hlow))

end

/-- **When the draws follow the weights.**  The target that is drawn has a positive weight, and
the draws of each target form an interval as long as its weight, exactly when the draw is
positive or the weight of the first target is, and the running totals are exact. -/
theorem weightedPick_iff (pairs : List RoutePair) (draw : ℚ)
    (hpos : 0 < totalWeight RoutePair.weight pairs)
    (hle : draw ≤ totalWeight RoutePair.weight pairs) :
    ((∃ p, weightedPick draw RoutePair.weight pairs = some p ∧ 0 < p.weight) ∧
      ∀ i (hi : i < pairs.length),
        IsInterval (drawsOf RoutePair.weight pairs i) (pairs[i].weight.toNat : ℚ)) ↔
    (0 < draw ∨ ∃ p ∈ pairs.head?, 0 < p.weight) ∧ TotalsExact RoutePair.weight pairs := by
  rw [isInterval_weight_iff hpos, and_congr_left_iff]
  exact weight_pos_iff hpos hle

/-- A pair of a target with this weight. -/
def pairOfWeight (weight : ℤ) : RoutePair where
  model := ⟨⟨str "m", 1, str "m", str "chat", none, true⟩, 1⟩
  channel := ⟨⟨⟨str "openai.chat", str "openai", str "u"⟩, 1⟩, true⟩
  target := ⟨1, weight, none⟩

/-- A draw of zero falls on the first target, whose weight is zero. -/
theorem weightedPick_zero_weight :
    totalWeight RoutePair.weight [pairOfWeight 0, pairOfWeight 1] = 1 ∧
      weightedPick 0 RoutePair.weight [pairOfWeight 0, pairOfWeight 1] = some (pairOfWeight 0) ∧
      ¬ 0 < (pairOfWeight 0).weight := by
  decide +kernel

/-- Any other draw falls on the second one. -/
theorem weightedPick_iff_half :
    (∃ p, weightedPick (1 / 2) RoutePair.weight [pairOfWeight 0, pairOfWeight 1] = some p ∧
      0 < p.weight) ∧
    ∀ i (hi : i < [pairOfWeight 0, pairOfWeight 1].length),
      IsInterval (drawsOf RoutePair.weight [pairOfWeight 0, pairOfWeight 1] i)
        ([pairOfWeight 0, pairOfWeight 1][i].weight.toNat : ℚ) :=
  (weightedPick_iff [pairOfWeight 0, pairOfWeight 1] (1 / 2) (by decide)
    (by norm_num [totalWeight, RoutePair.weight, pairOfWeight])).mpr
      ⟨.inl (by norm_num), totalsExact_of_lt (by decide +kernel)⟩

end Llmxy
