import Llmxy.Lib.RunningMax
import Llmxy.Providers.Exemplars
import Mathlib.Algebra.Order.Field.Basic
import Mathlib.Algebra.Order.Ring.Rat
import Mathlib.Tactic.NormNum

/-!
# The classifier of a smart route

`classify` compares the vector of a prompt with those of the exemplars, and gives the label of
the most similar one if it is similar enough.  A similarity is a rational number.

## Main definitions

* `classify` — the label, its score, and what the embedding used.
* `BestAdmissible` — the best label that is allowed, if its score reaches the threshold.
* `ZeroDecides`, `EmptyDecides` — a threshold of 0, and an empty set of labels, are as good as
  what they are taken for.
-/

namespace Llmxy

section
variable {Vec Usage : Type} (cos : Vec → Vec → ℚ)

/-- The exemplars that are compared: with no labels, all of them. -/
def comparedExemplars (allowedLabels : Option (List Str)) (exemplars : ExemplarVecs Vec) :
    ExemplarVecs Vec :=
  match allowedLabels with
  | some (label :: labels) => exemplars.filter fun e => e.1 ∈ label :: labels
  | _ => exemplars

/-- The loops over the labels and their vectors. -/
def bestExemplar (vec : Vec) (exemplars : ExemplarVecs Vec) : Option Str × ℚ :=
  exemplars.foldl (fun best e => e.2.foldl (keepBest (fun _ => e.1) (cos vec)) best) (none, -1)

/-- `(policy.smart_score_threshold or 55) / 100.0`. -/
def scoreCutoff (smartScoreThreshold : ℤ) : ℚ :=
  (if smartScoreThreshold = 0 then 55 else smartScoreThreshold) / 100

/-- `classify`, with the exemplars and the vector of the prompt that are obtained. -/
def classify (smartScoreThreshold : ℤ) (allowedLabels : Option (List Str)) (promptText : Str)
    (exemplars : ExemplarVecs Vec) (embedded : Option Vec × Usage) :
    Option Str × ℚ × Option Usage :=
  let exemplars := comparedExemplars allowedLabels exemplars
  if (strip promptText).isEmpty || exemplars.isEmpty then (none, 0, none)
  else
    match embedded.1 with
    | none => (none, 0, some embedded.2)
    | some vec =>
        let best := bestExemplar cos vec exemplars
        if best.2 < scoreCutoff smartScoreThreshold then (none, max best.2 0, some embedded.2)
        else (best.1, best.2, some embedded.2)

/-! ### What is promised -/

/-- The vectors, each with its label. -/
def entriesOf (exemplars : ExemplarVecs Vec) : List (Str × Vec) :=
  exemplars.flatMap fun e => e.2.map fun v => (e.1, v)

/-- The vectors of the labels that are allowed. -/
def allowedEntries (allowedLabels : Option (List Str)) (exemplars : ExemplarVecs Vec) :
    List (Str × Vec) :=
  (entriesOf exemplars).filter fun e => ∀ labels ∈ allowedLabels, e.1 ∈ labels

/-- The highest score among the entries. -/
def maxScore (vec : Vec) (entries : List (Str × Vec)) : WithBot ℚ :=
  (entries.map fun e => cos vec e.2).maximum

/-- **The best label that is allowed**: there is none if nothing is allowed or the highest score
is below the threshold; otherwise it has an exemplar with the highest score, which is reported. -/
structure BestAdmissible (smartScoreThreshold : ℤ) (vec : Vec) (entries : List (Str × Vec))
    (out : Option Str × ℚ × Option Usage) : Prop where
  none_iff : out.1 = none ↔
    entries = [] ∨ maxScore cos vec entries < ((smartScoreThreshold / 100 : ℚ) : WithBot ℚ)
  attained : ∀ label, out.1 = some label →
    (out.2.1 : WithBot ℚ) = maxScore cos vec entries ∧
      ∃ v, (label, v) ∈ entries ∧ cos vec v = out.2.1

/-- A threshold of 0 is taken for 55: every score is below 0, or one reaches 55. -/
def ZeroDecides (smartScoreThreshold : ℤ) (vec : Vec) (entries : List (Str × Vec)) : Prop :=
  smartScoreThreshold = 0 →
    (∀ e ∈ entries, cos vec e.2 < 0) ∨ ∃ e ∈ entries, 55 / 100 ≤ cos vec e.2

/-- An empty set of labels is taken for none: no exemplar at all reaches the threshold. -/
def EmptyDecides (smartScoreThreshold : ℤ) (vec : Vec) (allowedLabels : Option (List Str))
    (exemplars : ExemplarVecs Vec) : Prop :=
  allowedLabels = some [] →
    ∀ e ∈ entriesOf exemplars, cos vec e.2 < scoreCutoff smartScoreThreshold

/-! ### The loops -/

variable {cos} {vec : Vec} {exemplars : ExemplarVecs Vec} {smartScoreThreshold : ℤ}
  {allowedLabels : Option (List Str)} {promptText : Str} {usage : Usage}

/-- The two loops are one over the entries. -/
theorem bestExemplar_eq : bestExemplar cos vec exemplars =
    runningBest Prod.fst (fun e => cos vec e.2) (-1) (entriesOf exemplars) := by
  rw [bestExemplar, runningBest, entriesOf, List.foldl_flatMap]
  simp only [List.foldl_map]
  rfl

theorem maxScore_lt_iff {entries : List (Str × Vec)} {cutoff : ℚ} :
    maxScore cos vec entries < (cutoff : WithBot ℚ) ↔ ∀ e ∈ entries, cos vec e.2 < cutoff := by
  rw [maxScore, maximum_lt_iff, List.forall_mem_map]

theorem scoreCutoff_pos (h : 0 ≤ smartScoreThreshold) : 0 < scoreCutoff smartScoreThreshold := by
  rw [scoreCutoff]
  split_ifs with hzero
  · norm_num
  · have hpos : (0 : ℚ) < smartScoreThreshold := by
      exact_mod_cast lt_of_le_of_ne h (Ne.symm hzero)
    exact div_pos hpos (by norm_num)

/-- What comes of the entries that are compared. -/
theorem classify_spec (hthreshold : 0 ≤ smartScoreThreshold)
    (hprompt : (strip promptText).isEmpty = false) :
    let out := classify cos smartScoreThreshold allowedLabels promptText exemplars
      (some vec, usage)
    let entries := entriesOf (comparedExemplars allowedLabels exemplars)
    (out.1 = none ↔
        maxScore cos vec entries < (scoreCutoff smartScoreThreshold : WithBot ℚ)) ∧
      ∀ label, out.1 = some label → (out.2.1 : WithBot ℚ) = maxScore cos vec entries ∧
        ∃ v, (label, v) ∈ entries ∧ cos vec v = out.2.1 := by
  rw [classify]
  generalize comparedExemplars allowedLabels exemplars = compared
  simp only [hprompt, Bool.false_or]
  cases hcompared : compared.isEmpty with
  | true =>
      rw [List.isEmpty_iff.mp hcompared]
      exact ⟨iff_of_true rfl (WithBot.bot_lt_coe _), nofun⟩
  | false =>
      have hlowest : (-1 : ℚ) < scoreCutoff smartScoreThreshold :=
        (by norm_num : (-1 : ℚ) < 0).trans (scoreCutoff_pos hthreshold)
      have hscore : ((bestExemplar cos vec compared).2 : WithBot ℚ) =
          max ((-1 : ℚ) : WithBot ℚ) (maxScore cos vec (entriesOf compared)) := by
        rw [bestExemplar_eq, coe_runningBest_snd]
        rfl
      have hbelow : (bestExemplar cos vec compared).2 < scoreCutoff smartScoreThreshold ↔
          maxScore cos vec (entriesOf compared) <
            (scoreCutoff smartScoreThreshold : WithBot ℚ) := by
        rw [← WithBot.coe_lt_coe, hscore, max_lt_iff]
        exact and_iff_right (WithBot.coe_lt_coe.mpr hlowest)
      simp only [Bool.false_eq_true, if_false]
      by_cases hcutoff : (bestExemplar cos vec compared).2 < scoreCutoff smartScoreThreshold
      · rw [if_pos hcutoff]
        exact ⟨iff_of_true rfl (hbelow.mp hcutoff), nofun⟩
      · rw [if_neg hcutoff]
        have habove := hlowest.trans_le (not_lt.mp hcutoff)
        refine ⟨iff_of_false ?_ (mt hbelow.mpr hcutoff), fun label hlabel => ⟨?_, ?_⟩⟩
        · rw [bestExemplar_eq] at habove ⊢
          obtain ⟨kept, hkept⟩ := runningBest_isSome habove
          rw [hkept]
          nofun
        · rw [hscore, max_eq_right_iff]
          by_contra hlow
          have hmax := hscore.trans (max_eq_left (le_of_not_ge hlow))
          exact habove.ne' (WithBot.coe_inj.mp hmax)
        · rw [bestExemplar_eq] at hlabel ⊢
          obtain ⟨⟨l, v⟩, hmem, rfl, hattained⟩ := runningBest_attains hlabel
          exact ⟨v, hmem, hattained⟩

/-! ### What is compared -/

theorem allowedEntries_empty : allowedEntries (some []) exemplars = [] := by
  rw [allowedEntries, List.filter_eq_nil_iff]
  simp

theorem entriesOf_filter (p : Str → Bool) :
    entriesOf (exemplars.filter fun e => p e.1) = (entriesOf exemplars).filter fun e => p e.1 := by
  induction exemplars with
  | nil => rfl
  | cons e exemplars ih =>
      rw [entriesOf, entriesOf, List.flatMap_cons, List.filter_append, List.filter_map]
      rw [entriesOf, entriesOf] at ih
      rw [← ih, List.filter_cons]
      cases hp : p e.1 with
      | true => simp [Function.comp_def, hp]
      | false => simp [Function.comp_def, hp]

/-- Any other choice of labels compares what it allows. -/
theorem entriesOf_comparedExemplars (hlabels : allowedLabels ≠ some []) :
    entriesOf (comparedExemplars allowedLabels exemplars) =
      allowedEntries allowedLabels exemplars := by
  match allowedLabels with
  | none => simp [comparedExemplars, allowedEntries]
  | some [] => exact absurd rfl hlabels
  | some (label :: labels) =>
      rw [comparedExemplars, entriesOf_filter fun l => decide (l ∈ label :: labels), allowedEntries]
      simp

/-- A result for one cutoff is that for a threshold if the entries do not tell them apart. -/
theorem bestAdmissible_iff {entries : List (Str × Vec)} {out : Option Str × ℚ × Option Usage}
    {cutoff : ℚ}
    (hnone : out.1 = none ↔ maxScore cos vec entries < (cutoff : WithBot ℚ))
    (hattained : ∀ label, out.1 = some label → (out.2.1 : WithBot ℚ) = maxScore cos vec entries ∧
      ∃ v, (label, v) ∈ entries ∧ cos vec v = out.2.1) :
    BestAdmissible cos smartScoreThreshold vec entries out ↔
      ((∀ e ∈ entries, cos vec e.2 < cutoff) ↔
        ∀ e ∈ entries, cos vec e.2 < smartScoreThreshold / 100) := by
  have hempty : entries = [] ∨
      maxScore cos vec entries < ((smartScoreThreshold / 100 : ℚ) : WithBot ℚ) ↔
        ∀ e ∈ entries, cos vec e.2 < smartScoreThreshold / 100 := by
    rw [maxScore_lt_iff, or_iff_right_iff_imp]
    rintro rfl
    nofun
  rw [maxScore_lt_iff] at hnone
  constructor
  · exact fun h => hnone.symm.trans (h.none_iff.trans hempty)
  · exact fun h => ⟨hnone.trans (h.trans hempty.symm), hattained⟩

/-- **`classify` gives the best label that is allowed** exactly when a threshold of 0 and an empty
set of labels are as good as what they are taken for. -/
theorem classify_bestAdmissible_iff (cos : Vec → Vec → ℚ) (smartScoreThreshold : ℤ)
    (allowedLabels : Option (List Str)) (promptText : Str) (exemplars : ExemplarVecs Vec)
    (vec : Vec) (usage : Usage) (hthreshold : 0 ≤ smartScoreThreshold)
    (hprompt : (strip promptText).isEmpty = false) :
    BestAdmissible cos smartScoreThreshold vec (allowedEntries allowedLabels exemplars)
        (classify cos smartScoreThreshold allowedLabels promptText exemplars (some vec, usage)) ↔
      ZeroDecides cos smartScoreThreshold vec (allowedEntries allowedLabels exemplars) ∧
        EmptyDecides cos smartScoreThreshold vec allowedLabels exemplars := by
  obtain ⟨hnone, hattained⟩ := @classify_spec Vec Usage cos vec exemplars
    smartScoreThreshold allowedLabels promptText usage hthreshold hprompt
  by_cases hlabels : allowedLabels = some []
  · rw [hlabels] at hnone hattained ⊢
    rw [maxScore_lt_iff] at hnone
    rw [allowedEntries_empty]
    constructor
    · intro h
      exact ⟨fun _ => .inl nofun, fun _ => hnone.mp (h.none_iff.mpr (.inl rfl))⟩
    · rintro ⟨-, hempty⟩
      have hout := hnone.mpr (hempty rfl)
      refine ⟨iff_of_true hout (.inl rfl), fun label hlabel => ?_⟩
      cases hout.symm.trans hlabel
  · rw [entriesOf_comparedExemplars hlabels] at hnone hattained
    rw [bestAdmissible_iff hnone hattained]
    have hempty : EmptyDecides cos smartScoreThreshold vec allowedLabels exemplars :=
      fun h => absurd h hlabels
    rw [and_iff_left hempty, ZeroDecides, scoreCutoff]
    by_cases hzero : smartScoreThreshold = 0
    · have hlower : (∀ e ∈ allowedEntries allowedLabels exemplars, cos vec e.2 < 0) →
          ∀ e ∈ allowedEntries allowedLabels exemplars, cos vec e.2 < 55 / 100 :=
        fun h e he => (h e he).trans (by norm_num)
      simp only [hzero, if_true, Int.cast_zero, zero_div, forall_const]
      have hreached : (∃ e ∈ allowedEntries allowedLabels exemplars, 55 / 100 ≤ cos vec e.2) ↔
          ¬∀ e ∈ allowedEntries allowedLabels exemplars, cos vec e.2 < 55 / 100 := by
        simp only [not_forall, not_lt, exists_prop]
      rw [hreached]
      exact ⟨fun h => or_iff_not_imp_right.mpr fun hbelow => h.mp (not_not.mp hbelow),
        fun h => ⟨fun hbelow => h.resolve_right (not_not.mpr hbelow), hlower⟩⟩
    · rw [if_neg hzero]
      exact iff_of_true Iff.rfl fun h => absurd h hzero

/-! ### A threshold of 0 -/

/-- Vectors are numbers, whose product is in hundredths. -/
def hundredths (v w : ℕ) : ℚ := (v * w : ℕ) / 100

/-- An exemplar with a score of 30 is below a threshold of 0. -/
theorem classify_zero_as_fiftyFive :
    ¬BestAdmissible hundredths 0 1 (allowedEntries none [(str "strong", [30])])
      (classify hundredths 0 none (str "Hi") [(str "strong", [30])] (some 1, ())) := by
  intro h
  have hout : (classify hundredths 0 none (str "Hi") [(str "strong", [30])] (some 1, ())).1 =
      none := by
    decide +kernel
  obtain hempty | hlow := h.none_iff.mp hout
  · revert hempty
    decide
  · have hscore := maxScore_lt_iff.mp hlow (str "strong", 30) (by decide)
    revert hscore
    decide +kernel

/-- It is above a threshold of 25. -/
theorem classify_twentyFive :
    BestAdmissible hundredths 25 1 (allowedEntries none [(str "strong", [30])])
      (classify hundredths 25 none (str "Hi") [(str "strong", [30])] (some 1, ())) :=
  (classify_bestAdmissible_iff hundredths 25 none (str "Hi") [(str "strong", [30])] 1 ()
    (by decide) (by decide)).mpr ⟨nofun, nofun⟩

end
end Llmxy
