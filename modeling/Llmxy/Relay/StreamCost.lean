import Llmxy.Billing.Basic
import Llmxy.Relay.Usage
import Mathlib.Data.List.Induction

/-!
# What a stream costs on the two transports

The direct endpoint takes every count a usage object carries, `null` included; the
translator keeps the previous count where a usage object carries none or zero.  Over a
stream whose counts are integers, `null` or missing, the direct loop ends with the last
count reported, and the translating loop with the last one that is neither `null` nor
zero.

## Main definitions

* `StreamLoop.cost` — the cost of a stream.
* `PlainUsage`, `reported` — the counts of a stream.
* `BilledAlike` — both transports bill the same counts.
* `Settled` — the last count stands.
* `billedAlike_iff` — exactly when they bill the same.
-/

namespace Llmxy

/-- A count as `calc_cost_cents` takes it.  `None * rate` raises. -/
def tokenCount : Json → Option ℤ
  | .int n => some n
  | _ => none

/-- The cost a loop bills for a stream.  `none` when the loop or `calc_cost_cents` raises. -/
def StreamLoop.cost (loop : StreamLoop) (m : Model) (chunks : List Bytes) : Option ℤ := do
  let counts ← loop.accumulate zeroCounts chunks
  return calcCostCents (some m) (← tokenCount counts.1) (← tokenCount counts.2)

/-- Neither loop raises, and the counts and the cost are the same. -/
structure BilledAlike (chunks : List Bytes) : Prop where
  counts : ∃ counts, StreamLoop.direct.accumulate zeroCounts chunks = some counts ∧
    StreamLoop.translated.accumulate zeroCounts chunks = some counts
  cost : ∀ m, ∃ cost, StreamLoop.direct.cost m chunks = some cost ∧
    StreamLoop.translated.cost m chunks = some cost

/-- A count is an integer or `null`. -/
def Json.IsCount : Json → Prop
  | .int _ | .null => True
  | _ => False

/-- An object whose counts are integers, `null` or missing. -/
structure PlainUsage (u : Json) : Prop where
  object : ∃ fields, u = .obj fields
  prompt : ∀ v, u.get? (str "prompt_tokens") = some v → v.IsCount
  completion : ∀ v, u.get? (str "completion_tokens") = some v → v.IsCount

/-- The value of a key of the usage object of a chunk. -/
def reportedBy (key : Str) (chunk : Bytes) : Option Json :=
  (parseUsageFromChunk chunk).bind (Json.get? key)

/-- The values of a key that the usage objects of a stream carry, in order. -/
def reported (key : Str) (chunks : List Bytes) : List Json := chunks.filterMap (reportedBy key)

/-- The last value stands: it is an integer, and if it is zero no other counts
anything. -/
def Settled (values : List Json) : Prop :=
  ∀ v, values.getLast? = some v → ∃ n, v = .int n ∧ (n = 0 → ∀ v' ∈ values, v'.truthy = false)

variable {chunk : Bytes} {chunks : List Bytes}

/-! ### What the loops end with -/

/-- `u.get(key, previous)` over the values of a key. -/
def lastOr (values : List Json) (previous : Json) : Json := values.getLast?.getD previous

/-- `int(v or previous or 0)` over the values of a key. -/
def lastTruthyOr (values : List Json) (previous : Json) : Json :=
  lastOr (values.filter Json.truthy) previous

theorem lastOr_cons (v : Json) (values : List Json) (previous : Json) :
    lastOr (v :: values) previous = lastOr values v := by
  rw [lastOr, lastOr, List.getLast?_cons, Option.getD_some]

theorem lastTruthyOr_cons (v : Json) (values : List Json) (previous : Json) :
    lastTruthyOr (v :: values) previous =
      lastTruthyOr values (if v.truthy then v else previous) := by
  rw [lastTruthyOr, List.filter_cons]
  split_ifs
  · rw [lastOr_cons, lastTruthyOr]
  · rw [lastTruthyOr]

theorem Json.IsCount.cases {v : Json} (h : v.IsCount) : v = .null ∨ ∃ n, v = .int n := by
  cases v with
  | null => exact Or.inl rfl
  | int n => exact Or.inr ⟨n, rfl⟩
  | _ => cases h

theorem intOr_of_isCount {v : Option Json} {n : ℤ} (h : ∀ x, v = some x → x.IsCount) :
    intOr v (.int n) = some (lastTruthyOr v.toList (.int n)) := by
  rw [intOr_eq]
  cases v with
  | none => rfl
  | some x =>
      rcases (h x rfl).cases with rfl | ⟨m, rfl⟩
      · rfl
      · by_cases hm : m = 0
        · subst hm
          rfl
        · simp [lastTruthyOr, lastOr, Json.truthy, Json.toInt?, hm, Option.filter]

theorem reported_cons (key : Str) (chunk : Bytes) (chunks : List Bytes) :
    reported key (chunk :: chunks) = (reportedBy key chunk).toList ++ reported key chunks := by
  rw [reported, List.filterMap_cons, ← reported]
  cases reportedBy key chunk with
  | none => rfl
  | some v => rfl

theorem lastOr_append (xs ys : List Json) (previous : Json) :
    lastOr (xs ++ ys) previous = lastOr ys (lastOr xs previous) := by
  induction xs generalizing previous with
  | nil => rfl
  | cons x xs ih => rw [List.cons_append, lastOr_cons, ih, lastOr_cons]

theorem lastTruthyOr_append (xs ys : List Json) (previous : Json) :
    lastTruthyOr (xs ++ ys) previous = lastTruthyOr ys (lastTruthyOr xs previous) := by
  rw [lastTruthyOr, List.filter_append, lastOr_append]
  rfl

/-- The direct loop takes each count that a usage object carries. -/
theorem receive_direct (h : ∀ u, parseUsageFromChunk chunk = some u → PlainUsage u)
    (counts : Counts) :
    StreamLoop.direct.receive counts chunk =
      some (lastOr (reportedBy (str "prompt_tokens") chunk).toList counts.1,
        lastOr (reportedBy (str "completion_tokens") chunk).toList counts.2) := by
  rw [StreamLoop.receive, reportedBy, reportedBy]
  cases hu : parseUsageFromChunk chunk with
  | none => rfl
  | some u =>
      obtain ⟨fields, rfl⟩ := (h u hu).object
      simp only [StreamLoop.update, directCounts, Option.bind_some, Json.get?]
      congr 2
      · cases Json.lookup (str "prompt_tokens") fields with
        | none => rfl
        | some v => rfl
      · cases Json.lookup (str "completion_tokens") fields with
        | none => rfl
        | some v => rfl

/-- The translating loop takes each count that is neither `null` nor zero. -/
theorem receive_translated (h : ∀ u, parseUsageFromChunk chunk = some u → PlainUsage u) (p c : ℤ) :
    StreamLoop.translated.receive (.int p, .int c) chunk =
      some (lastTruthyOr (reportedBy (str "prompt_tokens") chunk).toList (.int p),
        lastTruthyOr (reportedBy (str "completion_tokens") chunk).toList (.int c)) := by
  rw [StreamLoop.receive, reportedBy, reportedBy]
  cases hu : parseUsageFromChunk chunk with
  | none => rfl
  | some u =>
      have hplain := h u hu
      obtain ⟨fields, rfl⟩ := hplain.object
      have hp := @intOr_of_isCount _ p hplain.prompt
      have hc := @intOr_of_isCount _ c hplain.completion
      rw [Json.get?] at hp hc
      simp only [StreamLoop.update, translatedCounts, Option.bind_some, Json.get?]
      rw [hp, hc]
      rfl

/-- The direct loop ends with the last counts reported. -/
theorem accumulate_direct
    (h : ∀ chunk ∈ chunks, ∀ u, parseUsageFromChunk chunk = some u → PlainUsage u)
    (counts : Counts) :
    StreamLoop.direct.accumulate counts chunks =
      some (lastOr (reported (str "prompt_tokens") chunks) counts.1,
        lastOr (reported (str "completion_tokens") chunks) counts.2) := by
  induction chunks generalizing counts with
  | nil => rfl
  | cons chunk chunks ih =>
      rw [StreamLoop.accumulate, receive_direct (h chunk List.mem_cons_self), Option.bind_some,
        ih fun c hc => h c (List.mem_cons_of_mem _ hc), reported_cons, reported_cons,
        lastOr_append, lastOr_append]

/-- The last count that is neither `null` nor zero is an integer. -/
theorem lastTruthyOr_int {values : List Json} (h : ∀ v ∈ values, v.IsCount) (n : ℤ) :
    ∃ m, lastTruthyOr values (.int n) = .int m := by
  induction values generalizing n with
  | nil => exact ⟨n, rfl⟩
  | cons v values ih =>
      have htail := ih fun x hx => h x (List.mem_cons_of_mem _ hx)
      rw [lastTruthyOr_cons]
      rcases (h v List.mem_cons_self).cases with rfl | ⟨m, rfl⟩
      · exact htail n
      · split_ifs
        · exact htail m
        · exact htail n

/-- The translating loop ends with the last counts that are neither `null` nor zero. -/
theorem accumulate_translated
    (h : ∀ chunk ∈ chunks, ∀ u, parseUsageFromChunk chunk = some u → PlainUsage u) (p c : ℤ) :
    StreamLoop.translated.accumulate (.int p, .int c) chunks =
      some (lastTruthyOr (reported (str "prompt_tokens") chunks) (.int p),
        lastTruthyOr (reported (str "completion_tokens") chunks) (.int c)) := by
  induction chunks generalizing p c with
  | nil => rfl
  | cons chunk chunks ih =>
      have hchunk := h chunk List.mem_cons_self
      have hcount : ∀ key, (key = str "prompt_tokens" ∨ key = str "completion_tokens") →
          ∀ v ∈ (reportedBy key chunk).toList, v.IsCount := by
        intro key hkey v hv
        obtain ⟨u, hu, hget⟩ := Option.bind_eq_some_iff.mp (Option.mem_toList.mp hv)
        rcases hkey with rfl | rfl
        · exact (hchunk u hu).prompt v hget
        · exact (hchunk u hu).completion v hget
      obtain ⟨p', hp'⟩ := lastTruthyOr_int (hcount _ (Or.inl rfl)) p
      obtain ⟨c', hc'⟩ := lastTruthyOr_int (hcount _ (Or.inr rfl)) c
      rw [StreamLoop.accumulate, receive_translated hchunk, Option.bind_some, hp', hc',
        ih fun x hx => h x (List.mem_cons_of_mem _ hx), reported_cons, reported_cons,
        lastTruthyOr_append, lastTruthyOr_append, hp', hc']

/-! ### When the transports agree -/

theorem isCount_of_mem_reported {key : Str} {v : Json}
    (h : ∀ chunk ∈ chunks, ∀ u, parseUsageFromChunk chunk = some u → PlainUsage u)
    (hkey : key = str "prompt_tokens" ∨ key = str "completion_tokens")
    (hv : v ∈ reported key chunks) : v.IsCount := by
  obtain ⟨chunk, hchunk, hv⟩ := List.mem_filterMap.mp hv
  obtain ⟨u, hu, hget⟩ := Option.bind_eq_some_iff.mp hv
  rcases hkey with rfl | rfl
  · exact (h chunk hchunk u hu).prompt v hget
  · exact (h chunk hchunk u hu).completion v hget

/-- The last value that counts is zero exactly when none does. -/
theorem lastTruthyOr_eq_zero_iff {values : List Json} :
    lastTruthyOr values (.int 0) = .int 0 ↔ ∀ v ∈ values, v.truthy = false := by
  have hfilter : values.filter Json.truthy = [] ↔ ∀ v ∈ values, v.truthy = false := by
    simp [List.filter_eq_nil_iff]
  rw [← hfilter, lastTruthyOr, lastOr]
  constructor
  · intro hlast
    rw [← List.getLast?_eq_none_iff]
    cases hv : (values.filter Json.truthy).getLast? with
    | none => rfl
    | some v =>
        rw [hv, Option.getD_some] at hlast
        obtain ⟨-, htruthy⟩ := List.mem_filter.mp (List.mem_of_getLast? hv)
        rw [hlast] at htruthy
        cases htruthy
  · intro hnil
    rw [hnil]
    rfl

/-- The last value is the last one that counts exactly when it is settled. -/
theorem lastOr_eq_lastTruthyOr_iff {values : List Json} (h : ∀ v ∈ values, v.IsCount) :
    lastOr values (.int 0) = lastTruthyOr values (.int 0) ↔ Settled values := by
  induction values using List.reverseRecOn with
  | nil => exact iff_of_true rfl fun v hv => by cases hv
  | append_singleton values v _ =>
      have hvalues : ∀ x ∈ values, x.IsCount := fun x hx => h x (List.mem_append_left _ hx)
      obtain ⟨n, hn⟩ := lastTruthyOr_int hvalues 0
      have hlast : (values ++ [v]).getLast? = some v := List.getLast?_concat
      rw [lastOr_append, lastTruthyOr_append, lastOr_cons, lastTruthyOr_cons, hn]
      rcases (h v (by simp)).cases with rfl | ⟨m, rfl⟩
      · -- the last value is `null`
        refine iff_of_false (by simp [lastOr, lastTruthyOr, Json.truthy]) ?_
        intro hsettled
        obtain ⟨m, hm, -⟩ := hsettled .null hlast
        cases hm
      · by_cases hm : m = 0
        · -- the last value is zero: the other values must not count
          subst hm
          have hzero : (Json.int 0).truthy = false := rfl
          rw [hzero, if_neg Bool.false_ne_true, ← hn]
          refine Iff.trans eq_comm (lastTruthyOr_eq_zero_iff.trans ?_)
          constructor
          · intro hnothing v hv
            rw [hlast, Option.some.injEq] at hv
            refine ⟨0, hv.symm, fun _ x hx => ?_⟩
            rcases List.mem_append.mp hx with hx | hx
            · exact hnothing x hx
            · rw [List.mem_singleton.mp hx]
              exact hzero
          · intro hsettled x hx
            obtain ⟨m, hm, hnothing⟩ := hsettled _ hlast
            exact hnothing (Json.int.inj hm).symm x (List.mem_append_left _ hx)
        · have htruthy : (Json.int m).truthy = true := by simpa [Json.truthy] using hm
          rw [if_pos htruthy]
          refine iff_of_true rfl ?_
          intro v hv
          rw [hlast, Option.some.injEq] at hv
          exact ⟨m, hv.symm, fun h0 => absurd h0 hm⟩

/-- **Both transports bill a stream alike** exactly when the last value each count is
reported with is an integer and, if it is zero, no other value counts anything. -/
theorem billedAlike_iff
    (h : ∀ chunk ∈ chunks, ∀ u, parseUsageFromChunk chunk = some u → PlainUsage u) :
    BilledAlike chunks ↔
      Settled (reported (str "prompt_tokens") chunks) ∧
        Settled (reported (str "completion_tokens") chunks) := by
  have hp := fun v => @isCount_of_mem_reported chunks _ v h (Or.inl rfl)
  have hc := fun v => @isCount_of_mem_reported chunks _ v h (Or.inr rfl)
  have hdirect := accumulate_direct h zeroCounts
  have htranslated := accumulate_translated h 0 0
  obtain ⟨p, hp'⟩ := lastTruthyOr_int hp 0
  obtain ⟨c, hc'⟩ := lastTruthyOr_int hc 0
  rw [← lastOr_eq_lastTruthyOr_iff hp, ← lastOr_eq_lastTruthyOr_iff hc]
  constructor
  · rintro ⟨⟨counts, hd, ht⟩, -⟩
    rw [hdirect] at hd
    replace ht := htranslated.symm.trans ht
    obtain ⟨hpe, hce⟩ := Prod.mk.inj (Option.some.inj (hd.trans ht.symm))
    exact ⟨hpe, hce⟩
  · rintro ⟨hpe, hce⟩
    replace hdirect : StreamLoop.direct.accumulate zeroCounts chunks = some (.int p, .int c) := by
      rw [hdirect, ← hp', ← hc', ← hpe, ← hce]
      rfl
    replace htranslated :
        StreamLoop.translated.accumulate zeroCounts chunks = some (.int p, .int c) := by
      rw [← hp', ← hc']
      exact htranslated
    refine ⟨⟨_, hdirect, htranslated⟩, fun m => ⟨calcCostCents (some m) p c, ?_, ?_⟩⟩
    · rw [StreamLoop.cost, hdirect]
      rfl
    · rw [StreamLoop.cost, htranslated]
      rfl

theorem billedAlike_usageStream : BilledAlike [usageStream] := by
  have husage : parseUsageFromChunk usageStream = some (.obj [(str "prompt_tokens", .int 5),
      (str "completion_tokens", .int 7)]) := by decide +kernel
  apply (billedAlike_iff _).mpr
  · have hp : reported (str "prompt_tokens") [usageStream] = [.int 5] := by decide +kernel
    have hc : reported (str "completion_tokens") [usageStream] = [.int 7] := by decide +kernel
    rw [hp, hc]
    constructor
    · intro v hv
      exact ⟨5, (Option.some.inj hv).symm, fun h => absurd h (by decide)⟩
    · intro v hv
      exact ⟨7, (Option.some.inj hv).symm, fun h => absurd h (by decide)⟩
  · intro chunk hchunk u hu
    rw [List.mem_singleton.mp hchunk, husage, Option.some.injEq] at hu
    subst hu
    refine ⟨⟨_, rfl⟩, ?_, ?_⟩
    · rintro v hv
      cases Option.some.inj hv
      trivial
    · rintro v hv
      cases Option.some.inj hv
      trivial

/-- A usage object without a completion count. -/
def nullUsage : Bytes :=
  ascii "data: \x7b\"usage\":\x7b\"prompt_tokens\":5,\"completion_tokens\":null\x7d\x7d\n\n"

/-- A last usage object with a `null` count: the translator bills five and seven tokens, the
direct endpoint ends with `None` and raises. -/
theorem null_usage_not_billedAlike :
    ¬ BilledAlike [usageStream, nullUsage] ∧
      StreamLoop.translated.accumulate zeroCounts [usageStream, nullUsage] =
        some (.int 5, .int 7) ∧
      StreamLoop.direct.accumulate zeroCounts [usageStream, nullUsage] = some (.int 5, .null) := by
  have htranslated : StreamLoop.translated.accumulate zeroCounts [usageStream, nullUsage] =
      some (.int 5, .int 7) := by decide +kernel
  have hdirect : StreamLoop.direct.accumulate zeroCounts [usageStream, nullUsage] =
      some (.int 5, .null) := by decide +kernel
  refine ⟨?_, htranslated, hdirect⟩
  rintro ⟨⟨counts, hd, ht⟩, -⟩
  rw [hdirect] at hd
  rw [htranslated, ← hd] at ht
  exact absurd ht (by decide +kernel)

end Llmxy
