import Llmxy.Lib.Text
import Mathlib.Tactic.Common

/-!
# Numbers in delimited texts

A number that is written in decimal has only digits, so it survives stripping, splitting at a
character that is no digit, and reading it back.

## Main definitions

* `partition` — `s.partition(sep)` for one character.
* `isDigit_showNat`, `parseInt_showNat` — a number is recognised and read back.
* `stripBy_eq_self`, `partition_append` — the texts around it.
-/

namespace Llmxy

/-- `s.partition(sep)`: what stands before the first `sep`, whether there is one, and what
stands after it. -/
def partition (sep : ℕ) (s : Str) : Str × Bool × Str :=
  (s.takeWhile (· ≠ sep), sep ∈ s, (s.dropWhile (· ≠ sep)).tail)

theorem partition_append {sep : ℕ} {s t : Str} (h : sep ∉ s) :
    partition sep (s ++ sep :: t) = (s, true, t) := by
  have hall : ∀ c ∈ s, decide (c ≠ sep) = true := by
    intro c hc
    have hne : c ≠ sep := by
      rintro rfl
      exact h hc
    simpa using hne
  rw [partition, List.takeWhile_append_of_pos hall, List.dropWhile_append_of_pos hall]
  simp

/-- A text with nothing to strip is kept by stripping. -/
theorem stripBy_eq_self {space : ℕ → Bool} {s : Str} (h : ∀ c ∈ s, space c = false) :
    stripBy space s = s := by
  have hleft : ∀ t : Str, (∀ c ∈ t, space c = false) → t.dropWhile space = t := by
    intro t ht
    cases t with
    | nil => rfl
    | cons c t => simp [ht c List.mem_cons_self]
  rw [stripBy, hleft s h, hleft s.reverse (by simpa using h), List.reverse_reverse]

theorem strip_eq_self {s : Str} (h : ∀ c ∈ s, isSpace c = false) : strip s = s := stripBy_eq_self h

theorem isSpace_of_isAsciiDigit {c : ℕ} (h : isAsciiDigit c = true) : isSpace c = false := by
  have := digit_bounds h
  simp [isSpace]
  omega

theorem decimalValue_of_isAsciiDigit {c : ℕ} (h : isAsciiDigit c = true) :
    decimalValue c = some (c - 48) := by
  have := digit_bounds h
  have hzero : (decide (48 ≤ c) && decide (c ≤ 48 + 9)) = true := by
    simp only [Bool.and_eq_true, decide_eq_true_eq]
    omega
  rw [decimalValue, decimalZeros, List.find?_cons]
  simp only [hzero, Option.map_some]

/-- A number is all digits. -/
theorem isDigit_showNat (n : ℕ) : isDigit (showNat n) = true := by
  have hall : ∀ c ∈ showNat n, (decimalValue c).isSome = true := by
    intro c hc
    rw [decimalValue_of_isAsciiDigit (isAsciiDigit_of_mem_showNat hc), Option.isSome_some]
  have hne := showNat_ne_nil n
  simp only [isDigit, Bool.and_eq_true, List.all_eq_true, Bool.or_eq_true]
  exact ⟨by simpa using hne, fun c hc => .inl (hall c hc)⟩

theorem parseDigits_of_isAsciiDigit {s : Str} (hs : ∀ c ∈ s, isAsciiDigit c = true) (acc : ℕ) :
    parseDigits true acc s = some (s.foldl (fun n d => n * 10 + (d - 48)) acc) := by
  induction s generalizing acc with
  | nil => rfl
  | cons c s ih =>
      have hc := hs c List.mem_cons_self
      have hne : c ≠ 95 := by
        have := digit_bounds hc
        omega
      rw [parseDigits, if_neg hne, decimalValue_of_isAsciiDigit hc, Option.bind_some,
        ih fun d hd => hs d (List.mem_cons_of_mem c hd), List.foldl_cons]

/-- A number that is not too long is read back. -/
theorem parseInt_showNat {n : ℕ} (hlen : (showNat n).length ≤ maxIntDigits) :
    parseInt (showNat n) = some (n : ℤ) := by
  have hdigits : ∀ c ∈ showNat n, isAsciiDigit c = true := fun c => isAsciiDigit_of_mem_showNat
  have hread := natOfDigits_showNat n
  have hstrip : stripBy isIntSpace (showNat n) = showNat n :=
    stripBy_eq_self fun c hc => by simp [isIntSpace, isSpace_of_isAsciiDigit (hdigits c hc)]
  cases htext : showNat n with
  | nil => exact absurd htext (showNat_ne_nil n)
  | cons d t =>
      rw [htext] at hdigits hread hstrip hlen
      have hd := hdigits d List.mem_cons_self
      have hbounds := digit_bounds hd
      have hvalue : parseDigits false 0 (d :: t) = some n := by
        have hne : d ≠ 95 := by omega
        rw [parseDigits, if_neg hne, decimalValue_of_isAsciiDigit hd, Option.bind_some,
          parseDigits_of_isAsciiDigit fun c hc => hdigits c (List.mem_cons_of_mem d hc), ← hread,
          natOfDigits, List.foldl_cons]
      have hplus : d ≠ 43 := by omega
      have hminus : d ≠ 45 := by omega
      simp only [parseInt, hstrip]
      -- no sign, so what is counted and read is the whole text
      suffices hcount : ((d :: t).filter (· ≠ 95)).length ≤ maxIntDigits by
        simpa [hplus, hminus, hvalue] using hcount
      exact (List.length_filter_le _ _).trans hlen

end Llmxy
