import Mathlib.Data.Nat.Size
import Mathlib.Tactic.Common
import Mathlib.Tactic.Ring

/-!
# Whole numbers in binary64

A binary64 number has 53 significant bits, so a whole number of more bits is rounded to a
multiple of a power of two: to the nearest one, and to the even one of two that are equally
near.  A running total is rounded after each addition, and so is each summand before it.
Rounding itself does not bound the exponent.

## Main definitions

* `roundTo u n` — the nearest multiple of `u`.
* `precision`, `maxExponent` — 53 and 1024.
* `toBinary64 n` — the nearest binary64 number.
* `addBinary64`, `sumBinary64` — one addition, and a running total.
* `toBinary64_mono`, `toBinary64_toBinary64` — rounding is monotone and idempotent.
-/

namespace Llmxy

/-- The multiple of `u` nearest to `n`; of two, the one with an even quotient. -/
def roundTo (u n : ℕ) : ℕ :=
  if 2 * (n % u) < u ∨ 2 * (n % u) = u ∧ n / u % 2 = 0 then n / u * u else (n / u + 1) * u

section
variable {u n m : ℕ}

theorem dvd_roundTo (u n : ℕ) : u ∣ roundTo u n := by
  rw [roundTo]
  split
  · exact Nat.dvd_mul_left u _
  · exact Nat.dvd_mul_left u _

/-- A multiple is kept. -/
theorem roundTo_of_dvd (hu : 0 < u) (h : u ∣ n) : roundTo u n = n := by
  have hmod : n % u = 0 := Nat.mod_eq_zero_of_dvd h
  rw [roundTo, if_pos (.inl (by omega))]
  exact Nat.div_mul_cancel h

theorem div_mul_le_roundTo (u n : ℕ) : n / u * u ≤ roundTo u n := by
  rw [roundTo]
  split
  · exact le_rfl
  · exact Nat.mul_le_mul_right u (Nat.le_succ _)

theorem roundTo_le_succ (u n : ℕ) : roundTo u n ≤ (n / u + 1) * u := by
  rw [roundTo]
  split
  · exact Nat.mul_le_mul_right u (Nat.le_succ _)
  · exact le_rfl

/-- Rounding to the multiples of one number is monotone. -/
theorem roundTo_mono (u : ℕ) (h : n ≤ m) : roundTo u n ≤ roundTo u m := by
  obtain hlt | heq := Nat.lt_or_eq_of_le (Nat.div_le_div_right (c := u) h)
  · calc roundTo u n ≤ (n / u + 1) * u := roundTo_le_succ u n
      _ ≤ m / u * u := Nat.mul_le_mul_right u hlt
      _ ≤ roundTo u m := div_mul_le_roundTo u m
  · -- between the same two multiples, what rounds down stays below what rounds up
    have hn : u * (n / u) + n % u = n := Nat.div_add_mod n u
    have hm : u * (m / u) + m % u = m := Nat.div_add_mod m u
    rw [← heq] at hm
    have hmod : n % u ≤ m % u := by omega
    have hsucc : n / u * u ≤ (n / u + 1) * u := Nat.mul_le_mul_right u (Nat.le_succ _)
    simp only [roundTo, ← heq]
    split_ifs with hdown hdown' hdown'
    · exact le_rfl
    · exact hsucc
    · omega
    · exact le_rfl

end

/-- The number of significant bits. -/
@[irreducible] def precision : ℕ := 53

/-- Numbers from `2 ^ maxExponent` on are beyond the range. -/
def maxExponent : ℕ := 1024

/-- The distance of the binary64 numbers that have as many bits as `n`. -/
def spacing (n : ℕ) : ℕ := 2 ^ (n.size - precision)

/-- The binary64 number nearest to `n`. -/
def toBinary64 (n : ℕ) : ℕ := roundTo (spacing n) n

section
variable {n m k : ℕ}

theorem precision_pos : 0 < precision := by simp [precision]

theorem spacing_pos (n : ℕ) : 0 < spacing n := Nat.two_pow_pos _

theorem spacing_dvd_two_pow (h : n.size ≤ k + precision) : spacing n ∣ 2 ^ k :=
  Nat.pow_dvd_pow 2 (by omega)

theorem spacing_dvd_spacing (h : n.size ≤ m.size) : spacing n ∣ spacing m :=
  Nat.pow_dvd_pow 2 (by omega)

/-- A number without more bits is exact. -/
theorem toBinary64_of_lt (h : n < 2 ^ precision) : toBinary64 n = n := by
  have hsize : n.size ≤ precision := Nat.size_le.mpr h
  have hspacing : spacing n = 1 := by
    rw [spacing, Nat.sub_eq_zero_of_le hsize, Nat.pow_zero]
  rw [toBinary64, hspacing]
  exact roundTo_of_dvd Nat.one_pos (Nat.one_dvd n)

/-- Rounding does not pass the next power of two. -/
theorem toBinary64_le_two_pow (n : ℕ) : toBinary64 n ≤ 2 ^ n.size := by
  have hdvd : spacing n ∣ 2 ^ n.size := spacing_dvd_two_pow (by omega)
  calc toBinary64 n ≤ roundTo (spacing n) (2 ^ n.size) :=
        roundTo_mono _ (Nat.lt_size_self n).le
    _ = 2 ^ n.size := roundTo_of_dvd (spacing_pos n) hdvd

/-- Nor does it fall below the one before. -/
theorem two_pow_le_toBinary64 (h : k < n.size) : 2 ^ k ≤ toBinary64 n := by
  have hle : 2 ^ (n.size - 1) ≤ n := Nat.lt_size.mp (by omega)
  have hpos := precision_pos
  have hdvd : spacing n ∣ 2 ^ (n.size - 1) := spacing_dvd_two_pow (by omega)
  calc 2 ^ k ≤ 2 ^ (n.size - 1) := Nat.pow_le_pow_right (by omega) (by omega)
    _ = roundTo (spacing n) (2 ^ (n.size - 1)) := (roundTo_of_dvd (spacing_pos n) hdvd).symm
    _ ≤ toBinary64 n := roundTo_mono _ hle

/-- Rounding is monotone. -/
theorem toBinary64_mono (h : n ≤ m) : toBinary64 n ≤ toBinary64 m := by
  obtain hlt | heq := Nat.lt_or_eq_of_le (Nat.size_le_size h)
  · exact (toBinary64_le_two_pow n).trans (two_pow_le_toBinary64 hlt)
  · rw [toBinary64, toBinary64, spacing, spacing, heq]
    exact roundTo_mono _ h

/-- A binary64 number is kept. -/
theorem toBinary64_toBinary64 (n : ℕ) : toBinary64 (toBinary64 n) = toBinary64 n := by
  have hdvd : spacing n ∣ toBinary64 n := dvd_roundTo _ _
  refine roundTo_of_dvd (spacing_pos _) ?_
  obtain hlt | heq := Nat.lt_or_eq_of_le (toBinary64_le_two_pow n)
  · have hsize : (toBinary64 n).size ≤ n.size := Nat.size_le.mpr hlt
    exact (spacing_dvd_spacing hsize).trans hdvd
  · -- rounded up to a power of two, which has one bit more
    have hpos := precision_pos
    rw [heq]
    exact spacing_dvd_two_pow (by rw [Nat.size_pow]; omega)

end

/-- `acc + w` in binary64, for a whole `w` that is first rounded itself. -/
def addBinary64 (acc w : ℕ) : ℕ := toBinary64 (acc + toBinary64 w)

theorem toBinary64_addBinary64 (acc w : ℕ) :
    toBinary64 (addBinary64 acc w) = addBinary64 acc w := by
  rw [addBinary64, toBinary64_toBinary64]

/-- A total that is a binary64 number does not shrink. -/
theorem le_addBinary64 {acc : ℕ} (h : toBinary64 acc = acc) (w : ℕ) : acc ≤ addBinary64 acc w := by
  rw [addBinary64]
  calc acc = toBinary64 acc := h.symm
    _ ≤ toBinary64 (acc + toBinary64 w) := toBinary64_mono (Nat.le_add_right acc _)

/-- The running total in binary64. -/
def sumBinary64 (ws : List ℕ) : ℕ := ws.foldl addBinary64 0

section
variable {ws : List ℕ}

/-- A running total does not shrink. -/
theorem le_foldl_addBinary64 {acc : ℕ} (h : toBinary64 acc = acc) :
    acc ≤ ws.foldl addBinary64 acc := by
  induction ws generalizing acc with
  | nil => exact le_rfl
  | cons w ws ih =>
      rw [List.foldl_cons]
      exact (le_addBinary64 h w).trans (ih (toBinary64_addBinary64 acc w))

/-- A total without more bits is exact. -/
theorem foldl_addBinary64 (acc : ℕ) (h : acc + ws.sum < 2 ^ precision) :
    ws.foldl addBinary64 acc = acc + ws.sum := by
  induction ws generalizing acc with
  | nil => simp
  | cons w ws ih =>
      rw [List.sum_cons] at h ⊢
      have hstep : addBinary64 acc w = acc + w := by
        rw [addBinary64, toBinary64_of_lt (by omega : w < 2 ^ precision),
          toBinary64_of_lt (by omega)]
      rw [List.foldl_cons, hstep, ih _ (by omega)]
      omega

theorem sumBinary64_eq_sum (h : ws.sum < 2 ^ precision) : sumBinary64 ws = ws.sum := by
  simpa [sumBinary64] using foldl_addBinary64 0 (by simpa using h)

end
end Llmxy
