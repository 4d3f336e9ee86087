import Mathlib.Data.List.Basic
import Mathlib.Data.List.Infix
import Mathlib.Data.List.TakeWhile
import Mathlib.Algebra.Ring.Int.Defs
import Mathlib.Algebra.GroupWithZero.Nat
import Mathlib.Algebra.BigOperators.Group.List.Basic
import Mathlib.Tactic.Common

/-!
# Python strings

A Python string is a list of code points.  Code points rather than Lean's `Char`,
because a lone surrogate is a code point of a Python string.

## Main definitions

* `Str`, `str` — strings, and literals as strings.
* `isSpace`, `strip`, `startsWith`, `join`, `splitlines`, `lower`.
* `showInt` — `str(n)` of an integer.
* `isDigit`, `parseInt` — `s.isdigit()` and `int(s)`.
* `length_join` — how long a joined text is.
* `splitlinesFrom_newline` — the lines around a newline.
-/

namespace Llmxy

/-- A Python string: its code points. -/
abbrev Str := List ℕ

instance Str.lawfulBEq : LawfulBEq Str := inferInstance

/-- A string literal. -/
def str (s : String) : Str := s.toList.map Char.toNat

/-- `c.isspace()`. -/
def isSpace (c : ℕ) : Bool :=
  (9 ≤ c && c ≤ 13) || (28 ≤ c && c ≤ 32) || c == 133 || c == 160 || c == 5760 ||
    (8192 ≤ c && c ≤ 8202) || c == 8232 || c == 8233 || c == 8239 || c == 8287 || c == 12288

/-- A text without the characters at its ends that are to be stripped. -/
def stripBy (space : ℕ → Bool) (s : Str) : Str :=
  ((s.dropWhile space).reverse.dropWhile space).reverse

/-- `s.lstrip()`. -/
def lstrip (s : Str) : Str := s.dropWhile isSpace

/-- `s.rstrip()`. -/
def rstrip (s : Str) : Str := (s.reverse.dropWhile isSpace).reverse

/-- `s.strip()`. -/
def strip (s : Str) : Str := rstrip (lstrip s)

/-- `s.startswith(p)`. -/
def startsWith (p s : Str) : Bool := p.isPrefixOf s

/-- `sep.join(parts)`. -/
def join (sep : Str) (parts : List Str) : Str := (parts.intersperse sep).flatten

/-- `str(n)` of a natural number. -/
def showNat (n : ℕ) : Str := str (toString n)

/-- `str(n)` of an integer. -/
def showInt (n : ℤ) : Str := if n < 0 then str "-" ++ showNat n.natAbs else showNat n.natAbs

/-- `c.lower()` of one code point, for the ASCII letters; other code points that
have a lower case are kept. -/
def lowerAscii (c : ℕ) : ℕ := if 65 ≤ c ∧ c ≤ 90 then c + 32 else c

/-- Does `str.splitlines` end a line at `c`? -/
def isLineBreak (c : ℕ) : Bool :=
  (10 ≤ c && c ≤ 13) || (28 ≤ c && c ≤ 30) || c == 133 || c == 8232 || c == 8233

/-- The lines of a string, the current one collected in reverse. -/
def splitlinesFrom : Str → Str → List Str
  | cur, [] => if cur.isEmpty then [] else [cur.reverse]
  | cur, 13 :: 10 :: s => cur.reverse :: splitlinesFrom [] s
  | cur, c :: s =>
      if isLineBreak c then cur.reverse :: splitlinesFrom [] s else splitlinesFrom (c :: cur) s

/-- The code points of the decimal digit zero; the digits 1 to 9 follow each. -/
def decimalZeros : List ℕ :=
  [48, 1632, 1776, 1984, 2406, 2534, 2662, 2790, 2918, 3046, 3174, 3302, 3430, 3558, 3664, 3792,
    3872, 4160, 4240, 6112, 6160, 6470, 6608, 6784, 6800, 6992, 7088, 7232, 7248, 42528, 43216,
    43264, 43472, 43504, 43600, 44016, 65296, 66720, 68912, 69734, 69872, 69942, 70096, 70384,
    70736, 70864, 71248, 71360, 71472, 71904, 72016, 72784, 73040, 73120, 92768, 92864, 93008,
    120782, 120792, 120802, 120812, 120822, 123200, 123632, 125264, 130032]

/-- The ranges of the digits that are not decimal, such as superscripts. -/
def otherDigits : List (ℕ × ℕ) :=
  [(178, 179), (185, 185), (4969, 4977), (6618, 6618), (8304, 8304), (8308, 8313), (8320, 8329),
    (9312, 9320), (9332, 9340), (9352, 9360), (9450, 9450), (9461, 9469), (9471, 9471),
    (10102, 10110), (10112, 10120), (10122, 10130), (68160, 68163), (69216, 69224),
    (69714, 69722), (127232, 127242)]

/-- The value of a decimal digit. -/
def decimalValue (c : ℕ) : Option ℕ :=
  (decimalZeros.find? fun z => z ≤ c && c ≤ z + 9).map (c - ·)

/-- `s.isdigit()`. -/
def isDigit (s : Str) : Bool :=
  !s.isEmpty && s.all fun c =>
    (decimalValue c).isSome || otherDigits.any fun r => r.1 ≤ c && c ≤ r.2

/-- Decimal digits with single underscores between them. -/
def parseDigits : Bool → ℕ → Str → Option ℕ
  | afterDigit, acc, [] => if afterDigit then some acc else none
  | afterDigit, acc, c :: s =>
      if c = 95 then if afterDigit then parseDigits false acc s else none
      else (decimalValue c).bind fun d => parseDigits true (acc * 10 + d) s

/-- The most digits `int` converts. -/
def maxIntDigits : ℕ := 4300

theorem zero_lt_pow_maxIntDigits : 0 < 10 ^ maxIntDigits := Nat.pow_pos (by decide)

/-- The white space that `int` strips: that of `isspace` without the separators of ASCII. -/
def isIntSpace (c : ℕ) : Bool := isSpace c && !(28 ≤ c && c ≤ 31)

/-- `int(s)`, `none` for a `ValueError`. -/
def parseInt (s : Str) : Option ℤ :=
  let s := stripBy isIntSpace s
  let digits := match s with
    | 43 :: r => r
    | 45 :: r => r
    | r => r
  if maxIntDigits < (digits.filter (· ≠ 95)).length then none
  else (parseDigits false 0 digits).map fun n => if s.head? = some 45 then -(n : ℤ) else n

/-- `s.lower()` for a comparison with an ASCII text without the letters i and k,
which no other code point is lowered to. -/
def lower (s : Str) : Str := s.map lowerAscii

/-- `s.splitlines()`. -/
def splitlines (s : Str) : List Str := splitlinesFrom [] s

example : parseInt (str " -1_0 ") = some (-10) := by decide
example : parseInt (str "1__0") = none := by decide
example : parseInt (28 :: str "5") = none ∧ parseInt (160 :: str "5") = some 5 := by decide
example : isDigit [178] = true ∧ parseInt [178] = none := by decide

/-! ### Lengths -/

theorem length_join (sep : Str) (parts : List Str) :
    (join sep parts).length =
      (parts.map List.length).sum + (parts.length - 1) * sep.length := by
  match parts with
  | [] => simp [join]
  | [p] => simp [join]
  | p :: q :: parts =>
      have ih := length_join sep (q :: parts)
      simp only [join, List.intersperse_cons_cons, List.flatten_cons, List.length_append,
        List.map_cons, List.sum_cons, List.length_cons, Nat.add_sub_cancel] at ih ⊢
      rw [ih, Nat.add_mul, Nat.one_mul]
      omega

/-! ### Lines -/

/-- A line is as long as the text at most. -/
theorem length_le_of_mem_splitlinesFrom {cur s line : Str} (h : line ∈ splitlinesFrom cur s) :
    line.length ≤ cur.length + s.length := by
  fun_induction splitlinesFrom cur s with
  | case1 cur hcur => simp at h
  | case2 cur hcur => simp at h; simp [h]
  | case3 cur s ih =>
      rcases List.mem_cons.mp h with rfl | h
      · simp
      · have := ih h
        simp only [List.length_nil, List.length_cons] at this ⊢
        omega
  | case4 cur c s hcr hbreak ih =>
      rcases List.mem_cons.mp h with rfl | h
      · simp
      · have := ih h
        simp only [List.length_nil, List.length_cons] at this ⊢
        omega
  | case5 cur c s hcr hbreak ih =>
      have := ih h
      simp only [List.length_cons] at this ⊢
      omega

theorem splitlinesFrom_cons {c : ℕ} {s : Str} (h : c = 13 → s.head? ≠ some 10) (cur : Str) :
    splitlinesFrom cur (c :: s) =
      if isLineBreak c then cur.reverse :: splitlinesFrom [] s
      else splitlinesFrom (c :: cur) s := by
  rw [splitlinesFrom.eq_def]
  split
  · next heq => cases heq
  · next heq =>
      obtain ⟨rfl, rfl⟩ := List.cons.inj heq
      exact absurd rfl (h rfl)
  · next heq =>
      obtain ⟨rfl, rfl⟩ := List.cons.inj heq
      rfl

/-- The lines around a newline. -/
theorem splitlinesFrom_newline (cur s t : Str) :
    splitlinesFrom cur (s ++ 10 :: t) = splitlinesFrom cur (s ++ [10]) ++ splitlines t := by
  -- only the last carriage return before the newline belongs to it
  have hhead : ∀ {c : ℕ} {s : Str}, (∀ s', c = 13 → s = 10 :: s' → False) → (c = 13 → s ≠ []) →
      ∀ u, c = 13 → (s ++ 10 :: u).head? ≠ some 10 := by
    intro c s hne hnil u hc
    cases s with
    | nil => exact absurd rfl (hnil hc)
    | cons d s => simpa using fun hd => hne s hc (by rw [hd])
  fun_induction splitlinesFrom cur s with
  | case1 cur hcur => rfl
  | case2 cur hcur => rfl
  | case3 cur s ih => exact congrArg (cur.reverse :: ·) ih
  | case4 cur c s hne hc ih =>
      by_cases hcr : c = 13 → s ≠ []
      · rw [List.cons_append, List.cons_append, splitlinesFrom_cons (hhead hne hcr t),
          splitlinesFrom_cons (hhead hne hcr []), if_pos hc, if_pos hc, ih, List.cons_append]
      · obtain ⟨rfl, hnil⟩ := Classical.not_imp.mp hcr
        obtain rfl := not_not.mp hnil
        rfl
  | case5 cur c s hne hc ih =>
      have hcr : c = 13 → s ≠ [] := fun heq => absurd (by rw [heq]; rfl) hc
      rw [List.cons_append, List.cons_append, splitlinesFrom_cons (hhead hne hcr t),
        splitlinesFrom_cons (hhead hne hcr []), if_neg hc, if_neg hc, ih]

/-- A text has a line. -/
theorem splitlinesFrom_ne_nil {cur s : Str} (h : cur ≠ [] ∨ s ≠ []) :
    splitlinesFrom cur s ≠ [] := by
  fun_induction splitlinesFrom cur s with
  | case1 cur hcur => exact absurd (List.isEmpty_iff.mp hcur) (h.resolve_right (not_not.mpr rfl))
  | case2 cur hcur => exact List.cons_ne_nil _ _
  | case3 cur s ih => exact List.cons_ne_nil _ _
  | case4 cur c s hne hc ih => exact List.cons_ne_nil _ _
  | case5 cur c s hne hc ih => exact ih (.inl (List.cons_ne_nil c cur))

/-! ### Strips -/

/-- Stripping from the left stops at the first character that is no space. -/
theorem lstrip_append {s t : Str} (h : ∃ c ∈ s, isSpace c = false) :
    lstrip (s ++ t) = lstrip s ++ t := by
  unfold lstrip
  rw [List.dropWhile_append, if_neg]
  obtain ⟨c, hc, hspace⟩ := h
  intro hnil
  have := List.dropWhile_eq_nil_iff.mp (List.isEmpty_iff.mp hnil) c hc
  rw [hspace] at this
  cases this

/-- A text that ends in no space is not stripped from the right. -/
theorem rstrip_concat {s : Str} {c : ℕ} (h : isSpace c = false) :
    rstrip (s ++ [c]) = s ++ [c] := by
  simp [rstrip, h]

/-! ### Decimal numbers -/

def isAsciiDigit (c : ℕ) : Bool := 48 ≤ c && c ≤ 57

/-- The number that decimal digits write. -/
def natOfDigits (ds : Str) : ℕ := ds.foldl (fun n d => n * 10 + (d - 48)) 0

theorem digit_bounds {d : ℕ} (h : isAsciiDigit d = true) : 48 ≤ d ∧ d ≤ 57 := by
  simpa [isAsciiDigit] using h

theorem showNat_eq (n : ℕ) : showNat n = (Nat.toDigits 10 n).map Char.toNat := by
  rw [showNat, str, Nat.toString_eq_ofList_toDigits, String.toList_ofList]

theorem isAsciiDigit_of_mem_showNat {n c : ℕ} (h : c ∈ showNat n) : isAsciiDigit c = true := by
  rw [showNat_eq] at h
  obtain ⟨d, hd, rfl⟩ := List.mem_map.mp h
  have hdigit := Nat.isDigit_of_mem_toDigits (by decide) le_rfl hd
  simp only [Char.isDigit, Bool.and_eq_true, decide_eq_true_eq] at hdigit
  have hlow : 48 ≤ d.toNat := UInt32.le_iff_toNat_le.mp hdigit.1
  have hhigh : d.toNat ≤ 57 := UInt32.le_iff_toNat_le.mp hdigit.2
  simp [isAsciiDigit, hlow, hhigh]

theorem showNat_of_lt {n : ℕ} (h : n < 10) : showNat n = [48 + n] := by
  rw [showNat_eq, Nat.toDigits_of_lt_base h]
  have : ∀ n < 10, [n.digitChar].map Char.toNat = [48 + n] := by decide
  exact this n h

theorem showNat_of_le {n : ℕ} (h : 10 ≤ n) : showNat n = showNat (n / 10) ++ [48 + n % 10] := by
  have hlast : ∀ d < 10, [d.digitChar].map Char.toNat = [48 + d] := by decide
  rw [showNat_eq, showNat_eq, Nat.toDigits_of_base_le (by decide) h, List.map_append,
    hlast _ (Nat.mod_lt n (by decide))]

theorem showNat_ne_nil (n : ℕ) : showNat n ≠ [] := by
  rw [showNat_eq, Ne, List.map_eq_nil_iff]
  exact Nat.toDigits_ne_nil

/-- The digits of a number are read as the number. -/
theorem natOfDigits_showNat (n : ℕ) : natOfDigits (showNat n) = n := by
  induction n using Nat.strongRecOn with
  | _ n ih =>
      by_cases h : n < 10
      · rw [showNat_of_lt h]
        simp [natOfDigits]
      · have hrest := ih (n / 10) (by omega)
        rw [natOfDigits] at hrest
        rw [showNat_of_le (by omega), natOfDigits, List.foldl_append, hrest]
        simp only [List.foldl_cons, List.foldl_nil]
        omega

/-- An integer starts with a digit, or with a minus and a digit. -/
theorem showInt_head (n : ℤ) : ∃ d t, isAsciiDigit d = true ∧
    (showInt n = d :: t ∨ showInt n = 45 :: d :: t) := by
  cases h : showNat n.natAbs with
  | nil => exact absurd h (showNat_ne_nil _)
  | cons d t =>
      have hd := isAsciiDigit_of_mem_showNat (h ▸ List.mem_cons_self : d ∈ showNat n.natAbs)
      refine ⟨d, t, hd, ?_⟩
      rw [showInt, h]
      split_ifs
      · exact Or.inr rfl
      · exact Or.inl rfl

/-- Different integers are written differently. -/
theorem showInt_injective {n m : ℤ} (h : showInt n = showInt m) : n = m := by
  have hsign : ∀ a b : ℕ, showNat a ≠ str "-" ++ showNat b := by
    intro a b hab
    have hdash : 45 ∈ showNat a := by
      rw [hab]
      exact List.mem_cons_self
    have := digit_bounds (isAsciiDigit_of_mem_showNat hdash)
    omega
  have hnat : ∀ a b : ℕ, showNat a = showNat b → a = b := by
    intro a b hab
    rw [← natOfDigits_showNat a, hab, natOfDigits_showNat]
  unfold showInt at h
  split_ifs at h with hn hm hm
  · have := hnat _ _ (List.append_cancel_left h)
    omega
  · exact absurd h.symm (hsign _ _)
  · exact absurd h (hsign _ _)
  · have := hnat _ _ h
    omega

end Llmxy
