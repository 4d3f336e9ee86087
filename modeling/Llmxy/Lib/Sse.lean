import Llmxy.Lib.Text

/-!
# Blocks of lines

A server-sent event is a block of lines that ends in an empty line.  Both decoders keep
the text after the last block and put it before the next piece, so where a text is cut
does not matter (`splitBlank_append`).

## Main definitions

* `splitBlank` — `s.split("\n\n")` with its last part apart.
* `splitlines_line`, `splitlines_break` — the lines of a text.
-/

namespace Llmxy

/-- Put a character before the first part. -/
def consPart (c : ℕ) : List Str × Str → List Str × Str
  | ([], rest) => ([], c :: rest)
  | (p :: ps, rest) => ((c :: p) :: ps, rest)

/-- `s.split("\n\n")`: all parts but the last one, and the last one. -/
def splitBlank : Str → List Str × Str
  | [] => ([], [])
  | 10 :: 10 :: s => ([] :: (splitBlank s).1, (splitBlank s).2)
  | c :: s => consPart c (splitBlank s)

example : splitBlank (str "a\n\n\nb\n\nc") = ([str "a", str "\nb"], str "c") := by decide

/-- A text without an empty line is one part. -/
theorem splitBlank_of_nil {s : Str} (h : (splitBlank s).1 = []) : (splitBlank s).2 = s := by
  fun_induction splitBlank s with
  | case1 => rfl
  | case2 s ih => simp at h
  | case3 c s _ ih =>
      cases hs : splitBlank s with
      | mk ps rest =>
          rw [hs] at h ih
          cases ps with
          | nil => exact congrArg (c :: ·) (ih rfl)
          | cons p ps => simp [consPart] at h

theorem splitBlank_cons {c : ℕ} {s : Str} (h : c = 10 → s.head? ≠ some 10) :
    splitBlank (c :: s) = consPart c (splitBlank s) := by
  rw [splitBlank.eq_def]
  split
  · rename_i heq
    cases heq
  · rename_i heq
    obtain ⟨rfl, rfl⟩ := List.cons.inj heq
    exact absurd rfl (h rfl)
  · rename_i heq
    obtain ⟨rfl, rfl⟩ := List.cons.inj heq
    rfl

/-- **A text that comes in two pieces**: the last part of the first piece is split again,
together with the second. -/
theorem splitBlank_append (s t : Str) :
    splitBlank (s ++ t) = ((splitBlank s).1 ++ (splitBlank ((splitBlank s).2 ++ t)).1,
      (splitBlank ((splitBlank s).2 ++ t)).2) := by
  fun_induction splitBlank s with
  | case1 => rfl
  | case2 s ih =>
      rw [List.cons_append, List.cons_append, splitBlank, ih]
      rfl
  | case3 c s hne ih =>
      have hrest := @splitBlank_of_nil s
      cases hs : splitBlank s with
      | mk ps rest =>
          rw [hs] at ih hrest
          cases ps with
          | nil =>
              obtain rfl : rest = s := hrest rfl
              rfl
          | cons p ps =>
              have hhead : c = 10 → (s ++ t).head? ≠ some 10 := by
                rintro rfl hhead
                cases s with
                | nil => simp [splitBlank] at hs
                | cons d s =>
                    obtain rfl := Option.some.inj hhead
                    exact hne s rfl rfl
              rw [List.cons_append, splitBlank_cons hhead, ih]
              rfl

/-- The last part of a text is not split again. -/
theorem splitBlank_rest (s : Str) :
    splitBlank (splitBlank s).2 = ([], (splitBlank s).2) := by
  have h := splitBlank_append s []
  rw [List.append_nil, List.append_nil] at h
  have hnil : (splitBlank (splitBlank s).2).1 = [] := by
    have := congrArg Prod.fst h
    simpa using this
  exact Prod.ext hnil (splitBlank_of_nil hnil)

/-- A line before a text goes to its first part. -/
theorem splitBlank_line_append {a s p rest : Str} {ps : List Str} (ha : 10 ∉ a)
    (h : splitBlank s = (p :: ps, rest)) : splitBlank (a ++ s) = ((a ++ p) :: ps, rest) := by
  induction a with
  | nil => exact h
  | cons c a ih =>
      have hc : c ≠ 10 := fun heq => ha (by rw [heq]; exact List.mem_cons_self)
      rw [List.cons_append, splitBlank_cons fun heq => absurd heq hc,
        ih fun hmem => ha (List.mem_cons_of_mem _ hmem)]
      rfl

/-- A line and an empty line. -/
theorem splitBlank_block {a : Str} (ha : 10 ∉ a) (t : Str) :
    splitBlank (a ++ (10 :: 10 :: t)) = (a :: (splitBlank t).1, (splitBlank t).2) := by
  have h := splitBlank_line_append (s := 10 :: 10 :: t) ha rfl
  rwa [List.append_nil] at h

/-- Two lines and an empty line. -/
theorem splitBlank_block₂ {a b : Str} (ha : 10 ∉ a) (hb : 10 ∉ b) (hne : b ≠ []) (t : Str) :
    splitBlank (a ++ 10 :: (b ++ 10 :: 10 :: t)) =
      ((a ++ 10 :: b) :: (splitBlank t).1, (splitBlank t).2) := by
  have hhead : (10 : ℕ) = 10 → (b ++ 10 :: 10 :: t).head? ≠ some 10 := by
    intro _ hhead
    cases b with
    | nil => exact hne rfl
    | cons c b =>
        obtain rfl := Option.some.inj hhead
        exact hb List.mem_cons_self
  refine splitBlank_line_append (s := 10 :: (b ++ 10 :: 10 :: t)) (p := 10 :: b) ha ?_
  rw [splitBlank_cons hhead, splitBlank_block hb]
  rfl

/-! ### Lines -/

theorem splitlinesFrom_line {cur a : Str} (ha : ∀ c ∈ a, isLineBreak c = false) (s : Str) :
    splitlinesFrom cur (a ++ s) = splitlinesFrom (a.reverse ++ cur) s := by
  induction a generalizing cur with
  | nil => rfl
  | cons c a ih =>
      have hc := ha c List.mem_cons_self
      rw [List.cons_append, splitlinesFrom.eq_def]
      split
      · rename_i heq
        cases heq
      · rename_i heq
        obtain ⟨rfl, -⟩ := List.cons.inj heq
        cases hc
      · rename_i heq
        obtain ⟨rfl, rfl⟩ := List.cons.inj heq
        rw [hc, if_neg Bool.false_ne_true, ih fun c' hc' => ha c' (List.mem_cons_of_mem _ hc')]
        simp

/-- A text without a line break is one line. -/
theorem splitlines_line {a : Str} (ha : ∀ c ∈ a, isLineBreak c = false) (hne : a ≠ []) :
    splitlines a = [a] := by
  have h := @splitlinesFrom_line [] _ ha []
  rw [List.append_nil, List.append_nil] at h
  rw [splitlines, h, splitlinesFrom, if_neg (by simpa using hne), List.reverse_reverse]

/-- The first line of a text. -/
theorem splitlines_break {a : Str} {b : ℕ} (ha : ∀ c ∈ a, isLineBreak c = false)
    (hb : isLineBreak b = true) (hcr : b ≠ 13) (s : Str) :
    splitlines (a ++ b :: s) = a :: splitlines s := by
  rw [splitlines, splitlinesFrom_line ha, splitlinesFrom.eq_def]
  split
  · rename_i heq
    cases heq
  · rename_i heq
    exact absurd (List.cons.inj heq).1 hcr
  · rename_i heq
    obtain ⟨rfl, rfl⟩ := List.cons.inj heq
    rw [if_pos hb, List.append_nil, List.reverse_reverse]
    rfl

end Llmxy
