import Llmxy.Protocols.ChatChunk
import Mathlib.Data.List.Induction

/-!
# Data lines

What the decoders read off a `data:` line with a JSON object on it: the object, if the
line holds all of its text.  `str.splitlines` also ends a line at a character of a string
that JSON leaves as it is; the first part of such a line is no JSON.

## Main definitions

* `dataText` — the text of a `data:` line, `dataText_object`, `dataText_cut`.
-/

namespace Llmxy
variable {style : DumpStyle}

/-! ### Stripping -/

theorem lstrip_cons {c : ℕ} (h : isSpace c = false) (s : Str) : lstrip (c :: s) = c :: s := by
  simp [lstrip, h]

/-- A text that starts and ends with a character that is no space is not stripped. -/
theorem strip_of_ends {c d : ℕ} {m : Str} (hc : isSpace c = false) (hd : isSpace d = false) :
    strip (c :: (m ++ [d])) = c :: (m ++ [d]) := by
  rw [strip, lstrip_cons hc, ← List.cons_append, rstrip_concat hd]

theorem exists_of_lstrip (s : Str) :
    ∃ sp, s = sp ++ lstrip s ∧ ∀ c ∈ sp, isSpace c = true :=
  ⟨s.takeWhile isSpace, (List.takeWhile_append_dropWhile (p := isSpace)).symm,
    fun _ hc => List.mem_takeWhile_imp hc⟩

theorem exists_of_rstrip (s : Str) :
    ∃ sp, s = rstrip s ++ sp ∧ ∀ c ∈ sp, isSpace c = true := by
  refine ⟨(s.reverse.takeWhile isSpace).reverse, ?_, fun c hc => ?_⟩
  · have h := List.takeWhile_append_dropWhile (p := isSpace) (l := s.reverse)
    have := congrArg List.reverse h
    rw [List.reverse_append, List.reverse_reverse] at this
    exact this.symm
  · exact List.mem_takeWhile_imp (List.mem_reverse.mp hc)

/-- What stripping takes away. -/
theorem exists_of_strip (s : Str) : ∃ sp₁ sp₂, s = sp₁ ++ (strip s ++ sp₂) ∧
    (∀ c ∈ sp₁, isSpace c = true) ∧ ∀ c ∈ sp₂, isSpace c = true := by
  obtain ⟨sp₁, h₁, hsp₁⟩ := exists_of_lstrip s
  obtain ⟨sp₂, h₂, hsp₂⟩ := exists_of_rstrip (lstrip s)
  exact ⟨sp₁, sp₂, by rw [strip, ← h₂, ← h₁], hsp₁, hsp₂⟩

theorem rstrip_concat_space {s : Str} {c : ℕ} (h : isSpace c = true) :
    rstrip (s ++ [c]) = rstrip s := by
  simp [rstrip, h]

/-- The escape of a character ends in a space only if it is the space itself. -/
theorem escapeChar_last (c : ℕ) : ∃ e d, escapeChar style c = e ++ [d] ∧
    (isSpace d = true → e = []) := by
  have hhex : ∀ n < 16, isSpace (hexChar n) = false := by decide
  have hunicode : ∀ n, ∃ e d, unicodeEscape n = e ++ [d] ∧ (isSpace d = true → e = []) := fun n =>
    ⟨[92, 117, hexChar (n / 4096), hexChar (n / 256 % 16), hexChar (n / 16 % 16)], hexChar (n % 16),
      rfl, fun h => by rw [hhex _ (by omega)] at h; cases h⟩
  obtain ⟨d, hd, htext⟩ | ⟨-, htext⟩ | ⟨-, -, htext⟩ | ⟨-, -, -, -, htext⟩ :=
    escapeChar_cases style c <;> rw [htext]
  · have hshort : ∀ p ∈ shortEscapes, isSpace p.2 = false := by decide
    refine ⟨[92], d, rfl, fun h => ?_⟩
    rw [hshort _ hd] at h
    cases h
  · exact hunicode c
  · refine ⟨unicodeEscape (surrogates c).1 ++ [92, 117, hexChar ((surrogates c).2 / 4096),
      hexChar ((surrogates c).2 / 256 % 16), hexChar ((surrogates c).2 / 16 % 16)],
      hexChar ((surrogates c).2 % 16), by simp [unicodeEscape], fun h => ?_⟩
    rw [hhex _ (by omega)] at h
    cases h
  · exact ⟨[], c, rfl, fun _ => rfl⟩

/-- The spaces that a string ends with are stripped off its text. -/
theorem rstrip_escape {before : Str} {d : ℕ} (hd : isSpace d = false) (s : Str) :
    ∃ s', s' <+: s ∧
      rstrip (before ++ d :: escape style s) = before ++ d :: escape style s' := by
  induction s using List.reverseRecOn with
  | nil =>
      refine ⟨[], List.nil_prefix, ?_⟩
      exact rstrip_concat hd
  | append_singleton s c ih =>
      obtain ⟨e, d', hlast, hspace⟩ := @escapeChar_last style c
      have htext : before ++ d :: escape style (s ++ [c]) =
          (before ++ d :: (escape style s ++ e)) ++ [d'] := by
        rw [escape, List.flatMap_append, List.flatMap_singleton, hlast, escape]
        simp
      cases hd' : isSpace d' with
      | false =>
          exact ⟨s ++ [c], List.prefix_rfl, by rw [htext, rstrip_concat hd']⟩
      | true =>
          obtain ⟨s', hs', hstrip⟩ := ih
          have hnil := hspace hd'
          subst hnil
          refine ⟨s', hs'.trans (List.prefix_append _ _), ?_⟩
          rw [htext, rstrip_concat_space hd', List.append_nil, hstrip]

/-! ### The text on a line -/

/-- `line.strip()[5:].strip()` of a line that starts with `data:`. -/
def dataText (line : Str) : Option Str :=
  if startsWith (str "data:") (strip line) then some (strip ((strip line).drop 5)) else none

/-- The decoders skip an empty text and the end of the stream. -/
theorem dataOf_strip (line : Str) :
    dataOf (strip line) = (dataText line).filter fun t => !(t.isEmpty || t == str "[DONE]") := by
  unfold dataOf dataText
  by_cases h : startsWith (str "data:") (strip line) = true
  · rw [if_pos h, if_pos h]
    by_cases hskip : ((strip ((strip line).drop 5)).isEmpty ||
        strip ((strip line).drop 5) == str "[DONE]") = true
    · simp only [hskip, if_true, Option.filter, Bool.not_true]
      rfl
    · rw [Bool.not_eq_true] at hskip
      simp only [hskip, Bool.false_eq_true, if_false, Option.filter, Bool.not_false, if_true]
  · rw [if_neg h, if_neg h]
    rfl

/-- The whole text of an object is read. -/
theorem dataText_object (m : Str) :
    dataText (str "data: " ++ 123 :: (m ++ [125])) = some (123 :: (m ++ [125])) := by
  have hline : str "data: " ++ 123 :: (m ++ [125]) =
      100 :: ((str "ata: " ++ 123 :: m) ++ [125]) := by
    rw [show str "data: " = 100 :: str "ata: " from rfl]
    simp
  have hdrop : (100 :: ((str "ata: " ++ 123 :: m) ++ [125])).drop 5 = 32 :: (123 :: (m ++ [125])) := by
    rw [show str "ata: " = [97, 116, 97, 58, 32] from rfl]
    simp
  have hstart : startsWith (str "data:") (100 :: ((str "ata: " ++ 123 :: m) ++ [125])) = true := by
    rw [show str "ata: " = [97, 116, 97, 58, 32] from rfl]
    rfl
  have hspace : strip (32 :: (123 :: (m ++ [125]))) = strip (123 :: (m ++ [125])) := rfl
  rw [dataText, hline, strip_of_ends (by decide) (by decide), if_pos hstart, hdrop, hspace,
    strip_of_ends (by decide) (by decide)]

/-- A line that ends within a string of an object. -/
theorem dataText_cut (before s : Str) :
    ∃ s', s' <+: s ∧ dataText (str "data: " ++ (123 :: (before ++ 34 :: escape style s))) =
      some (123 :: (before ++ 34 :: escape style s')) := by
  obtain ⟨s₁, hs₁, hstrip₁⟩ :=
    @rstrip_escape style (str "data: " ++ 123 :: before) 34 (by decide) s
  obtain ⟨s₂, hs₂, hstrip₂⟩ := @rstrip_escape style (123 :: before) 34 (by decide) s₁
  have hline : str "data: " ++ 123 :: (before ++ 34 :: escape style s) =
      (str "data: " ++ 123 :: before) ++ 34 :: escape style s := by
    simp
  have hlstrip : lstrip ((str "data: " ++ 123 :: before) ++ 34 :: escape style s) =
      (str "data: " ++ 123 :: before) ++ 34 :: escape style s := rfl
  have hdrop : ((str "data: " ++ 123 :: before) ++ 34 :: escape style s₁).drop 5 =
      32 :: ((123 :: before) ++ 34 :: escape style s₁) := rfl
  have hstart : startsWith (str "data:")
      ((str "data: " ++ 123 :: before) ++ 34 :: escape style s₁) = true := rfl
  have hspace : lstrip (32 :: ((123 :: before) ++ 34 :: escape style s₁)) =
      (123 :: before) ++ 34 :: escape style s₁ := rfl
  refine ⟨s₂, hs₂.trans hs₁, ?_⟩
  rw [dataText, hline, strip, hlstrip, hstrip₁, if_pos hstart, hdrop, strip, hspace, hstrip₂]
  rfl

/-! ### Lines within a string -/

theorem isLineBreak_iff {c : ℕ} (h : 32 ≤ c) : isLineBreak c = true ↔ IsUnicodeBreak c := by
  unfold isLineBreak IsUnicodeBreak
  simp only [Bool.or_eq_true, Bool.and_eq_true, decide_eq_true_eq, beq_iff_eq]
  omega

theorem not_isLineBreak_of_ascii {c : ℕ} (h : 32 ≤ c ∧ c < 128) : isLineBreak c = false := by
  rw [Bool.eq_false_iff, Ne, isLineBreak_iff h.1]
  unfold IsUnicodeBreak
  omega

theorem written_escape {s : Str} (hs : IsText s) {c : ℕ} (hc : c ∈ escape style s) :
    Written style s c := by
  refine written_quote hs ?_
  simp [quote, hc]

theorem not_isLineBreak_escape {s : Str} (hs : IsText s) (hbreak : ∀ c ∈ s, ¬ IsUnicodeBreak c)
    {c : ℕ} (hc : c ∈ escape style s) : isLineBreak c = false := by
  rcases written_escape hs hc with hascii | ⟨-, hbig, hown, -⟩
  · exact not_isLineBreak_of_ascii hascii
  · rw [Bool.eq_false_iff, Ne, isLineBreak_iff (by omega)]
    exact hbreak c hown

/-- The first character of a kind. -/
theorem exists_first {p : ℕ → Prop} [DecidablePred p] {s : Str} (h : ∃ c ∈ s, p c) :
    ∃ s₁ b s₂, s = s₁ ++ b :: s₂ ∧ p b ∧ ∀ c ∈ s₁, ¬ p c := by
  induction s with
  | nil => simp at h
  | cons c s ih =>
      by_cases hc : p c
      · exact ⟨[], c, s, rfl, hc, by simp⟩
      · obtain ⟨d, hd, hpd⟩ := h
        have hds : d ∈ s := (List.mem_cons.mp hd).resolve_left fun heq => hc (heq ▸ hpd)
        obtain ⟨s₁, b, s₂, rfl, hb, hs₁⟩ := ih ⟨d, hds, hpd⟩
        refine ⟨c :: s₁, b, s₂, rfl, hb, fun c' hc' => ?_⟩
        rcases List.mem_cons.mp hc' with rfl | hc'
        · exact hc
        · exact hs₁ c' hc'

/-- The text of a string up to a break in it. -/
theorem escape_append_break (hraw : style.ensureAscii = false) {b : ℕ} (hb : IsUnicodeBreak b)
    (s₁ s₂ : Str) : escape style (s₁ ++ b :: s₂) = escape style s₁ ++ b :: escape style s₂ := by
  have hbig : 128 ≤ b := by
    unfold IsUnicodeBreak at hb
    omega
  rw [escape, List.flatMap_append, List.flatMap_cons, escapeChar_self hraw hbig]
  rfl

/-- A text is cut at the first break of a string in it. -/
theorem splitlines_escape_break {before tail s₁ s₂ : Str} {b : ℕ}
    (hraw : style.ensureAscii = false) (hbefore : ∀ c ∈ before, isLineBreak c = false)
    (hs₁ : IsText s₁) (hnone : ∀ c ∈ s₁, ¬ IsUnicodeBreak c) (hb : IsUnicodeBreak b) :
    splitlines (before ++ (escape style (s₁ ++ b :: s₂) ++ tail)) =
      (before ++ escape style s₁) :: splitlines (escape style s₂ ++ tail) := by
  have htext : before ++ (escape style (s₁ ++ b :: s₂) ++ tail) =
      (before ++ escape style s₁) ++ b :: (escape style s₂ ++ tail) := by
    rw [escape_append_break hraw hb]
    simp
  have hline : ∀ c ∈ before ++ escape style s₁, isLineBreak c = false := fun c hc => by
    rcases List.mem_append.mp hc with hc | hc
    · exact hbefore c hc
    · exact not_isLineBreak_escape hs₁ hnone hc
  unfold IsUnicodeBreak at hb
  rw [htext, splitlines_break hline ((isLineBreak_iff (by omega)).mpr hb) (by omega)]

/-- The lines of the rest of a string and what follows it. -/
theorem mem_splitlines_escape {s tail line : Str} (hraw : style.ensureAscii = false) (hs : IsText s)
    (htail : ∀ c ∈ tail, isLineBreak c = false) (hline : line ∈ splitlines (escape style s ++ tail)) :
    ∃ t, line = escape style t ∨ line = escape style t ++ tail := by
  induction hn : s.length using Nat.strongRecOn generalizing s with
  | _ n ih =>
      by_cases hbreak : ∃ c ∈ s, IsUnicodeBreak c
      · obtain ⟨s₁, b, s₂, rfl, hb, hnone⟩ := exists_first hbreak
        have hs₁ : IsText s₁ := fun c hc => hs c (by simp [hc])
        have hs₂ : IsText s₂ := fun c hc => hs c (by simp [hc])
        have hsplit := @splitlines_escape_break style [] tail _ s₂ _ hraw (by simp)
          hs₁ hnone hb
        rw [List.nil_append, List.nil_append] at hsplit
        rw [hsplit] at hline
        rcases List.mem_cons.mp hline with rfl | hline
        · exact ⟨s₁, Or.inl rfl⟩
        · refine ih s₂.length ?_ hs₂ hline rfl
          rw [← hn, List.length_append, List.length_cons]
          omega
      · push Not at hbreak
        have hall : ∀ c ∈ escape style s ++ tail, isLineBreak c = false := fun c hc => by
          rcases List.mem_append.mp hc with hc | hc
          · exact not_isLineBreak_escape hs hbreak hc
          · exact htail c hc
        by_cases hnil : escape style s ++ tail = []
        · rw [hnil] at hline
          cases hline
        · rw [splitlines_line hall hnil, List.mem_singleton] at hline
          exact ⟨s, Or.inr hline⟩

/-- A `data:` line with what is written is one line, unless a character of it breaks it. -/
theorem not_isLineBreak_dataLine {text : Str} (hlow : ∀ c ∈ text, 32 ≤ c)
    (hline : ∀ c ∈ text, ¬ IsUnicodeBreak c) :
    ∀ c ∈ str "data: " ++ text, isLineBreak c = false := by
  have hstarts : ∀ c ∈ str "data: ", isLineBreak c = false := by decide
  intro c hc
  rcases List.mem_append.mp hc with hc | hc
  · exact hstarts c hc
  · rw [Bool.eq_false_iff, Ne, isLineBreak_iff (hlow c hc)]
    exact hline c hc

/-- **The lines of an object with a break in a string of it**: what is read off the first one
breaks off within the string, and the others start within it. -/
theorem mem_splitlines_broken {value : Str → Json} {before after t line : Str}
    {read : Str → Option Str} (hole : Hole style value (123 :: (before ++ [34])) after)
    (hclean : ∀ s, IsText s → Clean s (value s)) (hraw : style.ensureAscii = false)
    (ht : IsText t) (hbreak : ∃ c ∈ t, IsUnicodeBreak c)
    (hcut : ∀ s, ∃ s', s' <+: s ∧
      read (str "data: " ++ (123 :: (before ++ 34 :: escape style s))) =
        some (123 :: (before ++ 34 :: escape style s')))
    (hline : line ∈ splitlines (str "data: " ++ dumps style (value t))) :
    (∀ raw, read line = some raw → loads raw = none) ∨
      ∃ s, line = escape style s ∨ line = escape style s ++ after := by
  have hascii := fun {c} => hole.ascii (hclean [] nofun) (c := c)
  obtain ⟨s₁, b, s₂, rfl, hb, hnone⟩ := exists_first hbreak
  have hs₁ : IsText s₁ := fun c hc => ht c (by simp [hc])
  have hs₂ : IsText s₂ := fun c hc => ht c (by simp [hc])
  have hbefore : ∀ c ∈ 123 :: (before ++ [34]), ¬ IsUnicodeBreak c := fun c hc => by
    have := hascii (List.mem_append_left _ hc)
    unfold IsUnicodeBreak
    omega
  have hlines := @splitlines_escape_break style _ after _ s₂ _ hraw
    (not_isLineBreak_dataLine (fun c hc => (hascii (List.mem_append_left _ hc)).1) hbefore)
    hs₁ hnone hb
  rw [hole, ← List.append_assoc, hlines] at hline
  rcases List.mem_cons.mp hline with rfl | hline
  · refine .inl fun raw hread => ?_
    obtain ⟨s', hs', hcut⟩ := hcut s₁
    have hfirst : str "data: " ++ (123 :: (before ++ [34])) ++ escape style s₁ =
        str "data: " ++ (123 :: (before ++ 34 :: escape style s₁)) := by
      simp
    rw [hfirst, hcut] at hread
    have hbroken := loads_hole hole (fun s hs => (hclean s hs).plain) hraw
      (fun c hc => hs₁ c (hs'.subset hc)) (.inl rfl : BrokenOff [])
    rw [← Option.some.inj hread]
    simpa using hbroken
  · exact .inr (mem_splitlines_escape hraw hs₂
      (fun c hc => not_isLineBreak_of_ascii (hascii (List.mem_append_right _ hc))) hline)

/-! ### Objects on a line -/

theorem decimalToFloat_ne_obj (neg : Bool) (m d : ℕ) (e : ℤ) (fs : List (Str × Json)) :
    decimalToFloat neg m d e ≠ .obj fs := by
  unfold decimalToFloat
  split_ifs
  · exact nofun
  · exact nofun
  · split <;> exact nofun

theorem parseScalar_ne_obj {s r : Str} {fs : List (Str × Json)} :
    parseScalar s ≠ some (.obj fs, r) := by
  intro h
  unfold parseScalar at h
  split at h
  · rename_i l hl
    have hmem := List.mem_of_find?_eq_some hl
    have hliterals : ∀ l ∈ literals, ∀ fs, l.2 ≠ .obj fs := by
      simp [literals]
    exact hliterals l hmem fs (congrArg Prod.fst (Option.some.inj h))
  · unfold parseNumber at h
    dsimp only at h
    split_ifs at h
    · exact nomatch congrArg Prod.fst (Option.some.inj h)
    · exact nomatch congrArg Prod.fst (Option.some.inj h)
    · exact decimalToFloat_ne_obj _ _ _ _ _ (congrArg Prod.fst (Option.some.inj h))

/-- A text that is read as an object with a key: a brace, a quote, a string and a colon. -/
theorem parseValue_obj_inv {n : ℕ} {s r : Str} {f : Str × Json} {fs : List (Str × Json)}
    (h : parseValue n s = some (.obj (f :: fs), r)) :
    ∃ t u, s = 123 :: t ∧ skipWs t = 34 :: u ∧
      ∃ k v w, parseString u = some (k, v) ∧ skipWs v = 58 :: w := by
  cases n with
  | zero => cases h
  | succ n =>
      unfold parseValue at h
      split at h
      · obtain ⟨_, -, h⟩ := Option.map_eq_some_iff.mp h
        cases h
      · split at h
        · cases h
        · obtain ⟨_, -, h⟩ := Option.map_eq_some_iff.mp h
          cases h
      · rename_i t
        split at h
        · cases h
        · obtain ⟨members, hmembers, -⟩ := Option.map_eq_some_iff.mp h
          cases n with
          | zero => cases hmembers
          | succ n =>
              unfold parseMembers at hmembers
              split at hmembers
              · rename_i u hu
                obtain ⟨key, hkey, hmembers⟩ := Option.bind_eq_some_iff.mp hmembers
                refine ⟨t, u, rfl, hu, key.1, key.2, ?_⟩
                split at hmembers
                · rename_i w hw
                  exact ⟨w, hkey, hw⟩
                · cases hmembers
              · cases hmembers
      · exact absurd h parseScalar_ne_obj

theorem exists_of_skipWs (s : Str) :
    ∃ ws, s = ws ++ skipWs s ∧ ∀ c ∈ ws, c = 32 ∨ c = 9 ∨ c = 10 ∨ c = 13 := by
  refine ⟨s.takeWhile fun c => c == 32 || c == 9 || c == 10 || c == 13,
    (List.takeWhile_append_dropWhile).symm, fun c hc => ?_⟩
  have := List.mem_takeWhile_imp hc
  simpa [or_assoc] using this

/-- The same of a whole text. -/
theorem loads_obj_inv {s : Str} {f : Str × Json} {fs : List (Str × Json)}
    (h : loads s = some (.obj (f :: fs))) :
    ∃ ws ws' u, s = ws ++ 123 :: (ws' ++ 34 :: u) ∧
      (∀ c ∈ ws, c = 32 ∨ c = 9 ∨ c = 10 ∨ c = 13) ∧
      (∀ c ∈ ws', c = 32 ∨ c = 9 ∨ c = 10 ∨ c = 13) ∧
      ∃ k v w, parseString u = some (k, v) ∧ skipWs v = 58 :: w := by
  obtain ⟨⟨v, r⟩, hparse, h⟩ := Option.bind_eq_some_iff.mp h
  dsimp only at h
  split_ifs at h
  obtain rfl := Option.some.inj h
  obtain ⟨t, u, ht, hu, hkey⟩ := parseValue_obj_inv hparse
  obtain ⟨ws, hws, hspace⟩ := exists_of_skipWs s
  obtain ⟨ws', hws', hspace'⟩ := exists_of_skipWs t
  refine ⟨ws, ws', u, ?_, hspace, hspace', hkey⟩
  rw [← hu, ← hws', ← ht, ← hws]

theorem eq_quote_of_mem_escapeChar {c : ℕ} (h : 34 ∈ escapeChar style c) : c = 34 := by
  have hhex : ∀ n, 34 ≠ hexChar n := fun n => by
    unfold hexChar
    split_ifs <;> omega
  have hunicode : ∀ n, 34 ∉ unicodeEscape n := by
    intro n
    simp only [unicodeEscape, List.mem_cons, List.not_mem_nil, or_false, not_or]
    exact ⟨by decide, by decide, hhex _, hhex _, hhex _, hhex _⟩
  obtain ⟨d, hd, htext⟩ | ⟨-, htext⟩ | ⟨-, -, htext⟩ | ⟨-, -, -, -, htext⟩ :=
    escapeChar_cases style c <;> rw [htext] at h
  · have hshort : ∀ p ∈ shortEscapes, p.2 = 34 → p.1 = 34 := by decide
    simp only [List.mem_cons, List.not_mem_nil, or_false] at h
    exact hshort _ hd (h.resolve_left (by decide)).symm
  · exact absurd h (hunicode c)
  · rcases List.mem_append.mp h with h | h
    · exact absurd h (hunicode _)
    · exact absurd h (hunicode _)
  · exact (List.mem_singleton.mp h).symm

/-- Within a string each quote has a backslash before it. -/
theorem escape_quote {s p q : Str} (h : escape style s = p ++ 34 :: q) : ∃ p', p = p' ++ [92] := by
  induction s generalizing p with
  | nil => simp [escape] at h
  | cons c s ih =>
      rw [escape_cons] at h
      rcases split_append h with ⟨q', hq'⟩ | ⟨p', rfl, hp'⟩
      · obtain rfl := @eq_quote_of_mem_escapeChar style c (by rw [hq']; simp)
        have hself : escapeChar style 34 = [92, 34] := rfl
        rw [hself] at hq'
        cases p with
        | nil => cases hq'
        | cons x p =>
            cases p with
            | nil =>
                obtain ⟨rfl, -⟩ := List.cons.inj hq'
                exact ⟨[], rfl⟩
            | cons y p => simp at hq'
      · obtain ⟨p'', rfl⟩ := ih hp'
        exact ⟨escapeChar style c ++ p'', by simp⟩

theorem notMem_space {sp : Str} (h : ∀ c ∈ sp, isSpace c = true) : 34 ∉ sp := fun hmem => by
  have hquote : isSpace 34 = false := by decide
  rw [h 34 hmem] at hquote
  cases hquote

/-- Before the first key of an object there is a quote, and neither a quote nor a backslash
before that. -/
theorem loads_obj_quote {pre raw : Str} {f : Str × Json} {fs : List (Str × Json)}
    (hpre : 34 ∉ pre) (hobj : loads raw = some (.obj (f :: fs))) :
    ∃ p d u, pre ++ raw = (p ++ [d]) ++ 34 :: u ∧ 34 ∉ p ++ [d] ∧ d ≠ 92 ∧
      ∃ k v w, parseString u = some (k, v) ∧ skipWs v = 58 :: w := by
  obtain ⟨ws, ws', u, hu, hws, hws', hkey⟩ := loads_obj_inv hobj
  have hblank : ∀ ws : Str, (∀ c ∈ ws, c = 32 ∨ c = 9 ∨ c = 10 ∨ c = 13) → 34 ∉ ws :=
    fun ws hws hmem => by have := hws 34 hmem; omega
  have hall : pre ++ raw = (pre ++ ws ++ 123 :: ws') ++ 34 :: u := by
    rw [hu]
    simp
  have hnone : 34 ∉ pre ++ ws ++ 123 :: ws' := by
    simp only [List.mem_append, List.mem_cons, not_or]
    exact ⟨⟨hpre, hblank _ hws⟩, by decide, hblank _ hws'⟩
  obtain ⟨p, d, hpd, hd⟩ : ∃ p d, 123 :: ws' = p ++ [d] ∧ d ≠ 92 := by
    cases hlast : ws'.reverse with
    | nil =>
        rw [List.reverse_eq_nil_iff] at hlast
        exact ⟨[], 123, by rw [hlast]; rfl, by decide⟩
    | cons d p =>
        have hws'' : ws' = p.reverse ++ [d] := by
          rw [← List.reverse_reverse ws', hlast, List.reverse_cons]
        refine ⟨123 :: p.reverse, d, by rw [hws'']; rfl, ?_⟩
        have := hws' d (by rw [hws'']; simp)
        omega
  rw [hpd, ← List.append_assoc] at hall hnone
  exact ⟨_, d, u, hall, hnone, hd, hkey⟩

/-- The first quote of the line starts a key of an object, and no backslash stands before it. -/
def HoldsKey (line : Str) : Prop :=
  ∃ p d u sp, line = (p ++ [d]) ++ 34 :: (u ++ sp) ∧ 34 ∉ p ++ [d] ∧ d ≠ 92 ∧
    (∀ c ∈ sp, isSpace c = true) ∧
    ∃ k v w, parseString u = some (k, v) ∧ skipWs v = 58 :: w

theorem dataText_loads_obj {line raw : Str} {f : Str × Json} {fs : List (Str × Json)}
    (hraw : dataText line = some raw) (hobj : loads raw = some (.obj (f :: fs))) :
    HoldsKey line := by
  have hdata : 34 ∉ str "data:" := by decide
  obtain ⟨sp₁, sp₂, hline, hsp₁, hsp₂⟩ := exists_of_strip line
  unfold dataText at hraw
  split_ifs at hraw with hstart
  obtain ⟨rest, hrest⟩ := List.isPrefixOf_iff_prefix.mp hstart
  have hdrop : (strip line).drop 5 = rest := by
    rw [← hrest]
    rfl
  obtain ⟨sp₃, sp₄, htext, hsp₃, hsp₄⟩ := exists_of_strip rest
  obtain rfl : strip rest = raw := by
    rw [← hdrop]
    exact Option.some.inj hraw
  have hpre : 34 ∉ sp₁ ++ str "data:" ++ sp₃ := by
    simp only [List.mem_append, not_or]
    exact ⟨⟨notMem_space hsp₁, hdata⟩, notMem_space hsp₃⟩
  obtain ⟨p, d, u, hall, hnone, hd, hkey⟩ := loads_obj_quote hpre hobj
  refine ⟨p, d, u, sp₄ ++ sp₂, ?_, hnone, hd, fun c hc => ?_, hkey⟩
  · calc line = (sp₁ ++ str "data:" ++ sp₃ ++ strip rest) ++ (sp₄ ++ sp₂) := by
          rw [hline, ← hrest]
          nth_rewrite 1 [htext]
          simp
      _ = (p ++ [d]) ++ 34 :: (u ++ (sp₄ ++ sp₂)) := by
          rw [hall]
          simp
  · rcases List.mem_append.mp hc with hc | hc
    · exact hsp₄ c hc
    · exact hsp₂ c hc

/-- **The first quote of a line that starts within a string** is the one that ends the
string, unless a backslash stands before it. -/
theorem first_quote {t after line p u : Str} {d : ℕ}
    (hline : line = escape style t ∨ line = escape style t ++ 34 :: after)
    (htext : line = (p ++ [d]) ++ 34 :: u) (hnone : 34 ∉ p ++ [d]) (hd : d ≠ 92) : after = u := by
  have hescaped : ∀ q, escape style t ≠ (p ++ [d]) ++ 34 :: q := by
    intro q hq
    obtain ⟨p', hp'⟩ := escape_quote hq
    exact hd (List.append_inj_right' hp' rfl |> List.cons.inj |>.1)
  rcases hline with hline | hline
  · exact absurd (hline.symm.trans htext) (hescaped _)
  · rw [hline] at htext
    rcases split_append htext with ⟨q', hq'⟩ | ⟨p', hp', htail⟩
    · exact absurd hq' (hescaped _)
    cases p' with
    | cons x p' =>
        obtain ⟨rfl, -⟩ := List.cons.inj htail
        exact absurd (by rw [hp']; simp) hnone
    | nil => exact (List.cons.inj htail).2

/-- No key of an object comes right after the quote. -/
def NoKey (after : Str) : Prop := ∀ k v w, parseString after = some (k, v) → skipWs v ≠ 58 :: w

theorem escape_of_self {s : Str} (h : ∀ c ∈ s, escapeChar style c = [c]) : escape style s = s := by
  induction s with
  | nil => rfl
  | cons c s ih =>
      rw [escape_cons, h c List.mem_cons_self, ih fun c' hc' => h c' (List.mem_cons_of_mem _ hc')]
      rfl

/-- The next quote starts a string whose first character is not a colon. -/
theorem noKey_of_next {mid rest : Str} {d : ℕ} (hmid : ∀ c ∈ mid, 32 ≤ c ∧ c < 126 ∧ c ≠ 34 ∧ c ≠ 92)
    (hlow : 32 < d) (hd : d ≠ 58) : NoKey (mid ++ 34 :: d :: rest) := by
  intro k v w hparse
  have hself : escape (.compact fun _ _ _ => []) mid = mid := by
    refine escape_of_self fun c hc => ?_
    have := hmid c hc
    unfold escapeChar
    repeat rw [if_neg (by omega)]
  have hscan := parseString_escape (.compact fun _ _ _ => []) (s := mid)
    (isText_of_ascii fun c hc => by have := hmid c hc; omega) (d :: rest)
  rw [hself, hparse] at hscan
  obtain ⟨-, rfl⟩ := Prod.mk.inj (Option.some.inj hscan)
  rw [skipWs_cons hlow]
  exact fun heq => hd (List.cons.inj heq).1

/-- **No object starts within a string**: a line that starts in one has no object with a key
on it. -/
theorem line_without_object {t m after line : Str} (hend : after = m ++ [125]) (hkey : NoKey after)
    (hline : line = escape style t ∨ line = escape style t ++ 34 :: after) :
    ¬ HoldsKey line := by
  rintro ⟨p, d, u, sp, htext, hnone, hd, hsp, k, v, w, hparse, hcolon⟩
  have hafter := first_quote hline htext hnone hd
  have hnil : sp = [] := by
    cases hlast : sp.reverse with
    | nil => exact List.reverse_eq_nil_iff.mp hlast
    | cons c q =>
        have hsp' : sp = q.reverse ++ [c] := by
          rw [← List.reverse_reverse sp, hlast, List.reverse_cons]
        rw [hend, hsp', ← List.append_assoc] at hafter
        obtain rfl : 125 = c := List.cons.inj (List.append_inj_right' hafter rfl) |>.1
        have hspace := hsp 125 (by rw [hsp']; simp)
        exact absurd hspace (by decide)
  rw [hnil, List.append_nil] at hafter
  exact hkey k v w (hafter ▸ hparse) hcolon

end Llmxy
