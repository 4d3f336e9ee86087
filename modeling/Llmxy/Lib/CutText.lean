import Llmxy.Lib.Dumps
import Llmxy.Lib.Pieces

/-!
# Where a JSON text can be cut

A text that `dumps` writes consists of printable ASCII characters and of the characters
of the value's own strings, where these are not ASCII and not escaped.  Cut at one of
the latter, the text is no JSON: it breaks off within a string.

## Main definitions

* `Json.chars`, `Written` — the characters of a text, `written_dumps`.
* `BrokenOff` — what may stand where a text was cut, `loads_cut`.
-/

namespace Llmxy
variable {style : DumpStyle}

mutual

/-- The characters of the strings and keys of a value. -/
def Json.chars : Json → Str
  | .str s => s
  | .arr xs => charsElements xs
  | .obj fields => charsFields fields
  | _ => []

def charsElements : List Json → Str
  | [] => []
  | x :: xs => x.chars ++ charsElements xs

def charsFields : List (Str × Json) → Str
  | [] => []
  | (k, x) :: fs => k ++ x.chars ++ charsFields fs

end

mutual

/-- Each key is ASCII. -/
def Json.AsciiKeys : Json → Prop
  | .arr xs => AsciiKeysElements xs
  | .obj fields => AsciiKeysFields fields
  | _ => True

def AsciiKeysElements : List Json → Prop
  | [] => True
  | x :: xs => x.AsciiKeys ∧ AsciiKeysElements xs

def AsciiKeysFields : List (Str × Json) → Prop
  | [] => True
  | (k, x) :: fs => (∀ c ∈ k, c < 128) ∧ x.AsciiKeys ∧ AsciiKeysFields fs

end

/-- A value that is read back, with no characters but ASCII and those of `own`, which do
not stand in keys. -/
structure Clean (own : Str) (v : Json) : Prop where
  plain : v.Plain
  keys : v.AsciiKeys
  chars : ∀ c ∈ v.chars, c < 128 ∨ c ∈ own

/-- Different ASCII keys. -/
def GoodKeys (keys : List Str) : Prop := keys.Nodup ∧ ∀ k ∈ keys, ∀ c ∈ k, c < 128

instance (keys : List Str) : Decidable (GoodKeys keys) := by unfold GoodKeys; infer_instance

section Clean
variable {own : Str}

theorem isText_of_ascii {s : Str} (h : ∀ c ∈ s, c < 128) : IsText s := fun c hc =>
  Or.inl (by have := h c hc; omega)

theorem clean_null : Clean own .null := ⟨trivial, trivial, fun c hc => by cases hc⟩

theorem clean_int {n : ℤ} (h : n.natAbs < 10 ^ maxIntDigits) : Clean own (.int n) :=
  ⟨h, trivial, fun c hc => by cases hc⟩

theorem clean_ascii {s : Str} (h : ∀ c ∈ s, c < 128) : Clean own (.str s) :=
  ⟨isText_of_ascii h, trivial, fun c hc => Or.inl (h c hc)⟩

theorem clean_own (h : IsText own) : Clean own (.str own) := ⟨h, trivial, fun _ hc => Or.inr hc⟩

theorem clean_arr {xs : List Json} (h : xs.Forall (Clean own)) : Clean own (.arr xs) := by
  rw [List.forall_iff_forall_mem] at h
  induction xs with
  | nil => exact ⟨trivial, trivial, fun c hc => by cases hc⟩
  | cons x xs ih =>
      have hx := h x List.mem_cons_self
      have hxs := ih fun y hy => h y (List.mem_cons_of_mem _ hy)
      refine ⟨⟨hx.plain, hxs.plain⟩, ⟨hx.keys, hxs.keys⟩, fun c hc => ?_⟩
      rcases List.mem_append.mp hc with hc | hc
      · exact hx.chars c hc
      · exact hxs.chars c hc

theorem clean_obj {fields : List (Str × Json)} (hkeys : GoodKeys (fields.map Prod.fst))
    (h : fields.Forall fun f => Clean own f.2) : Clean own (.obj fields) := by
  rw [List.forall_iff_forall_mem] at h
  induction fields with
  | nil => exact ⟨trivial, trivial, fun c hc => by cases hc⟩
  | cons f fs ih =>
      obtain ⟨hnodup, hascii⟩ := hkeys
      obtain ⟨hnew, hnodup⟩ := List.nodup_cons.mp hnodup
      have hf := h f List.mem_cons_self
      have hkey := hascii _ List.mem_cons_self
      have hfs := ih ⟨hnodup, fun k hk => hascii k (List.mem_cons_of_mem _ hk)⟩
        fun g hg => h g (List.mem_cons_of_mem _ hg)
      refine ⟨⟨isText_of_ascii hkey, fun g hg heq => hnew ?_, hf.plain, hfs.plain⟩,
        ⟨hkey, hf.keys, hfs.keys⟩, fun c hc => ?_⟩
      · rw [← heq]
        exact List.mem_map_of_mem hg
      · rcases List.mem_append.mp hc with hc | hc
        · rcases List.mem_append.mp hc with hc | hc
          · exact Or.inl (hkey c hc)
          · exact hf.chars c hc
        · exact hfs.chars c hc

end Clean

/-- A character of a text that was written: a printable ASCII character, or one of the
value's own characters. -/
def Written (style : DumpStyle) (own : Str) (c : ℕ) : Prop :=
  (32 ≤ c ∧ c < 128) ∨ (style.ensureAscii = false ∧ 128 ≤ c ∧ c ∈ own ∧ IsScalar c)

theorem Written.mono {own own' : Str} {c : ℕ} (h : Written style own c)
    (hsub : ∀ c ∈ own, c ∈ own') : Written style own' c :=
  h.imp_right fun ⟨hraw, hbig, hmem, hscalar⟩ => ⟨hraw, hbig, hsub c hmem, hscalar⟩

/-- No character below the space is written. -/
theorem Written.low {own : Str} {c : ℕ} (h : Written style own c) : 32 ≤ c := by
  rcases h with h | ⟨-, h, -⟩ <;> omega

theorem written_hexChar {own : Str} {n : ℕ} (h : n < 16) : Written style own (hexChar n) := by
  have : ∀ n < 16, 32 ≤ hexChar n ∧ hexChar n < 128 := by decide
  exact Or.inl (this n h)

theorem written_unicodeEscape {own : Str} {n c : ℕ} (h : n < 0x10000)
    (hc : c ∈ unicodeEscape n) : Written style own c := by
  simp only [unicodeEscape, List.mem_cons, List.not_mem_nil, or_false] at hc
  rcases hc with rfl | rfl | rfl | rfl | rfl | rfl
  · exact Or.inl (by decide)
  · exact Or.inl (by decide)
  all_goals exact written_hexChar (by omega)

theorem written_escapeChar {d c : ℕ} (hd : IsScalar d) (hc : c ∈ escapeChar style d) :
    Written style [d] c := by
  have hmax : d < 0x110000 := by unfold IsScalar at hd; omega
  obtain ⟨e, he, htext⟩ | ⟨hbmp, htext⟩ | ⟨-, -, htext⟩ | ⟨-, -, hlow, hraw, htext⟩ :=
    escapeChar_cases style d <;> rw [htext] at hc
  · have hshort : ∀ p ∈ shortEscapes, 32 ≤ p.2 ∧ p.2 < 128 := by decide
    simp only [List.mem_cons, List.not_mem_nil, or_false] at hc
    rcases hc with rfl | rfl
    · exact Or.inl (by decide)
    · exact Or.inl (hshort _ he)
  · exact written_unicodeEscape hbmp hc
  · rcases List.mem_append.mp hc with hc | hc
    · exact written_unicodeEscape (by simp only [surrogates]; omega) hc
    · exact written_unicodeEscape (by simp only [surrogates]; omega) hc
  · rw [List.mem_singleton.mp hc]
    by_cases hascii : d < 128
    · exact Or.inl ⟨hlow, hascii⟩
    · refine Or.inr ⟨?_, by omega, List.mem_singleton_self d, hd⟩
      cases hstyle : style.ensureAscii with
      | true => exact absurd (hraw hstyle) (by omega)
      | false => rfl

theorem written_quote {s : Str} (hs : IsText s) {c : ℕ} (hc : c ∈ quote style s) :
    Written style s c := by
  simp only [quote, List.mem_cons, List.mem_append, List.not_mem_nil, or_false] at hc
  rcases hc with rfl | hc | rfl
  · exact Or.inl (by decide)
  · obtain ⟨d, hd, hc⟩ := List.mem_flatMap.mp hc
    refine (written_escapeChar (hs d hd) hc).mono fun c' hc' => ?_
    rw [List.mem_singleton.mp hc']
    exact hd
  · exact Or.inl (by decide)

theorem written_itemSep {own : Str} {c : ℕ} (hc : c ∈ style.itemSep) : Written style own c := by
  rcases List.mem_cons.mp hc with rfl | hc
  · exact Or.inl (by decide)
  · rw [List.eq_of_mem_replicate hc]
    exact Or.inl (by decide)

theorem written_keySep {own : Str} {c : ℕ} (hc : c ∈ style.keySep) : Written style own c := by
  rcases List.mem_cons.mp hc with rfl | hc
  · exact Or.inl (by decide)
  · rw [List.eq_of_mem_replicate hc]
    exact Or.inl (by decide)

theorem written_showInt {own : Str} {n : ℤ} {c : ℕ} (hc : c ∈ showInt n) :
    Written style own c := by
  have hdigits : ∀ c ∈ showNat n.natAbs, 32 ≤ c ∧ c < 128 := fun c hc => by
    have := digit_bounds (isAsciiDigit_of_mem_showNat hc)
    omega
  unfold showInt at hc
  split_ifs at hc
  · rcases List.mem_append.mp hc with hc | hc
    · rw [show str "-" = [45] from rfl, List.mem_singleton] at hc
      rw [hc]
      exact Or.inl (by decide)
    · exact Or.inl (hdigits c hc)
  · exact Or.inl (hdigits c hc)

mutual

theorem written_dumps : ∀ (v : Json) {c : ℕ}, v.Plain → c ∈ dumps style v →
    Written style v.chars c
  | .null, c, _, hc => by
      have : ∀ c ∈ str "null", 32 ≤ c ∧ c < 128 := by decide
      exact Or.inl (this c hc)
  | .bool b, c, _, hc => by
      have : ∀ b : Bool, ∀ c ∈ (if b then str "true" else str "false"), 32 ≤ c ∧ c < 128 := by
        decide
      exact Or.inl (this b c hc)
  | .int n, c, _, hc => written_showInt hc
  | .str s, c, hv, hc => written_quote hv hc
  | .arr [], c, _, hc => by
      have : ∀ c ∈ [91, 93], 32 ≤ c ∧ c < 128 := by decide
      rw [dumps] at hc
      exact Or.inl (this c hc)
  | .arr (x :: xs), c, ⟨hx, hxs⟩, hc => by
      simp only [dumps, List.mem_cons, List.mem_append, List.not_mem_nil, or_false] at hc
      rw [Json.chars, charsElements]
      rcases hc with rfl | (hc | hc) | rfl
      · exact Or.inl (by decide)
      · exact (written_dumps x hx hc).mono fun c hc => List.mem_append_left _ hc
      · exact (written_dumpsMore xs hxs hc).mono fun c hc => List.mem_append_right _ hc
      · exact Or.inl (by decide)
  | .obj [], c, _, hc => by
      have : ∀ c ∈ [123, 125], 32 ≤ c ∧ c < 128 := by decide
      rw [dumps] at hc
      exact Or.inl (this c hc)
  | .obj ((k, x) :: fs), c, ⟨hk, _, hx, hfs⟩, hc => by
      simp only [dumps, List.mem_cons, List.mem_append, List.not_mem_nil, or_false] at hc
      rw [Json.chars, charsFields]
      rcases hc with rfl | (((hc | hc) | hc) | hc) | rfl
      · exact Or.inl (by decide)
      · exact (written_quote hk hc).mono fun c hc => by simp [hc]
      · exact written_keySep hc
      · exact (written_dumps x hx hc).mono fun c hc => by simp [hc]
      · exact (written_dumpsMoreFields fs hfs hc).mono fun c hc => by simp [hc]
      · exact Or.inl (by decide)

theorem written_dumpsMore : ∀ (xs : List Json) {c : ℕ}, PlainElements xs →
    c ∈ dumpsMore style xs → Written style (charsElements xs) c
  | [], c, _, hc => by simp [dumpsMore] at hc
  | x :: xs, c, ⟨hx, hxs⟩, hc => by
      simp only [dumpsMore, List.mem_append] at hc
      rw [charsElements]
      rcases hc with (hc | hc) | hc
      · exact written_itemSep hc
      · exact (written_dumps x hx hc).mono fun c hc => List.mem_append_left _ hc
      · exact (written_dumpsMore xs hxs hc).mono fun c hc => List.mem_append_right _ hc

theorem written_dumpsMoreFields : ∀ (fs : List (Str × Json)) {c : ℕ}, PlainFields fs →
    c ∈ dumpsMoreFields style fs → Written style (charsFields fs) c
  | [], c, _, hc => by simp [dumpsMoreFields] at hc
  | (k, x) :: fs, c, ⟨hk, _, hx, hfs⟩, hc => by
      simp only [dumpsMoreFields, List.mem_append] at hc
      rw [charsFields]
      rcases hc with (((hc | hc) | hc) | hc) | hc
      · exact written_itemSep hc
      · exact (written_quote hk hc).mono fun c hc => by simp [hc]
      · exact written_keySep hc
      · exact (written_dumps x hx hc).mono fun c hc => by simp [hc]
      · exact (written_dumpsMoreFields fs hfs hc).mono fun c hc => by simp [hc]

end

/-! ### Texts that break off

A character that is not ASCII stands within a string.  A text that breaks off there, or
goes on with a control character, is no JSON. -/

section Split
variable {α : Type} {a s p q : List α} {b : α}

/-- A character of a text of two parts is in the first or in the second. -/
theorem split_append (h : a ++ s = p ++ b :: q) :
    (∃ q', a = p ++ b :: q') ∨ ∃ p', p = a ++ p' ∧ s = p' ++ b :: q := by
  rcases List.append_eq_append_iff.mp h with ⟨p', rfl, hs⟩ | ⟨a', rfl, hs⟩
  · exact Or.inr ⟨p', rfl, hs⟩
  · cases a' with
    | nil => exact Or.inr ⟨[], by simp, hs.symm⟩
    | cons c a' =>
        obtain ⟨rfl, -⟩ := List.cons.inj hs
        exact Or.inl ⟨a', rfl⟩

theorem split_append_right (h : a ++ s = p ++ b :: q) (hb : b ∉ a) :
    ∃ p', p = a ++ p' ∧ s = p' ++ b :: q := by
  rcases split_append h with ⟨q', rfl⟩ | h
  · exact absurd (by simp) hb
  · exact h

theorem split_append_left (h : a ++ s = p ++ b :: q) (hb : b ∉ s) : ∃ q', a = p ++ b :: q' := by
  rcases split_append h with h | ⟨p', -, rfl⟩
  · exact h
  · exact absurd (by simp) hb

end Split

theorem escapeChar_self {c : ℕ} (hraw : style.ensureAscii = false) (hc : 128 ≤ c) :
    escapeChar style c = [c] := by
  unfold escapeChar
  rw [if_neg (by omega), if_neg (by omega), if_neg (by omega), if_neg (by omega),
    if_neg (by omega), if_neg (by omega), if_neg (by omega), if_neg (by omega),
    if_neg (by simp [hraw])]

/-- The text of a string up to one of its characters. -/
theorem escape_split {s p q : Str} {b : ℕ} (hs : IsText s) (hb : 128 ≤ b)
    (h : escape style s = p ++ b :: q) :
    ∃ s₁ s₂, s = s₁ ++ b :: s₂ ∧ p = escape style s₁ ∧ q = escape style s₂ := by
  induction s generalizing p with
  | nil => simp [escape] at h
  | cons c s ih =>
      rw [escape_cons] at h
      by_cases hmem : b ∈ escapeChar style c
      · -- a character that is not ASCII is written as itself
        rcases written_escapeChar (hs c List.mem_cons_self) hmem with hascii | ⟨hraw, -, hown, -⟩
        · omega
        · obtain rfl := List.mem_singleton.mp hown
          rw [escapeChar_self hraw hb] at h
          cases p with
          | nil =>
              obtain ⟨-, rfl⟩ := List.cons.inj h
              exact ⟨[], s, rfl, rfl, rfl⟩
          | cons d p =>
              obtain ⟨rfl, h'⟩ := List.cons.inj h
              obtain ⟨s₁, s₂, rfl, rfl, rfl⟩ :=
                ih (fun c' hc' => hs c' (List.mem_cons_of_mem _ hc')) h'
              refine ⟨b :: s₁, s₂, rfl, ?_, rfl⟩
              rw [escape_cons, escapeChar_self hraw hb]
              rfl
      · obtain ⟨p', rfl, hp'⟩ := split_append_right h hmem
        obtain ⟨s₁, s₂, rfl, rfl, rfl⟩ := ih (fun c' hc' => hs c' (List.mem_cons_of_mem _ hc')) hp'
        exact ⟨c :: s₁, s₂, rfl, rfl, rfl⟩

/-- What may stand where a text broke off: nothing, or the end of a line. -/
def BrokenOff (t : Str) : Prop := t = [] ∨ ∃ t', t = 10 :: t'

theorem parseString_brokenOff {s t : Str} (hs : IsText s) (ht : BrokenOff t) :
    parseString (escape style s ++ t) = none := by
  have hnone : scanString t = none := by
    rcases ht with rfl | ⟨t', rfl⟩
    · rfl
    · rw [scanString.eq_def]
      rfl
  rw [parseString, scanString_escape style hs, hnone]
  rfl

theorem quote_brokenOff {k p q t : Str} {b : ℕ} (hk : IsText k) (hb : 128 ≤ b)
    (h : quote style k = p ++ b :: q) (ht : BrokenOff t) :
    ∃ p', p = 34 :: p' ∧ parseString (p' ++ t) = none := by
  cases p with
  | nil =>
      have := (List.cons.inj h).1
      omega
  | cons c p' =>
      obtain ⟨rfl, h'⟩ := List.cons.inj h
      have hquote : b ∉ [34] := by
        rw [List.mem_singleton]
        omega
      obtain ⟨q', hq'⟩ := split_append_left h' hquote
      obtain ⟨s₁, s₂, rfl, rfl, -⟩ := escape_split hk hb hq'
      exact ⟨_, rfl, parseString_brokenOff (fun c hc => hk c (by simp [hc])) ht⟩

theorem not_mem_of_written {a own : Str} {b : ℕ} (h : ∀ c ∈ a, Written style own c)
    (hb : 128 ≤ b) (hown : b ∉ own) : b ∉ a := by
  intro hmem
  rcases h b hmem with hascii | ⟨-, -, hin, -⟩
  · omega
  · exact hown hin

theorem not_mem_itemSep {b : ℕ} (hb : 128 ≤ b) : b ∉ style.itemSep :=
  @not_mem_of_written _ _ [] _ (fun _ => written_itemSep) hb (by simp)

theorem not_mem_keySep {b : ℕ} (hb : 128 ≤ b) : b ∉ style.keySep :=
  @not_mem_of_written _ _ [] _ (fun _ => written_keySep) hb (by simp)

/-- There is something before the character where the text of a value is cut. -/
theorem cut_head {v : Json} (hv : v.Plain) {p q r : Str} {b : ℕ} (hb : 128 ≤ b)
    (h : dumps style v ++ r = p ++ b :: q) :
    ∃ c p', p = c :: p' ∧ 32 < c ∧ c ≠ 93 ∧ c ≠ 125 := by
  obtain ⟨c, t, htext, hlow, hhigh, harr, hobj⟩ := @dumps_head style v hv
  rw [htext] at h
  cases p with
  | nil =>
      have := (List.cons.inj h).1
      omega
  | cons d p' =>
      obtain ⟨rfl, -⟩ := List.cons.inj h
      exact ⟨c, p', rfl, hlow, harr, hobj⟩

theorem parseElements_none {n : ℕ} {s : Str} (h : parseValue n s = none) :
    parseElements (n + 1) s = none := by
  rw [parseElements, h]
  rfl

theorem parseMembers_none_key {n : ℕ} {s : Str} (fields : List (Str × Json))
    (h : parseString s = none) : parseMembers (n + 1) fields (34 :: s) = none := by
  rw [parseMembers, h]
  rfl

theorem parseMembers_none_value {n : ℕ} {s t k : Str} (fields : List (Str × Json))
    (hk : parseString s = some (k, 58 :: t)) (h : parseValue n (skipWs t) = none) :
    parseMembers (n + 1) fields (34 :: s) = none := by
  have hcolon : skipWs (58 :: t) = 58 :: t := skipWs_cons (by decide) t
  simp [parseMembers, hk, hcolon, h]

mutual

theorem parseValue_cut : ∀ (v : Json) {n : ℕ} {p q t : Str} {b : ℕ}, v.Plain →
    dumps style v = p ++ b :: q → 128 ≤ b → BrokenOff t → 2 * (dumps style v).length + 1 ≤ n →
      parseValue n (p ++ t) = none
  | v, 0, p, q, t, b, _, _, _, _, hn => by omega
  | .null, n + 1, p, q, t, b, hv, h, hb, _, _ =>
      absurd (h ▸ by simp) (not_mem_of_written (fun c => @written_dumps style .null c hv) hb
        (by simp [Json.chars]))
  | .bool x, n + 1, p, q, t, b, hv, h, hb, _, _ =>
      absurd (h ▸ by simp) (not_mem_of_written (fun c => @written_dumps style (.bool x) c hv)
        hb (by simp [Json.chars]))
  | .int m, n + 1, p, q, t, b, hv, h, hb, _, _ =>
      absurd (h ▸ by simp) (not_mem_of_written (fun c => @written_dumps style (.int m) c hv)
        hb (by simp [Json.chars]))
  | .str s, n + 1, p, q, t, b, hv, h, hb, ht, _ => by
      obtain ⟨p', rfl, hnone⟩ := quote_brokenOff hv hb h ht
      rw [List.cons_append, parseValue, hnone]
      rfl
  | .arr [], n + 1, p, q, t, b, hv, h, hb, _, _ =>
      absurd (h ▸ by simp) (not_mem_of_written (fun c => @written_dumps style (.arr []) c hv)
        hb (by simp [Json.chars, charsElements]))
  | .arr (x :: xs), n + 1, p, q, t, b, ⟨hx, hxs⟩, h, hb, ht, hn => by
      rw [dumps] at h hn
      simp only [List.length_cons, List.length_append] at hn
      cases p with
      | nil =>
          have := (List.cons.inj h).1
          omega
      | cons c p =>
          obtain ⟨rfl, h'⟩ := List.cons.inj h
          replace h' : dumps style x ++ (dumpsMore style xs ++ [93]) = p ++ b :: q := by
            rw [← List.append_assoc]
            exact h'
          have hnone := parseElements_cut x xs (n := n) (t := t) hx hxs h' hb ht (by omega)
          obtain ⟨d, p', rfl, hd, harr, -⟩ := cut_head hx hb h'
          have hskip : skipWs (d :: p' ++ t) = d :: p' ++ t := skipWs_cons hd _
          rw [List.cons_append, parseValue_arr hskip (by simpa using harr), hnone]
          rfl
  | .obj [], n + 1, p, q, t, b, hv, h, hb, _, _ =>
      absurd (h ▸ by simp) (not_mem_of_written (fun c => @written_dumps style (.obj []) c hv)
        hb (by simp [Json.chars, charsFields]))
  | .obj ((k, x) :: fs), n + 1, p, q, t, b, hv, h, hb, ht, hn => by
      rw [dumps] at h hn
      simp only [List.length_cons, List.length_append] at hn
      cases p with
      | nil =>
          have := (List.cons.inj h).1
          omega
      | cons c p =>
          obtain ⟨rfl, h'⟩ := List.cons.inj h
          replace h' : quote style k ++ style.keySep ++
              (dumps style x ++ (dumpsMoreFields style fs ++ [125])) = p ++ b :: q := by
            rw [← List.append_assoc, ← List.append_assoc]
            exact h'
          have hnone := parseMembers_cut k x fs [] (n := n) (t := t) hv h' hb ht
            (by simp only [List.length_append]; omega)
          rw [quote_keySep] at h'
          cases p with
          | nil =>
              have := (List.cons.inj h').1
              omega
          | cons d p =>
              obtain ⟨rfl, -⟩ := List.cons.inj h'
              have hskip : skipWs (34 :: p ++ t) = 34 :: p ++ t := skipWs_cons (by decide) _
              rw [List.cons_append, parseValue_obj hskip (by simp), hnone]
              rfl

theorem parseElements_cut : ∀ (x : Json) (xs : List Json) {n : ℕ} {p q t : Str} {b : ℕ}, x.Plain →
    PlainElements xs → dumps style x ++ (dumpsMore style xs ++ [93]) = p ++ b :: q → 128 ≤ b →
      BrokenOff t → 2 * ((dumps style x).length + (dumpsMore style xs).length) + 2 ≤ n →
        parseElements n (p ++ t) = none
  | x, xs, 0, p, q, t, b, _, _, _, _, _, hn => by omega
  | x, xs, n + 1, p, q, t, b, hx, hxs, h, hb, ht, hn => by
      rcases split_append h with ⟨q', hq'⟩ | ⟨p', rfl, hp'⟩
      · exact parseElements_none (parseValue_cut x hx hq' hb ht (by omega))
      · match xs, hxs, hp', hn with
        | [], _, hp', _ =>
            have hmem : b ∈ [93] := by
              rw [dumpsMore, List.nil_append] at hp'
              rw [hp']
              simp
            rw [List.mem_singleton] at hmem
            omega
        | y :: ys, ⟨hy, hys⟩, hp', hn =>
            replace hp' : style.itemSep ++ (dumps style y ++ (dumpsMore style ys ++ [93])) =
                p' ++ b :: q := by
              rw [← hp', dumpsMore]
              simp
            obtain ⟨p'', rfl, hp''⟩ := split_append_right hp' (not_mem_itemSep hb)
            obtain ⟨c, p₀, rfl, hc, -⟩ := cut_head hy hb hp''
            have hvalue := @parseValue_dumps style x n
              (44 :: (List.replicate style.itemGap 32 ++ (c :: p₀ ++ t))) hx (by omega)
              (by simp [Delimited])
            have htext : dumps style x ++ (style.itemSep ++ c :: p₀) ++ t =
                dumps style x ++ 44 :: (List.replicate style.itemGap 32 ++ (c :: p₀ ++ t)) := by
              simp [DumpStyle.itemSep]
            simp only [dumpsMore, DumpStyle.itemSep, List.length_append, List.length_cons] at hn
            rw [htext, parseElements_next hvalue, skipWs_gap, List.cons_append, skipWs_cons hc,
              ← List.cons_append, parseElements_cut y ys hy hys hp'' hb ht (by omega)]
            rfl

theorem parseMembers_cut : ∀ (k : Str) (x : Json) (fs fields : List (Str × Json)) {n : ℕ}
    {p q t : Str} {b : ℕ}, PlainFields ((k, x) :: fs) →
      quote style k ++ style.keySep ++ (dumps style x ++ (dumpsMoreFields style fs ++ [125])) =
        p ++ b :: q → 128 ≤ b → BrokenOff t →
      2 * ((quote style k ++ style.keySep).length + (dumps style x).length +
        (dumpsMoreFields style fs).length) + 2 ≤ n → parseMembers n fields (p ++ t) = none
  | k, x, fs, fields, 0, p, q, t, b, _, _, _, _, hn => by omega
  | k, x, fs, fields, n + 1, p, q, t, b, ⟨hk, hnew, hx, hfs⟩, h, hb, ht, hn => by
      simp only [List.length_append] at hn
      rw [List.append_assoc] at h
      rcases split_append h with ⟨q', hq'⟩ | ⟨p', rfl, hp'⟩
      · -- in the key
        obtain ⟨p', rfl, hnone⟩ := quote_brokenOff hk hb hq' ht
        exact parseMembers_none_key fields hnone
      obtain ⟨p'', rfl, hp''⟩ := split_append_right hp' (not_mem_keySep hb)
      have htext : quote style k ++ (style.keySep ++ p'') ++ t =
          34 :: (escape style k ++ 34 :: 58 :: (List.replicate style.keyGap 32 ++ (p'' ++ t))) := by
        simp [quote, DumpStyle.keySep]
      have hkey := parseString_escape style hk
        (58 :: (List.replicate style.keyGap 32 ++ (p'' ++ t)))
      rw [htext]
      rcases split_append hp'' with ⟨q', hq'⟩ | ⟨p₀, rfl, hp₀⟩
      · -- in the value
        obtain ⟨c, p', hp', hc, -⟩ := cut_head (r := []) hx hb (by rw [List.append_nil]; exact hq')
        have hskip : skipWs (p'' ++ t) = p'' ++ t := by
          rw [hp', List.cons_append, skipWs_cons hc]
        refine parseMembers_none_value fields hkey ?_
        rw [skipWs_gap, hskip]
        exact parseValue_cut x hx hq' hb ht (by omega)
      · match fs, hfs, hp₀, hn with
        | [], _, hp₀, _ =>
            have hmem : b ∈ [125] := by
              rw [dumpsMoreFields, List.nil_append] at hp₀
              rw [hp₀]
              simp
            rw [List.mem_singleton] at hmem
            omega
        | (l, y) :: gs, hfs, hp₀, hn =>
            replace hp₀ : style.itemSep ++ (quote style l ++ style.keySep ++
                (dumps style y ++ (dumpsMoreFields style gs ++ [125]))) = p₀ ++ b :: q := by
              rw [← hp₀, dumpsMoreFields]
              simp
            obtain ⟨p₁, rfl, hp₁⟩ := split_append_right hp₀ (not_mem_itemSep hb)
            obtain ⟨p₂, rfl⟩ : ∃ p₂, p₁ = 34 :: p₂ := by
              rw [quote_keySep] at hp₁
              cases p₁ with
              | nil =>
                  have := (List.cons.inj hp₁).1
                  omega
              | cons c p₂ => exact ⟨p₂, by rw [(List.cons.inj hp₁).1]⟩
            have hvalue := @parseValue_dumps style x n
              (44 :: (List.replicate style.itemGap 32 ++ (34 :: p₂ ++ t))) hx (by omega)
              (by simp [Delimited])
            have hmore : dumps style x ++ (style.itemSep ++ 34 :: p₂) ++ t =
                dumps style x ++ 44 :: (List.replicate style.itemGap 32 ++ (34 :: p₂ ++ t)) := by
              simp [DumpStyle.itemSep]
            rw [hmore] at hkey ⊢
            rw [← skipWs_dumps hx, ← skipWs_gap style.keyGap] at hvalue
            simp only [dumpsMoreFields, DumpStyle.itemSep, List.length_append, List.length_cons] at hn
            rw [parseMembers_next hkey hvalue, skipWs_gap, List.cons_append,
              skipWs_cons (by decide), ← List.cons_append]
            exact parseMembers_cut l y gs _ hfs hp₁ hb ht (by simp only [List.length_append]; omega)

end

/-- **A text that breaks off at a character that is not ASCII is no JSON.** -/
theorem loads_cut {v : Json} (hv : v.Plain) {p q t : Str} {b : ℕ} (h : dumps style v = p ++ b :: q)
    (hb : 128 ≤ b) (ht : BrokenOff t) : loads (p ++ t) = none := by
  obtain ⟨c, p', hp', hc, -⟩ := cut_head (r := []) hv hb (by rw [List.append_nil]; exact h)
  have hskip : skipWs (p ++ t) = p ++ t := by
    rw [hp', List.cons_append, skipWs_cons hc]
  have hlen : 2 * (p ++ t).length + 1 ≤ 2 * (dumps style v).length + 2 * (p ++ t).length + 1 := by
    omega
  rw [loads_eq hlen, hskip, parseValue_cut v hv h hb ht (by omega)]
  rfl

/-! ### A string within a value -/

/-- The text of a value with a string in it: what stands before and after the characters
of the string. -/
def Hole (style : DumpStyle) (value : Str → Json) (before after : Str) : Prop :=
  ∀ s, dumps style (value s) = before ++ (escape style s ++ after)

theorem hole_str : Hole style .str [34] [34] := fun s => by
  rw [dumps, quote]
  rfl

/-- The text of an array before an element. -/
def beforeElement (style : DumpStyle) : List Json → Str
  | [] => [91]
  | x :: xs => 91 :: (dumps style x ++ dumpsMore style xs ++ style.itemSep)

/-- The text of an object before the value of a key. -/
def beforeField (style : DumpStyle) (key : Str) : List (Str × Json) → Str
  | [] => 123 :: (quote style key ++ style.keySep)
  | (k, x) :: fs =>
      123 :: (quote style k ++ style.keySep ++ dumps style x ++ dumpsMoreFields style fs ++
        style.itemSep ++ quote style key ++ style.keySep)

theorem beforeField_head (key : Str) (fs : List (Str × Json)) :
    ∃ t, beforeField style key fs = 123 :: t := by
  cases fs <;> exact ⟨_, rfl⟩

theorem dumpsMore_append (xs ys : List Json) :
    dumpsMore style (xs ++ ys) = dumpsMore style xs ++ dumpsMore style ys := by
  induction xs with
  | nil => rfl
  | cons x xs ih => simp [dumpsMore, ih]

theorem dumpsMoreFields_append (fs gs : List (Str × Json)) :
    dumpsMoreFields style (fs ++ gs) = dumpsMoreFields style fs ++ dumpsMoreFields style gs := by
  induction fs with
  | nil => rfl
  | cons f fs ih => simp [dumpsMoreFields, ih]

theorem Hole.arr {value : Str → Json} {before after : Str} (h : Hole style value before after)
    (xs ys : List Json) :
    Hole style (fun s => .arr (xs ++ value s :: ys)) (beforeElement style xs ++ before)
      (after ++ (dumpsMore style ys ++ [93])) := fun s => by
  cases xs with
  | nil => simp [dumps, beforeElement, h s]
  | cons x xs => simp [dumps, dumpsMore_append, dumpsMore, beforeElement, h s]

theorem Hole.obj {value : Str → Json} {before after : Str} (h : Hole style value before after)
    (key : Str) (fs gs : List (Str × Json)) :
    Hole style (fun s => .obj (fs ++ (key, value s) :: gs)) (beforeField style key fs ++ before)
      (after ++ (dumpsMoreFields style gs ++ [125])) := fun s => by
  rcases fs with _ | ⟨⟨k, x⟩, fs⟩
  · simp [dumps, beforeField, h s]
  · simp [dumps, dumpsMoreFields_append, dumpsMoreFields, beforeField, h s]

section Hole
variable {own s e before after : Str} {value : Str → Json}

/-- A value with ASCII strings is written in ASCII. -/
theorem dumps_ascii {v : Json} (h : Clean [] v) {c : ℕ} (hc : c ∈ dumps style v) :
    32 ≤ c ∧ c < 128 := by
  rcases written_dumps v h.plain hc with hascii | ⟨-, hbig, hown, -⟩
  · exact hascii
  · rcases h.chars c hown with hsmall | hnil
    · omega
    · cases hnil

/-- All but the string is ASCII. -/
theorem Hole.ascii (h : Hole style value before after) (hclean : Clean [] (value [])) {c : ℕ}
    (hc : c ∈ before ++ after) : 32 ≤ c ∧ c < 128 := by
  refine @dumps_ascii style _ hclean _ ?_
  rw [h []]
  exact hc

theorem thins_escape (hs : IsText s) (h : Thins (escape style s) e) :
    ∃ s', e = escape style s' ∧ Thins s s' := by
  induction s generalizing e with
  | nil =>
      cases h
      exact ⟨[], rfl, .nil⟩
  | cons c s ih =>
      obtain ⟨e₁, e₂, rfl, h₁, h₂⟩ := Thins.of_append (a := escapeChar style c) h
      obtain ⟨s', rfl, hs'⟩ := ih (fun c' hc' => hs c' (List.mem_cons_of_mem _ hc')) h₂
      by_cases hascii : ∀ d ∈ escapeChar style c, d < 128
      · rw [h₁.eq_of_ascii hascii]
        exact ⟨c :: s', rfl, .keep c hs'⟩
      · -- the character is written as itself, and it may be lost
        push Not at hascii
        obtain ⟨d, hd, hbig⟩ := hascii
        rcases written_escapeChar (hs c List.mem_cons_self) hd with hsmall | ⟨hraw, -, hown, -⟩
        · omega
        · obtain rfl := List.mem_singleton.mp hown
          have hself := escapeChar_self hraw hbig
          rw [hself] at h₁
          cases h₁ with
          | keep _ h₁ =>
              cases h₁
              refine ⟨d :: s', ?_, .keep d hs'⟩
              rw [escape_cons, hself]
          | drop _ h₁ =>
              cases h₁
              exact ⟨s', rfl, .drop hbig hs'⟩

/-- What is left of a text that has lost characters is the text of what is left of the
string. -/
theorem Hole.thins (h : Hole style value before after) (hclean : Clean [] (value []))
    (hs : IsText s) (he : Thins (dumps style (value s)) e) :
    ∃ s', e = dumps style (value s') ∧ Thins s s' := by
  rw [h s] at he
  obtain ⟨e₁, e₂, rfl, h₁, h₂⟩ := he.of_append
  obtain ⟨e₂, e₃, rfl, h₂, h₃⟩ := h₂.of_append
  obtain ⟨s', rfl, hs'⟩ := thins_escape hs h₂
  have h₁' := h₁.eq_of_ascii fun c hc => (h.ascii hclean (List.mem_append_left _ hc)).2
  have h₃' := h₃.eq_of_ascii fun c hc => (h.ascii hclean (List.mem_append_right _ hc)).2
  exact ⟨s', by rw [h s', h₁', h₃'], hs'⟩

end Hole

/-- **A text that breaks off within a string is no JSON.** -/
theorem loads_hole {before after s t : Str} {value : Str → Json}
    (h : Hole style value before after) (hplain : ∀ s, IsText s → (value s).Plain)
    (hraw : style.ensureAscii = false) (hs : IsText s) (ht : BrokenOff t) :
    loads (before ++ (escape style s ++ t)) = none := by
  -- the same string, with a character that is written as it is after it
  have hs' : IsText (s ++ [0x2028]) := by
    intro c hc
    rcases List.mem_append.mp hc with hc | hc
    · exact hs c hc
    · rw [List.mem_singleton.mp hc]
      decide
  have htext : dumps style (value (s ++ [0x2028])) = (before ++ escape style s) ++ 0x2028 :: after := by
    rw [h, escape, List.flatMap_append, List.flatMap_singleton, escapeChar_self hraw (by decide),
      escape]
    simp
  rw [← List.append_assoc]
  exact loads_cut (hplain _ hs') htext (by decide) ht

theorem Thins.isText {s t : Str} (h : Thins s t) (hs : IsText s) : IsText t := fun c hc =>
  hs c (h.sublist.subset hc)

end Llmxy
