import Llmxy.Lib.Json
import Llmxy.Lib.Utf8

/-!
# Writing JSON

`json.dumps` with its two ways to write a character that is not ASCII: as it is, or
escaped.  The texts are read back by `loads` as the values they were written from, if
these have no floats, their texts have no surrogates, and their integers are short
enough to be printed.

## Main definitions

* `DumpStyle`, `dumps` — the options and the writer.
* `Json.Plain` — the values that are read back, `loads_dumps`.
-/

namespace Llmxy

/-- The options of `json.dumps`. -/
structure DumpStyle where
  /-- Characters that are not ASCII are escaped. -/
  ensureAscii : Bool
  /-- The blanks after a comma. -/
  itemGap : ℕ
  /-- The blanks after a colon. -/
  keyGap : ℕ
  /-- `repr` of the float `± mantissa * 2 ^ exponent`. -/
  float : Bool → ℕ → ℤ → Str

namespace DumpStyle

/-- `ensure_ascii=False, separators=(",", ":")`. -/
def raw (float : Bool → ℕ → ℤ → Str) : DumpStyle := ⟨false, 0, 0, float⟩

/-- `separators=(",", ":")`. -/
def compact (float : Bool → ℕ → ℤ → Str) : DumpStyle := ⟨true, 0, 0, float⟩

def itemSep (style : DumpStyle) : Str := 44 :: List.replicate style.itemGap 32

def keySep (style : DumpStyle) : Str := 58 :: List.replicate style.keyGap 32

end DumpStyle

/-- A hexadecimal digit. -/
def hexChar (n : ℕ) : ℕ := if n < 10 then 48 + n else 87 + n

/-- `\uXXXX`. -/
def unicodeEscape (n : ℕ) : Str :=
  [92, 117, hexChar (n / 4096), hexChar (n / 256 % 16), hexChar (n / 16 % 16), hexChar (n % 16)]

/-- The surrogates of a character above U+FFFF. -/
def surrogates (c : ℕ) : ℕ × ℕ := (0xD800 + (c - 0x10000) / 1024, 0xDC00 + (c - 0x10000) % 1024)

/-- A character within a string. -/
def escapeChar (style : DumpStyle) (c : ℕ) : Str :=
  if c = 34 then [92, 34]
  else if c = 92 then [92, 92]
  else if c = 8 then [92, 98]
  else if c = 9 then [92, 116]
  else if c = 10 then [92, 110]
  else if c = 12 then [92, 102]
  else if c = 13 then [92, 114]
  else if c < 32 then unicodeEscape c
  else if style.ensureAscii ∧ 126 < c then
    if c < 0x10000 then unicodeEscape c
    else unicodeEscape (surrogates c).1 ++ unicodeEscape (surrogates c).2
  else [c]

/-- The characters of a string without its quotes. -/
def escape (style : DumpStyle) (s : Str) : Str := s.flatMap (escapeChar style)

/-- A string. -/
def quote (style : DumpStyle) (s : Str) : Str := 34 :: (escape style s ++ [34])

mutual

/-- `json.dumps(v)`. -/
def dumps (style : DumpStyle) : Json → Str
  | .null => str "null"
  | .bool b => if b then str "true" else str "false"
  | .int n => showInt n
  | .float negative m e => style.float negative m e
  | .infinity negative => if negative then str "-Infinity" else str "Infinity"
  | .nan => str "NaN"
  | .str s => quote style s
  | .arr [] => [91, 93]
  | .arr (x :: xs) => 91 :: (dumps style x ++ dumpsMore style xs ++ [93])
  | .obj [] => [123, 125]
  | .obj ((k, x) :: fs) =>
      123 :: (quote style k ++ style.keySep ++ dumps style x ++ dumpsMoreFields style fs ++ [125])

/-- Further elements of an array, each after a separator. -/
def dumpsMore (style : DumpStyle) : List Json → Str
  | [] => []
  | x :: xs => style.itemSep ++ dumps style x ++ dumpsMore style xs

/-- Further members of an object, each after a separator. -/
def dumpsMoreFields (style : DumpStyle) : List (Str × Json) → Str
  | [] => []
  | (k, x) :: fs =>
      style.itemSep ++ quote style k ++ style.keySep ++ dumps style x ++ dumpsMoreFields style fs

end

/-- An integer that is not too long for `str`. -/
def IsPrintable (n : ℤ) : Prop := n.natAbs < 10 ^ maxIntDigits

instance (n : ℤ) : Decidable (IsPrintable n) := inferInstanceAs (Decidable (_ < _))

/-- A text without surrogates. -/
def IsText (s : Str) : Prop := ∀ c ∈ s, IsScalar c

mutual

/-- A value that is read back from its text. -/
def Json.Plain : Json → Prop
  | .null | .bool _ => True
  | .int n => n.natAbs < 10 ^ maxIntDigits
  | .str s => IsText s
  | .arr xs => PlainElements xs
  | .obj fields => PlainFields fields
  | _ => False

def PlainElements : List Json → Prop
  | [] => True
  | x :: xs => x.Plain ∧ PlainElements xs

/-- No key is repeated. -/
def PlainFields : List (Str × Json) → Prop
  | [] => True
  | (k, x) :: fs => IsText k ∧ (∀ f ∈ fs, f.1 ≠ k) ∧ x.Plain ∧ PlainFields fs

end

instance (s : Str) : Decidable (IsText s) := by unfold IsText; infer_instance

/-! ### Numbers -/

/-- Only zero starts with the digit zero. -/
theorem head_showNat {n c : ℕ} {t : Str} (h : showNat n = c :: t) : c = 48 → n = 0 ∧ t = [] := by
  induction n using Nat.strongRecOn generalizing t with
  | _ n ih =>
      intro hc
      by_cases hlt : n < 10
      · rw [showNat_of_lt hlt] at h
        obtain ⟨rfl, rfl⟩ := List.cons.inj h
        exact ⟨by omega, rfl⟩
      · rw [showNat_of_le (by omega)] at h
        cases hrest : showNat (n / 10) with
        | nil => exact absurd hrest (showNat_ne_nil _)
        | cons d t' =>
            rw [hrest] at h
            obtain ⟨rfl, -⟩ := List.cons.inj h
            have := (ih (n / 10) (by omega) hrest hc).1
            omega

theorem length_showNat_le {n k : ℕ} (hk : 0 < k) (h : n < 10 ^ k) : (showNat n).length ≤ k := by
  rw [showNat_eq, List.length_map]
  exact (Nat.length_toDigits_le_iff (by decide) hk).mpr h

/-- What may follow a value. -/
def Delimited (r : Str) : Prop := ∀ c ∈ r.head?, c = 44 ∨ c = 93 ∨ c = 125

theorem span_showNat (n : ℕ) {r : Str} (hr : Delimited r) :
    (showNat n ++ r).span isAsciiDigit = (showNat n, r) := by
  have hstop : r.takeWhile isAsciiDigit = [] ∧ r.dropWhile isAsciiDigit = r := by
    cases r with
    | nil => exact ⟨rfl, rfl⟩
    | cons c r =>
        have hc : isAsciiDigit c = false := by
          rcases hr c rfl with rfl | rfl | rfl <;> rfl
        simp [hc]
  have hall : ∀ c ∈ showNat n, isAsciiDigit c = true := fun c => isAsciiDigit_of_mem_showNat
  rw [List.span_eq_takeWhile_dropWhile, List.takeWhile_append_of_pos hall,
    List.dropWhile_append_of_pos hall, hstop.1, hstop.2, List.append_nil]

theorem scanInteger_showNat (n : ℕ) {r : Str} (hr : Delimited r) :
    scanInteger (showNat n ++ r) = (showNat n, r) := by
  have hspan := span_showNat n hr
  cases h : showNat n with
  | nil => exact absurd h (showNat_ne_nil n)
  | cons c t =>
      rw [h] at hspan
      by_cases hc : c = 48
      · obtain ⟨-, rfl⟩ := head_showNat h hc
        subst hc
        rfl
      · rw [List.cons_append] at hspan ⊢
        unfold scanInteger
        split
        · rename_i heq
          exact absurd (List.cons.inj heq).1 hc
        · exact hspan

/-- An integer is read up to what follows it. -/
theorem parseNumber_showInt {n : ℤ} {r : Str} (hn : n.natAbs < 10 ^ maxIntDigits)
    (hr : Delimited r) : parseNumber (showInt n ++ r) = some (.int n, r) := by
  have hfraction : scanFraction r = ([], r) := by
    cases r with
    | nil => rfl
    | cons c r => rcases hr c rfl with rfl | rfl | rfl <;> rfl
  have hexponent : scanExponent r = (none, r) := by
    cases r with
    | nil => rfl
    | cons c r => rcases hr c rfl with rfl | rfl | rfl <;> simp [scanExponent]
  have hlen := length_showNat_le (by decide) hn
  have hne : (showNat n.natAbs).isEmpty = false := by simpa using showNat_ne_nil n.natAbs
  by_cases hneg : n < 0
  · have htext : showInt n ++ r = 45 :: (showNat n.natAbs ++ r) := by
      rw [showInt, if_pos hneg]
      rfl
    have hvalue : -(n.natAbs : ℤ) = n := by omega
    rw [htext]
    simp only [parseNumber, scanInteger_showNat _ hr, hfraction, hexponent, hne,
      natOfDigits_showNat, List.isEmpty_nil, if_neg (Nat.not_lt.mpr hlen), hvalue]
    simp
  · have hvalue : (n.natAbs : ℤ) = n := by omega
    rw [showInt, if_neg hneg]
    have hscan := scanInteger_showNat n.natAbs hr
    cases hdigits : showNat n.natAbs with
    | nil => exact absurd hdigits (showNat_ne_nil _)
    | cons c t =>
        have hc : c ≠ 45 := by
          rintro rfl
          have := isAsciiDigit_of_mem_showNat (hdigits ▸ List.mem_cons_self : 45 ∈ showNat n.natAbs)
          exact absurd this (by decide)
        have hread := natOfDigits_showNat n.natAbs
        rw [hdigits] at hscan hne hlen hread
        unfold parseNumber
        split
        · rename_i heq
          exact absurd (List.cons.inj heq).1 hc
        · simp only [hscan, hfraction, hexponent, hne, hread, List.isEmpty_nil,
            if_neg (Nat.not_lt.mpr hlen), hvalue]
          simp

/-! ### Strings -/

theorem hexValue_hexChar {n : ℕ} (h : n < 16) : hexValue (hexChar n) = some n := by
  have : ∀ n < 16, hexValue (hexChar n) = some n := by decide
  exact this n h

theorem scanString_unicodeEscape {n : ℕ} (h : n < 0x10000) (r : Str) :
    scanString (unicodeEscape n ++ r) = (scanString r).map fun t => (n :: t.1, t.2) := by
  have hvalue : ((n / 4096 * 16 + n / 256 % 16) * 256 + n / 16 % 16 * 16 + n % 16) = n := by omega
  have hhex : hex4 (hexChar (n / 4096)) (hexChar (n / 256 % 16)) (hexChar (n / 16 % 16))
      (hexChar (n % 16)) = some n := by
    simp only [hex4, hexValue_hexChar (show n / 4096 < 16 by omega),
      hexValue_hexChar (show n / 256 % 16 < 16 by omega),
      hexValue_hexChar (show n / 16 % 16 < 16 by omega),
      hexValue_hexChar (show n % 16 < 16 by omega), Option.bind_eq_bind, Option.bind_some, hvalue]
  simp only [unicodeEscape, List.cons_append, List.nil_append, scanString, hhex, Option.bind_some]

theorem scanString_cons {c : ℕ} (h₁ : c ≠ 34) (h₂ : c ≠ 92) (h₃ : ¬ c < 32) (r : Str) :
    scanString (c :: r) = (scanString r).map fun t => (c :: t.1, t.2) := by
  rw [scanString.eq_def]
  split
  · rename_i heq
    cases heq
  · rename_i heq
    exact absurd (List.cons.inj heq).1 h₁
  · rename_i heq
    exact absurd (List.cons.inj heq).1 h₂
  · rename_i heq
    exact absurd (List.cons.inj heq).1 h₂
  · rename_i heq
    obtain ⟨rfl, rfl⟩ := List.cons.inj heq
    rw [if_neg h₃]

/-- The code points that the escape of a character is read as. -/
def units (style : DumpStyle) (c : ℕ) : Str :=
  if style.ensureAscii ∧ 0x10000 ≤ c then [(surrogates c).1, (surrogates c).2] else [c]

/-- The characters whose escape is a backslash and one character, with that one. -/
def shortEscapes : List (ℕ × ℕ) :=
  [(34, 34), (92, 92), (8, 98), (9, 116), (10, 110), (12, 102), (13, 114)]

/-- The ways in which a character is written. -/
theorem escapeChar_cases (style : DumpStyle) (c : ℕ) :
    (∃ d, (c, d) ∈ shortEscapes ∧ escapeChar style c = [92, d]) ∨
    (c < 0x10000 ∧ escapeChar style c = unicodeEscape c) ∨
    (style.ensureAscii = true ∧ 0x10000 ≤ c ∧
      escapeChar style c = unicodeEscape (surrogates c).1 ++ unicodeEscape (surrogates c).2) ∨
    (c ≠ 34 ∧ c ≠ 92 ∧ 32 ≤ c ∧ (style.ensureAscii = true → c ≤ 126) ∧
      escapeChar style c = [c]) := by
  by_cases hshort : ∃ d, (c, d) ∈ shortEscapes
  · obtain ⟨d, hd⟩ := hshort
    refine .inl ⟨d, hd, ?_⟩
    simp only [shortEscapes, List.mem_cons, List.not_mem_nil, or_false, Prod.mk.injEq] at hd
    rcases hd with ⟨rfl, rfl⟩ | ⟨rfl, rfl⟩ | ⟨rfl, rfl⟩ | ⟨rfl, rfl⟩ | ⟨rfl, rfl⟩ |
      ⟨rfl, rfl⟩ | ⟨rfl, rfl⟩ <;> rfl
  · have hlong : ∀ p ∈ shortEscapes, c ≠ p.1 := by
      rintro p hp rfl
      exact hshort ⟨p.2, hp⟩
    simp only [shortEscapes, List.forall_mem_cons, List.not_mem_nil, false_implies, implies_true,
      and_true] at hlong
    obtain ⟨hquote, hslash, h₁, h₂, h₃, h₄, h₅⟩ := hlong
    rw [escapeChar, if_neg hquote, if_neg hslash, if_neg h₁, if_neg h₂, if_neg h₃, if_neg h₄,
      if_neg h₅]
    by_cases hlow : c < 32
    · rw [if_pos hlow]
      exact .inr (.inl ⟨by omega, rfl⟩)
    rw [if_neg hlow]
    by_cases hascii : style.ensureAscii = true ∧ 126 < c
    · rw [if_pos hascii]
      by_cases hbmp : c < 0x10000
      · rw [if_pos hbmp]
        exact .inr (.inl ⟨hbmp, rfl⟩)
      · rw [if_neg hbmp]
        exact .inr (.inr (.inl ⟨hascii.1, not_lt.mp hbmp, rfl⟩))
    · rw [if_neg hascii]
      exact .inr (.inr (.inr ⟨hquote, hslash, not_lt.mp hlow,
        fun h => not_lt.mp fun hbig => hascii ⟨h, hbig⟩, rfl⟩))

theorem escape_cons (style : DumpStyle) (c : ℕ) (s : Str) :
    escape style (c :: s) = escapeChar style c ++ escape style s := rfl

theorem scanString_escapeChar (style : DumpStyle) {c : ℕ} (hc : IsScalar c) (r : Str) :
    scanString (escapeChar style c ++ r) =
      (scanString r).map fun t => (units style c ++ t.1, t.2) := by
  have hmax : c < 0x110000 := by unfold IsScalar at hc; omega
  have hunits : c < 0x10000 → units style c = [c] := fun h => by
    rw [units, if_neg (by omega)]
  obtain ⟨d, hd, htext⟩ | ⟨hbmp, htext⟩ | ⟨hascii, hbig, htext⟩ |
    ⟨hquote, hslash, hlow, hraw, htext⟩ := escapeChar_cases style c <;> rw [htext]
  · have hbmp : ∀ p ∈ shortEscapes, p.1 < 0x10000 := by decide
    rw [hunits (hbmp _ hd)]
    simp only [shortEscapes, List.mem_cons, List.not_mem_nil, or_false, Prod.mk.injEq] at hd
    rcases hd with ⟨rfl, rfl⟩ | ⟨rfl, rfl⟩ | ⟨rfl, rfl⟩ | ⟨rfl, rfl⟩ | ⟨rfl, rfl⟩ |
      ⟨rfl, rfl⟩ | ⟨rfl, rfl⟩ <;> rfl
  · rw [hunits hbmp, scanString_unicodeEscape hbmp]
    rfl
  · have hhigh : (surrogates c).1 < 0x10000 := by simp only [surrogates]; omega
    have hlow : (surrogates c).2 < 0x10000 := by simp only [surrogates]; omega
    rw [List.append_assoc, scanString_unicodeEscape hhigh, scanString_unicodeEscape hlow,
      Option.map_map, units, if_pos ⟨hascii, hbig⟩]
    rfl
  · have hself : units style c = [c] := by
      rw [units, if_neg]
      rintro ⟨hascii, hbig⟩
      have := hraw hascii
      omega
    rw [hself, List.singleton_append, scanString_cons hquote hslash (not_lt.mpr hlow)]
    rfl

theorem scanString_escape (style : DumpStyle) {s : Str} (hs : IsText s) (r : Str) :
    scanString (escape style s ++ r) =
      (scanString r).map fun t => (s.flatMap (units style) ++ t.1, t.2) := by
  induction s with
  | nil => simp [escape]
  | cons c s ih =>
      have hrest := ih fun c' hc' => hs c' (List.mem_cons_of_mem _ hc')
      rw [escape] at hrest ⊢
      rw [List.flatMap_cons, List.append_assoc, scanString_escapeChar style (hs c List.mem_cons_self),
        hrest, Option.map_map]
      simp [Function.comp_def]

/-- The surrogate pairs are joined again. -/
theorem pairSurrogates_units (style : DumpStyle) {s : Str} (hs : IsText s) :
    pairSurrogates (s.flatMap (units style)) = s := by
  induction s with
  | nil => rfl
  | cons c s ih =>
      have hc := hs c List.mem_cons_self
      have hrest := ih fun c' hc' => hs c' (List.mem_cons_of_mem _ hc')
      unfold IsScalar at hc
      rw [List.flatMap_cons]
      by_cases hbig : style.ensureAscii = true ∧ 0x10000 ≤ c
      · have hjoin : 0x10000 + (0xD800 + (c - 0x10000) / 1024 - 0xD800) * 1024 +
            (0xDC00 + (c - 0x10000) % 1024 - 0xDC00) = c := by omega
        rw [units, if_pos hbig]
        simp only [surrogates, List.cons_append, List.nil_append]
        rw [pairSurrogates, if_pos (by omega), hjoin, hrest]
      · rw [units, if_neg hbig, List.singleton_append]
        cases hs' : s.flatMap (units style) with
        | nil =>
            rw [hs'] at hrest
            rw [← hrest]
            rfl
        | cons l t =>
            rw [pairSurrogates, if_neg (by omega), ← hs', hrest]

theorem parseString_escape (style : DumpStyle) {s : Str} (hs : IsText s) (r : Str) :
    parseString (escape style s ++ 34 :: r) = some (s, r) := by
  rw [parseString, scanString_escape style hs, scanString]
  simp [pairSurrogates_units style hs]

/-! ### Values -/

theorem skipWs_cons {c : ℕ} (h : 32 < c) (s : Str) : skipWs (c :: s) = c :: s := by
  rw [skipWs, List.dropWhile_cons_of_neg]
  simp only [Bool.or_eq_true, beq_iff_eq]
  omega

theorem skipWs_gap (n : ℕ) (s : Str) : skipWs (List.replicate n 32 ++ s) = skipWs s := by
  rw [skipWs, List.dropWhile_append_of_pos]
  · rfl
  · intro c hc
    rw [List.eq_of_mem_replicate hc]
    rfl

theorem parseScalar_showInt {n : ℤ} {r : Str} (hn : n.natAbs < 10 ^ maxIntDigits)
    (hr : Delimited r) : parseScalar (showInt n ++ r) = some (.int n, r) := by
  have hnone : (literals.find? fun l => startsWith l.1 (showInt n ++ r)) = none := by
    obtain ⟨d, t, hd, htext⟩ := showInt_head n
    have := digit_bounds hd
    rcases htext with htext | htext <;> rw [htext] <;>
      simp [literals, startsWith, str, List.isPrefixOf] <;> omega
  rw [parseScalar, hnone]
  exact parseNumber_showInt hn hr

variable {style : DumpStyle}

/-- A value starts with a character that is neither white space nor a closing bracket. -/
theorem dumps_head {v : Json} (hv : v.Plain) :
    ∃ c t, dumps style v = c :: t ∧ 32 < c ∧ c < 128 ∧ c ≠ 93 ∧ c ≠ 125 := by
  cases v with
  | null => exact ⟨_, _, rfl, by decide, by decide, by decide, by decide⟩
  | bool b => cases b <;> exact ⟨_, _, rfl, by decide, by decide, by decide, by decide⟩
  | int n =>
      obtain ⟨d, t, hd, htext⟩ := showInt_head n
      have := digit_bounds hd
      rw [dumps]
      rcases htext with htext | htext
      · exact ⟨_, _, htext, by omega, by omega, by omega, by omega⟩
      · exact ⟨_, _, htext, by decide, by decide, by decide, by decide⟩
  | str s => exact ⟨34, _, rfl, by decide, by decide, by decide, by decide⟩
  | arr xs =>
      cases xs <;> exact ⟨91, _, by rw [dumps], by decide, by decide, by decide, by decide⟩
  | obj fs =>
      rcases fs with _ | ⟨⟨k, x⟩, fs⟩ <;>
        exact ⟨123, _, by rw [dumps], by decide, by decide, by decide, by decide⟩
  | _ => cases hv

theorem skipWs_dumps {v : Json} (hv : v.Plain) (r : Str) :
    skipWs (dumps style v ++ r) = dumps style v ++ r := by
  obtain ⟨c, t, htext, hc, -⟩ := @dumps_head style v hv
  rw [htext, List.cons_append, skipWs_cons hc]

theorem delimited_more (xs : List Json) (r : Str) :
    Delimited (dumpsMore style xs ++ 93 :: r) := by
  cases xs with
  | nil => simp [Delimited, dumpsMore]
  | cons x xs => simp [Delimited, dumpsMore, DumpStyle.itemSep]

theorem delimited_moreFields (fs : List (Str × Json)) (r : Str) :
    Delimited (dumpsMoreFields style fs ++ 125 :: r) := by
  rcases fs with _ | ⟨⟨k, x⟩, fs⟩
  · simp [Delimited, dumpsMoreFields]
  · simp [Delimited, dumpsMoreFields, DumpStyle.itemSep]

theorem Json.insert_of_new {fields : List (Str × Json)} {k : Str} (v : Json)
    (h : ∀ f ∈ fields, f.1 ≠ k) : Json.insert k v fields = fields ++ [(k, v)] := by
  induction fields with
  | nil => rfl
  | cons f fs ih =>
      rw [Json.insert, if_neg (h f List.mem_cons_self), ih fun g hg => h g (List.mem_cons_of_mem _ hg)]
      rfl

section Steps
variable {n : ℕ} {s t r k : Str} {v : Json} {fields : List (Str × Json)}

theorem parseElements_last (h : parseValue n s = some (v, 93 :: r)) :
    parseElements (n + 1) s = some ([v], r) := by
  rw [parseElements, h]
  rfl

theorem parseElements_next (h : parseValue n s = some (v, 44 :: t)) :
    parseElements (n + 1) s = (parseElements n (skipWs t)).map fun u => (v :: u.1, u.2) := by
  rw [parseElements, h]
  rfl

theorem parseMembers_last (hk : parseString s = some (k, 58 :: t))
    (hv : parseValue n (skipWs t) = some (v, 125 :: r)) :
    parseMembers (n + 1) fields (34 :: s) = some (Json.insert k v fields, r) := by
  have hcolon : skipWs (58 :: t) = 58 :: t := skipWs_cons (by decide) t
  have hbrace : skipWs (125 :: r) = 125 :: r := skipWs_cons (by decide) r
  simp [parseMembers, hk, hcolon, hv, hbrace]

theorem parseMembers_next {t' : Str} (hk : parseString s = some (k, 58 :: t))
    (hv : parseValue n (skipWs t) = some (v, 44 :: t')) :
    parseMembers (n + 1) fields (34 :: s) =
      parseMembers n (Json.insert k v fields) (skipWs t') := by
  have hcolon : skipWs (58 :: t) = 58 :: t := skipWs_cons (by decide) t
  have hcomma : skipWs (44 :: t') = 44 :: t' := skipWs_cons (by decide) t'
  simp [parseMembers, hk, hcolon, hv, hcomma]

theorem parseValue_arr (hs : skipWs t = s) (hhead : s.head? ≠ some 93) :
    parseValue (n + 1) (91 :: t) = (parseElements n s).map fun u => (.arr u.1, u.2) := by
  rw [parseValue, hs]
  split
  · exact absurd rfl hhead
  · rfl

theorem parseValue_obj (hs : skipWs t = s) (hhead : s.head? ≠ some 125) :
    parseValue (n + 1) (123 :: t) = (parseMembers n [] s).map fun u => (.obj u.1, u.2) := by
  rw [parseValue, hs]
  split
  · exact absurd rfl hhead
  · rfl

end Steps

/-- The text of a member up to its value. -/
theorem quote_keySep (k r : Str) : quote style k ++ style.keySep ++ r =
    34 :: (escape style k ++ 34 :: 58 :: (List.replicate style.keyGap 32 ++ r)) := by
  simp [quote, DumpStyle.keySep]

mutual

/-- A value is read up to what follows it. -/
theorem parseValue_dumps : ∀ (v : Json) {n : ℕ} {r : Str}, v.Plain →
    2 * (dumps style v).length + 1 ≤ n → Delimited r →
      parseValue n (dumps style v ++ r) = some (v, r)
  | v, 0, r, _, hn, _ => by omega
  | .null, n + 1, r, _, _, _ => by simp [dumps, str, parseValue, parseScalar, literals, startsWith]
  | .bool true, n + 1, r, _, _, _ => by
      simp [dumps, str, parseValue, parseScalar, literals, startsWith]
  | .bool false, n + 1, r, _, _, _ => by
      simp [dumps, str, parseValue, parseScalar, literals, startsWith]
  | .int m, n + 1, r, hv, _, hr => by
      have hscalar := parseScalar_showInt (r := r) hv hr
      obtain ⟨d, t, hd, htext⟩ := showInt_head m
      have := digit_bounds hd
      rw [dumps, parseValue.eq_def]
      rcases htext with htext | htext
      · rw [htext] at hscalar ⊢
        dsimp only [List.cons_append] at hscalar ⊢
        split
        · rename_i heq
          have := (List.cons.inj heq).1
          omega
        · rename_i heq
          have := (List.cons.inj heq).1
          omega
        · rename_i heq
          have := (List.cons.inj heq).1
          omega
        · exact hscalar
      · rw [htext] at hscalar ⊢
        exact hscalar
  | .str s, n + 1, r, hv, _, _ => by
      have htext : dumps style (.str s) ++ r = 34 :: (escape style s ++ 34 :: r) := by
        simp [dumps, quote]
      rw [htext, parseValue, parseString_escape style hv]
      rfl
  | .arr [], n + 1, r, _, _, _ => by simp [dumps, parseValue, skipWs]
  | .arr (x :: xs), n + 1, r, ⟨hx, hxs⟩, hn, _ => by
      have htext : dumps style (.arr (x :: xs)) ++ r =
          91 :: (dumps style x ++ (dumpsMore style xs ++ 93 :: r)) := by
        simp [dumps]
      rw [dumps] at hn
      simp only [List.length_cons, List.length_append] at hn
      obtain ⟨c, t, hhead, -, -, hc, -⟩ := @dumps_head style x hx
      rw [htext, parseValue_arr (skipWs_dumps hx _) (by rw [hhead]; simpa using hc),
        parseElements_dumps x xs hx hxs (by omega)]
      rfl
  | .obj [], n + 1, r, _, _, _ => by simp [dumps, parseValue, skipWs]
  | .obj ((k, x) :: fs), n + 1, r, hv, hn, _ => by
      have htext : dumps style (.obj ((k, x) :: fs)) ++ r = 123 :: (quote style k ++
          style.keySep ++ (dumps style x ++ (dumpsMoreFields style fs ++ 125 :: r))) := by
        simp [dumps]
      rw [dumps] at hn
      simp only [List.length_cons, List.length_append] at hn
      have hskip : ∀ t, skipWs (quote style k ++ style.keySep ++ t) =
          quote style k ++ style.keySep ++ t := fun t => by
        rw [quote_keySep, skipWs_cons (by decide)]
      rw [htext, parseValue_obj (hskip _) (by rw [quote_keySep]; simp),
        parseMembers_dumps k x fs [] hv (by simp) (by simp only [List.length_append]; omega)]
      rfl

theorem parseElements_dumps : ∀ (x : Json) (xs : List Json) {n : ℕ} {r : Str}, x.Plain →
    PlainElements xs → 2 * ((dumps style x).length + (dumpsMore style xs).length) + 2 ≤ n →
      parseElements n (dumps style x ++ (dumpsMore style xs ++ 93 :: r)) = some (x :: xs, r)
  | x, xs, 0, r, _, _, hn => by omega
  | x, [], n + 1, r, hx, _, hn =>
      parseElements_last (parseValue_dumps x hx (by omega) (delimited_more [] r))
  | x, y :: ys, n + 1, r, hx, ⟨hy, hys⟩, hn => by
      have htext : dumpsMore style (y :: ys) ++ 93 :: r = 44 ::
          (List.replicate style.itemGap 32 ++ (dumps style y ++ (dumpsMore style ys ++ 93 :: r))) := by
        simp [dumpsMore, DumpStyle.itemSep]
      have hvalue := @parseValue_dumps x n _ hx (by omega) (@delimited_more style (y :: ys) r)
      rw [htext] at hvalue ⊢
      simp only [dumpsMore, DumpStyle.itemSep, List.length_append, List.length_cons] at hn
      rw [parseElements_next hvalue, skipWs_gap, skipWs_dumps hy,
        parseElements_dumps y ys hy hys (by omega)]
      rfl

theorem parseMembers_dumps : ∀ (k : Str) (x : Json) (fs fields : List (Str × Json)) {n : ℕ}
    {r : Str}, PlainFields ((k, x) :: fs) → (∀ f ∈ (k, x) :: fs, ∀ g ∈ fields, g.1 ≠ f.1) →
      2 * ((quote style k ++ style.keySep).length + (dumps style x).length +
        (dumpsMoreFields style fs).length) + 2 ≤ n →
      parseMembers n fields (quote style k ++ style.keySep ++
        (dumps style x ++ (dumpsMoreFields style fs ++ 125 :: r))) = some (fields ++ (k, x) :: fs, r)
  | k, x, fs, fields, 0, r, _, _, hn => by omega
  | k, x, [], fields, n + 1, r, ⟨hk, hnew, hx, hfs⟩, hdisjoint, hn => by
      have hvalue := @parseValue_dumps x n _ hx (by omega) (@delimited_moreFields style [] r)
      rw [← skipWs_dumps hx, ← skipWs_gap style.keyGap] at hvalue
      rw [quote_keySep, parseMembers_last (parseString_escape style hk _) hvalue,
        Json.insert_of_new x (hdisjoint _ List.mem_cons_self)]
  | k, x, (l, y) :: gs, fields, n + 1, r, ⟨hk, hnew, hx, hfs⟩, hdisjoint, hn => by
      have htext : dumpsMoreFields style ((l, y) :: gs) ++ 125 :: r = 44 ::
          (List.replicate style.itemGap 32 ++ (quote style l ++ style.keySep ++
            (dumps style y ++ (dumpsMoreFields style gs ++ 125 :: r)))) := by
        simp [dumpsMoreFields, DumpStyle.itemSep]
      have hvalue := parseValue_dumps x (n := n) hx (by omega)
        (@delimited_moreFields style ((l, y) :: gs) r)
      have hrest : ∀ f ∈ (l, y) :: gs, ∀ g ∈ fields ++ [(k, x)], g.1 ≠ f.1 := by
        intro f hf g hg
        rcases List.mem_append.mp hg with hg | hg
        · exact hdisjoint f (List.mem_cons_of_mem _ hf) g hg
        · rw [List.mem_singleton.mp hg]
          exact (hnew f hf).symm
      rw [htext] at hvalue ⊢
      rw [← skipWs_dumps hx, ← skipWs_gap style.keyGap] at hvalue
      simp only [dumpsMoreFields, DumpStyle.itemSep, List.length_append, List.length_cons] at hn
      have hskip : ∀ t, skipWs (quote style l ++ style.keySep ++ t) =
          quote style l ++ style.keySep ++ t := fun t => by
        rw [quote_keySep, skipWs_cons (by decide)]
      rw [quote_keySep, parseMembers_next (parseString_escape style hk _) hvalue,
        Json.insert_of_new x (hdisjoint _ List.mem_cons_self), skipWs_gap, hskip,
        parseMembers_dumps l y gs _ hfs hrest (by simp only [List.length_append]; omega)]
      simp

end

/-- **What was written is read back.** -/
theorem loads_dumps {v : Json} (hv : v.Plain) : loads (dumps style v) = some v := by
  have hparse := @parseValue_dumps style v _ [] hv le_rfl (by simp [Delimited])
  have hskip := @skipWs_dumps style v hv []
  rw [List.append_nil] at hparse hskip
  rw [loads, hskip, hparse]
  rfl

end Llmxy
