import Llmxy.Lib.Text

/-!
# UTF-8

`bytes.decode("utf-8", errors="ignore")`: an ill-formed sequence is dropped up to the
first byte that cannot continue it, and decoding goes on with that byte.

## Main definitions

* `Pending` — a character whose last bytes are missing.
* `decodeFrom`, `decode` — the decoder, one byte at a time.
* `IsScalar`, `encodeChar`, `encode` — `s.encode("utf-8")` of a text without surrogates.
* `decode_encode` — a text is decoded as it was encoded.
-/

namespace Llmxy

abbrev Bytes := List UInt8

/-- The bytes of an ASCII literal. -/
def ascii (s : String) : Bytes := s.toList.map fun c => UInt8.ofNat c.toNat

/-- The middle of a character: how many bytes it needs, the range of the next one,
and the bits read so far. -/
structure Pending where
  need : ℕ
  low : ℕ
  high : ℕ
  bits : ℕ
  deriving DecidableEq

/-- A byte where a character starts: an ASCII character, the start of a longer one,
or nothing. -/
def leadByte (b : ℕ) : Option ℕ × Option Pending :=
  if b < 0x80 then (some b, none)
  else if 0xC2 ≤ b ∧ b ≤ 0xDF then (none, some ⟨1, 0x80, 0xBF, b - 0xC0⟩)
  else if b = 0xE0 then (none, some ⟨2, 0xA0, 0xBF, 0⟩)
  else if b = 0xED then (none, some ⟨2, 0x80, 0x9F, 13⟩)
  else if 0xE1 ≤ b ∧ b ≤ 0xEF then (none, some ⟨2, 0x80, 0xBF, b - 0xE0⟩)
  else if b = 0xF0 then (none, some ⟨3, 0x90, 0xBF, 0⟩)
  else if 0xF1 ≤ b ∧ b ≤ 0xF3 then (none, some ⟨3, 0x80, 0xBF, b - 0xF0⟩)
  else if b = 0xF4 then (none, some ⟨3, 0x80, 0x8F, 4⟩)
  else (none, none)

/-- One byte: the character it completes, if any, and what is pending after it. -/
def decodeByte (p : Option Pending) (b : ℕ) : Option ℕ × Option Pending :=
  match p with
  | none => leadByte b
  | some p =>
      if p.low ≤ b ∧ b ≤ p.high then
        let bits := p.bits * 64 + (b - 0x80)
        if p.need = 1 then (some bits, none) else (none, some ⟨p.need - 1, 0x80, 0xBF, bits⟩)
      else leadByte b

/-- Decode the rest of a text.  What is pending at the end is dropped. -/
def decodeFrom : Option Pending → Bytes → Str
  | _, [] => []
  | p, b :: bs =>
      let r := decodeByte p b.toNat
      r.1.toList ++ decodeFrom r.2 bs

/-- `bs.decode("utf-8", errors="ignore")`. -/
def decode (bs : Bytes) : Str := decodeFrom none bs

example : decode [0x61, 0xE2, 0x82, 0xAC, 0xE2, 0x28, 0xC3] = [0x61, 0x20AC, 0x28] := by decide

/-- A character takes at least one byte. -/
theorem length_decodeFrom_le (p : Option Pending) (bs : Bytes) :
    (decodeFrom p bs).length ≤ bs.length := by
  induction bs generalizing p with
  | nil => simp [decodeFrom]
  | cons b bs ih =>
      have hrest := ih (decodeByte p b.toNat).2
      have hone : (decodeByte p b.toNat).1.toList.length ≤ 1 := by
        cases (decodeByte p b.toNat).1 <;> simp
      simp only [decodeFrom, List.length_append, List.length_cons]
      omega

theorem length_decode_le (bs : Bytes) : (decode bs).length ≤ bs.length :=
  length_decodeFrom_le none bs

/-! ### Encoding -/

/-- A Unicode scalar value: a code point that is no surrogate. -/
def IsScalar (c : ℕ) : Prop := c < 0xD800 ∨ (0xE000 ≤ c ∧ c < 0x110000)

instance : DecidablePred IsScalar := fun c => by unfold IsScalar; infer_instance

/-- The bytes of a character. -/
def encodeChar (c : ℕ) : Bytes :=
  if c < 0x80 then [.ofNat c]
  else if c < 0x800 then [.ofNat (0xC0 + c / 64), .ofNat (0x80 + c % 64)]
  else if c < 0x10000 then
    [.ofNat (0xE0 + c / 4096), .ofNat (0x80 + c / 64 % 64), .ofNat (0x80 + c % 64)]
  else
    [.ofNat (0xF0 + c / 262144), .ofNat (0x80 + c / 4096 % 64), .ofNat (0x80 + c / 64 % 64),
      .ofNat (0x80 + c % 64)]

/-- `s.encode("utf-8")` of a text without surrogates. -/
def encode (s : Str) : Bytes := s.flatMap encodeChar

/-- A byte that is not the first one of its character. -/
def IsTail (b : UInt8) : Prop := 0x80 ≤ b.toNat ∧ b.toNat < 0xC0

theorem toNat_ofNat_of_lt {n : ℕ} (h : n < 256) : (UInt8.ofNat n).toNat = n := by
  rw [UInt8.toNat_ofNat']
  exact Nat.mod_eq_of_lt h

theorem decodeByte_next {need low high bits b : ℕ} (hneed : need ≠ 1) (hlow : low ≤ b)
    (hhigh : b ≤ high) :
    decodeByte (some ⟨need, low, high, bits⟩) b =
      (none, some ⟨need - 1, 0x80, 0xBF, bits * 64 + (b - 0x80)⟩) := by
  simp [decodeByte, hneed, hlow, hhigh]

theorem decodeByte_last {low high bits b : ℕ} (hlow : low ≤ b) (hhigh : b ≤ high) :
    decodeByte (some ⟨1, low, high, bits⟩) b = (some (bits * 64 + (b - 0x80)), none) := by
  simp [decodeByte, hlow, hhigh]

theorem leadByte_ascii {b : ℕ} (h : b < 0x80) : leadByte b = (some b, none) := by
  simp [leadByte, h]

theorem leadByte_two {x : ℕ} (h₁ : 2 ≤ x) (h₂ : x < 32) :
    leadByte (0xC0 + x) = (none, some ⟨1, 0x80, 0xBF, x⟩) := by
  unfold leadByte
  rw [if_neg (by omega), if_pos (by omega)]
  simp

theorem leadByte_three {x y : ℕ} (hx : x < 16) (hy : y < 64) (hlow : x = 0 → 32 ≤ y)
    (hhigh : x = 13 → y < 32) :
    ∃ low high, leadByte (0xE0 + x) = (none, some ⟨2, low, high, x⟩) ∧
      low ≤ 0x80 + y ∧ 0x80 + y ≤ high := by
  unfold leadByte
  rw [if_neg (by omega), if_neg (by omega)]
  by_cases h₀ : x = 0
  · subst h₀
    exact ⟨0xA0, 0xBF, rfl, by omega, by omega⟩
  · rw [if_neg (by omega)]
    by_cases h₁ : x = 13
    · subst h₁
      exact ⟨0x80, 0x9F, rfl, by omega, by omega⟩
    · rw [if_neg (by omega), if_pos (by omega), Nat.add_sub_cancel_left]
      exact ⟨_, _, rfl, by omega, by omega⟩

theorem leadByte_four {x y : ℕ} (hx : x < 5) (hy : y < 64) (hlow : x = 0 → 16 ≤ y)
    (hhigh : x = 4 → y < 16) :
    ∃ low high, leadByte (0xF0 + x) = (none, some ⟨3, low, high, x⟩) ∧
      low ≤ 0x80 + y ∧ 0x80 + y ≤ high := by
  unfold leadByte
  rw [if_neg (by omega), if_neg (by omega), if_neg (by omega), if_neg (by omega),
    if_neg (by omega)]
  by_cases h₀ : x = 0
  · subst h₀
    exact ⟨0x90, 0xBF, rfl, by omega, by omega⟩
  · rw [if_neg (by omega)]
    by_cases h₁ : x = 4
    · subst h₁
      exact ⟨0x80, 0x8F, rfl, by omega, by omega⟩
    · rw [if_pos (by omega), Nat.add_sub_cancel_left]
      exact ⟨_, _, rfl, by omega, by omega⟩

/-- The bytes complete the character `c`, and no character before their last one. -/
def Completes (c : ℕ) : Option Pending → Bytes → Prop
  | _, [] => False
  | p, b :: bs =>
      if bs = [] then decodeByte p b.toNat = (some c, none)
      else ∃ p', decodeByte p b.toNat = (none, some p') ∧ Completes c (some p') bs

theorem Completes.decodeFrom {c : ℕ} {p : Option Pending} {bs : Bytes} (h : Completes c p bs)
    (rest : Bytes) : decodeFrom p (bs ++ rest) = c :: decode rest := by
  induction bs generalizing p with
  | nil => cases h
  | cons b bs ih =>
      rw [Completes] at h
      split_ifs at h with hnil
      · subst hnil
        simp [Llmxy.decodeFrom, h, decode]
      · obtain ⟨p', hp', h⟩ := h
        simp [Llmxy.decodeFrom, hp', ih h]

theorem Completes.decodeFrom_of_start {c : ℕ} {p : Option Pending} {bs q : Bytes}
    (h : Completes c p bs) (hq : q <+: bs) (hne : q ≠ bs) : Llmxy.decodeFrom p q = [] := by
  induction bs generalizing p q with
  | nil => cases h
  | cons b bs ih =>
      cases q with
      | nil => rfl
      | cons a q =>
          obtain ⟨rfl, hq'⟩ := List.cons_prefix_cons.mp hq
          rw [Completes] at h
          split_ifs at h with hnil
          · subst hnil
            exact absurd (congrArg (a :: ·) (List.prefix_nil.mp hq')) hne
          · obtain ⟨p', hp', h⟩ := h
            have hne' : q ≠ bs := fun heq => hne (by rw [heq])
            simp [Llmxy.decodeFrom, hp', ih h hq' hne']

theorem completes_encodeChar {c : ℕ} (h : IsScalar c) : Completes c none (encodeChar c) := by
  unfold IsScalar at h
  unfold encodeChar
  split_ifs with h₁ h₂ h₃
  · simp [Completes, decodeByte, toNat_ofNat_of_lt (show c < 256 by omega), leadByte_ascii h₁]
  · have hlead := @leadByte_two (c / 64) (by omega) (by omega)
    simp only [Completes, if_true, List.cons_ne_nil, if_false,
      toNat_ofNat_of_lt (show 0xC0 + c / 64 < 256 by omega),
      toNat_ofNat_of_lt (show 0x80 + c % 64 < 256 by omega)]
    refine ⟨_, hlead, ?_⟩
    have hbits : c / 64 * 64 + (0x80 + c % 64 - 0x80) = c := by omega
    rw [decodeByte_last (by omega) (by omega), hbits]
  · obtain ⟨low, high, hlead, hlow, hhigh⟩ :=
      @leadByte_three (c / 4096) (c / 64 % 64) (by omega) (by omega) (by omega) (by omega)
    simp only [Completes, if_true, List.cons_ne_nil, if_false,
      toNat_ofNat_of_lt (show 0xE0 + c / 4096 < 256 by omega),
      toNat_ofNat_of_lt (show 0x80 + c / 64 % 64 < 256 by omega),
      toNat_ofNat_of_lt (show 0x80 + c % 64 < 256 by omega)]
    refine ⟨_, hlead, _, decodeByte_next (by decide) hlow hhigh, ?_⟩
    have hbits : (c / 4096 * 64 + (0x80 + c / 64 % 64 - 0x80)) * 64 + (0x80 + c % 64 - 0x80) = c := by omega
    rw [decodeByte_last (by omega) (by omega), hbits]
  · obtain ⟨low, high, hlead, hlow, hhigh⟩ :=
      @leadByte_four (c / 262144) (c / 4096 % 64) (by omega) (by omega) (by omega) (by omega)
    simp only [Completes, if_true, List.cons_ne_nil, if_false,
      toNat_ofNat_of_lt (show 0xF0 + c / 262144 < 256 by omega),
      toNat_ofNat_of_lt (show 0x80 + c / 4096 % 64 < 256 by omega),
      toNat_ofNat_of_lt (show 0x80 + c / 64 % 64 < 256 by omega),
      toNat_ofNat_of_lt (show 0x80 + c % 64 < 256 by omega)]
    refine ⟨_, hlead, _, decodeByte_next (by decide) hlow hhigh, _,
      decodeByte_next (by decide) (by omega) (by omega), ?_⟩
    have hbits : ((c / 262144 * 64 + (0x80 + c / 4096 % 64 - 0x80)) * 64 + (0x80 + c / 64 % 64 - 0x80)) * 64 +
        (0x80 + c % 64 - 0x80) = c := by omega
    rw [decodeByte_last (by omega) (by omega), hbits]

theorem decode_encodeChar_append {c : ℕ} (h : IsScalar c) (bs : Bytes) :
    decode (encodeChar c ++ bs) = c :: decode bs :=
  (completes_encodeChar h).decodeFrom bs

/-- A character that is cut off decodes to nothing. -/
theorem decode_of_prefix_encodeChar {c : ℕ} (h : IsScalar c) {q : Bytes}
    (hq : q <+: encodeChar c) (hne : q ≠ encodeChar c) : decode q = [] :=
  (completes_encodeChar h).decodeFrom_of_start hq hne

/-- Tail bytes that start a text are dropped. -/
theorem decode_tail_append {k : Bytes} (h : ∀ b ∈ k, IsTail b) (bs : Bytes) :
    decode (k ++ bs) = decode bs := by
  induction k with
  | nil => rfl
  | cons b k ih =>
      have hb := h b List.mem_cons_self
      have hlead : decodeByte none b.toNat = (none, none) := by
        unfold IsTail at hb
        unfold decodeByte leadByte
        rw [if_neg (by omega), if_neg (by omega), if_neg (by omega), if_neg (by omega),
          if_neg (by omega), if_neg (by omega), if_neg (by omega), if_neg (by omega)]
      rw [List.cons_append, decode, decodeFrom, hlead]
      exact ih fun b' hb' => h b' (List.mem_cons_of_mem _ hb')

theorem encode_append (s t : Str) : encode (s ++ t) = encode s ++ encode t := by
  simp [encode]

theorem encode_cons (c : ℕ) (s : Str) : encode (c :: s) = encodeChar c ++ encode s := rfl

theorem decode_encode_append {s : Str} (h : ∀ c ∈ s, IsScalar c) (bs : Bytes) :
    decode (encode s ++ bs) = s ++ decode bs := by
  induction s with
  | nil => rfl
  | cons c s ih =>
      rw [encode_cons, List.append_assoc, decode_encodeChar_append (h c List.mem_cons_self),
        ih fun c' hc' => h c' (List.mem_cons_of_mem _ hc'), List.cons_append]

/-- **Whole texts are decoded as they were encoded.** -/
theorem decode_encode {s : Str} (h : ∀ c ∈ s, IsScalar c) : decode (encode s) = s := by
  have := decode_encode_append h []
  simpa [decode, decodeFrom] using this

theorem encodeChar_ne_nil (c : ℕ) : encodeChar c ≠ [] := by
  unfold encodeChar
  split_ifs <;> simp

/-- All bytes of a character but the first one are tail bytes. -/
theorem isTail_of_mem_tail_encodeChar {c : ℕ} {b : UInt8} (h : b ∈ (encodeChar c).tail) :
    IsTail b := by
  have htail : ∀ n, IsTail (.ofNat (0x80 + n % 64)) := fun n => by
    rw [IsTail, toNat_ofNat_of_lt (by omega)]
    omega
  unfold encodeChar at h
  split_ifs at h
  · simp at h
  · simp only [List.tail_cons, List.mem_singleton] at h
    rw [h]
    exact htail c
  · simp only [List.tail_cons, List.mem_cons, List.not_mem_nil, or_false] at h
    rcases h with rfl | rfl
    · exact htail (c / 64)
    · exact htail c
  · simp only [List.tail_cons, List.mem_cons, List.not_mem_nil, or_false] at h
    rcases h with rfl | rfl | rfl
    · exact htail (c / 4096)
    · exact htail (c / 64)
    · exact htail c

end Llmxy
