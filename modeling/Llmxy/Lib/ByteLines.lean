import Llmxy.Lib.Text
import Llmxy.Lib.Utf8
import Mathlib.Data.List.DropRight

/-!
# The lines of a byte text

`bs.decode("utf-8", errors="replace").splitlines()`: an ill-formed sequence is decoded to a
replacement character.

A newline byte ends whatever is before it, a character that is not complete or a carriage return.
So the lines after a newline do not depend on what is before it (`byteLines_append`), and there are
at least as many of them as newlines.

## Main definitions

* `decodeReplace` — the decoder.
* `byteLines` — the lines.
* `byteLines_append`, `count_le_length_byteLines` — the lines after a newline.
-/

namespace Llmxy

/-- `U+FFFD`. -/
def replacementChar : ℕ := 0xFFFD

/-- A byte where a character starts, or a replacement. -/
def replaceLead (b : ℕ) : Str × Option Pending :=
  match leadByte b with
  | (none, none) => ([replacementChar], none)
  | (c, p) => (c.toList, p)

/-- One byte: what it decodes to, and what is pending after it.  A byte that cannot continue a
character replaces it, and is decoded itself. -/
def replaceByte (p : Option Pending) (b : ℕ) : Str × Option Pending :=
  match p with
  | none => replaceLead b
  | some q =>
      if q.low ≤ b ∧ b ≤ q.high then
        ((decodeByte (some q) b).1.toList, (decodeByte (some q) b).2)
      else (replacementChar :: (replaceLead b).1, (replaceLead b).2)

/-- Decode the rest of a text.  What is pending at the end is replaced. -/
def decodeReplaceFrom : Option Pending → Bytes → Str
  | none, [] => []
  | some _, [] => [replacementChar]
  | p, b :: bs => (replaceByte p b.toNat).1 ++ decodeReplaceFrom (replaceByte p b.toNat).2 bs

/-- `bs.decode("utf-8", errors="replace")`. -/
def decodeReplace (bs : Bytes) : Str := decodeReplaceFrom none bs

example : decodeReplace [0x61, 0xE2, 0x82, 0xAC, 0xE2, 0x82, 0x28, 0xED, 0xA0, 0xC3] =
    [0x61, 0x20AC, 0xFFFD, 0x28, 0xFFFD, 0xFFFD, 0xFFFD] := by decide

/-- `bs.decode("utf-8", errors="replace").splitlines()`. -/
def byteLines (bs : Bytes) : List Str := splitlines (decodeReplace bs)

/-! ### Decoding -/

/-- Only bytes that are not ASCII continue a character. -/
def Pending.BeyondAscii (p : Option Pending) : Prop := ∀ q ∈ p, 128 ≤ q.low

theorem beyondAscii_leadByte (b : ℕ) : Pending.BeyondAscii (leadByte b).2 := by
  unfold leadByte
  split_ifs <;> simp [Pending.BeyondAscii]

theorem beyondAscii_replaceLead (b : ℕ) : Pending.BeyondAscii (replaceLead b).2 := by
  have hlead := beyondAscii_leadByte b
  unfold replaceLead
  split
  · simp [Pending.BeyondAscii]
  · next heq =>
      rw [heq] at hlead
      exact hlead

theorem beyondAscii_replaceByte (p : Option Pending) (b : ℕ) :
    Pending.BeyondAscii (replaceByte p b).2 := by
  unfold replaceByte
  split
  · exact beyondAscii_replaceLead b
  · split_ifs with hin
    · unfold decodeByte
      simp only [if_pos hin]
      split_ifs <;> simp [Pending.BeyondAscii]
    · exact beyondAscii_replaceLead b

theorem decodeReplaceFrom_cons (p : Option Pending) (b : UInt8) (bs : Bytes) :
    decodeReplaceFrom p (b :: bs) =
      (replaceByte p b.toNat).1 ++ decodeReplaceFrom (replaceByte p b.toNat).2 bs := by
  cases p <;> rfl

/-- **An ASCII byte decodes to itself**, and starts afresh. -/
theorem decodeReplaceFrom_ascii {p : Option Pending} (hp : Pending.BeyondAscii p) {b : UInt8}
    (hb : b.toNat < 128) (bs : Bytes) :
    decodeReplaceFrom p (b :: bs) = decodeReplaceFrom p [] ++ b.toNat :: decodeReplace bs := by
  have hlead : replaceLead b.toNat = ([b.toNat], none) := by
    rw [replaceLead, leadByte_ascii hb]
    rfl
  cases p with
  | none =>
      have hbyte : replaceByte none b.toNat = ([b.toNat], none) := hlead
      rw [decodeReplaceFrom_cons, hbyte]
      rfl
  | some q =>
      have hlow := hp q rfl
      have hbyte : replaceByte (some q) b.toNat = ([replacementChar, b.toNat], none) := by
        simp only [replaceByte, hlead]
        rw [if_neg (by omega)]
      rw [decodeReplaceFrom_cons, hbyte]
      rfl

theorem decodeReplaceFrom_append {p : Option Pending} (hp : Pending.BeyondAscii p) (a : Bytes)
    {b : UInt8} (hb : b.toNat < 128) (bs : Bytes) :
    decodeReplaceFrom p (a ++ b :: bs) =
      decodeReplaceFrom p a ++ b.toNat :: decodeReplace bs := by
  induction a generalizing p with
  | nil => exact decodeReplaceFrom_ascii hp hb bs
  | cons c a ih =>
      rw [List.cons_append, decodeReplaceFrom_cons, ih (beyondAscii_replaceByte p c.toNat),
        decodeReplaceFrom_cons, List.append_assoc]

/-- What is around a newline is decoded on its own. -/
theorem decodeReplace_newline (a bs : Bytes) :
    decodeReplace (a ++ 10 :: bs) = decodeReplace a ++ 10 :: decodeReplace bs :=
  decodeReplaceFrom_append (by simp [Pending.BeyondAscii]) a (by decide) bs

/-! ### Lines -/

/-- A newline is decoded as one. -/
theorem decodeReplace_concat (a : Bytes) : decodeReplace (a ++ [10]) = decodeReplace a ++ [10] :=
  decodeReplace_newline a []

/-- **The lines after a newline** do not depend on what is before it. -/
theorem byteLines_append (a bs : Bytes) :
    byteLines (a ++ 10 :: bs) = byteLines (a ++ [10]) ++ byteLines bs := by
  rw [byteLines, byteLines, decodeReplace_concat, decodeReplace_newline]
  exact splitlinesFrom_newline [] (decodeReplace a) (decodeReplace bs)

theorem byteLines_concat_ne_nil (a : Bytes) : byteLines (a ++ [10]) ≠ [] := by
  rw [byteLines, decodeReplace_concat]
  exact splitlinesFrom_ne_nil (.inr (by simp))

/-- Each newline ends a line. -/
theorem count_le_length_byteLines (bs : Bytes) : bs.count 10 ≤ (byteLines bs).length := by
  induction hlength : bs.length using Nat.strongRecOn generalizing bs with
  | _ length ih =>
      by_cases hmem : (10 : UInt8) ∈ bs
      · obtain ⟨a, rest, rfl, ha⟩ := List.eq_append_cons_of_mem hmem
        have hrest := ih rest.length (by simp [← hlength]; omega) rest rfl
        have hline := List.length_pos_iff.mpr (byteLines_concat_ne_nil a)
        rw [byteLines_append, List.length_append, List.count_append, List.count_eq_zero.mpr ha,
          List.count_cons_self]
        omega
      · rw [List.count_eq_zero.mpr hmem]
        exact Nat.zero_le _

/-- The last lines are those after a newline, if these are enough. -/
theorem rtake_byteLines {n : ℕ} (a : Bytes) {bs : Bytes} (h : n ≤ bs.count 10) :
    (byteLines (a ++ 10 :: bs)).rtake n = (byteLines bs).rtake n := by
  have hle := h.trans (count_le_length_byteLines bs)
  rw [byteLines_append, List.rtake, List.rtake, List.length_append, Nat.add_sub_assoc hle,
    List.drop_length_add_append]

end Llmxy
