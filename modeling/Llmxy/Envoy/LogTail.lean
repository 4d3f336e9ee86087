import Llmxy.Lib.ByteLines
import Llmxy.Lib.WhileLoop

/-!
# The tail of a log

`tail_logs` reads a log from its end, a block at a time, until it has more newlines than the lines
that are asked for.  Only then is what it has decoded and split.

A block may start in the middle of a character or of a line end.  What is spoilt so is before the
first newline of the data, and enough lines are after it.

## Main definitions

* `TailState`, `readTailBlock` — the loop and its body.
* `readTail` — what is read of the log, `exists_readTail` — where the loop stops.
* `tailLogs`, `tailLogs_eq_rtake` — `tail_logs`, and that it answers the last lines of the log.
-/

namespace Llmxy

universe u

/-- The size of a block. -/
def tailBlock : ℕ := 8192

/-- `size`, the position up to which the log is still to be read, and `data`. -/
structure TailState where
  size : ℕ
  data : Bytes

/-- The guard of the loop. -/
def WantsBlock (n : ℤ) (s : TailState) : Prop := 0 < s.size ∧ (s.data.count 10 : ℤ) ≤ n

instance (n : ℤ) : DecidablePred (WantsBlock n) := fun s =>
  inferInstanceAs (Decidable (0 < s.size ∧ (s.data.count 10 : ℤ) ≤ n))

/-- The body of the loop: `f.seek(size)`, then `f.read(read)`. -/
def readTailBlock (content : Bytes) (s : TailState) : TailState :=
  let read := min tailBlock s.size
  let size := s.size - read
  ⟨size, (content.drop size).take read ++ s.data⟩

/-- What is read of the log for so many lines. -/
def readTail (content : Bytes) (n : ℤ) : Bytes :=
  (whileFuel (WantsBlock n) (readTailBlock content) content.length ⟨content.length, []⟩).data

/-- `l[i:]`. -/
def sliceFrom {α : Type u} (i : ℤ) (l : List α) : List α :=
  l.drop (if i < 0 then (l.length + i).toNat else i.toNat)

/-- `tail_logs`.  There is no content of a log that does not exist or cannot be read. -/
def tailLogs (content : Option Bytes) (n : ℤ) : List Str :=
  match content with
  | none => []
  | some content => sliceFrom (-n) (byteLines (readTail content n))

/-! ### The loop -/

variable {content : Bytes} {n : ℤ} {s : TailState}

/-- What was read is the end of the log. -/
def TailState.Suffix (content : Bytes) (s : TailState) : Prop := s.data = content.drop s.size

theorem suffix_readTailBlock (h : s.Suffix content) : (readTailBlock content s).Suffix content := by
  have hread : s.size - min tailBlock s.size + min tailBlock s.size = s.size := by omega
  have hdrop : content.drop s.size = (content.drop (s.size - min tailBlock s.size)).drop
      (min tailBlock s.size) := by
    rw [List.drop_drop, hread]
  rw [TailState.Suffix, readTailBlock, h, hdrop]
  exact List.take_append_drop _ _

theorem size_readTailBlock_lt (h : WantsBlock n s) : (readTailBlock content s).size < s.size := by
  have hpos := h.1
  simp only [readTailBlock, tailBlock]
  omega

/-- **The loop stops** with an end of the log: all of it, or one with more newlines than lines are
asked for. -/
theorem exists_readTail (content : Bytes) (n : ℤ) :
    ∃ size, readTail content n = content.drop size ∧
      (size = 0 ∨ n < (readTail content n).count 10) := by
  have hstart : TailState.Suffix content ⟨content.length, []⟩ := by simp [TailState.Suffix]
  obtain ⟨k, t, hk, hloop⟩ : ∃ k t, k ≤ content.length ∧
      While (WantsBlock n) (readTailBlock content) k ⟨content.length, []⟩ t :=
    exists_while (TailState.Suffix content) TailState.size (fun _ _ => suffix_readTailBlock)
      (fun _ hguard _ => size_readTailBlock_lt hguard) hstart
  have hread : readTail content n = t.data := congrArg TailState.data (hloop.whileFuel_eq hk)
  have hsuffix : t.Suffix content := hloop.inv (fun _ _ => suffix_readTailBlock) hstart
  have hexit := hloop.not_guard
  rw [hread]
  refine ⟨t.size, hsuffix, ?_⟩
  by_cases hsize : t.size = 0
  · exact .inl hsize
  · exact .inr (Int.not_le.mp fun hle => hexit ⟨Nat.pos_of_ne_zero hsize, hle⟩)

/-! ### The lines -/

theorem sliceFrom_neg {α : Type u} {n : ℕ} (h : 0 < n) (l : List α) :
    sliceFrom (-n) l = l.rtake n := by
  have hneg : (-n : ℤ) < 0 := by omega
  have hindex : (l.length + -n : ℤ).toNat = l.length - n := by omega
  rw [sliceFrom, if_pos hneg, hindex, List.rtake]

/-- An end of the log with more newlines than `n` has the last `n` lines of the log. -/
theorem rtake_byteLines_drop {n size : ℕ} (h : n < (content.drop size).count 10) :
    (byteLines (content.drop size)).rtake n = (byteLines content).rtake n := by
  have hmem : (10 : UInt8) ∈ content.drop size := List.count_pos_iff.mp (by omega)
  obtain ⟨start, rest, hsplit, hstart⟩ := List.eq_append_cons_of_mem hmem
  -- the lines after the first newline are enough
  have hcount : n ≤ rest.count 10 := by
    rw [hsplit, List.count_append, List.count_eq_zero.mpr hstart, List.count_cons_self] at h
    omega
  have hcontent : content = (content.take size ++ start) ++ 10 :: rest := by
    rw [List.append_assoc, ← hsplit, List.take_append_drop]
  calc (byteLines (content.drop size)).rtake n
      = (byteLines rest).rtake n := by rw [hsplit, rtake_byteLines start hcount]
    _ = (byteLines ((content.take size ++ start) ++ 10 :: rest)).rtake n :=
        (rtake_byteLines _ hcount).symm
    _ = (byteLines content).rtake n := by rw [← hcontent]

/-- **The tail of a log** has the last lines of the log, all of them if there are fewer. -/
theorem tailLogs_eq_rtake (content : Bytes) (n : ℕ) (h : 1 ≤ n) :
    tailLogs (some content) n = (byteLines content).rtake n := by
  rw [tailLogs, sliceFrom_neg h]
  obtain ⟨size, hread, rfl | hcount⟩ := exists_readTail content n
  · rw [hread, List.drop_zero]
  · rw [hread] at hcount ⊢
    exact rtake_byteLines_drop (by omega)

/-- The last of two lines. -/
theorem tailLogs_eq_rtake_one : tailLogs (some (ascii "a\r\nb")) 1 = [str "b"] :=
  tailLogs_eq_rtake (ascii "a\r\nb") 1 (by decide)

end Llmxy
