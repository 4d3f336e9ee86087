import Llmxy.Lib.Utf8

/-!
# A text in pieces

A UTF-8 text is cut into pieces of any lengths and each piece is decoded alone.  A
character that a cut falls into is lost from both pieces, and nothing else is.

## Main definitions

* `cutPositions` — where the pieces end, `CutsBetween` — between which characters.
* `uncut` — the characters that no cut falls into, and `decode_pieces`.
* `Thins` — a text without some of its characters that are not ASCII.
-/

namespace Llmxy

/-- Where the pieces of a text end, in bytes from its start. -/
def cutPositions : List Bytes → List ℕ
  | [] => []
  | p :: ps => p.length :: (cutPositions ps).map (p.length + ·)

/-- The characters of a text that none of the cuts falls into.  The text starts at
byte `i`. -/
def uncut (cuts : List ℕ) : ℕ → Str → Str
  | _, [] => []
  | i, c :: s =>
      if ∃ n ∈ cuts, i < n ∧ n < i + (encodeChar c).length then
        uncut cuts (i + (encodeChar c).length) s
      else c :: uncut cuts (i + (encodeChar c).length) s

/-- Cuts before the text do not matter. -/
theorem uncut_congr {cuts cuts' : List ℕ} {i : ℕ} (s : Str)
    (h : ∀ n, i < n → (n ∈ cuts ↔ n ∈ cuts')) : uncut cuts i s = uncut cuts' i s := by
  induction s generalizing i with
  | nil => rfl
  | cons c s ih =>
      have hcut : (∃ n ∈ cuts, i < n ∧ n < i + (encodeChar c).length) ↔
          ∃ n ∈ cuts', i < n ∧ n < i + (encodeChar c).length := by
        constructor
        · rintro ⟨n, hn, hi, hlt⟩
          exact ⟨n, (h n hi).mp hn, hi, hlt⟩
        · rintro ⟨n, hn, hi, hlt⟩
          exact ⟨n, (h n hi).mpr hn, hi, hlt⟩
      have hrest := @ih (i + (encodeChar c).length) fun n hn => h n (by omega)
      simp only [uncut, hcut, hrest]

theorem uncut_shift (cuts : List ℕ) (d i : ℕ) (s : Str) :
    uncut (cuts.map (d + ·)) (d + i) s = uncut cuts i s := by
  induction s generalizing i with
  | nil => rfl
  | cons c s ih =>
      have hcut : (∃ n ∈ cuts.map (d + ·), d + i < n ∧ n < d + i + (encodeChar c).length) ↔
          ∃ n ∈ cuts, i < n ∧ n < i + (encodeChar c).length := by
        simp only [List.mem_map]
        constructor
        · rintro ⟨_, ⟨n, hn, rfl⟩, hi, hlt⟩
          exact ⟨n, hn, by omega, by omega⟩
        · rintro ⟨n, hn, hi, hlt⟩
          exact ⟨d + n, ⟨n, hn, rfl⟩, by omega, by omega⟩
      rw [uncut, uncut, Nat.add_assoc d i, ih]
      simp only [hcut, ← Nat.add_assoc]

/-- The first piece ends at or before the text. -/
theorem uncut_cutPositions_cons (p : Bytes) (ps : List Bytes) (i : ℕ) (s : Str) :
    uncut (cutPositions (p :: ps)) (p.length + i) s = uncut (cutPositions ps) i s := by
  rw [← uncut_shift (cutPositions ps) p.length i s]
  refine uncut_congr s fun n hn => ?_
  rw [cutPositions, List.mem_cons]
  exact or_iff_right (by omega)

theorem le_of_mem_cutPositions_cons {p : Bytes} {ps : List Bytes} {n : ℕ}
    (h : n ∈ cutPositions (p :: ps)) : p.length ≤ n := by
  rw [cutPositions, List.mem_cons, List.mem_map] at h
  rcases h with rfl | ⟨m, -, rfl⟩ <;> omega

/-- One piece: the characters that end in it are decoded, the one that its end falls into
is not.  `D` is what the pieces after it decode to. -/
theorem decode_piece {p rest : Bytes} {D s : Str} {cuts : List ℕ} {i : ℕ}
    (h : p ++ rest = encode s) (hs : ∀ c ∈ s, IsScalar c) (hend : i + p.length ∈ cuts)
    (hcuts : ∀ n ∈ cuts, i + p.length ≤ n)
    (hrest : ∀ k t, rest = k ++ encode t → (∀ b ∈ k, IsTail b) → (∀ c ∈ t, IsScalar c) →
      D = uncut cuts (i + p.length + k.length) t) :
    decode p ++ D = uncut cuts i s := by
  induction s generalizing p i with
  | nil =>
      obtain ⟨rfl, hnil⟩ := List.append_eq_nil_iff.mp h
      exact hrest [] [] hnil (by simp) (by simp)
  | cons c s ih =>
      have hc := hs c List.mem_cons_self
      have hs' : ∀ c' ∈ s, IsScalar c' := fun c' hc' => hs c' (List.mem_cons_of_mem _ hc')
      rw [encode_cons] at h
      by_cases hle : (encodeChar c).length ≤ p.length
      · -- the character ends in the piece
        obtain ⟨p', rfl⟩ : encodeChar c <+: p :=
          List.prefix_of_prefix_length_le ⟨_, rfl⟩ ⟨_, h⟩ hle
        rw [List.append_assoc, List.append_cancel_left_eq] at h
        rw [List.length_append, ← Nat.add_assoc] at hend hcuts hrest
        have hno : ¬ ∃ n ∈ cuts, i < n ∧ n < i + (encodeChar c).length := by
          rintro ⟨n, hn, -, hlt⟩
          have := hcuts n hn
          omega
        rw [decode_encodeChar_append hc, List.cons_append, ih h hs' hend hcuts hrest, uncut,
          if_neg hno]
      · obtain ⟨k, hk⟩ : p <+: encodeChar c :=
          List.prefix_of_prefix_length_le ⟨_, h⟩ ⟨_, rfl⟩ (by omega)
        rw [← hk, List.append_assoc, List.append_cancel_left_eq] at h
        have hne : p ≠ encodeChar c := fun heq => hle (by rw [heq])
        rw [decode_of_prefix_encodeChar hc ⟨k, hk⟩ hne, List.nil_append]
        cases p with
        | nil =>
            -- the piece ends before the character
            rw [List.nil_append] at hk
            subst hk
            exact hrest [] (c :: s) h (by simp) hs
        | cons b p =>
            have hlen := congrArg List.length hk
            rw [List.length_append] at hlen
            have htail : ∀ b ∈ k, IsTail b := fun b' hb' => by
              refine isTail_of_mem_tail_encodeChar (c := c) ?_
              rw [← hk]
              exact List.mem_append_right p hb'
            have hin : ∃ n ∈ cuts, i < n ∧ n < i + (encodeChar c).length :=
              ⟨_, hend, by simp, by omega⟩
            rw [uncut, if_pos hin, hrest k s h htail hs', Nat.add_assoc i, hlen]

/-- The pieces of a text that starts with the end of a character. -/
theorem decode_pieces_tail {pieces : List Bytes} {k : Bytes} {s : Str}
    (h : pieces.flatten = k ++ encode s) (hk : ∀ b ∈ k, IsTail b) (hs : ∀ c ∈ s, IsScalar c) :
    (pieces.map decode).flatten = uncut (cutPositions pieces) k.length s := by
  induction pieces generalizing k s with
  | nil =>
      cases s with
      | nil => rfl
      | cons c s =>
          rw [encode_cons] at h
          exact absurd (List.append_eq_nil_iff.mp (List.append_eq_nil_iff.mp h.symm).2).1
            (encodeChar_ne_nil c)
  | cons p ps ih =>
      rw [List.flatten_cons] at h
      rw [List.map_cons, List.flatten_cons]
      rcases List.append_eq_append_iff.mp h with ⟨k', rfl, hps⟩ | ⟨p', rfl, hps⟩
      · -- the piece ends within the cut character
        have hnil : decode p = [] := by
          have := decode_tail_append (fun b hb => hk b (List.mem_append_left k' hb)) []
          rwa [List.append_nil] at this
        rw [hnil, List.nil_append, List.length_append, uncut_cutPositions_cons]
        exact ih hps (fun b hb => hk b (List.mem_append_right p hb)) hs
      · have hlen : (k ++ p').length = k.length + p'.length := List.length_append
        rw [decode_tail_append hk]
        refine decode_piece hps.symm hs ?_ (fun n hn => ?_) fun k' t ht hk' hs' => ?_
        · rw [← hlen, cutPositions]
          exact List.mem_cons_self
        · rw [← hlen]
          exact le_of_mem_cutPositions_cons hn
        · rw [← hlen, uncut_cutPositions_cons]
          exact ih ht hk' hs'

/-- **Decoding piece by piece** loses the characters that a cut falls into, and only
them. -/
theorem decode_pieces {pieces : List Bytes} {s : Str} (h : pieces.flatten = encode s)
    (hs : ∀ c ∈ s, IsScalar c) :
    (pieces.map decode).flatten = uncut (cutPositions pieces) 0 s :=
  decode_pieces_tail (k := []) h (by simp) hs

/-! ### Lost characters -/

/-- The second text is the first without some characters that are not ASCII. -/
inductive Thins : Str → Str → Prop
  | nil : Thins [] []
  | keep (c : ℕ) {s t : Str} (h : Thins s t) : Thins (c :: s) (c :: t)
  | drop {c : ℕ} (hc : 128 ≤ c) {s t : Str} (h : Thins s t) : Thins (c :: s) t

namespace Thins
variable {s t a b : Str}

theorem sublist (h : Thins s t) : t.Sublist s := by
  induction h with
  | nil => exact .slnil
  | keep c _ ih => exact ih.cons_cons c
  | drop _ _ ih => exact ih.cons _

theorem refl (s : Str) : Thins s s := by
  induction s with
  | nil => exact .nil
  | cons c s ih => exact .keep c ih

theorem eq_of_length_le (h : Thins s t) (hlen : s.length ≤ t.length) : t = s :=
  h.sublist.eq_of_length_le hlen

/-- An ASCII text loses nothing. -/
theorem eq_of_ascii (h : Thins s t) (hs : ∀ c ∈ s, c < 128) : t = s := by
  induction h with
  | nil => rfl
  | keep c _ ih => rw [ih fun c' hc' => hs c' (List.mem_cons_of_mem _ hc')]
  | @drop c hc s t _ _ =>
      have := hs c List.mem_cons_self
      omega

theorem of_append (h : Thins (a ++ b) t) : ∃ a' b', t = a' ++ b' ∧ Thins a a' ∧ Thins b b' := by
  induction a generalizing t with
  | nil => exact ⟨[], t, rfl, .nil, h⟩
  | cons c a ih =>
      rw [List.cons_append] at h
      cases h with
      | keep _ h =>
          obtain ⟨a', b', rfl, ha, hb⟩ := ih h
          exact ⟨c :: a', b', rfl, .keep c ha, hb⟩
      | drop hc h =>
          obtain ⟨a', b', rfl, ha, hb⟩ := ih h
          exact ⟨a', b', rfl, .drop hc ha, hb⟩

end Thins

theorem encodeChar_ascii {c : ℕ} (h : c < 128) : encodeChar c = [.ofNat c] := by
  rw [encodeChar, if_pos h]

theorem thins_uncut (cuts : List ℕ) (i : ℕ) (s : Str) : Thins s (uncut cuts i s) := by
  induction s generalizing i with
  | nil => exact .nil
  | cons c s ih =>
      rw [uncut]
      split_ifs with h
      · obtain ⟨n, -, hi, hlt⟩ := h
        refine .drop ?_ (ih _)
        by_contra hascii
        rw [encodeChar_ascii (by omega), List.length_singleton] at hlt
        omega
      · exact .keep c (ih _)

theorem uncut_append (cuts : List ℕ) (i : ℕ) (a b : Str) :
    uncut cuts i (a ++ b) = uncut cuts i a ++ uncut cuts (i + (encode a).length) b := by
  induction a generalizing i with
  | nil => rfl
  | cons c a ih =>
      rw [List.cons_append, uncut, uncut, ih, encode_cons, List.length_append, Nat.add_assoc]
      split_ifs <;> rfl

/-- A text keeps all its characters exactly when each cut is between two of them. -/
theorem uncut_eq_self_iff {cuts : List ℕ} {i : ℕ} {s : Str} :
    uncut cuts i s = s ↔ ∀ n ∈ cuts, i ≤ n → n < i + (encode s).length →
      ∃ t, t <+: s ∧ n = i + (encode t).length := by
  induction s generalizing i with
  | nil =>
      refine iff_of_true rfl fun n _ hi hlt => ?_
      simp only [encode, List.flatMap_nil, List.length_nil] at hlt
      omega
  | cons c s ih =>
      rw [uncut, encode_cons, List.length_append, ← Nat.add_assoc]
      constructor
      · intro h n hn hi hlt
        split_ifs at h with hcut
        · have := congrArg List.length h
          have := (thins_uncut cuts (i + (encodeChar c).length) s).sublist.length_le
          rw [h, List.length_cons] at this
          omega
        · by_cases hlt' : n < i + (encodeChar c).length
          · refine ⟨[], List.nil_prefix, ?_⟩
            by_contra hne
            exact hcut ⟨n, hn, by simp [encode] at hne; omega, hlt'⟩
          · obtain ⟨t, ht, rfl⟩ := ih.mp (List.cons.inj h).2 n hn (by omega) hlt
            exact ⟨c :: t, List.cons_prefix_cons.mpr ⟨rfl, ht⟩, by
              rw [encode_cons, List.length_append, Nat.add_assoc]⟩
      · intro h
        have hno : ¬ ∃ n ∈ cuts, i < n ∧ n < i + (encodeChar c).length := by
          rintro ⟨n, hn, hi, hlt⟩
          obtain ⟨t, ht, rfl⟩ := h n hn (by omega) (by omega)
          cases t with
          | nil => simp [encode] at hi
          | cons d t =>
              obtain ⟨rfl, -⟩ := List.cons_prefix_cons.mp ht
              rw [encode_cons, List.length_append] at hlt
              omega
        rw [if_neg hno, List.cons.injEq, ih]
        refine ⟨rfl, fun n hn hi hlt => ?_⟩
        obtain ⟨t, ht, rfl⟩ := h n hn (by omega) hlt
        cases t with
        | nil =>
            have := List.length_pos_iff.mpr (encodeChar_ne_nil c)
            simp only [encode, List.flatMap_nil, List.length_nil] at hi
            omega
        | cons d t =>
            obtain ⟨rfl, ht'⟩ := List.cons_prefix_cons.mp ht
            exact ⟨t, ht', by rw [encode_cons, List.length_append, Nat.add_assoc]⟩

/-- Each cut within the text `s`, where it starts the pieces, is between two characters. -/
def CutsBetween (pieces : List Bytes) (s : Str) : Prop :=
  ∀ n ∈ cutPositions pieces, n < (encode s).length → ∃ t, t <+: s ∧ (encode t).length = n

/-- The same of a text that starts at byte `i` of the pieces. -/
def CutsWithin (pieces : List Bytes) (i : ℕ) (s : Str) : Prop :=
  ∀ n ∈ cutPositions pieces, i ≤ n → n < i + (encode s).length →
    ∃ t, t <+: s ∧ n = i + (encode t).length

/-- **What the pieces decode to**: of a text that starts the pieces, everything exactly
when each cut within it is between two characters. -/
theorem decode_pieces_append {pieces : List Bytes} {a b : Str}
    (h : pieces.flatten = encode (a ++ b)) (hs : ∀ c ∈ a ++ b, IsScalar c) :
    ∃ a' b', (pieces.map decode).flatten = a' ++ b' ∧ Thins a a' ∧ Thins b b' ∧
      (a' = a ↔ CutsBetween pieces a) := by
  refine ⟨_, _, (decode_pieces h hs).trans (uncut_append _ _ a b), thins_uncut _ _ _,
    thins_uncut _ _ _, ?_⟩
  rw [uncut_eq_self_iff, CutsBetween]
  simp only [Nat.zero_add, Nat.zero_le, true_implies]
  refine forall_congr' fun n => imp_congr_right fun _ => imp_congr_right fun _ => ?_
  exact exists_congr fun t => and_congr_right fun _ => eq_comm

end Llmxy
