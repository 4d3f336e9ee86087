import Llmxy.Lib.Dumps

/-!
# Texts that can be encoded

`str.encode` raises on a surrogate, and a JSON text may bring surrogates in by escapes.  So
whether what `json.dumps` writes raw can be sent depends on the texts within it.

## Main definitions

* `Json.Encodable` — the text of a value has no surrogate.
* `encodable_str`, `encodable_arr`, `encodable_obj` — where it comes from.
-/

namespace Llmxy

theorem isText_append {s t : Str} : IsText (s ++ t) ↔ IsText s ∧ IsText t :=
  List.forall_mem_append

theorem isText_cons {c : ℕ} {s : Str} : IsText (c :: s) ↔ IsScalar c ∧ IsText s :=
  List.forall_mem_cons

theorem isText_nil : IsText [] := by decide

/-- The text of a value has no surrogate. -/
def Json.Encodable (float : Bool → ℕ → ℤ → Str) (x : Json) : Prop :=
  IsText (dumps (.raw float) x)

section
variable {float : Bool → ℕ → ℤ → Str}

instance (x : Json) : Decidable (x.Encodable float) :=
  inferInstanceAs (Decidable (IsText (dumps (.raw float) x)))

theorem isText_escapeChar_raw (c : ℕ) :
    IsText (escapeChar (.raw float) c) ↔ IsScalar c := by
  by_cases hc : c < 128
  · have hall : ∀ c < 128, IsText (escapeChar (.raw fun _ _ _ => []) c) := by decide
    exact iff_of_true (hall c hc) (.inl (by omega))
  · have heq : escapeChar (.raw float) c = [c] := by
      simp only [escapeChar, DumpStyle.raw, Bool.false_eq_true, false_and, if_false]
      rw [if_neg (by omega), if_neg (by omega), if_neg (by omega), if_neg (by omega),
        if_neg (by omega), if_neg (by omega), if_neg (by omega), if_neg (by omega)]
    rw [heq, isText_cons]
    exact and_iff_left isText_nil

theorem isText_quote {s : Str} : IsText (quote (.raw float) s) ↔ IsText s := by
  have hescape : IsText (escape (.raw float) s) ↔ IsText s := by
    induction s with
    | nil => exact iff_of_true isText_nil isText_nil
    | cons c s ih =>
        rw [escape, List.flatMap_cons, isText_append, isText_escapeChar_raw, isText_cons]
        exact and_congr_right fun _ => ih
  have h34 : IsText [34] := by decide
  rw [quote, isText_cons, isText_append, hescape]
  exact ⟨fun h => h.2.1, fun h => ⟨.inl (by decide), h, h34⟩⟩

theorem isText_dumpsMore {xs : List Json} :
    IsText (dumpsMore (.raw float) xs) ↔ ∀ x ∈ xs, x.Encodable float := by
  induction xs with
  | nil => exact iff_of_true isText_nil fun _ hx => by cases hx
  | cons x xs ih =>
      have hsep : IsText (DumpStyle.raw float).itemSep := (by decide : IsText [44])
      rw [dumpsMore, isText_append, isText_append, ih, List.forall_mem_cons]
      exact and_congr_left fun _ => and_iff_right hsep

theorem isText_dumpsMoreFields {fields : List (Str × Json)} :
    IsText (dumpsMoreFields (.raw float) fields) ↔
      ∀ f ∈ fields, IsText f.1 ∧ f.2.Encodable float := by
  induction fields with
  | nil => exact iff_of_true isText_nil fun _ hf => by cases hf
  | cons f fields ih =>
      have hsep : IsText (DumpStyle.raw float).itemSep := (by decide : IsText [44])
      have hkey : IsText (DumpStyle.raw float).keySep := (by decide : IsText [58])
      rw [dumpsMoreFields, isText_append, isText_append, isText_append, isText_append, isText_quote,
        ih, List.forall_mem_cons]
      exact and_congr_left fun _ =>
        ⟨fun h => ⟨h.1.1.2, h.2⟩, fun h => ⟨⟨⟨hsep, h.1⟩, hkey⟩, h.2⟩⟩

@[simp] theorem encodable_null : Json.null.Encodable float :=
  (by decide : IsText (str "null"))

@[simp] theorem encodable_int (n : ℤ) : (Json.int n).Encodable float := by
  have hnat : ∀ m, IsText (showNat m) := fun m c hc => by
    have := digit_bounds (isAsciiDigit_of_mem_showNat hc)
    exact .inl (by omega)
  rw [Json.Encodable, dumps, showInt]
  split_ifs
  · exact isText_append.mpr ⟨by decide, hnat _⟩
  · exact hnat _

@[simp] theorem encodable_str {s : Str} : (Json.str s).Encodable float ↔ IsText s := isText_quote

@[simp] theorem encodable_arr {xs : List Json} :
    (Json.arr xs).Encodable float ↔ ∀ x ∈ xs, x.Encodable float := by
  cases xs with
  | nil => exact iff_of_true (by decide : IsText [91, 93]) fun _ hx => by cases hx
  | cons x xs =>
      have hopen : IsScalar 91 := by decide
      have hclose : IsText [93] := by decide
      rw [Json.Encodable, dumps, isText_cons, isText_append, isText_append, isText_dumpsMore,
        List.forall_mem_cons]
      exact ⟨fun h => h.2.1, fun h => ⟨hopen, h, hclose⟩⟩

@[simp] theorem encodable_obj {fields : List (Str × Json)} :
    (Json.obj fields).Encodable float ↔ ∀ f ∈ fields, IsText f.1 ∧ f.2.Encodable float := by
  cases fields with
  | nil => exact iff_of_true (by decide : IsText [123, 125]) fun _ hf => by cases hf
  | cons f fields =>
      have hopen : IsScalar 123 := by decide
      have hclose : IsText [125] := by decide
      have hkey : IsText (DumpStyle.raw float).keySep := (by decide : IsText [58])
      rw [Json.Encodable, dumps, isText_cons, isText_append, isText_append, isText_append,
        isText_append, isText_quote, isText_dumpsMoreFields, List.forall_mem_cons]
      exact ⟨fun h => ⟨⟨h.2.1.1.1.1, h.2.1.1.2⟩, h.2.1.2⟩,
        fun h => ⟨hopen, ⟨⟨⟨h.1.1, hkey⟩, h.1.2⟩, h.2⟩, hclose⟩⟩

end

end Llmxy
