import Llmxy.Lib.Encodable
import Llmxy.Lib.Loops
import Llmxy.Protocols.ChatRead

/-!
# The shapes of chunks

The stream converters look for keys at four levels of a chunk.  What they find counts when it
is true; when it is something else than they look for, they raise.  This is what a converter
can read, and what it reads then.

## Main definitions

* `usageFits`, `choicesFit`, `expectedShape` — what a converter can read.
* `chunkCount` — a count that a chunk sets.
* `sse_eq`, `readCounts_isSome`, `readDelta_isSome` — when the steps of a converter raise.
-/

namespace Llmxy

/-- A usage object whose counts are integers for `int`. -/
def usageFits : Json → Bool
  | .obj fields => [str "prompt_tokens", str "completion_tokens"].all fun key =>
      (getTruthy key fields).all fun v => v.toInt?.isSome
  | _ => false

/-- A count of a usage object, unless it is zero. -/
def countOf (key : Str) (u : Json) : Option ℤ := do
  let fields ← u.fields?
  (← getTruthy key fields).toInt?

/-- The count that a chunk sets. -/
def chunkCount (key : Str) (fields : List (Str × Json)) : Option ℤ :=
  (getTruthy (str "usage") fields).bind (countOf key)

section
variable (float : Bool → ℕ → ℤ → Str)

/-- A delta whose content can be sent. -/
def deltaFits : Json → Bool
  | .obj delta => (getTruthy (str "content") delta).all fun c => decide (c.Encodable float)
  | _ => false

/-- Choices whose first is a dictionary. -/
def choicesFit : Json → Bool
  | .arr (.obj choice :: _) => (getTruthy (str "delta") choice).all (deltaFits float)
  | _ => false

/-- A chunk that can be read. -/
def expectedShape : Json → Bool
  | .obj fields => (getTruthy (str "usage") fields).all usageFits &&
      (getTruthy (str "choices") fields).all (choicesFit float)
  | _ => false

end

section
variable {float : Bool → ℕ → ℤ → Str}

/-- An event is sent when its data can be encoded. -/
theorem sse_eq {name : Str} (hname : IsText name) (data : Json) :
    sse float name data = if data.Encodable float then some ⟨name, data⟩ else none := by
  have hiff : IsText (SseEvent.text float ⟨name, data⟩) ↔ data.Encodable float := by
    have hevent : IsText (str "event: ") := by decide
    have hline : IsText (str "\ndata: ") := by decide
    have hend : IsText [10, 10] := by decide
    rw [SseEvent.text, isText_append, isText_append, isText_append, isText_append]
    exact ⟨fun h => h.1.2, fun h => ⟨⟨⟨⟨hevent, hname⟩, hline⟩, h⟩, hend⟩⟩
  rw [sse, if_congr hiff rfl rfl]

/-! ### Counts -/

/-- A count that is written is the one given, or the one there was. -/
theorem intOr_some {v : Option Json} {n : ℤ} {x : Json} (h : intOr v (.int n) = some x) :
    x = .int (((v.filter Json.truthy).bind Json.toInt?).getD n) := by
  rw [intOr_eq] at h
  cases hv : v.filter Json.truthy with
  | none =>
      rw [hv] at h
      exact (Option.some.inj h).symm
  | some y =>
      rw [hv] at h
      obtain ⟨m, hm, rfl⟩ := Option.map_eq_some_iff.mp h
      rw [Option.bind_some, hm, Option.getD_some]

theorem intOr_isSome (v : Option Json) (n : ℤ) :
    (intOr v (.int n)).isSome = (v.filter Json.truthy).all fun x => x.toInt?.isSome := by
  rw [intOr_eq]
  cases v.filter Json.truthy with
  | none => rfl
  | some x =>
      rw [Option.map_some, Option.getD_some, Option.isSome_map, Option.all_some]

/-- What a usage object makes of the counts. -/
theorem translatedCounts_some {u : Json} {p c : ℤ} {counts : Counts}
    (h : translatedCounts u (.int p, .int c) = some counts) :
    counts = (.int ((countOf (str "prompt_tokens") u).getD p),
      .int ((countOf (str "completion_tokens") u).getD c)) := by
  cases u with
  | obj fields =>
      simp only [translatedCounts, Option.bind_eq_bind, Option.bind_eq_some_iff,
        Option.some.injEq] at h
      obtain ⟨x, hx, y, hy, rfl⟩ := h
      rw [intOr_some hx, intOr_some hy]
      rfl
  | _ => cases h

theorem translatedCounts_isSome (u : Json) (p c : ℤ) :
    (translatedCounts u (.int p, .int c)).isSome = usageFits u := by
  cases u with
  | obj fields =>
      have hp := intOr_isSome (Json.lookup (str "prompt_tokens") fields) p
      have hc := intOr_isSome (Json.lookup (str "completion_tokens") fields) c
      simp only [translatedCounts, usageFits, Option.bind_eq_bind,
        List.all_cons, List.all_nil, Bool.and_true, getTruthy, ← hp, ← hc]
      cases intOr (Json.lookup (str "prompt_tokens") fields) (.int p) with
      | none => rfl
      | some x =>
          cases intOr (Json.lookup (str "completion_tokens") fields) (.int c) <;> rfl
  | _ => rfl

/-- What a chunk makes of the counts. -/
theorem readCounts_some {fields : List (Str × Json)} {p c : ℤ} {counts : Counts}
    (h : readCounts fields (.int p, .int c) = some counts) :
    counts = (.int ((chunkCount (str "prompt_tokens") fields).getD p),
      .int ((chunkCount (str "completion_tokens") fields).getD c)) := by
  rw [readCounts] at h
  rw [chunkCount, chunkCount]
  cases hu : getTruthy (str "usage") fields with
  | none =>
      rw [hu] at h
      exact (Option.some.inj h).symm
  | some u =>
      rw [hu] at h
      exact translatedCounts_some h

theorem readCounts_isSome (fields : List (Str × Json)) (p c : ℤ) :
    (readCounts fields (.int p, .int c)).isSome =
      (getTruthy (str "usage") fields).all usageFits := by
  rw [readCounts]
  cases getTruthy (str "usage") fields with
  | none => rfl
  | some u => exact translatedCounts_isSome u p c

/-! ### Choices -/

/-- What is done with the first choice and its delta raises when they are no dictionaries, or
when it raises on the content. -/
theorem readDelta_isSome {β : Type} {f : List (Str × Json) → List (Str × Json) → Option β}
    (hf : ∀ choice delta, (f choice delta).isSome = deltaFits float (.obj delta))
    (fields : List (Str × Json)) :
    ((firstChoice fields).bind fun first => first.fields?.bind fun choice =>
      ((getTruthy (str "delta") choice).getD (.obj [])).fields?.bind (f choice)).isSome =
        (getTruthy (str "choices") fields).all (choicesFit float) := by
  have hchoice : ∀ choice, (((getTruthy (str "delta") choice).getD (.obj [])).fields?.bind
      (f choice)).isSome = (getTruthy (str "delta") choice).all (deltaFits float) := by
    intro choice
    cases getTruthy (str "delta") choice with
    | none => exact hf choice []
    | some delta =>
        cases delta with
        | obj fields => exact hf choice fields
        | _ => rfl
  rw [firstChoice]
  cases getTruthy (str "choices") fields with
  | none => exact hchoice []
  | some choices =>
      cases choices with
      | arr xs =>
          cases xs with
          | nil => rfl
          | cons x xs =>
              cases x with
              | obj choice => exact hchoice choice
              | _ => rfl
      | str t => cases t <;> rfl
      | _ => rfl

end

end Llmxy
