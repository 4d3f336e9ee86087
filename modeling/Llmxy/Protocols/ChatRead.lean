import Llmxy.Protocols.ChatChunk

/-!
# Reading a chat stream and sending events

What the stream converters share: the fields they read off a chat chunk, and the events
they send.

## Main definitions

* `SseEvent`, `sse` — an event that is sent.
* `getTruthy`, `firstChoice`, `readCounts` — what is read off an object.
* `collect` — a loop that sends events.
-/

namespace Llmxy

/-- An event that is sent to the client. -/
structure SseEvent where
  name : Str
  data : Json

/-- The text of an event. -/
def SseEvent.text (float : Bool → ℕ → ℤ → Str) (e : SseEvent) : Str :=
  str "event: " ++ e.name ++ str "\ndata: " ++ dumps (.raw float) e.data ++ [10, 10]

/-- `_sse`.  A text with a surrogate cannot be encoded, which raises. -/
def sse (float : Bool → ℕ → ℤ → Str) (name : Str) (data : Json) : Option SseEvent :=
  if IsText (SseEvent.text float ⟨name, data⟩) then some ⟨name, data⟩ else none

/-- `x.get`, which only a dictionary has. -/
def Json.fields? : Json → Option (List (Str × Json))
  | .obj fields => some fields
  | _ => none

/-- `d.get(key)`, if it counts as true. -/
def getTruthy (key : Str) (fields : List (Str × Json)) : Option Json :=
  (Json.lookup key fields).filter Json.truthy

/-- `(obj.get("choices") or [{}])[0]`. -/
def firstChoice (fields : List (Str × Json)) : Option Json :=
  match getTruthy (str "choices") fields with
  | none => some (.obj [])
  | some (.arr (x :: _)) => some x
  | some (.str (c :: _)) => some (.str [c])
  | some _ => none

/-- The counts after `obj.get("usage")`. -/
def readCounts (fields : List (Str × Json)) (counts : Counts) : Option Counts :=
  match getTruthy (str "usage") fields with
  | some usage => translatedCounts usage counts
  | none => some counts

/-- A loop that collects events.  `none` when a step raises. -/
def collect {σ α ε : Type} (step : σ → α → Option (List ε × σ)) :
    σ → List α → Option (List ε × σ)
  | s, [] => some ([], s)
  | s, x :: xs => do
      let r ← step s x
      let rs ← collect step r.2 xs
      some (r.1 ++ rs.1, rs.2)

/-- The counts after a chunk: those of its usage that are not zero. -/
def ChatChunk.countsAfter (counts : Counts) (chunk : ChatChunk) : Counts :=
  match chunk.usage with
  | none => counts
  | some u =>
      (if u.prompt = 0 then counts.1 else .int u.prompt,
        if u.completion = 0 then counts.2 else .int u.completion)

/-! ### Loops and events -/

section Collect
variable {σ α ε : Type} {step : σ → α → Option (List ε × σ)}

theorem collect_cons_eq_some {s : σ} {x : α} {xs : List α} {r : List ε × σ} :
    collect step s (x :: xs) = some r ↔
      ∃ r₁ r₂, step s x = some r₁ ∧ collect step r₁.2 xs = some r₂ ∧
        r = (r₁.1 ++ r₂.1, r₂.2) := by
  simp only [collect, Option.bind_eq_bind]
  constructor
  · intro h
    obtain ⟨r₁, hr₁, h⟩ := Option.bind_eq_some_iff.mp h
    obtain ⟨r₂, hr₂, h⟩ := Option.bind_eq_some_iff.mp h
    exact ⟨r₁, r₂, hr₁, hr₂, (Option.some.inj h).symm⟩
  · rintro ⟨r₁, r₂, hr₁, hr₂, rfl⟩
    rw [hr₁, Option.bind_some, hr₂, Option.bind_some]

/-- **A loop whose steps keep an invariant** ends when no element makes a step raise. -/
theorem isSome_collect (inv : σ → Prop) {fits : α → Bool}
    (hfits : ∀ s x, inv s → (step s x).isSome = fits x)
    (hinv : ∀ s x r, inv s → step s x = some r → inv r.2) {s : σ} (hs : inv s) (xs : List α) :
    (collect step s xs).isSome = xs.all fits := by
  induction xs generalizing s with
  | nil => rfl
  | cons x xs ih =>
      rw [List.all_cons, ← hfits s x hs, collect]
      cases hr : step s x with
      | none => rfl
      | some r =>
          rw [Option.isSome_some, Bool.true_and, ← ih (hinv s x r hs hr)]
          simp only [Option.bind_eq_bind, Option.bind_some]
          cases collect step r.2 xs <;> rfl

/-- What each step yields, the loop yields. -/
theorem collect_forall {p : ε → Prop} (h : ∀ s x r, step s x = some r → ∀ e ∈ r.1, p e)
    {xs : List α} {s : σ} {r : List ε × σ} (hr : collect step s xs = some r) :
    ∀ e ∈ r.1, p e := by
  induction xs generalizing s r with
  | nil =>
      obtain rfl := Option.some.inj hr
      exact List.forall_mem_nil p
  | cons x xs ih =>
      obtain ⟨r₁, r₂, hr₁, hr₂, rfl⟩ := collect_cons_eq_some.mp hr
      exact List.forall_mem_append.mpr ⟨h _ _ _ hr₁, ih hr₂⟩

theorem collect_same {s : σ} (h : ∀ x r, step s x = some r → r.2 = s) {xs : List α}
    {r : List ε × σ} (hr : collect step s xs = some r) : r.2 = s := by
  induction xs generalizing r with
  | nil =>
      obtain rfl := Option.some.inj hr
      rfl
  | cons x xs ih =>
      obtain ⟨r₁, r₂, hr₁, hr₂, rfl⟩ := collect_cons_eq_some.mp hr
      rw [h x r₁ hr₁] at hr₂
      have hsame := ih hr₂
      exact hsame

/-- A loop whose steps do nothing. -/
theorem collect_idle {s : σ} {xs : List α}
    (h : ∀ x ∈ xs, ∀ r, step s x = some r → r = ([], s)) {r : List ε × σ}
    (hr : collect step s xs = some r) : r = ([], s) := by
  induction xs generalizing r with
  | nil => exact (Option.some.inj hr).symm
  | cons x xs ih =>
      rw [List.forall_mem_cons] at h
      obtain ⟨r₁, r₂, hr₁, hr₂, rfl⟩ := collect_cons_eq_some.mp hr
      obtain rfl := h.1 r₁ hr₁
      obtain rfl := ih h.2 hr₂
      rfl

theorem collect_append (s : σ) (xs ys : List α) :
    collect step s (xs ++ ys) = (collect step s xs).bind fun r =>
      (collect step r.2 ys).map fun rs => (r.1 ++ rs.1, rs.2) := by
  induction xs generalizing s with
  | nil =>
      cases h : collect step s ys <;> simp [collect, h]
  | cons x xs ih =>
      simp only [List.cons_append, collect, Option.bind_eq_bind]
      cases step s x with
      | none => rfl
      | some r =>
          simp only [Option.bind_some, ih]
          cases collect step r.2 xs with
          | none => rfl
          | some rs =>
              simp only [Option.bind_some]
              cases collect step rs.2 ys with
              | none => rfl
              | some rt => simp

theorem collect_map {β : Type} (step : σ → β → Option (List ε × σ)) (f : α → β) (s : σ)
    (xs : List α) : collect step s (xs.map f) = collect (fun s x => step s (f x)) s xs := by
  induction xs generalizing s with
  | nil => rfl
  | cons x xs ih => simp only [List.map_cons, collect, ih]

theorem collect_flatMap {β : Type} (step : σ → β → Option (List ε × σ)) (f : α → List β) (s : σ)
    (xs : List α) :
    collect step s (xs.flatMap f) = collect (fun s x => collect step s (f x)) s xs := by
  induction xs generalizing s with
  | nil => rfl
  | cons x xs ih =>
      rw [List.flatMap_cons, collect_append, collect]
      cases collect step s (f x) with
      | none => rfl
      | some r =>
          simp only [Option.bind_some, ih, Option.bind_eq_bind]
          cases collect (fun s x => collect step s (f x)) r.2 xs <;> rfl

/-- A loop that skips what `f` does not make an item of. -/
theorem collect_filterMap {β : Type} (step : σ → β → Option (List ε × σ)) (f : α → Option β)
    (s : σ) (xs : List α) :
    collect step s (xs.filterMap f) =
      collect (fun s x => ((f x).map (step s)).getD (some ([], s))) s xs := by
  induction xs generalizing s with
  | nil => rfl
  | cons x xs ih =>
      rw [List.filterMap_cons, collect]
      cases f x with
      | none =>
          simp only [Option.map_none, Option.getD_none, Option.bind_eq_bind, Option.bind_some, ih]
          cases collect (fun s x => ((f x).map (step s)).getD (some ([], s))) s xs <;> rfl
      | some y => simp only [Option.map_some, Option.getD_some, collect, ih]

end Collect

theorem sse_of_plain {float : Bool → ℕ → ℤ → Str} {name : Str} {data : Json}
    (hname : ∀ c ∈ name, c < 128) (hdata : data.Plain) :
    sse float name data = some ⟨name, data⟩ := by
  have hevent : ∀ c ∈ str "event: ", c < 128 := by decide
  have hline : ∀ c ∈ str "\ndata: ", c < 128 := by decide
  refine if_pos fun c hc => ?_
  simp only [SseEvent.text, List.mem_append] at hc
  rcases hc with (((hc | hc) | hc) | hc) | hc
  · exact isText_of_ascii hevent c hc
  · exact isText_of_ascii hname c hc
  · exact isText_of_ascii hline c hc
  · rcases written_dumps data hdata hc with hascii | ⟨-, -, -, hscalar⟩
    · exact Or.inl (by omega)
    · exact hscalar
  · simp only [List.mem_cons, List.not_mem_nil, or_false, or_self] at hc
    exact Or.inl (by omega)

theorem natAbs_small {n : ℤ} (h : n.natAbs < 10) : n.natAbs < 10 ^ maxIntDigits :=
  h.trans_le (Nat.le_self_pow (by decide) 10)

theorem zero_small : (0 : ℤ).natAbs < 10 ^ maxIntDigits := natAbs_small (by decide)

theorem ascii_c : ∀ c ∈ str "c", c < 128 := by decide

/-! ### What is read off a chunk -/

namespace ChatChunk

def fields (chunk : ChatChunk) : List (Str × Json) :=
  chunk.headFields ++
    (str "choices", .arr (chunk.choice.map ChunkChoice.json).toList) :: chunk.usageFields

theorem getTruthy_usage (chunk : ChatChunk) :
    getTruthy (str "usage") chunk.fields = chunk.usage.map TokenUsage.json := by
  unfold getTruthy fields headFields usageFields
  cases chunk.usage <;> rfl

theorem firstChoice_fields (chunk : ChatChunk) :
    firstChoice chunk.fields = some ((chunk.choice.map ChunkChoice.json).getD (.obj [])) := by
  have hchoices : getTruthy (str "choices") chunk.fields =
      (Json.arr (chunk.choice.map ChunkChoice.json).toList |> some).filter Json.truthy := rfl
  unfold firstChoice
  rw [hchoices]
  cases chunk.choice <;> rfl

end ChatChunk

namespace ChunkChoice

def deltaFields (c : ChunkChoice) : List (Str × Json) :=
  c.roleFields ++ (c.content.map fun t => (str "content", Json.str t.text)).toList

def fields (c : ChunkChoice) : List (Str × Json) :=
  (str "index", .int 0) :: (str "delta", .obj c.deltaFields) :: c.finishFields

theorem getTruthy_finishReason (c : ChunkChoice) : getTruthy (str "finish_reason") c.fields =
    (c.finishReason.filter fun r => r.text ≠ []).map fun r => .str r.text := by
  have hfinish : getTruthy (str "finish_reason") c.fields =
      (some ((c.finishReason.map fun r => Json.str r.text).getD .null)).filter Json.truthy := rfl
  rw [hfinish]
  cases c.finishReason with
  | none => rfl
  | some r =>
      by_cases hr : r.text = []
      · simp [Option.filter, Json.truthy, hr]
      · simp [Option.filter, Json.truthy, hr]

theorem delta_fields (c : ChunkChoice) :
    ((getTruthy (str "delta") c.fields).getD (.obj [])).fields? = some c.deltaFields := by
  have hdelta : getTruthy (str "delta") c.fields =
      (some (Json.obj c.deltaFields)).filter Json.truthy := rfl
  rw [hdelta]
  cases h : c.deltaFields with
  | nil => rfl
  | cons f fs => rfl

theorem getTruthy_content (c : ChunkChoice) : getTruthy (str "content") c.deltaFields =
    (c.content.filter fun t => t.text ≠ []).map fun t => .str t.text := by
  have hcontent : getTruthy (str "content") c.deltaFields =
      (c.content.map fun t => Json.str t.text).filter Json.truthy := by
    unfold getTruthy deltaFields roleFields
    cases c.role <;> cases c.content <;> rfl
  rw [hcontent]
  cases c.content with
  | none => rfl
  | some t =>
      by_cases ht : t.text = []
      · simp [Option.filter, Json.truthy, ht]
      · simp [Option.filter, Json.truthy, ht]

end ChunkChoice

theorem intOr_nat {n : ℕ} {m : ℤ} :
    intOr (some (.int n)) (.int m) = some (if n = 0 then .int m else .int n) := by
  rw [intOr_eq]
  by_cases h : n = 0
  · simp [Option.filter, Json.truthy, h, Json.toInt?]
  · simp [Option.filter, Json.truthy, h, Json.toInt?]

/-- What the converter does with the usage of a chunk. -/
theorem readCounts_chunk (chunk : ChatChunk) (p c : ℤ) :
    readCounts chunk.fields (.int p, .int c) =
      some (chunk.countsAfter (.int p, .int c)) := by
  rw [readCounts, chunk.getTruthy_usage, ChatChunk.countsAfter]
  cases chunk.usage with
  | none => rfl
  | some u =>
      have hp : Json.lookup (str "prompt_tokens") [(str "prompt_tokens", .int u.prompt),
          (str "completion_tokens", .int u.completion),
          (str "total_tokens", .int (u.prompt + u.completion : ℕ))] = some (.int u.prompt) := rfl
      have hc : Json.lookup (str "completion_tokens") [(str "prompt_tokens", .int u.prompt),
          (str "completion_tokens", .int u.completion),
          (str "total_tokens", .int (u.prompt + u.completion : ℕ))] = some (.int u.completion) := rfl
      simp only [Option.map_some, TokenUsage.json, translatedCounts, hp, hc, intOr_nat]
      rfl

/-- No text has floats in it. -/
def noFloats : Bool → ℕ → ℤ → Str := fun _ _ _ => []

/-- A chunk with a text. -/
def textChunk (t : UnicodeText) : ChatChunk where
  id := ⟨str "c", ascii_c⟩
  created := ⟨0, zero_small⟩
  model := ⟨str "m", by decide⟩
  choice := some ⟨false, some t, none⟩
  usage := none

end Llmxy
