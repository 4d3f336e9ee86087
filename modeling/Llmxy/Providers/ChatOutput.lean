import Llmxy.Protocols.ChatBody
import Llmxy.Providers.EventLines

/-!
# What an adapter produces

An adapter produces a chat completion, or the chunks of a stream.  A client reads the same
off both: a text, a finish reason, and the tokens.

Python's `+` of values that are not both integers is the parameter `plus`.

## Main definitions

* `StreamItem`, `deltaChunk`, `finalChunk` — what is yielded.
* `ChatOutput`, `bodyOutput`, `streamOutput` — what a client reads, `Agree` — the same.
* `collect_texts_iff` — events that are read whole or lost.
-/

namespace Llmxy

/-- What a generator yields: `data: ` with a chunk, or with `[DONE]`. -/
inductive StreamItem where
  | chunk (v : Json)
  | done

/-- A chunk with a text. -/
def deltaChunk (id : Str) (created : ℤ) (model : Str) (content : Json) : Json :=
  .obj [(str "id", .str id), (str "object", .str (str "chat.completion.chunk")),
    (str "created", .int created), (str "model", .str model),
    (str "choices", .arr [.obj [(str "index", .int 0),
      (str "delta", .obj [(str "content", content)]), (str "finish_reason", .null)]])]

/-- The last chunk. -/
def finalChunk (id : Str) (created : ℤ) (model : Str)
    (promptTokens completionTokens totalTokens : Json) : Json :=
  .obj [(str "id", .str id), (str "object", .str (str "chat.completion.chunk")),
    (str "created", .int created), (str "model", .str model),
    (str "choices", .arr [.obj [(str "index", .int 0), (str "delta", .obj []),
      (str "finish_reason", .str (str "stop"))]]),
    (str "usage", .obj [(str "prompt_tokens", promptTokens),
      (str "completion_tokens", completionTokens), (str "total_tokens", totalTokens)])]

/-- `a + b`.  `none` when it raises. -/
def Json.add (plus : Json → Json → Option Json) : Json → Json → Option Json
  | .int a, .int b => some (.int (a + b))
  | a, b => plus a b

/-- What a client reads. -/
structure ChatOutput where
  text : Str
  finishReason : Json
  promptTokens : Json
  completionTokens : Json
  deriving DecidableEq

/-- The first choice of a body or a chunk. -/
def choiceOf (v : Json) : Json := (elementsOf (str "choices") v).headD .null

/-- What is read off a chat completion. -/
def bodyOutput (body : Json) : ChatOutput where
  text := ((fieldOf (str "content") (fieldOf (str "message") (choiceOf body))).str?).getD []
  finishReason := fieldOf (str "finish_reason") (choiceOf body)
  promptTokens := fieldOf (str "prompt_tokens") (fieldOf (str "usage") body)
  completionTokens := fieldOf (str "completion_tokens") (fieldOf (str "usage") body)

/-- The text of a chunk. -/
def StreamItem.text : StreamItem → Str
  | .chunk v => ((fieldOf (str "content") (fieldOf (str "delta") (choiceOf v))).str?).getD []
  | .done => []

/-- What is known after one more item: its text is added, and its finish reason and its
usage count if it has them. -/
def ChatOutput.add (o : ChatOutput) : StreamItem → ChatOutput
  | .done => o
  | .chunk v =>
      let usage := fieldOf (str "usage") v
      { text := o.text ++ StreamItem.text (.chunk v)
        finishReason := (fieldOf (str "finish_reason") (choiceOf v)).orElse o.finishReason
        promptTokens := if usage = .null then o.promptTokens
          else fieldOf (str "prompt_tokens") usage
        completionTokens := if usage = .null then o.completionTokens
          else fieldOf (str "completion_tokens") usage }

/-- What is read off a stream. -/
def streamOutput (items : List StreamItem) : ChatOutput :=
  items.foldl ChatOutput.add ⟨[], .null, .null, .null⟩

/-- The adapter's two ways agree: neither raises, and a client reads the same off both. -/
def Agree (stream : Option (List StreamItem)) (body : Option Json) : Prop :=
  ∃ items v, stream = some items ∧ body = some v ∧ streamOutput items = bodyOutput v

/-! ### Texts -/

theorem foldl_add_text (o : ChatOutput) (items : List StreamItem) :
    (items.foldl ChatOutput.add o).text = o.text ++ items.flatMap StreamItem.text := by
  induction items generalizing o with
  | nil => exact (List.append_nil _).symm
  | cons item items ih =>
      rw [List.foldl_cons, ih, List.flatMap_cons, ← List.append_assoc]
      cases item with
      | chunk v => rfl
      | done => exact congrArg (· ++ _) (List.append_nil _).symm

theorem text_streamOutput (items : List StreamItem) :
    (streamOutput items).text = items.flatMap StreamItem.text :=
  foldl_add_text _ items

/-- A chunk with a text adds its text only. -/
theorem add_deltaChunk (o : ChatOutput) (id : Str) (created : ℤ) (model t : Str) :
    o.add (.chunk (deltaChunk id created model (.str t))) = { o with text := o.text ++ t } := rfl

/-- Chunks with texts and the last one. -/
theorem streamOutput_final {deltas : List StreamItem} (id : Str) (created : ℤ) (model : Str)
    (promptTokens completionTokens totalTokens : Json)
    (h : ∀ item ∈ deltas, ∃ t, item = .chunk (deltaChunk id created model (.str t))) :
    streamOutput (deltas ++
      [.chunk (finalChunk id created model promptTokens completionTokens totalTokens), .done]) =
      ⟨deltas.flatMap StreamItem.text, .str (str "stop"), promptTokens, completionTokens⟩ := by
  have hdeltas : ∀ o : ChatOutput, deltas.foldl ChatOutput.add o =
      { o with text := o.text ++ deltas.flatMap StreamItem.text } := by
    induction deltas with
    | nil => exact fun o => congrArg (fun t => { o with text := t }) (List.append_nil _).symm
    | cons item deltas ih =>
        intro o
        rw [List.forall_mem_cons] at h
        obtain ⟨t, rfl⟩ := h.1
        rw [List.foldl_cons, ih h.2, add_deltaChunk, List.flatMap_cons, List.append_assoc]
        rfl
  rw [streamOutput, List.foldl_append, hdeltas]
  show ChatOutput.mk (deltas.flatMap StreamItem.text ++ []) _ _ _ = _
  rw [List.append_nil]
  rfl

/-! ### Finish reasons -/

/-- An item as the generators write them. -/
inductive StreamItem.IsWritten : StreamItem → Prop
  | delta (id : Str) (created : ℤ) (model : Str) (content : Json) :
      IsWritten (.chunk (deltaChunk id created model content))
  | final (id : Str) (created : ℤ) (model : Str)
      (promptTokens completionTokens totalTokens : Json) :
      IsWritten (.chunk (finalChunk id created model promptTokens completionTokens totalTokens))
  | done : IsWritten .done

/-- **A stream has the finish reason `stop`** or none at all. -/
theorem finishReason_streamOutput {items : List StreamItem}
    (h : ∀ item ∈ items, item.IsWritten) :
    (streamOutput items).finishReason = .null ∨
      (streamOutput items).finishReason = .str (str "stop") := by
  have hfold : ∀ o : ChatOutput, o.finishReason = .null ∨ o.finishReason = .str (str "stop") →
      (items.foldl ChatOutput.add o).finishReason = .null ∨
        (items.foldl ChatOutput.add o).finishReason = .str (str "stop") := by
    induction items with
    | nil => exact fun o ho => ho
    | cons item items ih =>
        intro o ho
        rw [List.forall_mem_cons] at h
        refine ih h.2 _ ?_
        cases h.1 with
        | delta => exact ho
        | final => exact Or.inr rfl
        | done => exact ho
  exact hfold _ (Or.inl rfl)

/-! ### Events that are lost -/

/-- **Events that are read whole or lost**: no more text comes out than goes in, and as much
only if none is lost. -/
theorem collect_texts {σ α : Type} {act : σ → α → Option (List StreamItem × σ)} {text : α → Str}
    {whole : α → Prop} [DecidablePred whole]
    (hwhole : ∀ s a r, whole a → act s a = some r → r.1.flatMap StreamItem.text = text a)
    (hlost : ∀ s a r, ¬ whole a → act s a = some r → r.1 = [])
    (hne : ∀ a, ¬ whole a → text a ≠ []) {xs : List α} {s : σ} {r : List StreamItem × σ}
    (hr : collect act s xs = some r) :
    (r.1.flatMap StreamItem.text).length ≤ (xs.flatMap text).length ∧
      ((r.1.flatMap StreamItem.text).length = (xs.flatMap text).length → ∀ a ∈ xs, whole a) := by
  induction xs generalizing s r with
  | nil =>
      obtain rfl := Option.some.inj hr
      exact ⟨le_rfl, fun _ a ha => by cases ha⟩
  | cons a xs ih =>
      obtain ⟨r₁, r₂, hr₁, hr₂, rfl⟩ := collect_cons_eq_some.mp hr
      obtain ⟨hle, heq⟩ := ih hr₂
      rw [List.flatMap_cons, List.flatMap_append, List.length_append, List.length_append]
      by_cases ha : whole a
      · rw [hwhole s a r₁ ha hr₁]
        refine ⟨by omega, fun hlen => List.forall_mem_cons.mpr ⟨ha, heq (by omega)⟩⟩
      · have hpos := List.length_pos_of_ne_nil (hne a ha)
        rw [hlost s a r₁ ha hr₁, List.flatMap_nil, List.length_nil]
        exact ⟨by omega, by omega⟩

/-- **The whole text comes out** only if no event is lost. -/
theorem collect_texts_iff {σ α : Type} {act : σ → α → Option (List StreamItem × σ)}
    {text : α → Str} {whole : α → Prop} [DecidablePred whole]
    (hwhole : ∀ s a, whole a → ∃ r, act s a = some r ∧ r.1.flatMap StreamItem.text = text a)
    (hlost : ∀ s a r, ¬ whole a → act s a = some r → r.1 = [])
    (hne : ∀ a, ¬ whole a → text a ≠ []) (xs : List α) (s : σ) :
    (∃ r, collect act s xs = some r ∧ r.1.flatMap StreamItem.text = xs.flatMap text) ↔
      ∀ a ∈ xs, whole a := by
  constructor
  · rintro ⟨r, hr, htext⟩
    refine (collect_texts (fun s a r' ha hr' => ?_) hlost hne hr).2 (congrArg List.length htext)
    obtain ⟨r'', hr'', htext'⟩ := hwhole s a ha
    rw [Option.some.inj (hr'.symm.trans hr'')]
    exact htext'
  · intro hall
    induction xs generalizing s with
    | nil => exact ⟨_, rfl, rfl⟩
    | cons a xs ih =>
        rw [List.forall_mem_cons] at hall
        obtain ⟨r₁, hr₁, htext₁⟩ := hwhole s a hall.1
        obtain ⟨r₂, hr₂, htext₂⟩ := ih r₁.2 hall.2
        refine ⟨_, collect_cons_eq_some.mpr ⟨r₁, r₂, hr₁, hr₂, rfl⟩, ?_⟩
        rw [List.flatMap_append, List.flatMap_cons, htext₁, htext₂]

end Llmxy
