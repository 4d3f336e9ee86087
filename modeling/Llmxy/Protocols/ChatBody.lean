import Llmxy.Lib.JsonKeys
import Llmxy.Protocols.AnthropicStream
import Llmxy.Relay.Prompt

/-!
# Chat bodies

The token limit of a chat payload, chat completions, and the Anthropic responses made of
them.

## Main definitions

* `openaiChatTokenLimit` — the limit, under either of its names.
* `chatCompletion`, `anthropicMessage` — the bodies.
* `openaiToAnthropicResponse` — the conversion.
-/

namespace Llmxy

/-- The elements under a key. -/
def elementsOf (key : Str) (v : Json) : List Json :=
  match fieldOf key v with
  | .arr xs => xs
  | _ => []

/-- `openai_chat_token_limit`. -/
def openaiChatTokenLimit (payload default : Json) : Json :=
  if fieldOf (str "max_completion_tokens") payload ≠ .null then
    fieldOf (str "max_completion_tokens") payload
  else if fieldOf (str "max_tokens") payload ≠ .null then fieldOf (str "max_tokens") payload
  else default

/-- `{"type": "text", "text": text}`. -/
def textBlock (text : Json) : Json := .obj [(str "type", .str (str "text")), (str "text", text)]

/-- The URL of an `image_url` block. -/
def imageUrl (block : Json) : Json :=
  match fieldOf (str "image_url") block with
  | .obj fields => fieldOf (str "url") (.obj fields)
  | url => url

/-- The text block that a block of content becomes. -/
def keptText (block : Json) : List Json :=
  if fieldOf (str "type") block = .str (str "text") then
    [textBlock ((fieldOf (str "text") block).orElse (.str []))]
  else []

/-- `_openai_content_to_anthropic` of `protocols/chat.py`. -/
def openaiContentToAnthropic : Json → List Json
  | .str s => [textBlock (.str s)]
  | .arr blocks =>
      let out := blocks.flatMap keptText
      if out.isEmpty then [textBlock (.str [])] else out
  | _ => [textBlock (.str [])]

/-- `(body.get("choices") or [{}])[0]`, if the choices are a list. -/
def bodyChoice (fields : List (Str × Json)) : Json :=
  match Json.lookup (str "choices") fields with
  | some (.arr (choice :: _)) => choice
  | _ => .obj []

/-- A chat completion with one choice. -/
def chatCompletion (id : Json) (created : ℤ) (model text : Str)
    (finishReason promptTokens completionTokens totalTokens : Json) : Json :=
  .obj [(str "id", id), (str "object", .str (str "chat.completion")), (str "created", .int created),
    (str "model", .str model),
    (str "choices", .arr [.obj [(str "index", .int 0),
      (str "message", chatMessage (.str (str "assistant")) (.str text)),
      (str "finish_reason", finishReason)]]),
    (str "usage", .obj [(str "prompt_tokens", promptTokens),
      (str "completion_tokens", completionTokens), (str "total_tokens", totalTokens)])]

/-- An Anthropic response. -/
def anthropicMessage (id : Json) (model : Str) (content : List Json) (stopReason : Str)
    (inputTokens outputTokens : Json) : Json :=
  .obj [(str "id", id), (str "type", .str (str "message")), (str "role", .str (str "assistant")),
    (str "model", .str model), (str "content", .arr content), (str "stop_reason", .str stopReason),
    (str "stop_sequence", .null),
    (str "usage", .obj [(str "input_tokens", inputTokens), (str "output_tokens", outputTokens)])]

/-- `openai_to_anthropic_response`, with `freshId` for a body without an id.  `none` when it
raises. -/
def openaiToAnthropicResponse (freshId : Str) (body : Json) (model : Str) : Option Json := do
  let fields ← body.fields?
  let choice ← (bodyChoice fields).fields?
  let message ← ((getTruthy (str "message") choice).getD (.obj [])).fields?
  let usage ← ((getTruthy (str "usage") fields).getD (.obj [])).fields?
  let inputTokens ← intOr (Json.lookup (str "prompt_tokens") usage) (.int 0)
  let outputTokens ← intOr (Json.lookup (str "completion_tokens") usage) (.int 0)
  let content := (getTruthy (str "content") message).getD (.str [])
  let reason := finishReasonToAnthropic ((Json.lookup (str "finish_reason") choice).getD .null)
  some (anthropicMessage ((getTruthy (str "id") fields).getD (.str freshId)) model
    (openaiContentToAnthropic content) reason inputTokens outputTokens)

/-! ### The fields of a payload -/

theorem lookup_copied (key key' source : Str) (payload : Json) :
    Json.lookup key (copied key' source payload) =
      if key' = key then payload.get? source else none := by
  rw [copied]
  cases payload.get? source with
  | none => exact (ite_self none).symm
  | some v => exact Json.lookup_cons key (key', v) []

/-- What a loop over the keys copies. -/
theorem lookup_copied_all (key : Str) (keys : List Str) (payload : Json) :
    Json.lookup key (keys.flatMap fun k => copied k k payload) =
      if key ∈ keys then payload.get? key else none := by
  induction keys with
  | nil => rfl
  | cons k keys ih =>
      rw [List.flatMap_cons, Json.lookup_append, lookup_copied, ih]
      by_cases hk : k = key
      · subst hk
        rw [if_pos rfl, if_pos List.mem_cons_self]
        split_ifs
        · exact Option.or_self
        · exact Option.or_none
      · have hmem : key ∈ k :: keys ↔ key ∈ keys :=
          ⟨fun h => (List.mem_cons.mp h).resolve_left fun heq => hk heq.symm, List.mem_cons_of_mem k⟩
        rw [if_neg hk, Option.none_or]
        simp only [hmem]

theorem lookup_streamOptions {key : Str} (h : key ≠ str "stream_options") (payload : Json) :
    Json.lookup key (streamOptions payload) = none := by
  rw [streamOptions]
  split_ifs
  · rw [Json.lookup_cons, if_neg h.symm, Json.lookup_nil]
  · rfl

/-- A field that is left out under a condition. -/
theorem lookup_unless (key k : Str) (v : Json) (c : Prop) [Decidable c] :
    Json.lookup key (if c then [] else [(k, v)]) =
      if k = key then (if c then none else some v) else none := by
  by_cases h : c
  · rw [if_pos h, if_pos h, ite_self, Json.lookup_nil]
  · rw [if_neg h, if_neg h, Json.lookup_cons, Json.lookup_nil]

end Llmxy
