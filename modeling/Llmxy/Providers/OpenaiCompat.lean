import Llmxy.Protocols.ChatBody
import Llmxy.Protocols.ChatRead

/-!
# OpenAI-compatible upstreams

Upstreams disagree on the name of the token limit.  One that refuses the name it got says so in
the text of its error, and some refuse the responses endpoint as a whole.

## Main definitions

* `normalizeChatPayloadForProtocol` — a payload with the preferred name of the limit.
* `shouldRetryWithMaxCompletionTokens`, `shouldRetryWithMaxTokens`,
  `shouldFallbackResponsesToChat` — what an error asks for.
* `responsesResponseToOpenaiChat` — a response as a chat completion.
-/

namespace Llmxy

/-- The default separators of `json.dumps`. -/
def DumpStyle.spaced (ensureAscii : Bool) (float : Bool → ℕ → ℤ → Str) : DumpStyle :=
  ⟨ensureAscii, 1, 1, float⟩

/-- `s.lower()` to be searched for an ASCII text: the Kelvin sign becomes a k, and a capital I
with a dot an i and a combining dot. -/
def lowerToSearch (s : Str) : Str :=
  s.flatMap fun c =>
    if c = 0x212A then [107] else if c = 0x130 then [105, 0x307] else [lowerAscii c]

/-! ### The token limit -/

/-- `MAX_TOKENS_FIELD`. -/
def maxTokensField : Str := str "max_tokens"

/-- `MAX_COMPLETION_TOKENS_FIELD`. -/
def maxCompletionTokensField : Str := str "max_completion_tokens"

/-- The limit under the name `target` in place of `source`, unless it has both. -/
def renameTokenField (source target : Str) (body : List (Str × Json)) : List (Str × Json) :=
  let rest := body.filter fun f => f.1 ≠ source
  match (Json.lookup source body).filter (· ≠ .null), Json.lookup target rest with
  | some limit, none => rest ++ [(target, limit)]
  | _, _ => rest

/-- `normalize_chat_payload_for_protocol`. -/
def normalizeChatPayloadForProtocol (payload : List (Str × Json)) (forceMaxCompletionTokens : Bool)
    (preferredTokenField : Option Str) : List (Str × Json) :=
  let tokenField := if forceMaxCompletionTokens then some maxCompletionTokensField
    else preferredTokenField
  if tokenField = some maxCompletionTokensField then
    renameTokenField maxTokensField maxCompletionTokensField payload
  else if tokenField = some maxTokensField then
    renameTokenField maxCompletionTokensField maxTokensField payload
  else payload

section
variable (float : Bool → ℕ → ℤ → Str)

/-- `json.dumps(body, ensure_ascii=False).lower()`. -/
def searchedText (body : Json) : Str := lowerToSearch (dumps (.spaced false float) body)

/-- `_mentions_unsupported_pair`. -/
def mentionsUnsupportedPair (responseBody : Json) (unsupportedField suggestedField : Str) : Bool :=
  let text := searchedText float responseBody
  decide (unsupportedField <:+: text) && decide (suggestedField <:+: text) &&
    (decide (str "unsupported" <:+: text) || decide (str "not supported" <:+: text))

/-- The payload has the one limit only, and the error suggests the other. -/
def shouldRetryWith (suggested field : Str) (payload : List (Str × Json)) (responseBody : Json) :
    Bool :=
  if (Json.lookup field payload).isNone || (Json.lookup suggested payload).isSome then false
  else mentionsUnsupportedPair float responseBody field suggested

/-- `should_retry_with_max_completion_tokens`. -/
def shouldRetryWithMaxCompletionTokens : List (Str × Json) → Json → Bool :=
  shouldRetryWith float maxCompletionTokensField maxTokensField

/-- `should_retry_with_max_tokens`. -/
def shouldRetryWithMaxTokens : List (Str × Json) → Json → Bool :=
  shouldRetryWith float maxTokensField maxCompletionTokensField

/-! ### The responses endpoint -/

/-- What an upstream without the responses endpoint says. -/
def fallbackMarkers : List Str :=
  [str "responses", str "/responses", str "resource not found", str "not supported",
    str "unsupported", str "unknown endpoint"]

/-- `_should_fallback_responses_to_chat`. -/
def shouldFallbackResponsesToChat (statusCode : ℕ) (body : Json) : Bool :=
  if statusCode ∉ [400, 404, 405] then false
  else if statusCode ∈ [404, 405] then true
  else fallbackMarkers.any fun marker => decide (marker <:+: searchedText float body)

end

/-- The text of a block of an output item.  `none` when it raises. -/
def outputBlockText (block : Json) : Option Str :=
  match block with
  | .obj fields =>
      if Json.lookup (str "type") fields = some (.str (str "output_text")) then
        ((getTruthy (str "text") fields).getD (.str [])).str?
      else some []
  | _ => some []

/-- The text of an output item.  `none` when it raises. -/
def outputItemText (item : Json) : Option Str :=
  match item with
  | .obj fields => do
      let blocks ← ((getTruthy (str "content") fields).getD (.arr [])).iter?
      let texts ← blocks.mapM outputBlockText
      return texts.flatten
  | _ => some []

/-- `_responses_output_text`.  `none` when it raises. -/
def responsesOutputText (body : List (Str × Json)) : Option Str :=
  match Json.lookup (str "output_text") body with
  | some (.str text) => some text
  | _ => do
      let items ← ((getTruthy (str "output") body).getD (.arr [])).iter?
      let texts ← items.mapM outputItemText
      return texts.flatten

/-- `int(usage.get(key) or usage.get(other) or 0)`.  `none` when it raises. -/
def usageInt (key other : Str) (usage : List (Str × Json)) : Option ℤ :=
  (((getTruthy key usage).or (getTruthy other usage)).getD (.int 0)).toInt?

/-- `responses_response_to_openai_chat`, with `freshId` for a response without an id and the
time `now`.  `none` when it raises. -/
def responsesResponseToOpenaiChat (freshId : Str) (now : ℤ) (body : Json) (model : Str) :
    Option Json := do
  let fields ← body.fields?
  let text ← responsesOutputText fields
  let usage ← ((getTruthy (str "usage") fields).getD (.obj [])).fields?
  let promptTokens ← usageInt (str "input_tokens") (str "prompt_tokens") usage
  let completionTokens ← usageInt (str "output_tokens") (str "completion_tokens") usage
  let status := (Json.lookup (str "status") fields).getD .null
  let finishReason := if status = .null ∨ status = .str (str "completed") then .str (str "stop")
    else status
  let created ← ((getTruthy (str "created_at") fields).getD (.int now)).toInt?
  let totalTokens ←
    ((getTruthy (str "total_tokens") usage).getD (.int (promptTokens + completionTokens))).toInt?
  return chatCompletion ((getTruthy (str "id") fields).getD (.str freshId)) created model text
    finishReason (.int promptTokens) (.int completionTokens) (.int totalTokens)

end Llmxy
