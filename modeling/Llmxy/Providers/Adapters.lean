import Llmxy.Protocols.ResponsesDetour
import Llmxy.Protocols.ResponsesStream
import Llmxy.Providers.Anthropic
import Llmxy.Providers.Gemini
import Llmxy.Providers.OpenaiCompat
import Llmxy.Providers.Registry

/-!
# The provider adapters

What `run_chat` makes of a chat payload, as a completion and as a stream, and what it sends
upstream for it.  An upstream is asked with a body and gives a reply; `model`, `stream` and
`stream_options`, which an adapter sets the same way whatever the payload, are left out of the
body.

A streamed result is returned before the upstream is asked: it carries what its generator will
yield.

## Main definitions

* `UpstreamRequest`, `Reply` — what is sent, and what comes back.
* `ProviderAdapter.exchange` — the requests for a completion, and the reply that counts.
* `ProviderAdapter.complete`, `ProviderAdapter.stream` — `run_chat` in its two modes.
-/

namespace Llmxy

/-- The endpoints of upstreams. -/
inductive UpstreamEndpoint where
  | chatCompletions | responses | messages | generateContent
  deriving DecidableEq

/-- A request to an upstream. -/
structure UpstreamRequest where
  endpoint : UpstreamEndpoint
  body : Json

/-- What an upstream answers to a request, plain and streamed, as `httpx` reads it. -/
structure Reply where
  status : ℕ
  /-- `r.json()`, `none` when it raises. -/
  json : Option Json
  /-- `r.text`. -/
  text : Str
  /-- `r.aiter_raw()`. -/
  raw : List Bytes
  /-- `r.aiter_text()`. -/
  texts : List Str

/-- An upstream. -/
abbrev Ask := UpstreamRequest → Reply

/-- `ChatResult`.  A stream is what its generator yields, `none` when it raises. -/
structure ChatResult where
  status : ℕ
  body : Option Json := none
  stream : Option (Option (List Bytes)) := none
  promptTokens : Json := .int 0
  completionTokens : Json := .int 0

/-- The entries of `_CONNECTORS`. -/
inductive ProviderAdapter where
  | openai | azureOpenai | anthropic | gemini
  deriving DecidableEq

/-- `_CONNECTORS`. -/
def connectors : List (Str × ProviderAdapter) := [
  (str "openai", .openai), (str "azure_openai", .azureOpenai), (str "anthropic", .anthropic),
  (str "gemini", .gemini)]

/-- `get_connector_adapter`. -/
def getConnectorAdapter (connectorType : Str) : Option ProviderAdapter :=
  connectors.lookup (normalizeConnector (some connectorType))

/-- What the adapters take from elsewhere: fresh ids, the time, the names of what they stream,
and Python's ways with values that are not modelled. -/
structure Surroundings where
  freshId : Str
  now : ℤ
  chatHead : Str → ChatHead
  plus : Json → Json → Option Json
  repr : Json → Str
  float : Bool → ℕ → ℤ → Str

/-- A target of a request: a channel, and the name of a model there. -/
structure UpstreamTarget where
  channelId : ℤ
  upstreamModel : Str
  deriving DecidableEq

/-- `_token_limit_fields` of the adapters. -/
abbrev TokenLimitFields := ProviderAdapter × UpstreamTarget → Option Str

/-- `_remember_token_field`. -/
def rememberTokenField (fields : TokenLimitFields) (key : ProviderAdapter × UpstreamTarget)
    (field : Str) : TokenLimitFields :=
  Function.update fields key (some field)

/-- `{"error": {"message": text}}`. -/
def errorBody (text : Str) : Json :=
  .obj [(str "error", .obj [(str "message", .str text)])]

/-- `r.json()`, or an error with the text. -/
def Reply.data (r : Reply) : Json := r.json.getD (errorBody r.text)

/-- What the bytes of a streamed error are read as. -/
def Reply.rawData (r : Reply) : Json :=
  (loads (decode r.raw.flatten)).getD (errorBody (decode r.raw.flatten))

/-- The bytes of an item that a generator yields. -/
def StreamItem.bytes (float : Bool → ℕ → ℤ → Str) : StreamItem → Bytes
  | .chunk v => encode (sseData (dumps (.spaced true float) v))
  | .done => encode (sseData (str "[DONE]"))

/-- Does `dict` take the element of a list as a pair? -/
def Json.isPair : Json → Bool
  | .arr [key, _] => key.hashable
  | .str [_, _] => true
  | .obj [_, _] => true
  | _ => false

/-- Does `dict(v)` not raise? -/
def Json.dictable : Json → Bool
  | .obj _ => true
  | .arr xs => xs.all Json.isPair
  | _ => false

namespace ProviderAdapter
variable (env : Surroundings) (ask : Ask) (target : UpstreamTarget)

/-! ### The chat endpoint of OpenAI -/

/-- The name of the token limit that an error asks for. -/
def wantedTokenField (payload : List (Str × Json)) (data : Json) : Option Str :=
  if shouldRetryWithMaxCompletionTokens env.float payload data then some maxCompletionTokensField
  else if shouldRetryWithMaxTokens env.float payload data then some maxTokensField
  else none

/-- The request with a preferred name of the limit. -/
def chatRequest (payload : List (Str × Json)) (preferred : Option Str) : UpstreamRequest :=
  ⟨.chatCompletions, .obj (normalizeChatPayloadForProtocol payload false preferred)⟩

/-- The requests of `chat` for a completion: an upstream that refuses the name of the token
limit is asked again. -/
def chatExchange (adapter : ProviderAdapter) (payload : List (Str × Json))
    (learned : TokenLimitFields) : Reply × TokenLimitFields :=
  let r := ask (chatRequest payload (learned (adapter, target)))
  match if r.status = 400 then wantedTokenField env payload r.data else none with
  | some field =>
      (ask (chatRequest payload (some field)), rememberTokenField learned (adapter, target) field)
  | none => (r, learned)

/-- `opts = dict(body.get("stream_options") or {})` does not raise. -/
def streamOptionsRead (payload : Json) : Bool :=
  ((fieldOf (str "stream_options") payload).orElse (.obj [])).dictable

/-- The generator of `chat`. -/
def chatChunks (adapter : ProviderAdapter) (payload : List (Str × Json))
    (learned : TokenLimitFields) : List Bytes :=
  let r := ask (chatRequest payload (learned (adapter, target)))
  if r.status = 400 then
    match wantedTokenField env payload r.rawData with
    | some field => (ask (chatRequest payload (some field))).raw
    | none => [r.raw.flatten]
  else r.raw

/-! ### The responses endpoint of OpenAI -/

/-- Does the adapter try the chat endpoint where an upstream has no responses endpoint? -/
def fallsBack : ProviderAdapter → Bool
  | .openai => true
  | _ => false

/-- The requests of `responses_from_chat` for a completion, with the endpoint that answered. -/
def responsesExchange (adapter : ProviderAdapter) (body : Json) (payload : List (Str × Json))
    (learned : TokenLimitFields) : (UpstreamEndpoint × Reply) × TokenLimitFields :=
  let r := ask ⟨.responses, body⟩
  if adapter.fallsBack && shouldFallbackResponsesToChat env.float r.status r.data then
    let (r, learned) := chatExchange env ask target adapter payload learned
    ((.chatCompletions, r), learned)
  else ((.responses, r), learned)

/-- The generator of `responses_from_chat`. -/
def responsesChunks (adapter : ProviderAdapter) (body : Json) (payload : List (Str × Json))
    (learned : TokenLimitFields) : Option (List Bytes) :=
  let r := ask ⟨.responses, body⟩
  if 400 ≤ r.status then
    if adapter.fallsBack && shouldFallbackResponsesToChat env.float r.status r.rawData then
      if streamOptionsRead (.obj payload) then
        some (chatChunks env ask target adapter payload learned)
      else none
    else some [r.raw.flatten]
  else
    (responsesSseToOpenaiChatSse (env.chatHead target.upstreamModel) r.raw).map fun chunks =>
      chunks.map (fun chunk => encode (sseData (dumps (.compact env.float) chunk))) ++
        [encode (sseData (str "[DONE]"))]

/-! ### Completions -/

/-- The counts that are read off the usage of a completion. -/
def completion (status : ℕ) (body : Json) (usage : List (Str × Json)) : ChatResult where
  status := status
  body := some body
  promptTokens := (Json.lookup (str "prompt_tokens") usage).getD (.int 0)
  completionTokens := (Json.lookup (str "completion_tokens") usage).getD (.int 0)

/-- A reply that is converted when it is JSON and its status is 200.  `none` when it raises. -/
def convertedReply (toOpenai : Json → Option Json) (r : Reply) : Option ChatResult :=
  match r.json with
  | none => some { status := r.status, body := some (errorBody r.text) }
  | some data =>
      if r.status ≠ 200 then some { status := r.status, body := some data }
      else do
        let out ← toOpenai data
        let usage ← (fieldOf (str "usage") out).fields?
        return completion 200 out usage

/-- What an adapter reads off the reply of an endpoint.  `none` when it raises. -/
def readReply (r : Reply) : UpstreamEndpoint → Option ChatResult
  | .chatCompletions => do
      let fields ← (r.data.orElse (.obj [])).fields?
      let usage ← ((getTruthy (str "usage") fields).getD (.obj [])).fields?
      return completion r.status r.data usage
  | .responses =>
      if r.status ≠ 200 then some { status := r.status, body := some r.data }
      else do
        let out ← responsesResponseToOpenaiChat env.freshId env.now r.data target.upstreamModel
        let usage ← (fieldOf (str "usage") out).fields?
        return completion 200 out usage
  | .messages => convertedReply (fun data => AnthropicAdapter.anthropicRespToOpenai env.plus
      env.freshId env.now data target.upstreamModel) r
  | .generateContent => convertedReply (fun data => GeminiAdapter.geminiRespToOpenai env.plus
      env.freshId env.now data target.upstreamModel) r

/-! ### `run_chat` -/

/-- Does `run_chat` call `responses_from_chat`? -/
def speaksResponses (adapter : ProviderAdapter) (protocol : Str) : Bool :=
  decide (normalizeProtocol (some protocol) = openaiResponses) &&
    (adapter = .openai || adapter = .azureOpenai)

/-- The requests for a completion, and the reply that it is read off.  `none` when the payload
cannot be converted. -/
def exchange (adapter : ProviderAdapter) (protocol : Str) (payload : List (Str × Json))
    (learned : TokenLimitFields) : Option ((UpstreamEndpoint × Reply) × TokenLimitFields) :=
  if speaksResponses adapter protocol then
    (openaiChatToResponsesPayload env.repr (.obj payload)).map fun body =>
      responsesExchange env ask target adapter body payload learned
  else
    match adapter with
    | .openai | .azureOpenai =>
        let (r, learned) := chatExchange env ask target adapter payload learned
        some ((.chatCompletions, r), learned)
    | .anthropic => (AnthropicAdapter.toAnthropic (.obj payload)).map fun body =>
        ((.messages, ask ⟨.messages, body⟩), learned)
    | .gemini => (GeminiAdapter.toGemini (.obj payload)).map fun body =>
        ((.generateContent, ask ⟨.generateContent, body⟩), learned)

/-- `run_chat(..., stream=False)`.  No result when it raises. -/
def complete (adapter : ProviderAdapter) (protocol : Str) (payload : List (Str × Json))
    (learned : TokenLimitFields) : Option ChatResult × TokenLimitFields :=
  match exchange env ask target adapter protocol payload learned with
  | some ((endpoint, r), learned) => (readReply env target r endpoint, learned)
  | none => (none, learned)

/-- `run_chat(..., stream=True)`.  `none` when it raises. -/
def stream (adapter : ProviderAdapter) (protocol : Str) (payload : List (Str × Json))
    (learned : TokenLimitFields) : Option ChatResult :=
  if speaksResponses adapter protocol then
    (openaiChatToResponsesPayload env.repr (.obj payload)).map fun body =>
      { status := 200, stream := some (responsesChunks env ask target adapter body payload learned) }
  else
    match adapter with
    | .openai | .azureOpenai =>
        if streamOptionsRead (.obj payload) then
          some { status := 200, stream := some (chatChunks env ask target adapter payload learned) }
        else none
    | .anthropic => (AnthropicAdapter.toAnthropic (.obj payload)).map fun body =>
        { status := 200
          stream := some ((AnthropicAdapter.gen env.plus env.freshId env.now target.upstreamModel
            (ask ⟨.messages, body⟩).texts).map (List.map (StreamItem.bytes env.float))) }
    | .gemini => (GeminiAdapter.toGemini (.obj payload)).map fun body =>
        { status := 200
          stream := some ((GeminiAdapter.gen env.plus env.freshId env.now target.upstreamModel
            (ask ⟨.generateContent, body⟩).texts).map (List.map (StreamItem.bytes env.float))) }

end ProviderAdapter
end Llmxy
