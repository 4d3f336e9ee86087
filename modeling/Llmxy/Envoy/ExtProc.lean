import Llmxy.Relay.Billing
import Llmxy.Lib.Json
import Llmxy.Lib.Utf8
import Mathlib.Data.List.DropRight

/-!
# The external processor

Envoy asks `ext_proc` about every request.  It answers a CORS preflight itself, denies
what it does not authorise, and otherwise sets the `x-llmxy-*` headers that route and
identify the request.

What the processor looks up elsewhere (snapshots, the quota cache, the rate limit, the
routes, the parsing of a body) is the record `Gate`.

## Main definitions

* `Headers`, `hdr` — a header map and its lookup.
* `Gate` — the answers of the services behind the processor.
* `decideRequest` — `_decide`, `processRequest` — one exchange.
-/

namespace Llmxy

/-- A header map, with names in lower case. -/
abbrev Headers := List (Str × Str)

/-- `headers.get(name)`. -/
def Headers.get? (headers : Headers) (name : Str) : Option Str :=
  (headers.find? fun h => h.1 = name).map Prod.snd

/-- `headers.get(name) or ""`. -/
def Headers.getOr (headers : Headers) (name : Str) : Str := (headers.get? name).getD []

/-- A key snapshot, after `enforce_key_state_cached`. -/
structure KeySnapshot where
  id : ℤ
  userId : ℤ
  status : KeyStatus
  quotaCents : ℤ
  windowStartEpoch : ℤ

/-- A user snapshot. -/
structure UserSnapshot where
  status : UserStatus
  planRpm : ℤ

/-- A route policy, as far as the processor reads it. -/
structure RoutePolicy where
  modality : Str
  /-- `route_exposes`. -/
  exposes : Str → Bool

/-- What `select_route` picked. -/
structure RouteChoice where
  model : Model
  channelId : ℤ
  providerType : Str
  connectorType : Str
  upstreamProtocol : Str
  /-- The model and channel ids of all candidates. -/
  chain : List (ℤ × ℤ)
  chosenLabel : Option Str
  embeddingUsage : Option EmbeddingUsage

/-- What the services behind the processor answer. -/
structure Gate where
  keySnapshot : Str → Option KeySnapshot
  userSnapshot : ℤ → Option UserSnapshot
  hasQuotaFast : KeySnapshot → Bool × Str
  rateLimit : ℤ → ℤ → Bool
  /-- `json.loads` of a body. -/
  parseBody : Bytes → Option Json
  /-- `_load_route`, with the text and code of its exception. -/
  loadRoute : Str → (ℕ × Str) ⊕ RoutePolicy
  selectRoute : RoutePolicy → Str → Json → Headers → Option RouteChoice

/-- A client request. -/
structure ClientRequest where
  headers : Headers
  body : Bytes
  /-- `uuid.uuid4().hex[:16]`, if the processor draws it. -/
  fresh : FreshId

/-- `_is_cors_preflight`.  A method is an ASCII token, so comparing in lower case is
comparing in upper case. -/
def isCorsPreflight (headers : Headers) : Bool :=
  lower (headers.getOr (str ":method")) == str "options" &&
    !(headers.getOr (str "origin")).isEmpty &&
    !(headers.getOr (str "access-control-request-method")).isEmpty

/-- `_auth_plain`. -/
def authPlain (headers : Headers) : Option Str :=
  let apiKey := headers.getOr (str "x-api-key")
  let xApiKey := strip (if apiKey.isEmpty then headers.getOr (str "api-key") else apiKey)
  let auth := headers.getOr (str "authorization")
  if !xApiKey.isEmpty then some xApiKey
  else if startsWith (str "bearer ") (lower auth) then some (strip (auth.drop 7))
  else none

/-- `path.split("?", 1)[0]`. -/
def cleanPath (path : Str) : Str := path.takeWhile (· ≠ 63)

/-- `_client_protocol_and_modality`. -/
def clientProtocolAndModality (path : Str) : Str × Option Str :=
  let endsWith (suffix : Str) : Bool := suffix.isSuffixOf (cleanPath path)
  if endsWith (str "/v1/messages") then (str "anthropic.messages", some (str "chat"))
  else if endsWith (str "/v1/chat/completions") then (str "openai.chat", some (str "chat"))
  else if endsWith (str "/v1/responses") then (str "openai.responses", some (str "chat"))
  else if endsWith (str "/v1/embeddings") then (str "openai.embeddings", some (str "embedding"))
  else if endsWith (str "/v1/images/generations") then (str "openai.images", some (str "image"))
  else (str "openai.chat", none)

/-- `_extract_model`. -/
def extractModel (gate : Gate) (body : Bytes) : Option Str :=
  if body.isEmpty then none
  else
    match gate.parseBody body with
    | some (.obj fields) =>
        match Json.lookup (str "model") fields with
        | some (.str s) => some s
        | _ => none
    | _ => none

/-- The text of a key status. -/
def KeyStatus.text : KeyStatus → Str
  | .active => str "active"
  | .disabled => str "disabled"
  | .expired => str "expired"

/-- `",".join(f"{m}:{c}" for m, c in pairs)`. -/
def showChain (pairs : List (ℤ × ℤ)) : Str :=
  join (str ",") (pairs.map fun p => showInt p.1 ++ str ":" ++ showInt p.2)

/-- The headers that `/v1/models` is forwarded with. -/
def listingHeaders (key : KeySnapshot) (clientProtocol requestId : Str) : Headers :=
  [(str "x-llmxy-cluster", str "translator"),
    (str "x-llmxy-request-id", requestId),
    (str "x-llmxy-user-id", showInt key.userId),
    (str "x-llmxy-api-key-id", showInt key.id),
    (str "x-llmxy-client-protocol", clientProtocol),
    (str "x-llmxy-billed-sync", str "true")]

/-- The headers of the classifier. -/
def classifierHeaders (eu : EmbeddingUsage) : Headers :=
  [(str "x-llmxy-classifier-model-id", showInt eu.model.id),
    (str "x-llmxy-classifier-upstream-model", eu.model.upstreamModel.1),
    (str "x-llmxy-classifier-prompt-tokens", showInt eu.promptTokens),
    (str "x-llmxy-classifier-latency-ms", showInt eu.latencyMs),
    (str "x-llmxy-classifier-status", eu.status.text)]

/-- The headers that a routed request is forwarded with. -/
def routedHeaders (key : KeySnapshot) (clientProtocol requestId modelName : Str)
    (modality : Option Str) (r : RouteChoice) : Headers :=
  [(str "x-llmxy-cluster", str "translator"),
    (str "x-llmxy-request-id", requestId),
    (str "x-llmxy-user-id", showInt key.userId),
    (str "x-llmxy-api-key-id", showInt key.id),
    (str "x-llmxy-model-id", showInt r.model.id),
    (str "x-llmxy-user-facing-model", modelName),
    (str "x-llmxy-upstream-model", r.model.upstreamModel.1),
    (str "x-llmxy-provider-type", lower r.providerType),
    (str "x-llmxy-connector-type", r.connectorType),
    (str "x-llmxy-upstream-protocol", r.upstreamProtocol),
    (str "x-llmxy-channel-id", showInt r.channelId),
    (str "x-llmxy-client-protocol", clientProtocol),
    (str "x-llmxy-billed-sync", str "true")] ++
  (if modality = some (str "chat") then [(str "x-llmxy-chat-chain", showChain r.chain)] else []) ++
  (if modality = some (str "embedding") then
    [(str "x-llmxy-embedding-chain", showChain r.chain)] else []) ++
  ((r.chosenLabel.bind orNone).toList.map fun label => (str "x-llmxy-resolved-label", label)) ++
  (if r.model.kind = str "image" then [(str "x-llmxy-image-chain", showChain r.chain)] else []) ++
  r.embeddingUsage.toList.flatMap classifierHeaders

/-- An answer of `_decide`: a denial or the headers to set. -/
inductive Decision where
  | deny (code : ℕ) (message : Str)
  | allow (headers : Headers)

/-- The routing half of `_decide`. -/
def decideRoute (gate : Gate) (key : KeySnapshot) (requestId : Str) (req : ClientRequest) :
    Decision :=
  let protocol := clientProtocolAndModality (req.headers.getOr (str ":path"))
  match (extractModel gate req.body).bind orNone with
  | none => .deny 400 (str "missing model in body")
  | some modelName =>
      match gate.parseBody req.body with
      | none => .deny 400 (str "invalid json body")
      | some payload =>
          match gate.loadRoute modelName with
          | .inl (code, message) => .deny code message
          | .inr policy =>
              if protocol.2.any fun expected =>
                  (if policy.modality.isEmpty then str "chat" else policy.modality) ≠ expected then
                .deny 404 (str "model " ++ modelName ++ str " is not available on the " ++
                  protocol.2.getD [] ++ str " endpoint")
              else if !policy.exposes protocol.1 then
                .deny 404 (str "model " ++ modelName ++ str " is not available on the " ++
                  protocol.1 ++ str " protocol")
              else
                match gate.selectRoute policy protocol.1 payload req.headers with
                | none => .deny 502 (str "no available upstream")
                | some r => .allow (routedHeaders key protocol.1 requestId modelName protocol.2 r)

/-- `_decide`. -/
def decideRequest (gate : Gate) (req : ClientRequest) : Decision :=
  match (authPlain req.headers).bind orNone with
  | none =>
      .deny 401 (str "missing api key; send Authorization: Bearer sk-... or x-api-key: sk-...")
  | some plain =>
      if !startsWith (str "sk-") plain then .deny 401 (str "invalid api key format")
      else
        match gate.keySnapshot plain with
        | none => .deny 401 (str "invalid api key")
        | some key =>
            if key.status ≠ .active then .deny 401 (str "api key " ++ key.status.text)
            else
              match (gate.userSnapshot key.userId).filter fun u => u.status = .active with
              | none => .deny 401 (str "user disabled")
              | some user =>
                  let quota := gate.hasQuotaFast key
                  if !quota.1 then .deny 402 quota.2
                  else if !gate.rateLimit key.userId user.planRpm then
                    .deny 429 (str "rate limit exceeded")
                  else
                    let path := req.headers.getOr (str ":path")
                    let requestId := ((req.headers.get? (str "x-request-id")).bind orNone).getD
                      (str "req-" ++ req.fresh.1)
                    if (cleanPath path).rdropWhile (· = 47) = str "/v1/models" then
                      .allow (listingHeaders key (clientProtocolAndModality path).1 requestId)
                    else decideRoute gate key requestId req

/-- How one exchange with the processor ends. -/
inductive Exchange where
  /-- `immediate_response`: Envoy answers the client itself with this code. -/
  | immediate (code : ℕ)
  /-- The request goes on with these headers set. -/
  | forward (headers : Headers)

/-- `Process`, for the headers and the whole body of a request. -/
def processRequest (gate : Gate) (req : ClientRequest) : Exchange :=
  if isCorsPreflight req.headers then .immediate 204
  else
    match decideRequest gate req with
    | .deny code _ => .immediate code
    | .allow headers => .forward headers

/-- What Envoy makes of a header map: `OVERWRITE_IF_EXISTS_OR_ADD` for each header. -/
def Headers.overwrite (headers : Headers) (set : Headers) : Headers :=
  set ++ headers.filter fun h => !(set.any fun s => s.1 = h.1)

end Llmxy
