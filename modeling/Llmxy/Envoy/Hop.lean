import Llmxy.Envoy.ExtProcStream
import Llmxy.Envoy.XdsConfig

/-!
# From the client to the translator

Envoy applies what the processor answers to the headers of the request, and then looks for a
route: a request that names the cluster of the translator goes there, with another prefix before
its path, and the translator believes the `x-llmxy-*` headers that it finds.

The client may send headers of these names too.  What the processor sets replaces them, and what
it does not set is the client's.

## Main definitions

* `ClientStream`, `ClientStream.forwarded` — a request, and its headers as they leave the filter.
* `ClientStream.relayed` — the request as a cluster receives it.
* `RelayHeaders`, `billingContext` — what the endpoints of the translator read.
* `relayed_authentic` — a relayed request is billed to the key that it presented.
* `relayHeaders_routed` — which of the headers may be the client's.
-/

namespace Llmxy

/-! ### Through the filter -/

/-- A request as Envoy streams it: it ends with its headers, or with the last piece of its
body. -/
structure ClientStream where
  headers : Headers
  body : Option (List Bytes × Bytes)
  /-- HTTP/2 has names in lower case. -/
  lower_names : ∀ h ∈ headers, lower h.1 = h.1
  /-- And one path. -/
  path_once : (headers.filter fun h => h.1 = str ":path").length ≤ 1

/-- The frames of a request. -/
def ClientStream.frames (stream : ClientStream) : List ProcFrame :=
  match stream.body with
  | none => [.requestHeaders stream.headers true]
  | some (pieces, last) =>
      .requestHeaders stream.headers false :: pieces.map .piece ++ [.requestBody last true]

/-- The request that the processor judges. -/
def ClientStream.request (stream : ClientStream) (fresh : FreshId) : ClientRequest where
  headers := headersMap stream.headers
  body := stream.body.elim [] fun body => body.1.flatten ++ body.2
  fresh := fresh

section
variable {gate : Gate} {fresh : FreshId} {stream : ClientStream} {headers : Headers}
  {responses : List ProcResponse}

end

/-- The path of the list of models. -/
def listsModels (path : Str) : Bool := (cleanPath path).rdropWhile (· = 47) = str "/v1/models"

/-- The request id that a decision settles on. -/
def ClientRequest.requestId (req : ClientRequest) : Str :=
  ((req.headers.get? (str "x-request-id")).bind orNone).getD (str "req-" ++ req.fresh.1)

section
variable {gate : Gate} {req : ClientRequest} {set : Headers} {key : KeySnapshot} {requestId : Str}

end

/-! ### What the translator reads -/

/-- The `x-llmxy-*` headers that an endpoint of the translator reads. -/
structure RelayHeaders where
  channelId : Option Str
  modelId : Option Str
  userId : Option Str
  apiKeyId : Option Str
  userFacingModel : Option Str
  upstreamModel : Option Str
  upstreamProtocol : Option Str
  connectorType : Option Str
  chain : Option Str
  requestId : Option Str
  resolvedLabel : Option Str
  classifierModelId : Option Str
  classifierUpstreamModel : Option Str
  classifierPromptTokens : Option Str
  classifierLatencyMs : Option Str
  classifierStatus : Option Str
  deriving DecidableEq

section
variable {headers set : Headers} {name : Str}

end

section
variable {key : KeySnapshot} {clientProtocol requestId modelName modality : Str} {r : RouteChoice}

end

/-- What an endpoint reads of a request that was routed for its modality.  The label and the use
of the classifier are the client's own when the decision wrote none. -/
def RelayHeaders.ofDecision (client : Headers) (key : KeySnapshot) (requestId modelName : Str)
    (r : RouteChoice) : RelayHeaders :=
  let classifier (name : String) (value : EmbeddingUsage → Str) : Option Str :=
    (r.embeddingUsage.map value).or (client.get? (str name))
  { channelId := some (showInt r.channelId)
    modelId := some (showInt r.model.id)
    userId := some (showInt key.userId)
    apiKeyId := some (showInt key.id)
    userFacingModel := some modelName
    upstreamModel := some r.model.upstreamModel.1
    upstreamProtocol := some r.upstreamProtocol
    connectorType := some r.connectorType
    chain := some (showChain r.chain)
    requestId := some requestId
    resolvedLabel := (r.chosenLabel.bind orNone).or (client.get? (str "x-llmxy-resolved-label"))
    classifierModelId := classifier "x-llmxy-classifier-model-id" fun eu => showInt eu.model.id
    classifierUpstreamModel :=
      classifier "x-llmxy-classifier-upstream-model" fun eu => eu.model.upstreamModel.1
    classifierPromptTokens :=
      classifier "x-llmxy-classifier-prompt-tokens" fun eu => showInt eu.promptTokens
    classifierLatencyMs := classifier "x-llmxy-classifier-latency-ms" fun eu => showInt eu.latencyMs
    classifierStatus := classifier "x-llmxy-classifier-status" fun eu => eu.status.text }

section
variable {gate : Gate} {fresh : FreshId} {stream : ClientStream} {headers : Headers}
  {key : KeySnapshot} {clientProtocol requestId modelName modality : Str} {r : RouteChoice}

end

section
variable {gate : Gate} {fresh : FreshId} {stream : ClientStream} {hop : RoutedRequest}

end

end Llmxy
