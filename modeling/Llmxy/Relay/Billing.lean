import Llmxy.Billing.Charge

/-!
# Billing a relayed chat request

What the API-direct endpoints and the translator do once the upstream has answered:
charge the user, add the relay's `UsageLog` row, bill the smart-routing classifier,
and commit.

## Main definitions

* `effectiveRequestId` — the id of a request, from its header or fresh.
* `RelayCall`, `ClassifierCall` — what is billed.
* `billRelay` — the transaction.
* `DirectRequest`, `billDirect` — the API-direct endpoints.
* `TranslatedRequest`, `billChatRelay` — the translator.
-/

namespace Llmxy

/-- `uuid.uuid4().hex[:16]`. -/
abbrev FreshId := { s : Str // s.length = 16 }

theorem length_hexDigits : (str "0123456789abcdef").length = 16 := by decide

/-- The middleware's request id: the client's `X-Request-ID`, or a fresh one. -/
def effectiveRequestId (header : Option Str) (fresh : FreshId) : Str :=
  match header with
  | some h => if h.isEmpty then fresh.1 else h
  | none => fresh.1

/-- The status of a classifier call. -/
inductive ClassifierStatus where
  | ok | error | cache
  deriving DecidableEq

/-- The column text of a classifier status. -/
def ClassifierStatus.text : ClassifierStatus → Str
  | .ok => str "ok"
  | .error => str "error"
  | .cache => str "cache"

/-- What the classifier of a smart route used. -/
structure EmbeddingUsage where
  model : Model
  promptTokens : ℤ
  latencyMs : ℤ
  status : ClassifierStatus

/-- A relayed request as it is billed. -/
structure RelayCall where
  requestId : Str
  userFacingModel : Str
  model : Model
  upstreamModel : Str
  promptTokens : ℤ
  completionTokens : ℤ
  latencyMs : ℤ
  resolvedLabel : Option Str

/-- The cost of the relay itself. -/
def RelayCall.cost (c : RelayCall) : ℤ :=
  calcCostCents (some c.model) c.promptTokens c.completionTokens

/-- The relay's `UsageLog` row. -/
def RelayCall.log (c : RelayCall) (s : Sess) : UsageLog where
  userId := s.user.id
  apiKeyId := s.keyId
  modelId := some c.model.id
  userFacingModel := some c.userFacingModel
  upstreamModel := some c.upstreamModel
  promptTokens := c.promptTokens
  completionTokens := c.completionTokens
  costCents := c.cost
  latencyMs := c.latencyMs
  status := str "ok"
  requestId := some c.requestId
  kind := str "relay"
  resolvedLabel := c.resolvedLabel

/-- A call of the classifier as it is billed. -/
structure ClassifierCall where
  model : Model
  upstreamModel : Option Str
  promptTokens : ℤ
  latencyMs : ℤ
  status : Str

/-- The classifier's cost: a cache hit or an error costs nothing. -/
def ClassifierCall.cost (e : ClassifierCall) : ℤ :=
  if e.status = str "ok" then calcCostCents (some e.model) e.promptTokens 0 else 0

/-- The classifier's `UsageLog` row. -/
def ClassifierCall.log (e : ClassifierCall) (c : RelayCall) (s : Sess) : UsageLog where
  userId := s.user.id
  apiKeyId := s.keyId
  modelId := some e.model.id
  userFacingModel := some c.userFacingModel
  upstreamModel := e.upstreamModel
  promptTokens := e.promptTokens
  completionTokens := 0
  costCents := e.cost
  latencyMs := e.latencyMs
  status := e.status
  requestId := some c.requestId
  kind := str "classifier"
  resolvedLabel := c.resolvedLabel

/-- The note of a classifier charge. -/
def classifierNote (c : RelayCall) : Str := c.userFacingModel ++ str " [classifier]"

/-- `_record_smart_usage`, and the last part of `_record_classifier_from_headers`: charge
for the classifier and log its row next to the relay's. -/
def recordClassifier (c : RelayCall) (classifier : Option ClassifierCall) (now : ℤ) (s : Sess) :
    Option Sess :=
  match classifier with
  | none => some s
  | some e =>
      if 0 < e.cost then
        (chargeUser e.cost (some c.requestId) (some (classifierNote c)) now s).map fun r =>
          r.2.addLog (e.log c r.2)
      else some (s.addLog (e.log c s))

/-- The billing transaction: the relay's charge and row, the classifier's, and the
commit.  A cost that is not positive is not charged, by `chargeUser` itself.  `none`
when it raises. -/
def billRelay (c : RelayCall) (classifier : Option ClassifierCall) (now later : ℤ) (s : Sess) :
    Option Pg :=
  (chargeUser c.cost (some c.requestId) (some c.userFacingModel) now s).bind fun r =>
    (recordClassifier c classifier later (r.2.addLog (c.log r.2))).bind Sess.commit

/-! ### The direct endpoints -/

/-- `decision.embedding_usage` as a call to bill. -/
def EmbeddingUsage.call (eu : EmbeddingUsage) : ClassifierCall where
  model := eu.model
  upstreamModel := some eu.model.upstreamModel.1
  promptTokens := eu.promptTokens
  latencyMs := eu.latencyMs
  status := eu.status.text

/-- A request of a direct endpoint. -/
structure DirectRequest where
  user : User
  apiKey : ApiKey
  /-- The client's `X-Request-ID`. -/
  header : Option Str
  fresh : FreshId
  /-- The name of a route policy, whose column is a `VARCHAR(128)`. -/
  userFacingModel : Varchar 128
  model : Model
  embeddingUsage : Option EmbeddingUsage
  resolvedLabel : Option Str
  latencyMs : ℤ

/-- The request as it is billed. -/
def DirectRequest.call (req : DirectRequest) (promptTokens completionTokens : ℤ) : RelayCall where
  requestId := effectiveRequestId req.header req.fresh
  userFacingModel := req.userFacingModel.1
  model := req.model
  upstreamModel := req.model.upstreamModel.1
  promptTokens := promptTokens
  completionTokens := completionTokens
  latencyMs := req.latencyMs
  resolvedLabel := req.resolvedLabel

/-- The billing of a direct endpoint. -/
def billDirect (req : DirectRequest) (promptTokens completionTokens now later : ℤ) (pg : Pg) :
    Option Pg :=
  billRelay (req.call promptTokens completionTokens) (req.embeddingUsage.map EmbeddingUsage.call)
    now later (.start pg req.user (some req.apiKey))

/-! ### The translator -/

/-- The headers the translator bills by, with the request id it settled on. -/
structure TranslatorHeaders where
  requestId : Str
  userFacingModel : Option Str
  resolvedLabel : Option Str
  classifierModelId : Option Str
  classifierUpstreamModel : Option Str
  classifierPromptTokens : Option Str
  classifierLatencyMs : Option Str
  classifierStatus : Option Str

/-- `v or None` of a header. -/
def headerOr (v : Option Str) : Option Str := v.bind orNone

/-- `int(v) if (v and v.isdigit()) else 0`.  `none` when `int` raises, as it does for
a digit that is not decimal. -/
def intHeader (v : Option Str) : Option ℤ :=
  match v with
  | some s => if isDigit s then parseInt s else some 0
  | none => some 0

/-- The head of `_record_classifier_from_headers`: which call there is to bill.
`none` when it raises. -/
def classifierFromHeaders (pg : Pg) (h : TranslatorHeaders) : Option (Option ClassifierCall) :=
  match h.classifierModelId, headerOr h.classifierStatus with
  | some modelId, some status =>
      if isDigit modelId then
        (parseInt modelId).bind fun id =>
          -- the query fails for an id that the `INTEGER` column cannot hold
          if int4Fits id then
            match pg.models.get? id with
            | none => some none
            | some m => do
                some (some {
                  model := m
                  upstreamModel := headerOr h.classifierUpstreamModel
                  promptTokens := ← intHeader h.classifierPromptTokens
                  latencyMs := ← intHeader h.classifierLatencyMs
                  status := status })
          else none
      else some none
  | _, _ => some none

/-- A request of the translator.  The rows are those its headers name, if any. -/
structure TranslatedRequest where
  user : Option User
  apiKey : Option ApiKey
  model : Option Model
  headers : TranslatorHeaders
  upstreamModel : Str
  latencyMs : ℤ

/-- The request as it is billed.  `user_facing_model or model.code` is its label. -/
def TranslatedRequest.call (req : TranslatedRequest) (m : Model)
    (promptTokens completionTokens : ℤ) : RelayCall where
  requestId := req.headers.requestId
  userFacingModel := (headerOr req.headers.userFacingModel).getD m.code.1
  model := m
  upstreamModel := req.upstreamModel
  promptTokens := promptTokens
  completionTokens := completionTokens
  latencyMs := req.latencyMs
  resolvedLabel := req.headers.resolvedLabel

/-- `_bill_chat_relay`: without a user or a model nothing is billed. -/
def billChatRelay (req : TranslatedRequest) (promptTokens completionTokens now later : ℤ)
    (pg : Pg) : Option Pg :=
  match req.user, req.model with
  | some user, some m =>
      (classifierFromHeaders pg req.headers).bind fun classifier =>
        billRelay (req.call m promptTokens completionTokens) classifier now later
          (.start pg user req.apiKey)
  | _, _ => some pg

end Llmxy
