import Llmxy.Envoy.Hop
import Llmxy.Lib.Checks
import Llmxy.Lib.FirstSeen
import Llmxy.Protocols.ChatRead
import Llmxy.Protocols.Ids
import Llmxy.Providers.SmartRules

/-!
# Two gates

A client may call the API itself or go through Envoy.  The endpoints of the API check the key,
the funds, the limit, the payload and the route on their own; `_decide` of the external processor
checks them again, in code of its own.  Here both ask the same services.

## Main definitions

* `routeExposes`, `listedModels` — the protocols of a route, and the models that are listed.
* `RelayServices` — what both gates ask, `RelayServices.gate` — as the processor asks it.
* `directGate` — what an endpoint does before it asks an upstream.
* `listed_iff_served` — the models that are listed are those that the OpenAI endpoints know.
* `gates_agree` — a request that both gates read alike is decided alike.
-/

namespace Llmxy
open Admin

/-! ### Routes and their protocols -/

/-- `getattr(route, "modality", None) or "chat"`. -/
def routeKind (route : Admin.RoutePolicy) : Str :=
  if route.modality.isEmpty then str "chat" else route.modality

/-- `route_protocols`. -/
def routeProtocols (route : Admin.RoutePolicy) : List Str :=
  let raw := if route.exposedProtocols.isEmpty then [str "openai"] else route.exposedProtocols
  let values := raw.map fun item => normalizeProtocolFor (some item) (some (routeKind route))
  let protocols := firstSeen id (values.filter (· ≠ []))
  if protocols.isEmpty then [normalizeProtocolFor (some (str "openai")) (some (routeKind route))]
  else protocols

/-- `route_exposes`. -/
def routeExposes (route : Admin.RoutePolicy) (protocol : Str) : Bool :=
  normalizeProtocolFor (some protocol) (some (routeKind route)) ∈ routeProtocols route

/-- The ids of `list_models`, which both transports answer. -/
def listedModels (routes : List Admin.RoutePolicy) : List Str :=
  (routes.filter fun r => r.enabled && r.scope = .public_ &&
    (routeExposes r openaiChat || routeExposes r openaiResponses)).map (·.userFacingModel)

/-! ### The services -/

/-- What both gates ask about a request. -/
structure RelayServices where
  /-- The row of a key, as `enforce_key_state` leaves it. -/
  key : Str → Option KeySnapshot
  /-- The row of a user, with its limit. -/
  user : ℤ → Option UserSnapshot
  hasQuota : KeySnapshot → Bool × Str
  rateLimit : ℤ → ℤ → Bool
  /-- `json.loads` of a body, which is not empty. -/
  parseBody : Bytes → Option Json
  parse_nil : parseBody [] = none
  /-- The route of a user-facing model. -/
  route : Str → Option Admin.RoutePolicy
  /-- `select_route`. -/
  select : Admin.RoutePolicy → RuleContext → Option (RouteDecision EmbeddingUsage)
  /-- The columns of a model that the router does not read. -/
  row : Admin.Model → Model

/-! ### The external processor -/

/-- `_client_ip`. -/
def gateClientIp (headers : Headers) : Option Str :=
  let xff := headers.getOr (str "x-forwarded-for")
  if xff.isEmpty then orNone (strip (headers.getOr (str "x-real-ip")))
  else orNone (strip (xff.takeWhile (· ≠ 44)))

/-- What `_decide` makes of a decision. -/
def RouteDecision.choice (row : Admin.Model → Model) (d : RouteDecision EmbeddingUsage) :
    RouteChoice where
  model := row d.model
  channelId := d.channel.id
  providerType := d.channel.providerType
  connectorType := resolveConnectorType d.model.toModelIn d.channel.toChannelIn
  upstreamProtocol := resolveUpstreamProtocol d.model.toModelIn d.channel.toChannelIn
  chain := d.chain.map fun p => (p.1.id, p.2.id)
  chosenLabel := d.chosenLabel
  embeddingUsage := d.embeddingUsage

/-- `model {name} not available`. -/
def notAvailable (name : Str) : Str := str "model " ++ name ++ str " not available"

namespace RelayServices
variable (s : RelayServices) (repr : Json → Str)

/-- The route of a name, if it can be called. -/
def openRoute (name : Str) : Option Admin.RoutePolicy :=
  (s.route name).filter fun r => r.enabled && r.scope ≠ .private_

/-- `_load_route` of the external processor. -/
def gateLoadRoute (name : Str) : (ℕ × Str) ⊕ Admin.RoutePolicy :=
  match s.openRoute name with
  | none => .inl (404, notAvailable name)
  | some route =>
      if route.targets.isEmpty then .inl (502, str "route has no targets") else .inr route

/-- The services as the external processor asks them. -/
def gate : Gate where
  keySnapshot := s.key
  userSnapshot := s.user
  hasQuotaFast := s.hasQuota
  rateLimit := s.rateLimit
  parseBody := s.parseBody
  loadRoute := fun name => (s.gateLoadRoute name).map id fun route =>
    ⟨route.modality, routeExposes route⟩
  selectRoute := fun _ protocol payload headers => do
    let route ← ((fieldOf (str "model") payload).str?).bind s.openRoute
    let decision ← s.select route ⟨← promptText repr protocol payload, gateClientIp headers⟩
    some (decision.choice s.row)

end RelayServices

/-! ### The endpoints -/

/-- How an endpoint ends before it asks an upstream. -/
inductive Refusal where
  /-- `HTTPException`. -/
  | http (code : ℕ) (detail : Str)
  /-- Another exception. -/
  | raised
  deriving DecidableEq

/-- A request that goes to an upstream. -/
structure Admission where
  key : KeySnapshot
  modelName : Str
  payload : Json
  decision : RouteDecision EmbeddingUsage

/-- `client_ip`, for the peer of the connection. -/
def directClientIp (headers : Headers) (peer : Option Str) : Option Str :=
  let first := strip ((headers.getOr (str "x-forwarded-for")).takeWhile (· ≠ 44))
  let real := headers.getOr (str "x-real-ip")
  if !first.isEmpty then some first
  else if !real.isEmpty then some (strip real)
  else peer.bind orNone

/-- `_plain_from_bearer`. -/
def plainFromBearer (headers : Headers) : Except Refusal Str :=
  let auth := headers.getOr (str "authorization")
  if startsWith (str "bearer ") (lower auth) then .ok (strip (auth.drop 7))
  else .error (.http 401 (str "missing api key"))

namespace Endpoint

/-- `get_api_key_any` for the messages, `get_api_key` for the others: the key they read. -/
def plain (endpoint : Endpoint) (headers : Headers) : Except Refusal Str :=
  let xApiKey := strip (headers.getOr (str "x-api-key"))
  if endpoint = .messages ∧ xApiKey ≠ [] then .ok xApiKey else plainFromBearer headers

/-- `expected_modality`. -/
def modality : Endpoint → Str
  | .chatCompletions | .responses | .messages => str "chat"
  | .embeddings => str "embedding"
  | .images => str "image"

/-- `expected_protocol`. -/
def protocol : Endpoint → Str
  | .chatCompletions | .embeddings | .images => str "openai"
  | .responses => str "openai.responses"
  | .messages => str "anthropic"

/-- What an endpoint makes of a body that is no JSON. -/
def unparsed : Endpoint → Refusal
  | .chatCompletions | .responses | .messages => .http 400 (str "invalid json body")
  | .embeddings | .images => .raised

/-- The detail of an answer without an upstream. -/
def noUpstream : Endpoint → Str
  | .chatCompletions | .responses | .messages => str "no available upstream"
  | .embeddings | .images => str "no upstream"

/-- The text that an endpoint routes a payload on, once it has accepted it. -/
def text (repr : Json → Str) (endpoint : Endpoint) (payload : Json) : Except Refusal Str := do
  refuseIf (endpoint = .messages ∧ (fieldOf (str "messages") payload).truthy = false)
    (.http 400 (str "missing messages"))
  match (anthropicMessagesRequestError payload).filter fun _ => endpoint = .messages with
  | some err => .error (.http 400 err)
  | none => (directPrompt repr endpoint payload).elim (.error .raised) .ok

end Endpoint

/-- The model that a payload names. -/
def namedModel : Json → Except Refusal Str
  | .obj fields =>
      match getTruthy (str "model") fields with
      | none => .error (.http 400 (str "missing model"))
      | some (.str name) => .ok name
      | some _ => .error .raised
  | _ => .error .raised

namespace RelayServices
variable (s : RelayServices) (repr : Json → Str)

/-- `_load_api_key_from_plain`. -/
def loadApiKey (plain : Str) : Except Refusal (KeySnapshot × UserSnapshot) := do
  refuseIf (startsWith (str "sk-") plain = false) (.http 401 (str "invalid api key format"))
  match s.key plain with
  | none => .error (.http 401 (str "invalid api key"))
  | some key =>
      refuseIf (key.status ≠ .active) (.http 401 (str "api key " ++ key.status.text))
      match (s.user key.userId).filter fun u => u.status = .active with
      | none => .error (.http 401 (str "user disabled"))
      | some user => .ok (key, user)

/-- `_load_route` of the API. -/
def loadRoute (endpoint : Endpoint) (name : Str) : Except Refusal Admin.RoutePolicy :=
  match s.openRoute name with
  | none => .error (.http 404 (notAvailable name))
  | some route => do
      refuseIf (routeKind route ≠ endpoint.modality) (.http 404 (str "model " ++ name ++
        str " is not available on the " ++ endpoint.modality ++ str " endpoint"))
      refuseIf (routeExposes route endpoint.protocol = false) (.http 404 (str "model " ++ name ++
        str " is not available on the " ++ endpoint.protocol ++ str " protocol"))
      refuseIf (route.targets = []) (.http 502 (str "route has no targets"))
      .ok route

/-- The routing half of `directGate`. -/
def directRoute (endpoint : Endpoint) (key : KeySnapshot) (headers : Headers)
    (peer : Option Str) (body : Bytes) : Except Refusal Admission := do
  let payload ← (s.parseBody body).elim (.error endpoint.unparsed) .ok
  let name ← namedModel payload
  let text ← endpoint.text repr payload
  let route ← s.loadRoute endpoint name
  match s.select route ⟨text, directClientIp headers peer⟩ with
  | none => .error (.http 502 endpoint.noUpstream)
  | some decision => .ok ⟨key, name, payload, decision⟩

/-- What an endpoint does before it asks an upstream.  The embeddings are not limited. -/
def directGate (endpoint : Endpoint) (headers : Headers) (peer : Option Str) (body : Bytes) :
    Except Refusal Admission := do
  let plain ← endpoint.plain headers
  let (key, user) ← s.loadApiKey plain
  refuseIf ((s.hasQuota key).1 = false) (.http 402 (s.hasQuota key).2)
  refuseIf (endpoint ≠ .embeddings ∧ s.rateLimit key.userId user.planRpm = false)
    (.http 429 (str "rate limit exceeded"))
  s.directRoute repr endpoint key headers peer body

end RelayServices

/-! ### Requests that both read alike -/

/-- The protocol that the external processor reads off the path of an endpoint. -/
def Endpoint.clientProtocol : Endpoint → Str
  | .chatCompletions => openaiChat
  | .responses => openaiResponses
  | .messages => anthropicMessages
  | .embeddings => openaiEmbeddings
  | .images => openaiImages

/-- A request that both gates can read, in the same way. -/
structure ReadAlike (s : RelayServices) (repr : Json → Str) (endpoint : Endpoint)
    (query : Option Str) (peer : Option Str) (req : ClientRequest) : Prop where
  path : req.headers.getOr (str ":path") = endpoint.target query
  request : isCorsPreflight req.headers = false
  /-- The key is in the authorization, or in `x-api-key` for the messages. -/
  key : (strip (req.headers.getOr (str "x-api-key")) = [] ∧
      strip (req.headers.getOr (str "api-key")) = []) ∨
    endpoint = .messages ∧ req.headers.getOr (str "x-api-key") ≠ []
  /-- The address is the first that was forwarded, or both find none. -/
  clientIp : directClientIp req.headers peer = gateClientIp req.headers
  /-- The body is an object that names its model with a text, if any. -/
  body : ∀ payload, s.parseBody req.body = some payload → ∃ fields, payload = .obj fields ∧
    ∀ v, getTruthy (str "model") fields = some v → ∃ name, v = .str name
  parsed : endpoint.unparsed = .raised → (s.parseBody req.body).isSome
  /-- The endpoint accepts the payload, and both route on the same text. -/
  prompt : ∀ payload, s.parseBody req.body = some payload → ∃ text,
    endpoint.text repr payload = .ok text ∧
      promptText repr endpoint.clientProtocol payload = some text
  /-- A route without targets is one of the endpoint. -/
  targets : ∀ name route, s.openRoute name = some route → route.targets = [] →
    routeKind route = endpoint.modality ∧ routeExposes route endpoint.protocol = true
  unlimited : endpoint = .embeddings → ∀ uid rpm, s.rateLimit uid rpm = true

/-- The processor decides as an endpoint does. -/
def DecidesLike (s : RelayServices) (endpoint : Endpoint) (req : ClientRequest)
    (decision : Decision) : Except Refusal Admission → Prop
  | .error (.http code _) => ∃ message, decision = .deny code message
  | .error .raised => False
  | .ok a => decision = .allow (routedHeaders a.key endpoint.clientProtocol req.requestId
      a.modelName (some endpoint.modality) (a.decision.choice s.row))

section
variable {s : RelayServices} {repr : Json → Str} {endpoint : Endpoint} {query peer : Option Str}
  {req : ClientRequest} {headers : Headers}

/-- What the processor reads off the path. -/
theorem clientProtocolAndModality_target (endpoint : Endpoint) (query : Option Str) :
    clientProtocolAndModality (endpoint.target query) =
      (endpoint.clientProtocol, some endpoint.modality) := by
  rw [clientProtocolAndModality, cleanPath_target]
  cases endpoint <;> decide

/-- No endpoint that routes lists the models. -/
theorem listsModels_target (endpoint : Endpoint) (query : Option Str) :
    listsModels (endpoint.target query) = false := by
  rw [listsModels, cleanPath_target]
  cases endpoint <;> decide

/-- Two spellings of one protocol are both exposed, or neither is. -/
theorem routeExposes_congr {route : Admin.RoutePolicy} {p q : Str}
    (h : normalizeProtocolFor (some p) (some (routeKind route)) =
      normalizeProtocolFor (some q) (some (routeKind route))) :
    routeExposes route p = routeExposes route q := by
  rw [routeExposes, routeExposes, h]

theorem routeExposes_clientProtocol {route : Admin.RoutePolicy}
    (h : routeKind route = endpoint.modality) :
    routeExposes route endpoint.clientProtocol = routeExposes route endpoint.protocol := by
  apply routeExposes_congr
  rw [h]
  cases endpoint <;> decide +kernel

/-! ### The key -/

/-- Without a key of its own, the processor reads the authorization. -/
theorem authPlain_bearer (hkey : strip (headers.getOr (str "x-api-key")) = [])
    (hother : headers.getOr (str "x-api-key") = [] →
      strip (headers.getOr (str "api-key")) = []) :
    authPlain headers = (plainFromBearer headers).toOption := by
  have hblank : strip (if (headers.getOr (str "x-api-key")).isEmpty then
      headers.getOr (str "api-key") else headers.getOr (str "x-api-key")) = [] := by
    split_ifs with hempty
    · exact hother (List.isEmpty_iff.mp hempty)
    · exact hkey
  simp only [authPlain, plainFromBearer, hblank, List.isEmpty_nil, Bool.not_true,
    Bool.false_eq_true, if_false]
  split_ifs
  · rfl
  · rfl

/-- The key that both gates read. -/
theorem authPlain_eq (h : ReadAlike s repr endpoint query peer req) :
    authPlain req.headers = (endpoint.plain req.headers).toOption := by
  have hbearer : strip (req.headers.getOr (str "x-api-key")) = [] →
      endpoint.plain req.headers = plainFromBearer req.headers := by
    intro hkey
    simp [Endpoint.plain, hkey]
  rcases h.key with ⟨hkey, hother⟩ | ⟨hmessages, hgiven⟩
  · rw [hbearer hkey, authPlain_bearer hkey fun _ => hother]
  · by_cases hkey : strip (req.headers.getOr (str "x-api-key")) = []
    · rw [hbearer hkey, authPlain_bearer hkey fun hnone => absurd hnone hgiven]
    · simp [authPlain, Endpoint.plain, hmessages, hgiven, hkey, Except.toOption]

/-- An endpoint that finds no key says so. -/
theorem plain_error {e : Refusal} (h : endpoint.plain headers = .error e) :
    e = .http 401 (str "missing api key") := by
  rw [Endpoint.plain, plainFromBearer] at h
  split_ifs at h
  exact (Except.error.inj h).symm

/-! ### The route -/

/-- The name that both gates read. -/
theorem getTruthy_str {key name : Str} {fields : List (Str × Json)}
    (h : getTruthy key fields = some (.str name)) :
    Json.lookup key fields = some (.str name) ∧ orNone name = some name := by
  obtain ⟨hlookup, htruthy⟩ := Option.filter_eq_some_iff.mp h
  cases name with
  | nil => cases htruthy
  | cons c name => exact ⟨hlookup, rfl⟩

/-- A payload without a name has none that the processor accepts. -/
theorem extractModel_none {fields : List (Str × Json)}
    (hbody : s.parseBody req.body = some (.obj fields))
    (hmodel : getTruthy (str "model") fields = none) :
    (extractModel (s.gate repr) req.body).bind orNone = none := by
  have hfalse : ∀ v, Json.lookup (str "model") fields = some v → v.truthy = false := by
    intro v hv
    rw [getTruthy, hv] at hmodel
    simpa [Option.filter_some] using hmodel
  rw [extractModel]
  split_ifs
  · rfl
  · simp only [RelayServices.gate, hbody]
    cases hlookup : Json.lookup (str "model") fields with
    | none => rfl
    | some v =>
        have hv := hfalse v hlookup
        cases v with
        | str name =>
            cases name with
            | nil => rfl
            | cons c name => cases hv
        | _ => rfl

theorem extractModel_some {fields : List (Str × Json)} {name : Str}
    (hbody : s.parseBody req.body = some (.obj fields))
    (hmodel : getTruthy (str "model") fields = some (.str name)) :
    (extractModel (s.gate repr) req.body).bind orNone = some name := by
  obtain ⟨hlookup, hname⟩ := getTruthy_str hmodel
  have hne : req.body ≠ [] := by
    intro hnil
    rw [hnil, s.parse_nil] at hbody
    cases hbody
  rw [extractModel, if_neg (by simpa using hne)]
  simp only [RelayServices.gate, hbody, hlookup]
  exact hname

theorem loadRoute_gate_of_none {name : Str} (h : s.openRoute name = none) :
    (s.gate repr).loadRoute name = .inl (404, notAvailable name) := by
  simp [RelayServices.gate, RelayServices.gateLoadRoute, h]

theorem loadRoute_gate_of_some {name : Str} {route : Admin.RoutePolicy}
    (h : s.openRoute name = some route) :
    (s.gate repr).loadRoute name =
      if route.targets = [] then .inl (502, str "route has no targets")
      else .inr ⟨route.modality, routeExposes route⟩ := by
  by_cases htargets : route.targets = []
  · simp [RelayServices.gate, RelayServices.gateLoadRoute, h, htargets]
  · simp [RelayServices.gate, RelayServices.gateLoadRoute, h, htargets]

/-- The processor asks for the route that the endpoint asks for. -/
theorem selectRoute_gate (h : ReadAlike s repr endpoint query peer req)
    {fields : List (Str × Json)} {name text : Str} {route : Admin.RoutePolicy}
    {policy : Llmxy.RoutePolicy} (hmodel : getTruthy (str "model") fields = some (.str name))
    (hroute : s.openRoute name = some route)
    (hprompt : promptText repr endpoint.clientProtocol (.obj fields) = some text) :
    (s.gate repr).selectRoute policy endpoint.clientProtocol (.obj fields) req.headers =
      (s.select route ⟨text, directClientIp req.headers peer⟩).map (·.choice s.row) := by
  have hname : (fieldOf (str "model") (.obj fields)).str? = some name := by
    rw [fieldOf, (getTruthy_str hmodel).1]
    rfl
  cases hselect : s.select route ⟨text, directClientIp req.headers peer⟩ with
  | none => simp [RelayServices.gate, hname, hroute, hprompt, ← h.clientIp, hselect]
  | some decision => simp [RelayServices.gate, hname, hroute, hprompt, ← h.clientIp, hselect]

/-- **The routing halves** decide alike. -/
theorem decideRoute_like (h : ReadAlike s repr endpoint query peer req) (key : KeySnapshot) :
    DecidesLike s endpoint req (decideRoute (s.gate repr) key req.requestId req)
      (s.directRoute repr endpoint key req.headers peer req.body) := by
  rw [decideRoute, h.path, clientProtocolAndModality_target, RelayServices.directRoute]
  dsimp only
  cases hbody : s.parseBody req.body with
  | none =>
      have hextract : (extractModel (s.gate repr) req.body).bind orNone = none := by
        rw [extractModel]
        split_ifs
        · rfl
        · simp [RelayServices.gate, hbody]
      rw [hextract]
      cases endpoint with
      | embeddings =>
          have hparsed := h.parsed rfl
          rw [hbody] at hparsed
          cases hparsed
      | images =>
          have hparsed := h.parsed rfl
          rw [hbody] at hparsed
          cases hparsed
      | _ => exact ⟨_, rfl⟩
  | some payload =>
      obtain ⟨fields, rfl, hnamed⟩ := h.body payload hbody
      have hparse : (s.gate repr).parseBody req.body = some (.obj fields) := hbody
      rw [Option.elim_some, hparse]
      cases hmodel : getTruthy (str "model") fields with
      | none =>
          rw [extractModel_none hbody hmodel]
          have hname : namedModel (.obj fields) = .error (.http 400 (str "missing model")) := by
            rw [namedModel, hmodel]
          simp only [hname, bind, Except.bind]
          exact ⟨_, rfl⟩
      | some v =>
          obtain ⟨name, rfl⟩ := hnamed v hmodel
          obtain ⟨text, htext, hprompt⟩ := h.prompt _ hbody
          rw [extractModel_some hbody hmodel]
          have hname : namedModel (.obj fields) = .ok name := by
            rw [namedModel, hmodel]
          simp only [hname, htext, bind, Except.bind, RelayServices.loadRoute]
          cases hroute : s.openRoute name with
          | none =>
              rw [loadRoute_gate_of_none hroute]
              exact ⟨_, rfl⟩
          | some route =>
              rw [loadRoute_gate_of_some hroute]
              have hgate : (if List.isEmpty route.modality then str "chat" else route.modality) =
                  routeKind route := rfl
              by_cases htargets : route.targets = []
              · obtain ⟨hkind, hexposes⟩ := h.targets name route hroute htargets
                simp [htargets, hkind, hexposes, refuseIf, DecidesLike]
              · rw [if_neg htargets]
                dsimp only
                rw [hgate]
                by_cases hkind : routeKind route = endpoint.modality
                · rw [selectRoute_gate h hmodel hroute hprompt]
                  by_cases hexposes : routeExposes route endpoint.protocol = true
                  · cases hselect : s.select route ⟨text, directClientIp req.headers peer⟩ with
                    | none =>
                        simp [htargets, hkind, hexposes, routeExposes_clientProtocol hkind, hselect,
                          refuseIf, DecidesLike]
                    | some decision =>
                        simp [htargets, hkind, hexposes, routeExposes_clientProtocol hkind, hselect,
                          refuseIf, DecidesLike]
                  · simp [hkind, hexposes, routeExposes_clientProtocol hkind, refuseIf, DecidesLike]
                · simp [hkind, refuseIf, DecidesLike]

/-- A request that both gates read alike is decided alike. -/
theorem decideRequest_like (h : ReadAlike s repr endpoint query peer req) :
    DecidesLike s endpoint req (decideRequest (s.gate repr) req)
      (s.directGate repr endpoint req.headers peer req.body) := by
  rw [decideRequest, authPlain_eq h, RelayServices.directGate]
  cases hplain : endpoint.plain req.headers with
  | error e =>
      rw [plain_error hplain]
      exact ⟨_, rfl⟩
  | ok plain =>
      simp only [Except.toOption, bind, Except.bind, Option.bind_some, RelayServices.loadApiKey]
      by_cases hformat : startsWith (str "sk-") plain = true
      · have hplain : orNone plain = some plain := by
          cases plain with
          | nil => cases hformat
          | cons c plain => rfl
        have hrefuse : startsWith (str "sk-") plain ≠ false := by simp [hformat]
        rw [hplain]
        simp only [hformat, refuseIf]
        cases hkey : s.key plain with
        | none => simp [RelayServices.gate, hkey, DecidesLike]
        | some key =>
            by_cases hstatus : key.status = .active
            · cases huser : (s.user key.userId).filter fun u => u.status = .active with
              | none => simp [RelayServices.gate, hkey, hstatus, huser, DecidesLike]
              | some user =>
                  by_cases hquota : (s.hasQuota key).1 = true
                  · by_cases hrate : s.rateLimit key.userId user.planRpm = true
                    · have hlisting := listsModels_target endpoint query
                      rw [← h.path, listsModels] at hlisting
                      have hroute := decideRoute_like h key
                      rw [ClientRequest.requestId] at hroute
                      simpa [RelayServices.gate, hkey, hstatus, huser, hquota, hrate,
                        of_decide_eq_false hlisting] using hroute
                    · have hlimited : endpoint ≠ .embeddings := by
                        intro hendpoint
                        exact hrate (h.unlimited hendpoint _ _)
                      simp [RelayServices.gate, hkey, hstatus, huser, hquota, hrate, hlimited,
                        DecidesLike]
                  · simp [RelayServices.gate, hkey, hstatus, huser, hquota, DecidesLike]
            · simp [RelayServices.gate, hkey, hstatus, DecidesLike]
      · cases plain with
        | nil => exact ⟨_, rfl⟩
        | cons c plain => simp [orNone, hformat, refuseIf, DecidesLike]

/-- **The two gates agree.**  A request that they read alike is refused by both with one status, or
Envoy relays it with the key, the model and the route that the endpoint would use. -/
theorem gates_agree (h : ReadAlike s repr endpoint query peer req) :
    (∀ code, processRequest (s.gate repr) req = .immediate code ↔
      ∃ detail, s.directGate repr endpoint req.headers peer req.body =
        .error (.http code detail)) ∧
    ∀ set, processRequest (s.gate repr) req = .forward set ↔
      ∃ a, s.directGate repr endpoint req.headers peer req.body = .ok a ∧
        set = routedHeaders a.key endpoint.clientProtocol req.requestId a.modelName
          (some endpoint.modality) (a.decision.choice s.row) := by
  have hlike := decideRequest_like h
  rw [processRequest, if_neg (by simp [h.request])]
  cases hdirect : s.directGate repr endpoint req.headers peer req.body with
  | error e =>
      rw [hdirect] at hlike
      cases e with
      | http code detail =>
          obtain ⟨message, hdecide⟩ := hlike
          simp [hdecide, eq_comm]
      | raised => exact hlike.elim
  | ok a =>
      rw [hdirect] at hlike
      have hdecide : decideRequest (s.gate repr) req = _ := hlike
      simp [hdecide, eq_comm]

/-! ### What an admission rests on -/

/-- The kinds that a route may have. -/
def routeKinds : List Str := [str "chat", str "embedding", str "image"]

/-- What is looked for in the list is what some OpenAI endpoint serves. -/
theorem exposes_listed_iff {route : Admin.RoutePolicy} (h : routeKind route ∈ routeKinds) :
    (routeExposes route openaiChat || routeExposes route openaiResponses) = true ↔
      ∃ endpoint ≠ Endpoint.messages, routeKind route = endpoint.modality ∧
        routeExposes route endpoint.protocol = true := by
  have hsame : ∀ endpoint : Endpoint, routeKind route = endpoint.modality →
      endpoint = .embeddings ∨ endpoint = .images →
      routeExposes route openaiChat = routeExposes route endpoint.protocol ∧
        routeExposes route openaiResponses = routeExposes route endpoint.protocol := by
    intro endpoint hkind hendpoint
    constructor
    · apply routeExposes_congr
      rw [hkind]
      obtain rfl | rfl := hendpoint <;> decide +kernel
    · apply routeExposes_congr
      rw [hkind]
      obtain rfl | rfl := hendpoint <;> decide +kernel
  constructor
  · intro hexposes
    simp only [routeKinds, List.mem_cons, List.not_mem_nil, or_false] at h
    rcases h with hkind | hkind | hkind
    · rw [Bool.or_eq_true] at hexposes
      rcases hexposes with hchat | hresponses
      · have hspelled := @routeExposes_clientProtocol .chatCompletions route hkind
        exact ⟨.chatCompletions, by decide, hkind, hspelled.symm.trans hchat⟩
      · have hspelled := @routeExposes_clientProtocol .responses route hkind
        exact ⟨.responses, by decide, hkind, hspelled.symm.trans hresponses⟩
    · obtain ⟨hchat, hresponses⟩ := hsame .embeddings hkind (.inl rfl)
      rw [hchat, hresponses, Bool.or_self] at hexposes
      exact ⟨.embeddings, by decide, hkind, hexposes⟩
    · obtain ⟨hchat, hresponses⟩ := hsame .images hkind (.inr rfl)
      rw [hchat, hresponses, Bool.or_self] at hexposes
      exact ⟨.images, by decide, hkind, hexposes⟩
  · rintro ⟨endpoint, hmessages, hkind, hexposes⟩
    have hspelled : routeExposes route endpoint.clientProtocol = true :=
      (routeExposes_clientProtocol hkind).trans hexposes
    cases endpoint with
    | messages => exact absurd rfl hmessages
    | chatCompletions => exact Bool.or_eq_true_iff.mpr (.inl hspelled)
    | responses => exact Bool.or_eq_true_iff.mpr (.inr hspelled)
    | embeddings => simp [(hsame .embeddings hkind (.inl rfl)).1, hexposes]
    | images => simp [(hsame .images hkind (.inr rfl)).1, hexposes]

/-- An endpoint knows a route of its modality that exposes its protocol. -/
theorem loadRoute_known_iff {name : Str} :
    (∀ detail, s.loadRoute endpoint name ≠ .error (.http 404 detail)) ↔
      ∃ route, s.openRoute name = some route ∧ routeKind route = endpoint.modality ∧
        routeExposes route endpoint.protocol = true := by
  rw [RelayServices.loadRoute]
  cases hroute : s.openRoute name with
  | none => simp
  | some route =>
      by_cases hkind : routeKind route = endpoint.modality
      · by_cases hexposes : routeExposes route endpoint.protocol = true
        · by_cases htargets : route.targets = []
          · simp [hkind, hexposes, htargets, refuseIf, bind, Except.bind]
          · simp [hkind, hexposes, htargets, refuseIf, bind, Except.bind]
        · simp [hkind, hexposes, refuseIf, bind, Except.bind]
      · simp [hkind, refuseIf, bind, Except.bind]

/-- **The list of models is exact.**  A name is listed when some OpenAI endpoint knows it, and
only then. -/
theorem listed_iff_served {routes : List Admin.RoutePolicy}
    (hnames : (routes.map (·.userFacingModel)).Nodup)
    (hroutes : ∀ name, s.route name = routes.find? (·.userFacingModel = name))
    (hkinds : ∀ route ∈ routes, routeKind route ∈ routeKinds) (name : Str) :
    name ∈ listedModels routes ↔ ∃ endpoint ≠ Endpoint.messages,
      ∀ detail, s.loadRoute endpoint name ≠ .error (.http 404 detail) := by
  have hopen : ∀ route, s.openRoute name = some route ↔
      route ∈ routes ∧ route.userFacingModel = name ∧ route.enabled = true ∧
        route.scope = .public_ := by
    intro route
    have hpublic : (route.scope ≠ .private_) ↔ route.scope = .public_ := by
      cases route.scope <;> decide
    have hfind : routes.find? (·.userFacingModel = name) = some route ↔
        route ∈ routes ∧ route.userFacingModel = name := by
      constructor
      · intro h
        exact ⟨List.mem_of_find?_eq_some h, by simpa using List.find?_some h⟩
      · rintro ⟨hmem, hname⟩
        cases hfound : routes.find? (·.userFacingModel = name) with
        | none => exact absurd hname (by simpa using List.find?_eq_none.mp hfound route hmem)
        | some other =>
            have hother : other.userFacingModel = name := by simpa using List.find?_some hfound
            have heq := List.inj_on_of_nodup_map hnames (List.mem_of_find?_eq_some hfound) hmem
              (hother.trans hname.symm)
            rw [heq]
    rw [RelayServices.openRoute, Option.filter_eq_some_iff, hroutes, hfind]
    simp [hpublic, and_assoc]
  have hserved : ∀ route ∈ routes,
      (routeExposes route openaiChat || routeExposes route openaiResponses) = true ↔
        ∃ endpoint ≠ Endpoint.messages, routeKind route = endpoint.modality ∧
          routeExposes route endpoint.protocol = true :=
    fun route hmem => exposes_listed_iff (hkinds route hmem)
  simp only [loadRoute_known_iff, hopen, listedModels, List.mem_map, List.mem_filter,
    Bool.and_eq_true, decide_eq_true_eq]
  constructor
  · rintro ⟨route, ⟨hmem, ⟨henabled, hscope⟩, hexposes⟩, hname⟩
    obtain ⟨endpoint, hmessages, hkind, hprotocol⟩ := (hserved route hmem).mp hexposes
    exact ⟨endpoint, hmessages, route, ⟨hmem, hname, henabled, hscope⟩, hkind, hprotocol⟩
  · rintro ⟨endpoint, hmessages, route, ⟨hmem, hname, henabled, hscope⟩, hkind, hprotocol⟩
    have hexposes := (hserved route hmem).mpr ⟨endpoint, hmessages, hkind, hprotocol⟩
    exact ⟨route, ⟨hmem, ⟨henabled, hscope⟩, hexposes⟩, hname⟩

end

/-- A chat route. -/
def autoRoute : Admin.RoutePolicy where
  id := 1
  userFacingModel := str "auto"
  modality := str "chat"
  exposedProtocols := [str "openai.chat"]
  strategy := .weighted
  targets := [⟨1, 1, none⟩]
  fallbackModelId := none
  smartRules := []
  smartEmbeddingModelId := none
  smartExemplars := []
  smartScoreThreshold := 55
  smartEmbeddingVersion := 0
  scope := .public_
  enabled := true

/-- One key, and one route with one model. -/
def autoServices : RelayServices where
  key := fun _ => some ⟨1, 1, .active, 0, 0⟩
  user := fun _ => some ⟨.active, 60⟩
  hasQuota := fun _ => (true, [])
  rateLimit := fun _ _ => true
  parseBody := fun body =>
    if body = [] then none else some (.obj [(str "model", .str (str "auto"))])
  parse_nil := rfl
  route := fun name => [autoRoute].find? (·.userFacingModel = name)
  select := fun _ _ => some ⟨⟨⟨str "m", 1, str "up", str "chat", none, true⟩, 1⟩,
    ⟨⟨⟨str "openai.chat", str "openai", str "u"⟩, 1⟩, true⟩, [], none, none⟩
  row := fun _ => hopChoice.model

/-- A request with the key. -/
def autoRequest : ClientRequest where
  headers := [(str ":path", str "/v1/chat/completions"), (str "authorization", str "Bearer sk-1")]
  body := [123]
  fresh := ⟨str "0123456789abcdef", length_hexDigits⟩

theorem readAlike_auto :
    ReadAlike autoServices (fun _ => []) .chatCompletions none none autoRequest where
  path := rfl
  request := rfl
  key := .inl (by decide)
  clientIp := rfl
  body := by
    intro payload hpayload
    obtain rfl := Option.some.inj hpayload
    refine ⟨_, rfl, ?_⟩
    intro v hv
    obtain rfl := Option.some.inj hv
    exact ⟨_, rfl⟩
  parsed := nofun
  prompt := by
    intro payload hpayload
    obtain rfl := Option.some.inj hpayload
    exact ⟨_, rfl, rfl⟩
  targets := by
    intro name route hroute htargets
    have hfind : [autoRoute].find? (·.userFacingModel = name) = some route :=
      (Option.filter_eq_some_iff.mp hroute).1
    rw [List.mem_singleton.mp (List.mem_of_find?_eq_some hfind)] at htargets
    cases htargets
  unlimited := nofun

theorem gates_agree_auto :
    ∃ set, processRequest (autoServices.gate fun _ => []) autoRequest = .forward set ∧
      set.get? (str "x-llmxy-chat-chain") = some (str "1:1") :=
  ⟨_, ((gates_agree readAlike_auto).2 _).mpr ⟨_, rfl, rfl⟩, rfl⟩

theorem listed_iff_served_auto : ∃ endpoint ≠ Endpoint.messages,
    ∀ detail, autoServices.loadRoute endpoint (str "auto") ≠ .error (.http 404 detail) :=
  (listed_iff_served (by simp) (fun _ => rfl)
    (by simp [autoRoute, routeKind, routeKinds]) (str "auto")).mp (by decide +kernel)

end Llmxy
