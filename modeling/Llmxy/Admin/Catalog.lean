import Llmxy.Lib.Checks
import Llmxy.Lib.Machine
import Llmxy.Providers.Registry

/-!
# The catalog of channels, models and routes

The endpoints of the admin API that write the three tables.  Each validates its request
against the tables as they are, and a request that is refused changes nothing.  Requests run
one after the other; those that PostgreSQL would refuse (a text too long for its column, a
route name that exists) are not part of the runs.

## Main definitions

* `validateModality`, `validateModelProtocol`, `validateChannelModels` — the validations.
* `createRoute`, `updateRoute`, `createModel`, `updateModel`, `deleteModel`, `createChannel`,
  `updateChannel` — the endpoints.
* `CatalogLabel`, `Catalog.step` — the machine that runs them.
-/

namespace Llmxy.Admin

/-- What a refused request says. -/
inductive CatalogError where
  | notFound
  | invalidModality (modality : Str)
  | invalidExposedProtocols (bad : List Str)
  | exposedProtocolsEmpty
  | onlyChatExposes
  | noTarget
  | modelNotFound (fallback : Bool) (modelId : ℤ)
  | modelOfKind (fallback : Bool) (code kind expected : Str)
  | invalidScope (scope : Str)
  | channelNotFound (channelId : ℤ)
  | unsupportedModelProtocol (proto : Str) (isOverride : Bool) (kind : Str) (allowed : List Str)
  | connectorLacks (connector kind proto : Str)
  | unsupportedUpstreamProtocol (providerType : Str)
  | unsupportedConnector (connectorType : Str)
  | connectorLacksProtocol (connector protocol : Str)
  | boundModels (invalid : List Model)

/-- The three tables. -/
structure Catalog where
  channels : SerialTable Channel
  models : SerialTable Model
  routes : SerialTable RoutePolicy

/-- A database that holds nothing yet. -/
def Catalog.empty : Catalog := ⟨.empty, .empty, .empty⟩

/-! ### Validation -/

/-- `VALID_MODALITIES`. -/
def validModalities : List Str := [str "chat", str "embedding", str "image"]

/-- `VALID_EXPOSED_PROTOCOLS`. -/
def validExposedProtocols : List Str :=
  [openaiChat, openaiResponses, openaiEmbeddings, openaiImages, anthropicMessages]

/-- A target or the fallback of a route is a model of its modality. -/
def checkKind (models : SerialTable Model) (modality : Str) (fallback : Bool) (modelId : ℤ) :
    Except CatalogError Unit :=
  match models.get? modelId with
  | none => .error (.modelNotFound fallback modelId)
  | some m =>
      if textOr (str "chat") (some m.kind) ≠ modality then
        .error (.modelOfKind fallback m.code m.kind modality)
      else .ok ()

/-- The targets, in order. -/
def checkTargets (models : SerialTable Model) (modality : Str) :
    List RouteTarget → Except CatalogError Unit
  | [] => .ok ()
  | t :: targets =>
      (checkKind models modality false t.modelId).bind fun _ =>
        checkTargets models modality targets

/-- The protocols of a route in their normal form. -/
def exposedProtocolsOf (req : RoutePolicyIn) : List Str :=
  let exposed := if req.exposedProtocols.isEmpty then [str "openai"] else req.exposedProtocols
  exposed.map fun p => normalizeProtocolFor (some p) (some req.modality)

/-- `_validate_modality`. -/
def validateModality (models : SerialTable Model) (req : RoutePolicyIn) :
    Except CatalogError Unit :=
  if req.modality ∉ validModalities then .error (.invalidModality req.modality)
  else
    let protocols := exposedProtocolsOf req
    let bad := protocols.filter fun p => p ∉ validExposedProtocols
    if !bad.isEmpty then .error (.invalidExposedProtocols bad)
    else if protocols.isEmpty then .error .exposedProtocolsEmpty
    else if req.modality ≠ str "chat" ∧ protocols.any fun p => !startsWith (str "openai.") p then
      .error .onlyChatExposes
    else if req.targets.isEmpty then .error .noTarget
    else
      (checkTargets models req.modality req.targets).bind fun _ =>
        match req.fallbackModelId with
        | none => .ok ()
        | some modelId => checkKind models req.modality true modelId

/-- The protocols a model of a kind may have upstream. -/
def allowedProtocolsForKind (kind : Str) : List Str :=
  if kind = str "image" then imageProtocols
  else if kind = str "embedding" then embeddingProtocols
  else chatProtocols

/-- `proto` in `_validate_protocol`: the override of a model, or what it inherits. -/
def validatedProtocol (req : ModelIn) (channel : ChannelIn) : Str :=
  let inheritedProtocol := channelProtocol channel (some req.kind)
  let override :=
    if (textOr [] req.upstreamProtocol).isEmpty then []
    else normalizeProtocolFor req.upstreamProtocol (some req.kind)
  textOr inheritedProtocol (some override)

/-- `_validate_protocol` of the models. -/
def validateModelProtocol (channels : SerialTable Channel) (req : ModelIn) :
    Except CatalogError Unit :=
  match channels.get? req.channelId with
  | none => .error (.channelNotFound req.channelId)
  | some channel =>
      let connector := channelConnector channel.toChannelIn
      let proto := validatedProtocol req channel.toChannelIn
      let allowed := allowedProtocolsForKind req.kind
      if proto ∉ allowed then
        .error (.unsupportedModelProtocol proto (!(textOr [] req.upstreamProtocol).isEmpty)
          req.kind allowed)
      else if !connectorSupportsProtocol (some connector) (some proto) ||
          !connectorSupportsKind (some connector) (some req.kind) then
        .error (.connectorLacks connector req.kind proto)
      else .ok ()

/-- `_validate_protocol` of the channels. -/
def validateChannelProtocol (providerType : Str) : Except CatalogError Str :=
  let protocol := normalizeProtocol (some providerType)
  if protocol ∉ chatProtocols then .error (.unsupportedUpstreamProtocol providerType)
  else .ok protocol

/-- `_validate_connector`. -/
def validateConnector (connectorType protocol : Str) : Except CatalogError Str :=
  let connector := normalizeConnector (some connectorType)
  if connector ∉ supportedConnectors then .error (.unsupportedConnector connectorType)
  else if !connectorSupportsProtocol (some connector) (some protocol) then
    .error (.connectorLacksProtocol connector protocol)
  else .ok connector

/-- A model may stay on its channel when the channel gets this protocol and connector. -/
def modelFits (protocol connector : Str) (m : Model) : Bool :=
  let kind := textOr (str "chat") (some m.kind)
  let modelProtocol :=
    normalizeProtocolFor (some (textOr protocol m.upstreamProtocol)) (some kind)
  modelProtocol ∈ allowedProtocolsForKind kind &&
    connectorSupportsProtocol (some connector) (some modelProtocol) &&
    connectorSupportsKind (some connector) (some kind)

/-- `_validate_channel_models`. -/
def validateChannelModels (models : SerialTable Model) (channelId : ℤ)
    (protocol connector : Str) : Except CatalogError Unit :=
  let invalid := models.rows.filter fun m =>
    m.channelId = channelId && !modelFits protocol connector m
  if invalid.isEmpty then .ok () else .error (.boundModels invalid)

/-! ### Endpoints -/

/-- The columns of a route that `_to_orm` sets. -/
def toOrm (req : RoutePolicyIn) (scope : RouteScope) (version id : ℤ) : RoutePolicy where
  id := id
  userFacingModel := req.userFacingModel
  modality := req.modality
  exposedProtocols := (exposedProtocolsOf req).eraseDups
  strategy := req.strategy
  targets := req.targets
  fallbackModelId := req.fallbackModelId
  smartRules := req.smartRules.map RouteRule.modelDump
  smartEmbeddingModelId := req.smartEmbeddingModelId
  smartExemplars := req.smartExemplars
  smartScoreThreshold := req.smartScoreThreshold
  smartEmbeddingVersion := version
  scope := scope
  enabled := req.enabled

/-- `_exemplar_fingerprint`: the embedding model, and the exemplars in whatever order. -/
def exemplarFingerprint (smartEmbeddingModelId : Option ℤ) (exemplars : List RouteExemplar) :
    Option ℤ × Multiset RouteExemplar :=
  (smartEmbeddingModelId, exemplars)

/-- The first version of the exemplars of a route. -/
def firstVersion (req : RoutePolicyIn) : ℤ :=
  if (req.smartEmbeddingModelId.any (· ≠ 0)) && !req.smartExemplars.isEmpty then 1 else 0

/-- The version after an update. -/
def nextVersion (row : RoutePolicy) (req : RoutePolicyIn) : ℤ :=
  if exemplarFingerprint row.smartEmbeddingModelId row.smartExemplars ≠
      exemplarFingerprint req.smartEmbeddingModelId req.smartExemplars then
    row.smartEmbeddingVersion + 1
  else row.smartEmbeddingVersion

/-- The scope of a request. -/
def parseScope (scope : Str) : Except CatalogError RouteScope :=
  match RouteScope.ofText scope with
  | none => .error (.invalidScope scope)
  | some scope => .ok scope

namespace Catalog

/-- `create_route`. -/
def createRoute (req : RoutePolicyIn) (cat : Catalog) : Except CatalogError Catalog :=
  (validateModality cat.models req).bind fun _ =>
    (parseScope req.scope).map fun scope =>
      { cat with routes := cat.routes.insert (toOrm req scope (firstVersion req)) fun _ => rfl }

/-- The columns of a route, set. -/
def setRoute (req : RoutePolicyIn) (scope : RouteScope) : RowUpdate RoutePolicy :=
  ⟨fun row => toOrm req scope (nextVersion row req) row.id, fun _ => rfl⟩

/-- `update_route`. -/
def updateRoute (rid : ℤ) (req : RoutePolicyIn) (cat : Catalog) : Except CatalogError Catalog :=
  match cat.routes.get? rid with
  | none => .error .notFound
  | some _ =>
      (validateModality cat.models req).bind fun _ =>
        (parseScope req.scope).map fun scope =>
          { cat with routes := cat.routes.update rid (setRoute req scope) }

/-- `create_model`. -/
def createModel (req : ModelIn) (cat : Catalog) : Except CatalogError Catalog :=
  (validateModelProtocol cat.channels req).map fun _ =>
    { cat with models := cat.models.insert (fun id => { req with id }) fun _ => rfl }

/-- The columns of a model, set. -/
def setModel (req : ModelIn) : RowUpdate Model := ⟨fun row => { req with id := row.id }, fun _ => rfl⟩

/-- `update_model`. -/
def updateModel (mid : ℤ) (req : ModelIn) (cat : Catalog) : Except CatalogError Catalog :=
  (validateModelProtocol cat.channels req).bind fun _ =>
    match cat.models.get? mid with
    | none => .error .notFound
    | some _ => .ok { cat with models := cat.models.update mid (setModel req) }

/-- `ON DELETE SET NULL`. -/
def forgetModel (mid : ℤ) : RowUpdate RoutePolicy :=
  ⟨fun row => { row with
      fallbackModelId := row.fallbackModelId.filter (· ≠ mid)
      smartEmbeddingModelId := row.smartEmbeddingModelId.filter (· ≠ mid) }, fun _ => rfl⟩

/-- `delete_model`. -/
def deleteModel (mid : ℤ) (cat : Catalog) : Except CatalogError Catalog :=
  match cat.models.get? mid with
  | none => .error .notFound
  | some _ =>
      .ok { cat with
        models := cat.models.delete mid
        routes := cat.routes.updateAll (forgetModel mid) }

/-- `create_channel`. -/
def createChannel (req : ChannelIn) (cat : Catalog) : Except CatalogError Catalog :=
  (validateChannelProtocol req.providerType).bind fun protocol =>
    (validateConnector req.connectorType protocol).map fun connector =>
      { cat with
        channels := cat.channels.insert (fun id => ⟨⟨protocol, connector, req.baseUrl⟩, id⟩)
          fun _ => rfl }

/-- The columns of a channel, set. -/
def setChannel (channel : ChannelIn) : RowUpdate Channel :=
  ⟨fun row => { channel with id := row.id }, fun _ => rfl⟩

/-- `update_channel`. -/
def updateChannel (cid : ℤ) (req : ChannelIn) (cat : Catalog) : Except CatalogError Catalog :=
  match cat.channels.get? cid with
  | none => .error .notFound
  | some _ =>
      (validateChannelProtocol req.providerType).bind fun protocol =>
        (validateConnector req.connectorType protocol).bind fun connector =>
          (validateChannelModels cat.models cid protocol connector).map fun _ =>
            { cat with
              channels := cat.channels.update cid (setChannel ⟨protocol, connector, req.baseUrl⟩) }

end Catalog

/-! ### Runs -/

/-- A request to the catalog. -/
inductive CatalogLabel where
  | createRoute (req : RoutePolicyIn)
  | updateRoute (rid : ℤ) (req : RoutePolicyIn)
  | createModel (req : ModelIn)
  | updateModel (mid : ℤ) (req : ModelIn)
  | deleteModel (mid : ℤ)
  | createChannel (req : ChannelIn)
  | updateChannel (cid : ℤ) (req : ChannelIn)

/-- The endpoint that takes a request. -/
def CatalogLabel.exec : CatalogLabel → Catalog → Except CatalogError Catalog
  | .createRoute req => Catalog.createRoute req
  | .updateRoute rid req => Catalog.updateRoute rid req
  | .createModel req => Catalog.createModel req
  | .updateModel mid req => Catalog.updateModel mid req
  | .deleteModel mid => Catalog.deleteModel mid
  | .createChannel req => Catalog.createChannel req
  | .updateChannel cid req => Catalog.updateChannel cid req

/-- The request is not refused. -/
def CatalogLabel.Accepted (cat : Catalog) (l : CatalogLabel) : Prop :=
  ∃ after, l.exec cat = .ok after

/-- One request; a refused one changes nothing. -/
def Catalog.step (cat : Catalog) (l : CatalogLabel) : Option Catalog :=
  match l.exec cat with
  | .error _ => some cat
  | .ok cat => some cat

theorem Catalog.step_eq_some {cat after : Catalog} {l : CatalogLabel} :
    cat.step l = some after ↔ l.exec cat = .ok after ∨
      (after = cat ∧ ∃ e, l.exec cat = .error e) := by
  rw [Catalog.step]
  cases l.exec cat with
  | error e => simp [eq_comm]
  | ok after' => simp

/-! ### What is accepted -/

section
variable {cat after : Catalog}

theorem checkKind_ok {models : SerialTable Model} {modality : Str} {fallback : Bool}
    {modelId : ℤ} : checkKind models modality fallback modelId = .ok () ↔
      ∃ m, models.get? modelId = some m ∧ textOr (str "chat") (some m.kind) = modality := by
  rw [checkKind]
  cases models.get? modelId with
  | none => simp
  | some m =>
      by_cases h : textOr (str "chat") (some m.kind) = modality
      · simp [h]
      · simp [h]

theorem checkTargets_ok {models : SerialTable Model} {modality : Str} {targets : List RouteTarget} :
    checkTargets models modality targets = .ok () ↔
      ∀ t ∈ targets, checkKind models modality false t.modelId = .ok () := by
  induction targets with
  | nil => simp [checkTargets]
  | cons t targets ih => simp [checkTargets, check_ok, ih]

/-- An accepted route refers to models of its modality alone. -/
theorem validateModality_ok {models : SerialTable Model} {req : RoutePolicyIn}
    (h : validateModality models req = .ok ()) {modelId : ℤ}
    (href : req.names modelId) :
    ∃ m, models.get? modelId = some m ∧ textOr (str "chat") (some m.kind) = req.modality := by
  simp only [validateModality] at h
  split_ifs at h
  obtain ⟨htargets, hfallback⟩ := check_ok.mp h
  obtain href | href := href
  · obtain ⟨t, ht, rfl⟩ := List.mem_map.mp href
    exact checkKind_ok.mp (checkTargets_ok.mp htargets t ht)
  · rw [href] at hfallback
    exact checkKind_ok.mp hfallback

theorem validateModality_modality {models : SerialTable Model} {req : RoutePolicyIn}
    (h : validateModality models req = .ok ()) : req.modality ∈ validModalities := by
  simp only [validateModality] at h
  split_ifs at h with hmodality
  exact hmodality

/-- An accepted model has a protocol that its kind allows, and that the connector of its
channel supports with the kind. -/
theorem validateModelProtocol_ok {channels : SerialTable Channel} {req : ModelIn} :
    validateModelProtocol channels req = .ok () ↔ ∃ channel : Channel,
      channels.get? req.channelId = some channel ∧
      validatedProtocol req channel.toChannelIn ∈ allowedProtocolsForKind req.kind ∧
      connectorSupportsProtocol (some (channelConnector channel.toChannelIn))
        (some (validatedProtocol req channel.toChannelIn)) = true ∧
      connectorSupportsKind (some (channelConnector channel.toChannelIn)) (some req.kind) =
        true := by
  rw [validateModelProtocol]
  cases channels.get? req.channelId with
  | none => simp
  | some channel =>
      simp only [Option.some.injEq, exists_eq_left', Bool.or_eq_true, Bool.not_eq_true']
      by_cases hallowed : validatedProtocol req channel.toChannelIn ∈ allowedProtocolsForKind req.kind
      · rw [if_neg (not_not.mpr hallowed)]
        split_ifs with hlacks
        · refine iff_of_false (by simp) fun h => ?_
          obtain hlack | hlack := hlacks
          · cases hlack.symm.trans h.2.1
          · cases hlack.symm.trans h.2.2
        · obtain ⟨hproto, hkind⟩ := not_or.mp hlacks
          exact iff_of_true rfl ⟨hallowed, by simpa using hproto, by simpa using hkind⟩
      · rw [if_pos hallowed]
        exact iff_of_false (by simp) fun h => hallowed h.1

theorem validateChannelProtocol_ok {providerType protocol : Str} :
    validateChannelProtocol providerType = .ok protocol ↔
      normalizeProtocol (some providerType) = protocol ∧ protocol ∈ chatProtocols := by
  simp only [validateChannelProtocol]
  by_cases h : normalizeProtocol (some providerType) ∈ chatProtocols
  · rw [if_neg (not_not.mpr h), Except.ok.injEq]
    exact ⟨fun heq => ⟨heq, heq ▸ h⟩, fun h => h.1⟩
  · rw [if_pos h]
    refine iff_of_false (by simp) ?_
    rintro ⟨rfl, hchat⟩
    exact h hchat

theorem validateConnector_ok {connectorType protocol connector : Str}
    (h : validateConnector connectorType protocol = .ok connector) :
    connector ∈ supportedConnectors ∧
      connectorSupportsProtocol (some connector) (some protocol) = true := by
  simp only [validateConnector] at h
  split_ifs at h with hsupported hprotocol
  obtain rfl := Except.ok.inj h
  exact ⟨hsupported, by simpa using hprotocol⟩

theorem validateChannelModels_ok {models : SerialTable Model} {channelId : ℤ}
    {protocol connector : Str} :
    validateChannelModels models channelId protocol connector = .ok () ↔
      ∀ m ∈ models.rows, m.channelId = channelId → modelFits protocol connector m = true := by
  simp only [validateChannelModels]
  split_ifs with h
  · refine iff_of_true rfl fun m hm hchannel => ?_
    have := List.filter_eq_nil_iff.mp (List.isEmpty_iff.mp h) m hm
    simpa [hchannel] using this
  · refine iff_of_false (by simp) fun hall => h ?_
    rw [List.isEmpty_iff, List.filter_eq_nil_iff]
    intro m hm
    by_cases hchannel : m.channelId = channelId
    · simp [hall m hm hchannel]
    · simp [hchannel]

/-! ### What the endpoints write -/

theorem Catalog.createRoute_ok {req : RoutePolicyIn} (h : cat.createRoute req = .ok after) :
    validateModality cat.models req = .ok () ∧ ∃ scope, after = { cat with
      routes := cat.routes.insert (toOrm req scope (firstVersion req)) fun _ => rfl } := by
  obtain ⟨hvalid, hscope⟩ := check_ok.mp h
  obtain ⟨scope, -, rfl⟩ := map_ok.mp hscope
  exact ⟨hvalid, scope, rfl⟩

theorem Catalog.updateRoute_ok {rid : ℤ} {req : RoutePolicyIn} (h : cat.updateRoute rid req = .ok after) :
    (∃ row, cat.routes.get? rid = some row) ∧ validateModality cat.models req = .ok () ∧
      ∃ scope, after = { cat with
        routes := cat.routes.update rid (Catalog.setRoute req scope) } := by
  rw [Catalog.updateRoute] at h
  cases hrow : cat.routes.get? rid with
  | none =>
      rw [hrow] at h
      cases h
  | some row =>
      rw [hrow] at h
      obtain ⟨hvalid, hscope⟩ := check_ok.mp h
      obtain ⟨scope, -, rfl⟩ := map_ok.mp hscope
      exact ⟨⟨row, rfl⟩, hvalid, scope, rfl⟩

theorem Catalog.createModel_ok {req : ModelIn} (h : cat.createModel req = .ok after) :
    validateModelProtocol cat.channels req = .ok () ∧
      after = { cat with models := cat.models.insert (fun id => { req with id }) fun _ => rfl } := by
  obtain ⟨⟨⟩, hvalid, rfl⟩ := map_ok.mp h
  exact ⟨hvalid, rfl⟩

theorem Catalog.updateModel_ok {mid : ℤ} {req : ModelIn} (h : cat.updateModel mid req = .ok after) :
    validateModelProtocol cat.channels req = .ok () ∧ (∃ m, cat.models.get? mid = some m) ∧
      after = { cat with models := cat.models.update mid (Catalog.setModel req) } := by
  obtain ⟨hvalid, hrow⟩ := check_ok.mp h
  cases hget : cat.models.get? mid with
  | none =>
      rw [hget] at hrow
      cases hrow
  | some m =>
      rw [hget] at hrow
      cases hrow
      exact ⟨hvalid, ⟨m, rfl⟩, rfl⟩

theorem Catalog.deleteModel_ok {mid : ℤ} (h : cat.deleteModel mid = .ok after) :
    after = { cat with
      models := cat.models.delete mid
      routes := cat.routes.updateAll (Catalog.forgetModel mid) } := by
  rw [Catalog.deleteModel] at h
  cases hget : cat.models.get? mid with
  | none =>
      rw [hget] at h
      cases h
  | some m =>
      rw [hget] at h
      cases h
      rfl

theorem Catalog.createChannel_ok {req : ChannelIn} (h : cat.createChannel req = .ok after) :
    ∃ protocol connector, validateChannelProtocol req.providerType = .ok protocol ∧
      validateConnector req.connectorType protocol = .ok connector ∧
      after = { cat with
        channels := cat.channels.insert (fun id => ⟨⟨protocol, connector, req.baseUrl⟩, id⟩)
          fun _ => rfl } := by
  obtain ⟨protocol, hprotocol, h⟩ := bind_ok.mp h
  obtain ⟨connector, hconnector, rfl⟩ := map_ok.mp h
  exact ⟨protocol, connector, hprotocol, hconnector, rfl⟩

theorem Catalog.updateChannel_ok {cid : ℤ} {req : ChannelIn} (h : cat.updateChannel cid req = .ok after) :
    ∃ protocol connector, validateChannelProtocol req.providerType = .ok protocol ∧
      validateConnector req.connectorType protocol = .ok connector ∧
      validateChannelModels cat.models cid protocol connector = .ok () ∧
      after = { cat with
        channels := cat.channels.update cid
          (Catalog.setChannel ⟨protocol, connector, req.baseUrl⟩) } := by
  rw [Catalog.updateChannel] at h
  cases hget : cat.channels.get? cid with
  | none =>
      rw [hget] at h
      cases h
  | some channel =>
      rw [hget] at h
      obtain ⟨protocol, hprotocol, h⟩ := bind_ok.mp h
      obtain ⟨connector, hconnector, h⟩ := bind_ok.mp h
      obtain ⟨⟨⟩, hmodels, rfl⟩ := map_ok.mp h
      exact ⟨protocol, connector, hprotocol, hconnector, hmodels, rfl⟩

end

end Llmxy.Admin
