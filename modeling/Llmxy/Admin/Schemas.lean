import Llmxy.Lib.Json
import Llmxy.Lib.SerialTable

/-!
# Channels, models and routes

The requests of the admin API, as `app.schemas` parses them, and the rows they become.  A row
keeps the columns that the modelled code reads.

A rule of a route is stored as the dictionary `model_dump(exclude_none=True)` gives; targets
and exemplars lose nothing when they are stored, so they stay what they are.

## Main definitions

* `ChannelIn`, `ModelIn`, `RoutePolicyIn` — the requests.
* `Channel`, `Model`, `RoutePolicy` — the rows.
-/

namespace Llmxy.Admin

/-- `ChannelIn`. -/
structure ChannelIn where
  providerType : Str := str "openai.chat"
  connectorType : Str := str "openai"
  baseUrl : Str
  deriving DecidableEq

/-- `channels`. -/
structure Channel extends ChannelIn where
  id : ℤ
  deriving DecidableEq

/-- `ModelIn`.  A model without `upstreamProtocol` inherits that of its channel. -/
structure ModelIn where
  code : Str
  channelId : ℤ
  upstreamModel : Str
  kind : Str := str "chat"
  upstreamProtocol : Option Str := none
  enabled : Bool := true
  deriving DecidableEq

/-- `models`. -/
structure Model extends ModelIn where
  id : ℤ
  deriving DecidableEq

/-- `RouteTarget`. -/
structure RouteTarget where
  modelId : ℤ
  weight : ℤ := 1
  label : Option Str := none
  deriving DecidableEq

/-- `RouteRule`. -/
structure RouteRule where
  type : Str
  id : Option Str := none
  threshold : Option ℤ := none
  gtLabel : Option Str := none
  lteLabel : Option Str := none
  pattern : Option Str := none
  label : Option Str := none
  deriving DecidableEq

/-- `r.model_dump(exclude_none=True)`. -/
def RouteRule.modelDump (r : RouteRule) : Json :=
  let text (key : String) (value : Option Str) : List (Str × Json) :=
    (value.map fun s => (str key, Json.str s)).toList
  .obj ([(str "type", .str r.type)] ++ text "id" r.id ++
    (r.threshold.map fun n => (str "threshold", Json.int n)).toList ++
    text "gt_label" r.gtLabel ++ text "lte_label" r.lteLabel ++ text "pattern" r.pattern ++
    text "label" r.label)

/-- `RouteExemplar`. -/
structure RouteExemplar where
  label : Str
  text : Str
  deriving DecidableEq

/-- `RouteStrategy`. -/
inductive RouteStrategy where
  | weighted | roundRobin | smart
  deriving DecidableEq

/-- `RouteScope`. -/
inductive RouteScope where
  | public_ | private_
  deriving DecidableEq

/-- `RouteScope(scope)`, `none` when it raises. -/
def RouteScope.ofText (scope : Str) : Option RouteScope :=
  if scope = str "public" then some .public_
  else if scope = str "private" then some .private_ else none

/-- `RoutePolicyIn`. -/
structure RoutePolicyIn where
  userFacingModel : Str
  modality : Str := str "chat"
  exposedProtocols : List Str := [str "openai.chat"]
  strategy : RouteStrategy := .weighted
  targets : List RouteTarget := []
  fallbackModelId : Option ℤ := none
  smartRules : List RouteRule := []
  smartEmbeddingModelId : Option ℤ := none
  smartExemplars : List RouteExemplar := []
  smartScoreThreshold : ℤ := 55
  scope : Str := str "public"
  enabled : Bool := true

/-- `route_policies`. -/
structure RoutePolicy where
  id : ℤ
  userFacingModel : Str
  modality : Str
  exposedProtocols : List Str
  strategy : RouteStrategy
  targets : List RouteTarget
  fallbackModelId : Option ℤ
  smartRules : List Json
  smartEmbeddingModelId : Option ℤ
  smartExemplars : List RouteExemplar
  smartScoreThreshold : ℤ
  smartEmbeddingVersion : ℤ
  scope : RouteScope
  enabled : Bool

instance : HasId Channel := ⟨Channel.id⟩
instance : HasId Model := ⟨Model.id⟩
instance : HasId RoutePolicy := ⟨RoutePolicy.id⟩

/-- The models a request names by id: its targets and its fallback. -/
def RoutePolicyIn.names (req : RoutePolicyIn) (modelId : ℤ) : Prop :=
  modelId ∈ req.targets.map RouteTarget.modelId ∨ req.fallbackModelId = some modelId

instance (req : RoutePolicyIn) (modelId : ℤ) : Decidable (req.names modelId) :=
  inferInstanceAs (Decidable (_ ∨ _))

/-- The models a route refers to. -/
def RoutePolicy.refers (route : RoutePolicy) (modelId : ℤ) : Prop :=
  modelId ∈ route.targets.map RouteTarget.modelId ∨ route.fallbackModelId = some modelId

instance (route : RoutePolicy) (modelId : ℤ) : Decidable (route.refers modelId) :=
  inferInstanceAs (Decidable (_ ∨ _))

end Llmxy.Admin
