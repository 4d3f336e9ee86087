import Llmxy.Envoy.ExtProc
import Llmxy.Envoy.Instances
import Llmxy.Lib.Loops
import Llmxy.Providers.Router

/-!
# What the control plane renders

A node starts from a bootstrap that names the cluster of the control plane, and gets the rest from
there: the clusters, the routes, and a listener with its filters.  The parts refer to each other
by name.

The calls of a node carry a token, which the bootstrap takes from the front of the list of tokens,
and the listener takes whole.

## Main definitions

* `Cluster`, `renderCds`, `renderRds`, `renderLds` — the resources of a node.
* `renderBootstrap` — what it starts from.
* `rendered_closed` — every name that is referred to is that of one cluster.
* `acceptedTokens`, `checkToken`, `calls_accepted_iff` — which calls of a node are accepted.
-/

namespace Llmxy

/-! ### Settings -/

/-- The settings that are rendered. -/
structure XdsSettings where
  apiPort : ℤ
  internalApiHost : Str
  internalApiPort : ℤ
  alsGrpcPort : ℤ
  xdsGrpcPort : ℤ
  extProcGrpcPort : ℤ
  xdsAuthToken : Str
  controlPlanePublicHost : Str
  extProcTimeout : Str

/-- `urlparse` of a base URL.  The port raises when it is none. -/
structure BaseUrl where
  scheme : Str
  hostname : Option Str
  port : Option (Option ℤ)

/-! ### Clusters -/

/-- A cluster, which has one endpoint. -/
structure Cluster where
  name : Str
  dnsLookupFamily : Option Str
  /-- `http2_protocol_options`. -/
  http2 : Bool
  address : Str
  port : ℤ
  /-- The server name of its TLS, if it has one. -/
  sni : Option Str

/-- `_channel_cluster_name`. -/
def channelClusterName (channelId : ℤ) : Str := str "ch_" ++ showInt channelId

/-- `_upstream_host_port`.  `none` when it raises. -/
def upstreamHostPort (u : BaseUrl) : Option (Str × ℤ × Bool) :=
  let isTls := u.scheme = str "https"
  u.port.map fun port =>
    ((u.hostname.bind orNone).getD (str "localhost"),
      (port.filter (· ≠ 0)).getD (if isTls then 443 else 80), isTls)

/-- `_is_direct`. -/
def isDirect (channel : RouteChannel) : Bool :=
  channelConnector channel.toChannelIn = str "openai"

/-- `_grpc_cluster`. -/
def grpcCluster (name host : Str) (port : ℤ) : Cluster :=
  ⟨name, some (str "V4_PREFERRED"), true, host, port, none⟩

/-- The cluster of a channel. -/
def channelCluster (urlparse : Str → BaseUrl) (channel : RouteChannel) : Option Cluster :=
  (upstreamHostPort (urlparse channel.baseUrl)).map fun u =>
    ⟨channelClusterName channel.id, some (str "V4_ONLY"), false, u.1, u.2.1,
      if u.2.2 then some u.1 else none⟩

/-- `render_cds`. -/
def renderCds (settings : XdsSettings) (urlparse : Str → BaseUrl) (channels : List RouteChannel) :
    Option (List Cluster) :=
  ((channels.filter fun c => c.enabled && isDirect c).mapM (channelCluster urlparse)).map
    fun direct =>
      ⟨str "translator", none, false, settings.internalApiHost, settings.internalApiPort, none⟩ ::
        grpcCluster (str "ext_proc") settings.internalApiHost settings.extProcGrpcPort :: direct

/-- `_control_plane_host`, and the host of `_target_addr`. -/
def controlPlaneHost (settings : XdsSettings) (inst : EnvoyInstance) : Str :=
  match inst.mode with
  | .local_ => str "127.0.0.1"
  | .remote => (orNone settings.controlPlanePublicHost).getD (str "127.0.0.1")

/-- `_render_cds`. -/
def renderNodeCds (settings : XdsSettings) (urlparse : Str → BaseUrl) (inst : EnvoyInstance)
    (channels : List RouteChannel) : Option (List Cluster) :=
  let host := controlPlaneHost settings inst
  (renderCds settings urlparse channels).map fun clusters =>
    (clusters.filter (·.name ≠ str "als")).map fun c =>
      if c.name = str "translator" then { c with address := host, port := settings.apiPort }
      else if c.name = str "ext_proc" then
        { c with address := host, port := settings.extProcGrpcPort }
      else c

/-! ### Routes -/

/-- A route: it matches a prefix of the path, and the cluster header exactly if it says so. -/
structure EnvoyRoute where
  pathPrefix : Str
  clusterHeader : Option Str
  /-- The cluster, or the one that the header names. -/
  cluster : Option Str
  prefixRewrite : Option Str

/-- A `RouteConfiguration` with one virtual host for all domains. -/
structure RouteConfiguration where
  name : Str
  routes : List EnvoyRoute

/-- `render_rds`. -/
def renderRds : RouteConfiguration where
  name := str "llmxy_routes"
  routes := [
    ⟨str "/v1/", some (str "translator"), some (str "translator"),
      some (str "/internal/translate/v1/")⟩,
    ⟨str "/v1/", none, none, none⟩]

/-- A request as a cluster receives it. -/
structure RoutedRequest where
  cluster : Str
  headers : Headers
  deriving DecidableEq

/-- What Envoy makes of a route: does it match the request? -/
def EnvoyRoute.accepts (route : EnvoyRoute) (headers : Headers) : Bool :=
  startsWith route.pathPrefix (headers.getOr (str ":path")) &&
    route.clusterHeader.all fun cluster => headers.get? (str "x-llmxy-cluster") = some cluster

/-- And where does it send it? -/
def EnvoyRoute.send (route : EnvoyRoute) (headers : Headers) : Option RoutedRequest :=
  (route.cluster.or (headers.get? (str "x-llmxy-cluster"))).map fun cluster =>
    ⟨cluster, route.prefixRewrite.elim headers fun rewrite => headers.overwrite
      [(str ":path", rewrite ++ (headers.getOr (str ":path")).drop route.pathPrefix.length)]⟩

/-- The first route that matches. -/
def RouteConfiguration.route (config : RouteConfiguration) (headers : Headers) :
    Option RoutedRequest :=
  (config.routes.find? fun route => route.accepts headers).bind fun route => route.send headers

/-! ### The listener -/

/-- A listener, with the clusters that its filters call and the token that they send. -/
structure Listener where
  name : Str
  address : Str
  port : ℤ
  routeConfigName : Str
  accessLogCluster : Str
  extProcCluster : Str
  extProcTimeout : Str
  initialMetadata : Option Str
  requestHeadersToLog : List Str
  failureModeAllow : Bool

/-- `render_lds`. -/
def renderLds (settings : XdsSettings) (inst : EnvoyInstance) : Listener where
  name := str "llmxy_listener"
  address := str "0.0.0.0"
  port := inst.listenPort
  routeConfigName := str "llmxy_routes"
  accessLogCluster := str "als_cluster"
  extProcCluster := str "ext_proc"
  extProcTimeout := settings.extProcTimeout
  initialMetadata := orNone settings.xdsAuthToken
  requestHeadersToLog := [
    str "x-llmxy-request-id", str "x-llmxy-user-id", str "x-llmxy-api-key-id",
    str "x-llmxy-model-id", str "x-llmxy-user-facing-model", str "x-llmxy-upstream-model",
    str "x-llmxy-provider-type", str "x-llmxy-cluster", str "x-llmxy-resolved-label",
    str "x-llmxy-client-protocol", str "x-llmxy-billed-sync",
    str "x-llmxy-classifier-model-id", str "x-llmxy-classifier-upstream-model",
    str "x-llmxy-classifier-prompt-tokens", str "x-llmxy-classifier-latency-ms",
    str "x-llmxy-classifier-status"]
  failureModeAllow := false

/-- `REMOTE_BIND_LISTEN_PORT`. -/
def remoteBindListenPort : ℤ := 9000

/-- `REMOTE_BIND_ADMIN_PORT`. -/
def remoteBindAdminPort : ℤ := 9001

/-- `_listen_bind_port`. -/
def listenBindPort (inst : EnvoyInstance) : ℤ :=
  match inst.mode with
  | .local_ => inst.listenPort
  | .remote => remoteBindListenPort

/-- `_render_lds`. -/
def renderNodeLds (settings : XdsSettings) (inst : EnvoyInstance) : Listener :=
  { renderLds settings inst with port := listenBindPort inst }

/-! ### The bootstrap -/

/-- `_accepted_tokens`. -/
def acceptedTokens (raw : Str) : List Str :=
  ((raw.splitOn 44).map strip).filter fun t => !t.isEmpty

/-- `check_token`, of each of the three servers. -/
def checkToken (raw : Str) (token : Option Str) : Bool :=
  (acceptedTokens raw).isEmpty || token.any (· ∈ acceptedTokens raw)

/-- `_admin_bind_port`. -/
def adminBindPort (inst : EnvoyInstance) : ℤ :=
  match inst.mode with
  | .local_ => (inst.adminPort.filter (· ≠ 0)).getD remoteBindAdminPort
  | .remote => remoteBindAdminPort

/-- A bootstrap. -/
structure Bootstrap where
  nodeId : Str
  nodeCluster : Str
  adminPort : ℤ
  adsCluster : Str
  initialMetadata : Option Str
  clusters : List Cluster

/-- `render_bootstrap`. -/
def renderBootstrap (settings : XdsSettings) (inst : EnvoyInstance) : Bootstrap :=
  let host := controlPlaneHost settings inst
  { nodeId := inst.nodeId
    nodeCluster := match inst.mode with
      | .local_ => str "llmxy-local"
      | .remote => str "llmxy-remote"
    adminPort := adminBindPort inst
    adsCluster := str "xds_cluster"
    initialMetadata := (acceptedTokens settings.xdsAuthToken).head?
    clusters := [grpcCluster (str "xds_cluster") host settings.xdsGrpcPort,
      grpcCluster (str "als_cluster") host settings.alsGrpcPort] }

/-! ### References -/

section
variable {settings : XdsSettings} {urlparse : Str → BaseUrl} {inst : EnvoyInstance}
  {tables : RouteTables} {clusters : List Cluster} {channels : List RouteChannel}

/-- The channels that get a cluster. -/
def directChannels (channels : List RouteChannel) : List RouteChannel :=
  channels.filter fun c => c.enabled && isDirect c

/-- The clusters that the control plane defines for a node, beside those of the channels. -/
def controlClusters (settings : XdsSettings) (inst : EnvoyInstance) : List Cluster :=
  let host := controlPlaneHost settings inst
  [grpcCluster (str "xds_cluster") host settings.xdsGrpcPort,
    grpcCluster (str "als_cluster") host settings.alsGrpcPort,
    ⟨str "translator", none, false, host, settings.apiPort, none⟩,
    grpcCluster (str "ext_proc") host settings.extProcGrpcPort]

/-- All clusters of a node. -/
def nodeClusters (settings : XdsSettings) (inst : EnvoyInstance) (cds : List Cluster) :
    List Cluster :=
  (renderBootstrap settings inst).clusters ++ cds

/-- The clusters that the resources of a node refer to by name. -/
def referencedClusters (settings : XdsSettings) (inst : EnvoyInstance) : List Str :=
  let lds := renderNodeLds settings inst
  [(renderBootstrap settings inst).adsCluster, lds.accessLogCluster, lds.extProcCluster] ++
    renderRds.routes.flatMap fun route => route.cluster.toList

theorem channelClusterName_ne {name : Str} (h : name.take 3 ≠ str "ch_") (k : ℤ) :
    channelClusterName k ≠ name := by
  rintro rfl
  exact h rfl

theorem name_channelCluster {channel : RouteChannel} {c : Cluster}
    (h : channelCluster urlparse channel = some c) : c.name = channelClusterName channel.id := by
  obtain ⟨u, -, rfl⟩ := Option.map_eq_some_iff.mp h
  rfl

/-- A channel whose base URL has a port, or none. -/
theorem isSome_channelCluster {channel : RouteChannel} :
    (channelCluster urlparse channel).isSome ↔ (urlparse channel.baseUrl).port.isSome := by
  simp [channelCluster, upstreamHostPort]

/-- The clusters that are pushed to a node: those of the control plane, and one for each enabled
channel that is direct. -/
theorem renderNodeCds_eq_some
    (h : renderNodeCds settings urlparse inst channels = some clusters) :
    ∃ direct, (directChannels channels).mapM (channelCluster urlparse) = some direct ∧
      clusters = (controlClusters settings inst).drop 2 ++ direct := by
  simp only [renderNodeCds, renderCds, Option.map_map, Option.map_eq_some_iff] at h
  obtain ⟨direct, hdirect, rfl⟩ := h
  refine ⟨direct, hdirect, ?_⟩
  have hname : ∀ c ∈ direct, ∀ name : Str, name.take 3 ≠ str "ch_" → c.name ≠ name := by
    intro c hc name hname
    obtain ⟨channel, -, hchannel⟩ := exists_of_mem_mapM hdirect hc
    rw [name_channelCluster hchannel]
    exact channelClusterName_ne hname channel.id
  have hkept : direct.filter (·.name ≠ str "als") = direct := by
    refine List.filter_eq_self.mpr fun c hc => decide_eq_true ?_
    exact hname c hc _ (by decide)
  have hplain : direct.map (fun c =>
      if c.name = str "translator" then
        { c with address := controlPlaneHost settings inst, port := settings.apiPort }
      else if c.name = str "ext_proc" then
        { c with address := controlPlaneHost settings inst, port := settings.extProcGrpcPort }
      else c) = direct := by
    refine (List.map_congr_left fun c hc => ?_).trans (List.map_id direct)
    rw [if_neg (hname c hc _ (by decide)), if_neg (hname c hc _ (by decide))]
    rfl
  dsimp only [Function.comp]
  rw [List.filter_cons_of_pos rfl, List.filter_cons_of_pos rfl, hkept,
    List.map_cons, List.map_cons, hplain]
  rfl

/-- **When a node can be configured**: it cannot as long as one enabled direct channel has a base
URL whose port raises, whatever the node. -/
theorem renderNodeCds_isSome_iff :
    (renderNodeCds settings urlparse inst channels).isSome ↔
      ∀ c ∈ channels, c.enabled = true → isDirect c = true →
        (urlparse c.baseUrl).port.isSome := by
  simp only [renderNodeCds, renderCds, Option.isSome_map, isSome_mapM_iff, isSome_channelCluster,
    List.mem_filter, Bool.and_eq_true, and_imp]

/-- A name that is a cluster's is the name of one. -/
structure ConfigClosed (settings : XdsSettings) (inst : EnvoyInstance) (clusters : List Cluster) :
    Prop where
  /-- No two clusters have one name. -/
  nodup : ((nodeClusters settings inst clusters).map (·.name)).Nodup
  /-- What is referred to is a cluster of the control plane, as it is for this node. -/
  defined : ∀ name ∈ referencedClusters settings inst,
    ∃ c ∈ nodeClusters settings inst clusters, c.name = name ∧ c ∈ controlClusters settings inst
  /-- The routes are those that the listener asks for. -/
  routes : (renderNodeLds settings inst).routeConfigName = renderRds.name

/-- **A node is configured consistently.**  Whatever channels there are, the clusters of the
bootstrap and those that are pushed have distinct names, and every cluster that the bootstrap, the
listener or a route refers to is one of them, at the address that the node dials. -/
theorem rendered_closed (settings : XdsSettings) (urlparse : Str → BaseUrl) (inst : EnvoyInstance)
    (channels : Table RouteChannel) (clusters : List Cluster)
    (h : renderNodeCds settings urlparse inst channels.rows = some clusters) :
    ConfigClosed settings inst clusters := by
  obtain ⟨direct, hdirect, rfl⟩ := renderNodeCds_eq_some h
  have hall : nodeClusters settings inst ((controlClusters settings inst).drop 2 ++ direct) =
      controlClusters settings inst ++ direct := rfl
  have hnames : direct.map (·.name) =
      (directChannels channels.rows).map fun c => channelClusterName c.id :=
    map_of_mapM (fun _ _ => name_channelCluster) hdirect
  have hcontrol : (controlClusters settings inst).map (·.name) =
      [str "xds_cluster", str "als_cluster", str "translator", str "ext_proc"] := rfl
  refine ⟨?_, ?_, rfl⟩
  · have hids : ((directChannels channels.rows).map rowId).Nodup :=
      channels.nodup.sublist (List.filter_sublist.map rowId)
    have hdirectNames : (direct.map (·.name)).Nodup := by
      have hcomp : (fun c : RouteChannel => channelClusterName c.id) =
          channelClusterName ∘ rowId := rfl
      rw [hnames, hcomp, ← List.map_map]
      exact hids.map fun _ _ h => showInt_injective (List.append_cancel_left h)
    rw [hall, List.map_append, List.nodup_append, hcontrol]
    refine ⟨by decide, hdirectNames, fun name hname other hother => ?_⟩
    rw [hnames] at hother
    obtain ⟨channel, -, rfl⟩ := List.mem_map.mp hother
    refine (channelClusterName_ne ?_ channel.id).symm
    revert name
    decide
  · rw [hall]
    intro name hname
    have hreferenced : referencedClusters settings inst =
        [str "xds_cluster", str "als_cluster", str "ext_proc", str "translator"] := rfl
    have hmem : name ∈ (controlClusters settings inst).map (·.name) := by
      rw [hreferenced] at hname
      rw [hcontrol]
      revert name
      decide
    obtain ⟨c, hc, rfl⟩ := List.mem_map.mp hmem
    exact ⟨c, List.mem_append_left _ hc, rfl, hc⟩

end

/-! ### The tokens of a node -/

/-- A piece has no separator in it. -/
theorem not_mem_of_mem_splitOn {c : ℕ} {s piece : Str} (h : piece ∈ s.splitOn c) : c ∉ piece := by
  induction s generalizing piece with
  | nil =>
      rw [List.splitOn_nil, List.mem_singleton] at h
      rw [h]
      exact List.not_mem_nil
  | cons x s ih =>
      rw [List.splitOn_cons_eq_if_modifyHead] at h
      split_ifs at h with hx
      · obtain rfl | h := List.mem_cons.mp h
        · exact List.not_mem_nil
        · exact ih h
      · cases hpieces : s.splitOn c with
        | nil => exact absurd hpieces (List.splitOn_ne_nil c s)
        | cons first pieces =>
            rw [hpieces, List.modifyHead_cons] at h
            have hfirst : c ∉ first := ih (by rw [hpieces]; exact List.mem_cons_self)
            obtain rfl | h := List.mem_cons.mp h
            · rw [List.mem_cons, not_or]
              exact ⟨fun heq => hx (by simp [heq]), hfirst⟩
            · exact ih (by rw [hpieces]; exact List.mem_cons_of_mem _ h)

/-- A text that is one of the tokens it lists is one token. -/
theorem mem_acceptedTokens_self {raw : Str} :
    raw ∈ acceptedTokens raw ↔ raw ≠ [] ∧ 44 ∉ raw ∧ strip raw = raw := by
  simp only [acceptedTokens, List.mem_filter, List.mem_map, Bool.not_eq_true',
    List.isEmpty_eq_false_iff]
  constructor
  · rintro ⟨⟨piece, hpiece, hstrip⟩, hne⟩
    have hcomma : 44 ∉ raw := by
      intro hmem
      rw [← hstrip] at hmem
      exact not_mem_of_mem_splitOn hpiece ((mem_strip rfl).mp hmem)
    rw [List.splitOn_eq_singleton hcomma, List.mem_singleton] at hpiece
    exact ⟨hne, hcomma, by rw [← hpiece, hstrip, hpiece]⟩
  · rintro ⟨hne, hcomma, hstrip⟩
    refine ⟨⟨raw, ?_, hstrip⟩, hne⟩
    rw [List.splitOn_eq_singleton hcomma]
    exact List.mem_singleton_self raw

/-- **Which calls of a node are accepted.**  The stream of its configuration always is, with the
first of the tokens.  The calls of its filters, for the external processor and for the access log,
carry the setting as it is written: they are accepted only when that is a single token, or
none. -/
theorem calls_accepted_iff (settings : XdsSettings) (inst : EnvoyInstance) :
    checkToken settings.xdsAuthToken (renderBootstrap settings inst).initialMetadata = true ∧
      (checkToken settings.xdsAuthToken (renderNodeLds settings inst).initialMetadata = true ↔
        acceptedTokens settings.xdsAuthToken = [] ∨
          44 ∉ settings.xdsAuthToken ∧ strip settings.xdsAuthToken = settings.xdsAuthToken) := by
  constructor
  · rw [renderBootstrap, checkToken]
    dsimp only
    cases acceptedTokens settings.xdsAuthToken with
    | nil => rfl
    | cons token tokens => simp
  · have hlds : (renderNodeLds settings inst).initialMetadata = orNone settings.xdsAuthToken := rfl
    rw [hlds, checkToken, Bool.or_eq_true, List.isEmpty_iff]
    refine or_congr_right' fun hany => ?_
    have hne : settings.xdsAuthToken ≠ [] := by
      intro hnil
      rw [hnil] at hany
      exact hany rfl
    have hsome : orNone settings.xdsAuthToken = some settings.xdsAuthToken :=
      if_neg (by simpa using hne)
    rw [hsome, Option.any_some, decide_eq_true_iff, mem_acceptedTokens_self]
    exact and_iff_right hne

/-! ### One channel -/

/-- The settings as they come, with two tokens. -/
def rotatingSettings : XdsSettings where
  apiPort := 8000
  internalApiHost := str "127.0.0.1"
  internalApiPort := 8000
  alsGrpcPort := 8002
  xdsGrpcPort := 8003
  extProcGrpcPort := 8004
  xdsAuthToken := str "old, new"
  controlPlanePublicHost := str "10.0.0.1"
  extProcTimeout := str "15s"

/-- A remote instance. -/
def remoteInstance : EnvoyInstance where
  id := 1
  name := str "edge"
  mode := .remote
  nodeId := str "llmxy-edge"
  listenPort := 30000
  adminPort := some 30001
  adminUrl := none

theorem rendered_closed_one :
    ∃ clusters, renderNodeCds rotatingSettings
        (fun _ => ⟨str "https", some (str "u"), some none⟩) remoteInstance
        [⟨⟨⟨str "openai.chat", str "openai", str "https://u"⟩, 1⟩, true⟩] = some clusters ∧
      ConfigClosed rotatingSettings remoteInstance clusters := by
  have hrender : renderNodeCds rotatingSettings
      (fun _ => ⟨str "https", some (str "u"), some none⟩) remoteInstance
      [⟨⟨⟨str "openai.chat", str "openai", str "https://u"⟩, 1⟩, true⟩] = some _ := rfl
  exact ⟨_, hrender, rendered_closed _ _ _ (.single _) _ hrender⟩

/-- While two tokens are accepted, the filters of a node are refused. -/
example : checkToken rotatingSettings.xdsAuthToken
    (renderNodeLds rotatingSettings remoteInstance).initialMetadata = false := by decide

end Llmxy
