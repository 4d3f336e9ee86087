import Llmxy.Admin.Schemas
import Llmxy.Protocols.Ids

/-!
# Connectors

Which connector a channel has, which protocol a model of it speaks upstream, and which
protocols and kinds a connector supports.

## Main definitions

* `connectorProtocols`, `connectorKinds`, `connectorAliases` — the tables.
* `channelConnector`, `channelProtocol`, `resolveUpstreamProtocol` — what the relay resolves.
* `connectorSupportsProtocol`, `connectorSupportsKind`.
-/

namespace Llmxy
open Admin

/-- `_CONNECTOR_PROTOCOLS`. -/
def connectorProtocols : List (Str × List Str) := [
  (str "openai", [openaiChat, openaiResponses, openaiEmbeddings, openaiImages]),
  (str "azure_openai", [openaiChat, openaiResponses, openaiEmbeddings, openaiImages]),
  (str "anthropic", [anthropicMessages]),
  (str "gemini", [geminiGenerateContent, geminiEmbeddings, geminiImages])]

/-- `_CONNECTOR_KINDS`. -/
def connectorKinds : List (Str × List Str) := [
  (str "openai", [str "chat", str "embedding", str "image"]),
  (str "azure_openai", [str "chat", str "embedding", str "image"]),
  (str "anthropic", [str "chat"]),
  (str "gemini", [str "chat", str "embedding", str "image"])]

/-- `_CONNECTOR_ALIASES`. -/
def connectorAliases : List (Str × Str) := [
  (str "azure", str "azure_openai"),
  (str "azure-openai", str "azure_openai"),
  (str "openai-compatible", str "openai"),
  (str "openai.chat", str "openai"),
  (str "openai.responses", str "openai"),
  (str "openai.embeddings", str "openai"),
  (str "openai.images", str "openai"),
  (str "anthropic.messages", str "anthropic"),
  (str "gemini.generate_content", str "gemini"),
  (str "gemini.embeddings", str "gemini"),
  (str "gemini.images", str "gemini")]

/-- `SUPPORTED_CONNECTORS`. -/
def supportedConnectors : List Str :=
  [str "openai", str "azure_openai", str "anthropic", str "gemini"]

/-- `normalize_connector`. -/
def normalizeConnector (connectorType : Option Str) : Str :=
  let raw := strip (lower (textOr (str "openai") connectorType))
  (connectorAliases.lookup raw).getD raw

/-- `connector_protocol`. -/
def connectorProtocol (connectorType kind : Option Str) : Str :=
  let connector := normalizeConnector connectorType
  let kind := textOr (str "chat") kind
  if connector = str "anthropic" then anthropicMessages
  else if connector = str "gemini" then protocolForKind (some geminiGenerateContent) (some kind)
  else protocolForKind (some openaiChat) (some kind)

/-- `connector_supports_protocol`. -/
def connectorSupportsProtocol (connectorType protocol : Option Str) : Bool :=
  normalizeProtocol protocol ∈
    (connectorProtocols.lookup (normalizeConnector connectorType)).getD []

/-- `connector_supports_kind`. -/
def connectorSupportsKind (connectorType kind : Option Str) : Bool :=
  textOr (str "chat") kind ∈ (connectorKinds.lookup (normalizeConnector connectorType)).getD []

/-- `channel_connector`. -/
def channelConnector (channel : ChannelIn) : Str :=
  let rawProvider := strip (lower channel.providerType)
  let connector := normalizeConnector (some channel.connectorType)
  if rawProvider ∈ [str "azure", str "azure_openai", str "azure-openai"] ∧
      connector = str "openai" then str "azure_openai"
  else if connector = str "openai" ∧ str ".openai.azure.com" <:+: lower channel.baseUrl then
    str "azure_openai"
  else
    normalizeConnector
      (some (textOr (textOr (str "openai") (some rawProvider)) (some channel.connectorType)))

/-- `channel_protocol`. -/
def channelProtocol (channel : ChannelIn) (kind : Option Str) : Str :=
  let raw := textOr (connectorProtocol (some (channelConnector channel)) kind)
    (some channel.providerType)
  normalizeProtocolFor (some raw) kind

/-- `resolve_connector_type(model, channel)`. -/
def resolveConnectorType (_model : ModelIn) (channel : ChannelIn) : Str := channelConnector channel

/-- `resolve_upstream_protocol(model, channel)`. -/
def resolveUpstreamProtocol (model : ModelIn) (channel : ChannelIn) : Str :=
  let override := textOr [] model.upstreamProtocol
  if override.isEmpty then channelProtocol channel (some model.kind)
  else normalizeProtocolFor (some override) (some model.kind)

/-- The relay can serve a model over its channel. -/
def Servable (model : ModelIn) (channel : ChannelIn) : Prop :=
  connectorSupportsProtocol (some (resolveConnectorType model channel))
      (some (resolveUpstreamProtocol model channel)) = true ∧
    connectorSupportsKind (some (resolveConnectorType model channel)) (some model.kind) = true

instance (model : ModelIn) (channel : ChannelIn) : Decidable (Servable model channel) :=
  inferInstanceAs (Decidable (_ ∧ _))

/-! ### Normal forms -/

theorem normalizeConnector_supported :
    ∀ c ∈ supportedConnectors, normalizeConnector (some c) = c := by
  decide +kernel

/-- Azure speaks and serves what OpenAI does. -/
theorem azure_supports (protocol kind : Option Str) :
    connectorSupportsProtocol (some (str "azure_openai")) protocol =
        connectorSupportsProtocol (some (str "openai")) protocol ∧
      connectorSupportsKind (some (str "azure_openai")) kind =
        connectorSupportsKind (some (str "openai")) kind := by
  have hopenai : normalizeConnector (some (str "openai")) = str "openai" := by decide
  have hazure : normalizeConnector (some (str "azure_openai")) = str "azure_openai" := by decide
  simp only [connectorSupportsProtocol, connectorSupportsKind, hopenai, hazure]
  exact ⟨rfl, rfl⟩

/-- A protocol is supported in whatever spelling. -/
theorem connectorSupportsProtocol_congr (connectorType : Option Str) {p q : Option Str}
    (h : normalizeProtocol p = normalizeProtocol q) :
    connectorSupportsProtocol connectorType p = connectorSupportsProtocol connectorType q := by
  rw [connectorSupportsProtocol, connectorSupportsProtocol, h]

end Llmxy
