import Llmxy.Admin.Catalog

/-!
# Accepted models can be served

The admin API checks a model against the connector of its channel, and a channel that is
changed against its models.  The relay resolves protocol and connector on its own, by another
route.  They agree but for one spelling: an override of blanks on a model without a kind is
none to the check, and the protocol of OpenAI chats to the relay.

## Main definitions

* `AllServable` — the relay supports every model over its channel.
* `NoBlankOverride` — a request that keeps it so.
* `allServable_iff` — when it is so in every state of a run.
-/

namespace Llmxy.Admin

/-- Every model can be served over its channel. -/
def AllServable (cat : Catalog) : Prop :=
  ∀ m ∈ cat.models.rows, ∀ channel ∈ cat.channels.rows, channel.id = m.channelId →
    Servable m.toModelIn channel.toChannelIn

instance (cat : Catalog) : Decidable (AllServable cat) :=
  inferInstanceAs (Decidable (∀ m ∈ cat.models.rows, ∀ channel ∈ cat.channels.rows, _ → _))

/-- The override is there, and blank. -/
def BlankOverride (req : ModelIn) : Prop :=
  textOr [] req.upstreamProtocol ≠ [] ∧ ∀ c ∈ textOr [] req.upstreamProtocol, isSpace c = true

/-- A model without a kind and with a blank override is on a channel whose connector speaks the
protocol of OpenAI chats. -/
def SpeaksBlank (channels : SerialTable Channel) (req : ModelIn) : Prop :=
  req.kind = [] → BlankOverride req → ∀ channel ∈ channels.rows, channel.id = req.channelId →
    connectorSupportsProtocol (some (channelConnector channel.toChannelIn)) (some openaiChat) = true

/-- A model that is written is so. -/
def WritesSpoken (cat : Catalog) : CatalogLabel → Prop
  | .createModel req | .updateModel _ req => SpeaksBlank cat.channels req
  | _ => True

/-- A request that is not refused writes so. -/
def NoBlankOverride (cat : Catalog) (l : CatalogLabel) : Prop := l.Accepted cat → WritesSpoken cat l

/-- What the validations of the channels see to. -/
structure SoundChannel (channel : ChannelIn) : Prop where
  protocol : channel.providerType ∈ chatProtocols
  connector : channel.connectorType ∈ supportedConnectors
  supports : connectorSupportsProtocol (some channel.connectorType) (some channel.providerType) =
    true

/-- The override of a model without a kind is one of a chat, or blank. -/
def SoundOverride (req : ModelIn) : Prop :=
  req.kind = [] → ∀ s, req.upstreamProtocol = some s → s ≠ [] →
    normalizeProtocol (some s) = [] ∨ normalizeProtocol (some s) ∈ chatProtocols

/-- What every request keeps: the channels are sound, and every model was accepted for a channel
that was there. -/
structure SoundCatalog (cat : Catalog) : Prop where
  channels : ∀ channel ∈ cat.channels.rows, SoundChannel channel.toChannelIn
  channelId : ∀ m ∈ cat.models.rows, m.channelId < cat.channels.nextId
  override : ∀ m ∈ cat.models.rows, SoundOverride m.toModelIn

/-! ### A model and its channel -/

section
variable {channel : ChannelIn} {req : ModelIn}

/-- A sound channel has the connector that was chosen, or Azure's in place of OpenAI's. -/
theorem channelConnector_sound (h : SoundChannel channel) :
    channelConnector channel = channel.connectorType ∨
      channelConnector channel = str "azure_openai" ∧ channel.connectorType = str "openai" := by
  have hconnector := normalizeConnector_supported _ h.connector
  have hprovider : ∀ p ∈ chatProtocols,
      strip (lower p) ∉ [str "azure", str "azure_openai", str "azure-openai"] := by decide +kernel
  have hnonempty : ∀ c ∈ supportedConnectors, c.isEmpty = false := by decide
  simp only [channelConnector, hconnector]
  rw [if_neg fun hazure => hprovider _ h.protocol hazure.1]
  split_ifs with hbase
  · exact .inr ⟨rfl, hbase.1⟩
  · refine .inl ?_
    rw [textOr, hnonempty _ h.connector]
    exact hconnector

/-- A sound channel supports what its connector does. -/
theorem supports_channelConnector (h : SoundChannel channel) (protocol kind : Option Str) :
    connectorSupportsProtocol (some (channelConnector channel)) protocol =
        connectorSupportsProtocol (some channel.connectorType) protocol ∧
      connectorSupportsKind (some (channelConnector channel)) kind =
        connectorSupportsKind (some channel.connectorType) kind := by
  obtain heq | ⟨hazure, hopenai⟩ := channelConnector_sound h
  · rw [heq]
    exact ⟨rfl, rfl⟩
  · rw [hazure, hopenai]
    exact azure_supports protocol kind

theorem supports_blank (connectorType : Option Str) :
    connectorSupportsProtocol connectorType (some []) =
      connectorSupportsProtocol connectorType (some openaiChat) :=
  connectorSupportsProtocol_congr connectorType
    (normalizeProtocol_nil.trans (normalizeProtocol_chat (by decide)).symm)

/-- An override is there, or the model inherits. -/
theorem textOr_cases (value : Option Str) :
    (∀ default, textOr default value = default) ∨ ∃ s, value = some s ∧ s ≠ [] := by
  cases value with
  | none => exact .inl fun _ => rfl
  | some s =>
      by_cases hs : s = []
      · subst hs
        exact .inl textOr_nil
      · exact .inr ⟨s, rfl, hs⟩

/-- **What was validated can be served**, but for a blank override of a model without a kind:
the relay takes that for OpenAI's. -/
theorem servable_iff_of_validated
    (hproto : connectorSupportsProtocol (some (channelConnector channel))
      (some (validatedProtocol req channel)) = true)
    (hkind : connectorSupportsKind (some (channelConnector channel)) (some req.kind) = true) :
    Servable req channel ↔ (req.kind = [] → BlankOverride req →
      connectorSupportsProtocol (some (channelConnector channel)) (some openaiChat) = true) := by
  have hservable : Servable req channel ↔ connectorSupportsProtocol
      (some (channelConnector channel)) (some (resolveUpstreamProtocol req channel)) = true :=
    ⟨fun h => h.1, fun h => ⟨h, hkind⟩⟩
  rw [hservable]
  obtain hnone | ⟨s, hs, hne⟩ := textOr_cases req.upstreamProtocol
  · have hresolve : resolveUpstreamProtocol req channel = validatedProtocol req channel := by
      simp [resolveUpstreamProtocol, validatedProtocol, hnone]
    rw [hresolve]
    exact iff_of_true hproto fun _ hblank => absurd (hnone []) hblank.1
  have htext : textOr [] req.upstreamProtocol = s := hs ▸ textOr_of_ne hne []
  have hresolve : resolveUpstreamProtocol req channel =
      normalizeProtocolFor (some s) (some req.kind) := by
    simp [resolveUpstreamProtocol, htext, hne]
  by_cases hoverride : normalizeProtocolFor (some s) (some req.kind) = []
  · have hkind : req.kind = [] := by
      by_contra hkind
      exact normalizeProtocolFor_ne_nil _ hkind hoverride
    have hblank : BlankOverride req := by
      rw [hkind, normalizeProtocolFor_nil] at hoverride
      rw [BlankOverride, htext]
      exact ⟨hne, rawProtocol_eq_nil.mp (normalizeProtocol_eq_nil.mp hoverride).2⟩
    rw [hresolve, hoverride, supports_blank]
    exact ⟨fun h _ _ => h, fun h => h hkind hblank⟩
  · have hvalidated : validatedProtocol req channel =
        normalizeProtocolFor (some s) (some req.kind) := by
      simp [validatedProtocol, hne, hs, textOr_of_ne, hoverride]
    rw [hresolve, ← hvalidated]
    refine iff_of_true hproto fun hnokind hblank => ?_
    rw [BlankOverride, htext] at hblank
    rw [hnokind, normalizeProtocolFor_nil] at hoverride
    exact absurd (normalizeProtocol_eq_nil.mpr ⟨hne, rawProtocol_eq_nil.mpr hblank.2⟩) hoverride

/-- **A channel that is changed** can serve the models that were checked with it. -/
theorem servable_of_modelFits {m : Model} (hsound : SoundChannel channel)
    (hfits : modelFits channel.providerType channel.connectorType m = true)
    (hoverride : SoundOverride m.toModelIn) : Servable m.toModelIn channel := by
  simp only [modelFits, Bool.and_eq_true, decide_eq_true_eq] at hfits
  obtain ⟨⟨-, hproto⟩, hkind⟩ := hfits
  obtain ⟨hsupports, hkinds⟩ := supports_channelConnector hsound
    (some (resolveUpstreamProtocol m.toModelIn channel)) (some m.kind)
  have hnonempty : ∀ p ∈ chatProtocols, p ≠ [] := by decide
  have hprovider := hnonempty _ hsound.protocol
  have hinherit : channelProtocol channel (some m.kind) =
      normalizeProtocolFor (some channel.providerType) (some m.kind) := by
    rw [channelProtocol, textOr_of_ne hprovider]
  rw [Servable, resolveConnectorType, hsupports, hkinds]
  have hresolve : ∀ kind s, m.upstreamProtocol = some s → s ≠ [] → m.kind = kind →
      resolveUpstreamProtocol m.toModelIn channel = normalizeProtocolFor (some s) (some kind) := by
    rintro kind s hs hne rfl
    simp [resolveUpstreamProtocol, hs, textOr_of_ne, hne]
  have hinherits : (∀ default, textOr default m.upstreamProtocol = default) →
      resolveUpstreamProtocol m.toModelIn channel =
        normalizeProtocolFor (some channel.providerType) (some m.kind) := by
    intro hnone
    simp [resolveUpstreamProtocol, hnone, hinherit]
  by_cases hk : m.kind = []
  · rw [hk, textOr_nil] at hproto hkind
    refine ⟨?_, hk ▸ hkind⟩
    obtain hnone | ⟨s, hs, hne⟩ := textOr_cases m.upstreamProtocol
    · rw [hinherits hnone, hk, normalizeProtocolFor_nil, normalizeProtocol_chat hsound.protocol]
      exact hsound.supports
    · rw [hresolve [] s hs hne hk, normalizeProtocolFor_nil]
      rw [hs, textOr_of_ne hne, normalizeProtocolFor_kind _ (by decide)] at hproto
      obtain hnil | hchat := hoverride hk s hs hne
      · rw [hnil] at hproto ⊢
        rw [supports_blank]
        have hdefault : protocolForKind (some []) (some (str "chat")) = openaiChat := by
          decide +kernel
        rw [hdefault] at hproto
        exact hproto
      · rw [protocolForKind_chat hchat] at hproto
        exact hproto
  · rw [textOr_of_ne hk] at hproto hkind
    refine ⟨?_, hkind⟩
    obtain hnone | ⟨s, hs, hne⟩ := textOr_cases m.upstreamProtocol
    · rw [hnone] at hproto
      rw [hinherits hnone]
      exact hproto
    · rw [hs, textOr_of_ne hne] at hproto
      rw [hresolve m.kind s hs hne rfl]
      exact hproto

end

/-! ### Requests -/

section
variable {cat after : Catalog} {l : CatalogLabel}

/-- An accepted model has a channel, and a sound override. -/
theorem sound_of_validated {req : ModelIn} (h : validateModelProtocol cat.channels req = .ok ()) :
    req.channelId < cat.channels.nextId ∧ SoundOverride req := by
  obtain ⟨channel, hget, hallowed, -⟩ := validateModelProtocol_ok.mp h
  refine ⟨SerialTable.lt_of_get? hget, fun hkind s hs hne => ?_⟩
  by_cases hnil : normalizeProtocol (some s) = []
  · exact .inl hnil
  · right
    have hvalidated : validatedProtocol req channel.toChannelIn = normalizeProtocol (some s) := by
      simp [validatedProtocol, hs, textOr_of_ne, hne, hkind, normalizeProtocolFor_nil, hnil]
    rw [hvalidated, hkind] at hallowed
    exact hallowed

/-- An accepted channel is sound. -/
theorem soundChannel_of_validated {req : ChannelIn} {protocol connector : Str}
    (hprotocol : validateChannelProtocol req.providerType = .ok protocol)
    (hconnector : validateConnector req.connectorType protocol = .ok connector) :
    SoundChannel ⟨protocol, connector, req.baseUrl⟩ := by
  obtain ⟨hsupported, hsupports⟩ := validateConnector_ok hconnector
  exact ⟨(validateChannelProtocol_ok.mp hprotocol).2, hsupported, hsupports⟩

theorem soundCatalog_step (h : SoundCatalog cat) (hstep : cat.step l = some after) :
    SoundCatalog after := by
  obtain hok | ⟨rfl, -⟩ := Catalog.step_eq_some.mp hstep
  swap
  · exact h
  cases l with
  | createRoute req =>
      obtain ⟨-, scope, rfl⟩ := Catalog.createRoute_ok hok
      exact ⟨h.channels, h.channelId, h.override⟩
  | updateRoute rid req =>
      obtain ⟨-, -, scope, rfl⟩ := Catalog.updateRoute_ok hok
      exact ⟨h.channels, h.channelId, h.override⟩
  | createModel req =>
      obtain ⟨hvalid, rfl⟩ := Catalog.createModel_ok hok
      obtain ⟨hchannel, hoverride⟩ := sound_of_validated hvalid
      refine ⟨h.channels, fun m hm => ?_, fun m hm => ?_⟩
      · obtain hm | rfl := (SerialTable.mem_insert fun _ => rfl).mp hm
        · exact h.channelId m hm
        · exact hchannel
      · obtain hm | rfl := (SerialTable.mem_insert fun _ => rfl).mp hm
        · exact h.override m hm
        · exact hoverride
  | updateModel mid req =>
      obtain ⟨hvalid, -, rfl⟩ := Catalog.updateModel_ok hok
      obtain ⟨hchannel, hoverride⟩ := sound_of_validated hvalid
      refine ⟨h.channels, fun m hm => ?_, fun m hm => ?_⟩
      · obtain ⟨r, hr, rfl⟩ := SerialTable.mem_update.mp hm
        split_ifs
        · exact hchannel
        · exact h.channelId r hr
      · obtain ⟨r, hr, rfl⟩ := SerialTable.mem_update.mp hm
        split_ifs
        · exact hoverride
        · exact h.override r hr
  | deleteModel mid =>
      obtain rfl := Catalog.deleteModel_ok hok
      exact ⟨h.channels, fun m hm => h.channelId m (SerialTable.mem_delete.mp hm).1,
        fun m hm => h.override m (SerialTable.mem_delete.mp hm).1⟩
  | createChannel req =>
      obtain ⟨protocol, connector, hprotocol, hconnector, rfl⟩ := Catalog.createChannel_ok hok
      refine ⟨fun channel hchannel => ?_,
        fun m hm => (h.channelId m hm).trans (Int.lt_succ _), h.override⟩
      obtain hchannel | rfl := (SerialTable.mem_insert fun _ => rfl).mp hchannel
      · exact h.channels channel hchannel
      · exact soundChannel_of_validated hprotocol hconnector
  | updateChannel cid req =>
      obtain ⟨protocol, connector, hprotocol, hconnector, -, rfl⟩ := Catalog.updateChannel_ok hok
      refine ⟨fun channel hchannel => ?_, h.channelId, h.override⟩
      obtain ⟨r, hr, rfl⟩ := SerialTable.mem_update.mp hchannel
      split_ifs
      · exact soundChannel_of_validated hprotocol hconnector
      · exact h.channels r hr

/-- An accepted model can be served exactly when it is not the blank one. -/
theorem servable_written {req : ModelIn} (hvalid : validateModelProtocol cat.channels req = .ok ()) :
    (∀ channel ∈ cat.channels.rows, channel.id = req.channelId →
        Servable req channel.toChannelIn) ↔ SpeaksBlank cat.channels req := by
  obtain ⟨channel, hget, -, hproto, hkind⟩ := validateModelProtocol_ok.mp hvalid
  obtain ⟨hmem, hid⟩ := SerialTable.get?_eq_some.mp hget
  have honly : ∀ other ∈ cat.channels.rows, other.id = req.channelId → other = channel :=
    fun other hother hid' => Option.some.inj
      ((SerialTable.get?_eq_some.mpr ⟨hother, hid'⟩).symm.trans hget)
  have hiff := servable_iff_of_validated hproto hkind
  constructor
  · intro hall hnokind hblank other hother hid'
    obtain rfl := honly other hother hid'
    exact hiff.mp (hall other hother hid') hnokind hblank
  · intro hspeaks other hother hid'
    obtain rfl := honly other hother hid'
    exact hiff.mpr fun hnokind hblank => hspeaks hnokind hblank other hother hid'

/-- **One request** keeps every model servable exactly when it writes no blank override that
the connector of the channel does not speak. -/
theorem allServable_step_iff (hsound : SoundCatalog cat) (h : AllServable cat)
    (hstep : cat.step l = some after) : AllServable after ↔ NoBlankOverride cat l := by
  obtain hok | ⟨rfl, e, herror⟩ := Catalog.step_eq_some.mp hstep
  swap
  · refine iff_of_true h ?_
    rintro ⟨_, hok⟩
    cases herror.symm.trans hok
  rw [NoBlankOverride, forall_prop_of_true ⟨after, hok⟩]
  cases l with
  | createRoute req =>
      obtain ⟨-, scope, rfl⟩ := Catalog.createRoute_ok hok
      exact iff_of_true h trivial
  | updateRoute rid req =>
      obtain ⟨-, -, scope, rfl⟩ := Catalog.updateRoute_ok hok
      exact iff_of_true h trivial
  | createModel req =>
      obtain ⟨hvalid, rfl⟩ := Catalog.createModel_ok hok
      refine Iff.trans ⟨fun hall channel => ?_, fun hnew m hm channel => ?_⟩
        (servable_written hvalid)
      · exact hall _ ((SerialTable.mem_insert fun _ => rfl).mpr (.inr rfl)) channel
      · obtain hm | rfl := (SerialTable.mem_insert fun _ => rfl).mp hm
        · exact h m hm channel
        · exact hnew channel
  | updateModel mid req =>
      obtain ⟨hvalid, ⟨m, hget⟩, rfl⟩ := Catalog.updateModel_ok hok
      obtain ⟨hm, hid⟩ := SerialTable.get?_eq_some.mp hget
      refine Iff.trans ⟨fun hall channel => ?_, fun hnew m' hm' channel => ?_⟩
        (servable_written hvalid)
      · exact hall _ (SerialTable.mem_update.mpr ⟨m, hm, if_pos hid⟩) channel
      · obtain ⟨r, hr, rfl⟩ := SerialTable.mem_update.mp hm'
        split_ifs
        · exact hnew channel
        · exact h r hr channel
  | deleteModel mid =>
      obtain rfl := Catalog.deleteModel_ok hok
      exact iff_of_true (fun m hm => h m (SerialTable.mem_delete.mp hm).1) trivial
  | createChannel req =>
      obtain ⟨protocol, connector, -, -, rfl⟩ := Catalog.createChannel_ok hok
      refine iff_of_true (fun m hm channel hchannel hid => ?_) trivial
      obtain hchannel | rfl := (SerialTable.mem_insert fun _ => rfl).mp hchannel
      · exact h m hm channel hchannel hid
      · exact absurd hid (hsound.channelId m hm).ne'
  | updateChannel cid req =>
      obtain ⟨protocol, connector, hprotocol, hconnector, hmodels, rfl⟩ :=
        Catalog.updateChannel_ok hok
      refine iff_of_true (fun m hm channel hchannel hid => ?_) trivial
      obtain ⟨r, hr, rfl⟩ := SerialTable.mem_update.mp hchannel
      split_ifs at hid ⊢ with hrid
      · have hfits := validateChannelModels_ok.mp hmodels m hm (hid.symm.trans hrid)
        exact servable_of_modelFits (soundChannel_of_validated hprotocol hconnector) hfits
          (hsound.override m hm)
      · exact h m hm r hr hid

/-- **Every accepted configuration can be served**, in every state of a run from an empty
catalog, exactly when no accepted model without a kind has a blank override on a channel whose
connector does not speak the protocol of OpenAI chats. -/
theorem allServable_iff (labels : List CatalogLabel) :
    (∀ prefixes cat, prefixes <+: labels → run Catalog.step prefixes .empty = some cat →
        AllServable cat) ↔
      Along Catalog.step NoBlankOverride labels .empty := by
  refine forall_prefix_iff_along (J := SoundCatalog) (I := AllServable)
    (fun _ _ _ hJ hstep => soundCatalog_step hJ hstep) ?_
    (fun _ _ _ hJ hI hstep => allServable_step_iff hJ hI hstep) labels ?_ ?_
  · intro cat l hstuck
    rw [Catalog.step] at hstuck
    split at hstuck <;> cases hstuck
  · exact ⟨fun _ h => (by cases h), fun _ h => (by cases h), fun _ h => (by cases h)⟩
  · exact fun _ h => by cases h

end

/-- A channel of Anthropic. -/
def anthropicChannel : ChannelIn where
  providerType := str "anthropic"
  connectorType := str "anthropic"
  baseUrl := str "https://api.anthropic.com"

/-- A model of that channel without a kind, whose override is a blank. -/
def blankModel : ModelIn where
  code := str "claude"
  channelId := 1
  upstreamModel := str "claude"
  kind := []
  upstreamProtocol := some (str " ")

/-- The model is accepted as one that inherits the protocol of its channel; the relay takes it
for one of OpenAI chats, which the connector does not speak. -/
theorem blank_not_servable :
    (run Catalog.step [.createChannel anthropicChannel, .createModel blankModel] .empty).map
      (fun cat => (cat.models.rows.map fun m => resolveUpstreamProtocol m.toModelIn anthropicChannel,
        decide (AllServable cat))) = some ([[]], false) := by
  decide +kernel

end Llmxy.Admin
