import Llmxy.Envoy.ExtProc
import Llmxy.Lib.Digits
import Llmxy.Lib.Dumps
import Llmxy.Lib.FirstSeen
import Llmxy.Providers.Router

/-!
# The chain of candidates across Envoy

The processor writes the candidates of a route into a header, and those of the first one into
others.  The translator reads the chain back and keeps the pairs that are still enabled in its
own tables.  When none is, it takes the model, the channel and the upstream model of the other
headers, and of these it checks the channel alone.

A header arrives as the processor set it.

## Main definitions

* `ChainChoice` — what the processor writes.
* `loadCandidates` — `_load_candidates`.
* `loadCandidates_hop_iff` — when what is read is what is still enabled.
-/

namespace Llmxy

/-! ### Reading the chain -/

/-- A candidate of the translator. -/
structure ChainCandidate where
  model : Option Admin.Model
  channel : RouteChannel
  upstreamModel : Str

/-- What `_load_candidates` raises. -/
inductive LoadError where
  | valueError
  | http (status : ℕ) (detail : Str)

/-- The ids of an item of the chain: `none` when `int` raises, and no pair when the item is
skipped. -/
def parseChainItem (item : Str) : Option (Option (ℤ × ℤ)) :=
  match partition 58 (strip item) with
  | (modelId, sep, channelId) =>
      if !sep || !isDigit modelId || !isDigit channelId then some none
      else
        (parseInt modelId).bind fun m => (parseInt channelId).map fun c => some (m, c)

/-- The candidate of a pair of ids whose model and channel are enabled. -/
def enabledCandidate (tables : RouteTables) (key : ℤ × ℤ) : Option ChainCandidate :=
  ((tables.models.get? key.1).filter (·.enabled)).bind fun model =>
    ((tables.channels.get? key.2).filter (·.enabled)).map fun channel =>
      ⟨some model, channel, model.upstreamModel⟩

/-- The loop over the items of the chain, with the pairs seen so far. -/
def collectCandidates (tables : RouteTables) :
    List (ℤ × ℤ) → List Str → Except LoadError (List ChainCandidate)
  | _, [] => .ok []
  | seen, item :: items =>
      match parseChainItem item with
      | none => .error .valueError
      | some none => collectCandidates tables seen items
      | some (some key) =>
          if key ∈ seen then collectCandidates tables seen items
          else
            (collectCandidates tables (key :: seen) items).map fun candidates =>
              (enabledCandidate tables key).toList ++ candidates

/-- `_load_channel`. -/
def loadChannel (tables : RouteTables) (channelId : Option Str) : Except LoadError RouteChannel :=
  match channelId.filter isDigit with
  | none => .error (.http 400 (str "missing or invalid x-llmxy-channel-id"))
  | some text =>
      match parseInt text with
      | none => .error .valueError
      | some id =>
          match (tables.channels.get? id).filter (·.enabled) with
          | none => .error (.http 502 (str "channel unavailable"))
          | some channel => .ok channel

/-- The model that the header names, if it names one. -/
def loadModel (tables : RouteTables) (modelId : Option Str) :
    Except LoadError (Option Admin.Model) :=
  match modelId.filter isDigit with
  | none => .ok none
  | some text =>
      match parseInt text with
      | none => .error .valueError
      | some id => .ok (tables.models.get? id)

/-- The candidate of the headers beside the chain. -/
def loadFallback (tables : RouteTables) (modelId channelId upstreamModel : Option Str) :
    Except LoadError (List ChainCandidate) := do
  let channel ← loadChannel tables channelId
  let model ← loadModel tables modelId
  match (upstreamModel.bind orNone).or (model.bind fun m => orNone m.upstreamModel) with
  | none => .error (.http 400 (str "missing x-llmxy-upstream-model"))
  | some upstreamModel => .ok [⟨model, channel, upstreamModel⟩]

/-- `_load_candidates`, for the headers of a chat request. -/
def loadCandidates (tables : RouteTables) (headers : Headers) :
    Except LoadError (List ChainCandidate) :=
  match collectCandidates tables []
    ((headers.getOr (str "x-llmxy-chat-chain")).splitOn 44) with
  | .ok [] =>
      loadFallback tables (headers.get? (str "x-llmxy-model-id"))
        (headers.get? (str "x-llmxy-channel-id")) (headers.get? (str "x-llmxy-upstream-model"))
  | result => result

/-! ### Writing the chain -/

/-- What `_decide` writes: the ids of all candidates are those of rows, and the model and the
channel of the other headers are those of the first one. -/
structure ChainChoice extends RouteChoice where
  head : chain.head? = some (model.id, channelId)
  rowIds : ∀ p ∈ chain, IsRowId p.1 ∧ IsRowId p.2

/-- The choice that a decision of `select_route` gives.  The columns of its model that the
router does not read are in `model`. -/
def ChainChoice.ofDecision {env : RouteEnv EmbeddingUsage} {policy : Admin.RoutePolicy}
    {tables : RouteTables} {ctx : RuleContext} (d : RouteDecision EmbeddingUsage)
    (h : selectRoute env policy tables ctx = some (some d)) (model : Model)
    (hid : model.id = d.model.id) : ChainChoice where
  model := model
  channelId := d.channel.id
  providerType := d.channel.providerType
  connectorType := resolveConnectorType d.model.toModelIn d.channel.toChannelIn
  upstreamProtocol := resolveUpstreamProtocol d.model.toModelIn d.channel.toChannelIn
  chain := d.chain.map fun p => (p.1.id, p.2.id)
  chosenLabel := d.chosenLabel
  embeddingUsage := d.embeddingUsage
  head := by rw [hid]; rfl
  rowIds := by
    intro p hp
    obtain ⟨q, hq, rfl⟩ := List.mem_map.mp hp
    have hserves := (selectRoute_eq_some h).serves q hq
    exact ⟨hserves.isRowId_model, hserves.isRowId_channel⟩

/-- The headers of a chat request as Envoy forwards it. -/
def chatHop (headers : Headers) (key : KeySnapshot) (clientProtocol requestId modelName : Str)
    (r : ChainChoice) : Headers :=
  headers.overwrite
    (routedHeaders key clientProtocol requestId modelName (some (str "chat")) r.toRouteChoice)

section
variable {headers : Headers} {key : KeySnapshot} {clientProtocol requestId modelName : Str}
  {r : ChainChoice} {tables : RouteTables}

/-- A header that was set is the one that arrives. -/
theorem get?_overwrite {set : Headers} {name value : Str} (h : set.get? name = some value) :
    (headers.overwrite set).get? name = some value := by
  rw [Headers.get?, Option.map_eq_some_iff] at h
  obtain ⟨entry, hfind, rfl⟩ := h
  rw [Headers.overwrite, Headers.get?, List.find?_append, hfind]
  rfl

/-- The headers that the translator reads are those that the processor set. -/
theorem get?_chatHop (headers : Headers) (key : KeySnapshot)
    (clientProtocol requestId modelName : Str) (r : ChainChoice) :
    (chatHop headers key clientProtocol requestId modelName r).get?
      (str "x-llmxy-chat-chain") = some (showChain r.chain) ∧
    (chatHop headers key clientProtocol requestId modelName r).get? (str "x-llmxy-model-id") =
      some (showInt r.model.id) ∧
    (chatHop headers key clientProtocol requestId modelName r).get? (str "x-llmxy-channel-id") =
      some (showInt r.channelId) ∧
    (chatHop headers key clientProtocol requestId modelName r).get?
      (str "x-llmxy-upstream-model") = some r.model.upstreamModel.1 :=
  ⟨get?_overwrite rfl, get?_overwrite rfl, get?_overwrite rfl, get?_overwrite rfl⟩

/-! ### The round trip -/

theorem showInt_of_pos {k : ℤ} (h : 0 < k) : showInt k = showNat k.natAbs := by
  rw [showInt, if_neg (by omega)]

theorem isDigit_showInt {k : ℤ} (h : IsRowId k) : isDigit (showInt k) = true := by
  rw [showInt_of_pos h.1]
  exact isDigit_showNat _

theorem parseInt_showInt {k : ℤ} (h : IsRowId k) : parseInt (showInt k) = some k := by
  obtain ⟨hpos, hlt⟩ := h
  have hlen : (showNat k.natAbs).length ≤ 10 := length_showNat_le (by omega) (by omega)
  rw [showInt_of_pos hpos, parseInt_showNat (hlen.trans (by decide))]
  congr 1
  omega

theorem isAsciiDigit_of_mem_showInt {k : ℤ} (h : IsRowId k) {c : ℕ} (hc : c ∈ showInt k) :
    isAsciiDigit c = true := by
  rw [showInt_of_pos h.1] at hc
  exact isAsciiDigit_of_mem_showNat hc

/-- An item of the chain. -/
def showPair (p : ℤ × ℤ) : Str := showInt p.1 ++ str ":" ++ showInt p.2

theorem mem_showPair {p : ℤ × ℤ} (h : IsRowId p.1 ∧ IsRowId p.2) {c : ℕ}
    (hc : c ∈ showPair p) : isAsciiDigit c = true ∨ c = 58 := by
  simp only [showPair, List.mem_append] at hc
  obtain (hc | hc) | hc := hc
  · exact .inl (isAsciiDigit_of_mem_showInt h.1 hc)
  · exact .inr (List.mem_singleton.mp hc)
  · exact .inl (isAsciiDigit_of_mem_showInt h.2 hc)

/-- An item is read back. -/
theorem parseChainItem_showPair {p : ℤ × ℤ} (h : IsRowId p.1 ∧ IsRowId p.2) :
    parseChainItem (showPair p) = some (some p) := by
  have hstrip : strip (showPair p) = showPair p := by
    refine strip_eq_self fun c hc => ?_
    obtain hdigit | rfl := mem_showPair h hc
    · exact isSpace_of_isAsciiDigit hdigit
    · rfl
  have hcolon : 58 ∉ showInt p.1 := by
    intro hmem
    have hbounds := digit_bounds (isAsciiDigit_of_mem_showInt h.1 hmem)
    omega
  have hsplit : partition 58 (showPair p) = (showInt p.1, true, showInt p.2) := by
    rw [showPair, List.append_assoc]
    exact partition_append hcolon
  simp [parseChainItem, hstrip, hsplit, isDigit_showInt h.1, isDigit_showInt h.2,
    parseInt_showInt h.1, parseInt_showInt h.2]

/-- The chain is split into its items. -/
theorem splitOn_showChain {pairs : List (ℤ × ℤ)} (hne : pairs ≠ [])
    (h : ∀ p ∈ pairs, IsRowId p.1 ∧ IsRowId p.2) :
    (showChain pairs).splitOn 44 = pairs.map showPair := by
  refine List.splitOn_intercalate 44 (fun item hitem => ?_) (by simpa using hne)
  obtain ⟨p, hp, rfl⟩ := List.mem_map.mp hitem
  intro hcomma
  obtain hdigit | heq := mem_showPair (h p hp) hcomma
  · have hbounds := digit_bounds hdigit
    omega
  · omega

/-- The items of a chain give the candidates of its pairs, each pair once. -/
theorem collectCandidates_showPair {pairs seen : List (ℤ × ℤ)}
    (h : ∀ p ∈ pairs, IsRowId p.1 ∧ IsRowId p.2) :
    collectCandidates tables seen (pairs.map showPair) =
      .ok ((firstSeenFrom id seen pairs).filterMap (enabledCandidate tables)) := by
  induction pairs generalizing seen with
  | nil => rfl
  | cons p pairs ih =>
      obtain ⟨hp, hpairs⟩ := List.forall_mem_cons.mp h
      rw [List.map_cons, collectCandidates, parseChainItem_showPair hp, firstSeenFrom_cons]
      dsimp only [id]
      split
      · exact ih hpairs
      · rw [ih hpairs, List.filterMap_cons]
        cases enabledCandidate tables p <;> rfl

/-! ### What is still enabled -/

/-- Are the model and the channel of these ids enabled? -/
def stillEnabled (tables : RouteTables) (p : ℤ × ℤ) : Bool :=
  (tables.models.get? p.1).any (·.enabled) && (tables.channels.get? p.2).any (·.enabled)

/-- A candidate has an enabled model and an enabled channel, as the tables are. -/
structure ChainCandidate.Enabled (tables : RouteTables) (candidate : ChainCandidate)
    (m : Admin.Model) : Prop where
  model : candidate.model = some m
  model_row : tables.models.get? m.id = some m
  model_enabled : m.enabled = true
  channel_row : tables.channels.get? candidate.channel.id = some candidate.channel
  channel_enabled : candidate.channel.enabled = true

/-- The ids of a candidate. -/
def ChainCandidate.ids (candidate : ChainCandidate) : Option ℤ × ℤ :=
  (candidate.model.map (·.id), candidate.channel.id)

/-- What is promised of the candidates that are read from a chain: they are enabled, and when
some pair of the chain still is, they are the pairs that are, in their order and each once. -/
structure ChainKept (tables : RouteTables) (pairs : List (ℤ × ℤ))
    (result : Except LoadError (List ChainCandidate)) : Prop where
  enabled : ∀ candidates, result = .ok candidates →
    ∀ candidate ∈ candidates, ∃ m, candidate.Enabled tables m
  kept : (∃ p ∈ pairs, stillEnabled tables p = true) → ∃ candidates, result = .ok candidates ∧
    candidates.map ChainCandidate.ids =
      (firstSeen id (pairs.filter (stillEnabled tables))).map fun p => (some p.1, p.2)

theorem enabledCandidate_isSome (p : ℤ × ℤ) :
    (enabledCandidate tables p).isSome = stillEnabled tables p := by
  rw [enabledCandidate, stillEnabled]
  cases tables.models.get? p.1 with
  | none => rfl
  | some m =>
      cases tables.channels.get? p.2 with
      | none => cases h : m.enabled <;> simp [Option.filter_some, h]
      | some c => cases h : m.enabled <;> cases hc : c.enabled <;> simp [Option.filter_some, h, hc]

/-- The candidate of a pair is the pair, and enabled. -/
theorem enabledCandidate_eq_some {p : ℤ × ℤ} {candidate : ChainCandidate}
    (h : enabledCandidate tables p = some candidate) :
    candidate.ids = (some p.1, p.2) ∧ ∃ m, candidate.Enabled tables m := by
  simp only [enabledCandidate, Option.bind_eq_some_iff, Option.filter_eq_some_iff,
    Option.map_eq_some_iff] at h
  obtain ⟨m, ⟨hm, hon⟩, c, ⟨hc, hup⟩, rfl⟩ := h
  have hmodel : m.id = p.1 := (Table.get?_eq_some.mp hm).2
  have hchannel : c.id = p.2 := (Table.get?_eq_some.mp hc).2
  refine ⟨by simp [ChainCandidate.ids, hmodel, hchannel], m, rfl, ?_, hon, ?_, hup⟩
  · rw [hmodel]
    exact hm
  · rw [hchannel]
    exact hc

/-- The candidates of the pairs of a list are its enabled pairs. -/
theorem map_ids_filterMap (pairs : List (ℤ × ℤ)) :
    (pairs.filterMap (enabledCandidate tables)).map ChainCandidate.ids =
      (pairs.filter (stillEnabled tables)).map fun p => (some p.1, p.2) := by
  induction pairs with
  | nil => rfl
  | cons p pairs ih =>
      rw [List.filterMap_cons, List.filter_cons, ← enabledCandidate_isSome]
      cases h : enabledCandidate tables p with
      | none => simpa using ih
      | some candidate => simp [ih, (enabledCandidate_eq_some h).1]

/-! ### The headers beside the chain -/

theorem loadChannel_showInt {k : ℤ} (h : IsRowId k) :
    loadChannel tables (some (showInt k)) =
      match (tables.channels.get? k).filter (·.enabled) with
      | none => .error (.http 502 (str "channel unavailable"))
      | some channel => .ok channel := by
  simp [loadChannel, Option.filter_some, isDigit_showInt h, parseInt_showInt h]

theorem loadModel_showInt {k : ℤ} (h : IsRowId k) :
    loadModel tables (some (showInt k)) = .ok (tables.models.get? k) := by
  simp [loadModel, Option.filter_some, isDigit_showInt h, parseInt_showInt h]

/-- When what the translator reads is what is still enabled: some pair is, or the other headers
give no candidate, because the channel of the first pair is not enabled or because there is no
upstream model for it. -/
def HopSafe (tables : RouteTables) (r : ChainChoice) : Prop :=
  (∃ p ∈ r.chain, stillEnabled tables p = true) ∨
    (∀ c, tables.channels.get? r.channelId = some c → c.enabled = false) ∨
    r.model.upstreamModel.1 = [] ∧
      ∀ m, tables.models.get? r.model.id = some m → m.upstreamModel = []

theorem orNone_eq_none {s : Str} : orNone s = none ↔ s = [] := by
  cases s <;> simp [orNone]

/-- Where the first pair is not enabled any more, the other headers give a candidate that is not
enabled, unless they give none. -/
theorem loadFallback_kept_iff (hmodel : IsRowId r.model.id) (hchannel : IsRowId r.channelId)
    (hoff : stillEnabled tables (r.model.id, r.channelId) = false) :
    (∀ candidates, loadFallback tables (some (showInt r.model.id)) (some (showInt r.channelId))
        (some r.model.upstreamModel.1) = .ok candidates →
      ∀ candidate ∈ candidates, ∃ m, candidate.Enabled tables m) ↔
    (∀ c, tables.channels.get? r.channelId = some c → c.enabled = false) ∨
      r.model.upstreamModel.1 = [] ∧
        ∀ m, tables.models.get? r.model.id = some m → m.upstreamModel = [] := by
  rw [loadFallback, loadChannel_showInt hchannel, loadModel_showInt hmodel]
  cases hget : (tables.channels.get? r.channelId).filter (·.enabled) with
  | none =>
      rw [Option.filter_eq_none_iff] at hget
      refine iff_of_true (fun candidates h => by cases h) (.inl fun c hc => ?_)
      simpa using hget c hc
  | some channel =>
      obtain ⟨hc, hup⟩ := Option.filter_eq_some_iff.mp hget
      have hdisabled : ∀ m, tables.models.get? r.model.id = some m → m.enabled = false := by
        intro m hm
        simpa [stillEnabled, hm, hc, hup] using hoff
      have hnever : ¬ ∀ c, tables.channels.get? r.channelId = some c → c.enabled = false := by
        intro h
        rw [h channel hc] at hup
        cases hup
      rw [or_iff_right hnever]
      dsimp only [bind, Except.bind]
      cases hup' : (Option.bind (some r.model.upstreamModel.1) orNone).or
          ((tables.models.get? r.model.id).bind fun m => orNone m.upstreamModel) with
      | none =>
          simp only [Option.or_eq_none_iff, Option.bind_some, orNone_eq_none,
            Option.bind_eq_none_iff] at hup'
          exact iff_of_true (fun candidates h => by cases h) hup'
      | some upstream =>
          refine iff_of_false (fun h => ?_) fun h => ?_
          · obtain ⟨m, hm⟩ := h _ rfl _ List.mem_cons_self
            have hrow := hdisabled m hm.model
            rw [hm.model_enabled] at hrow
            cases hrow
          · have hnone : (Option.bind (some r.model.upstreamModel.1) orNone).or
                ((tables.models.get? r.model.id).bind fun m => orNone m.upstreamModel) = none := by
              simp only [Option.or_eq_none_iff, Option.bind_some, orNone_eq_none,
                Option.bind_eq_none_iff]
              exact h
            rw [hnone] at hup'
            cases hup'

/-- **What the translator reads from the chain of the processor** is what is still enabled,
exactly when some pair of the chain is, or the headers beside it give no candidate. -/
theorem loadCandidates_hop_iff (headers : Headers) (key : KeySnapshot)
    (clientProtocol requestId modelName : Str) (r : ChainChoice) (tables : RouteTables) :
    ChainKept tables r.chain
        (loadCandidates tables (chatHop headers key clientProtocol requestId modelName r)) ↔
      HopSafe tables r := by
  obtain ⟨hchain, hmodel, hchannel, hupstream⟩ :=
    get?_chatHop headers key clientProtocol requestId modelName r
  have hfirst : (r.model.id, r.channelId) ∈ r.chain := List.mem_of_head? r.head
  rw [loadCandidates, Headers.getOr, hchain, hmodel, hchannel, hupstream, Option.getD_some,
    splitOn_showChain (List.ne_nil_of_mem hfirst) r.rowIds, collectCandidates_showPair r.rowIds]
  cases hkept : (firstSeenFrom id [] r.chain).filterMap (enabledCandidate tables) with
  | nil =>
      have hoff : ∀ p ∈ r.chain, stillEnabled tables p = false := by
        intro p hp
        have hmem : p ∈ firstSeen id r.chain := (mem_firstSeen fun _ _ _ _ heq => heq).mpr hp
        have hnone := List.filterMap_eq_nil_iff.mp hkept p hmem
        rw [← enabledCandidate_isSome, hnone]
        rfl
      have hno : ¬ ∃ p ∈ r.chain, stillEnabled tables p = true := by
        intro ⟨p, hp, hon⟩
        rw [hoff p hp] at hon
        cases hon
      rw [HopSafe, or_iff_right hno, ← loadFallback_kept_iff (r.rowIds _ hfirst).1
        (r.rowIds _ hfirst).2 (hoff _ hfirst)]
      exact ⟨fun h => h.enabled, fun h => ⟨h, fun hon => absurd hon hno⟩⟩
  | cons candidate candidates =>
      have hmem : ∀ c ∈ candidate :: candidates, ∃ p ∈ r.chain,
          enabledCandidate tables p = some c := by
        intro c hc
        rw [← hkept] at hc
        obtain ⟨p, hp, hsome⟩ := List.mem_filterMap.mp hc
        exact ⟨p, firstSeenFrom_sublist.subset hp, hsome⟩
      refine iff_of_true ⟨fun result hresult c hc => ?_, fun _ => ⟨_, rfl, ?_⟩⟩ (.inl ?_)
      · obtain rfl := Except.ok.inj hresult
        obtain ⟨p, -, hsome⟩ := hmem c hc
        exact (enabledCandidate_eq_some hsome).2
      · have horder : firstSeen id (r.chain.filter (stillEnabled tables)) =
            (firstSeen id r.chain).filter (stillEnabled tables) :=
          firstSeen_filter (stillEnabled tables)
        rw [← hkept, map_ids_filterMap]
        exact congrArg _ horder.symm
      · obtain ⟨p, hp, hsome⟩ := hmem candidate List.mem_cons_self
        exact ⟨p, hp, by rw [← enabledCandidate_isSome, hsome]; rfl⟩

end

/-- One model on one channel. -/
def hopTables (enabled : Bool) : RouteTables where
  models := ⟨[⟨⟨str "m", 1, str "up", str "chat", none, enabled⟩, 1⟩], by simp⟩
  channels := ⟨[⟨⟨⟨str "openai.chat", str "openai", str "u"⟩, 1⟩, true⟩], by simp⟩
  models_id := by simp [IsRowId]
  channels_id := by simp [IsRowId]

/-- A choice of that model. -/
def hopChoice : ChainChoice where
  model := ⟨1, ⟨str "m", by decide⟩, ⟨str "up", by decide⟩, str "chat", 0, 0, true⟩
  channelId := 1
  providerType := str "openai.chat"
  connectorType := str "openai"
  upstreamProtocol := str "openai.chat"
  chain := [(1, 1)]
  chosenLabel := none
  embeddingUsage := none
  head := rfl
  rowIds := by decide

/-- The model was disabled after the processor chose it, and the translator uses it. -/
theorem disabled_model_revived :
    ∃ c, loadCandidates (hopTables false)
        (chatHop [] ⟨1, 1, .active, 0, 0⟩ (str "openai.chat") (str "r") (str "auto") hopChoice) =
          .ok [⟨some ⟨⟨str "m", 1, str "up", str "chat", none, false⟩, 1⟩, c, str "up"⟩] :=
  ⟨⟨⟨⟨str "openai.chat", str "openai", str "u"⟩, 1⟩, true⟩, rfl⟩

end Llmxy
