import Llmxy.Lib.Binary64
import Llmxy.Lib.FirstSeen
import Llmxy.Providers.SmartRules
import Mathlib.Data.Rat.Cast.Order

/-!
# Selecting a route

`select_route` picks a primary among the targets of a policy and adds the fallback model of the
policy, if that is another one.  The strategy decides which target is picked: one drawn by its
weight, the next one in turn, or one drawn among those that carry the label which the rules or
the classifier give.

The classifier is a parameter, as are the number that is drawn and the cursor.  A draw is made
only when the total of the weights is in the range of the binary64 numbers, and raises otherwise;
a running total beyond that range is infinite, so it exceeds every draw.

## Main definitions

* `RouteTables` — the models and channels of a policy.
* `weightedPick`, `drawnPick`, `roundRobinPick`, `smartPick` — the strategies.
* `selectRoute` — `select_route`.
* `UniformRaises` — a total that is too large for a draw.
* `selectRoute_sound_complete` — when it returns what it is to return.
-/

namespace Llmxy
open Admin

/-! ### Models and channels -/

/-- `channels`, with the switch of the admin API. -/
structure RouteChannel extends Admin.Channel where
  enabled : Bool
  deriving DecidableEq

instance : HasId RouteChannel := ⟨fun c => c.id⟩

/-- An `INTEGER` drawn from a sequence that starts at one. -/
def IsRowId (k : ℤ) : Prop := 0 < k ∧ k < 2 ^ 31

instance (k : ℤ) : Decidable (IsRowId k) := inferInstanceAs (Decidable (_ ∧ _))

/-- Models and channels by their ids. -/
structure RouteTables where
  models : Table Admin.Model
  channels : Table RouteChannel
  models_id : ∀ m ∈ models.rows, IsRowId m.id
  channels_id : ∀ c ∈ channels.rows, IsRowId c.id

namespace RouteTables
variable {tables : RouteTables} {m : Admin.Model} {c : RouteChannel} {modelId : ℤ}

/-- An enabled model on its own channel, which is enabled. -/
structure Serves (tables : RouteTables) (m : Admin.Model) (c : RouteChannel) : Prop where
  model : tables.models.get? m.id = some m
  model_enabled : m.enabled = true
  channel : tables.channels.get? m.channelId = some c
  channel_enabled : c.enabled = true

/-- The model of an id and its channel, if both are enabled. -/
def serving (tables : RouteTables) (modelId : ℤ) : Option (Admin.Model × RouteChannel) :=
  ((tables.models.get? modelId).filter (·.enabled)).bind fun m =>
    ((tables.channels.get? m.channelId).filter (·.enabled)).map fun c => (m, c)

theorem serving_eq_some :
    tables.serving modelId = some (m, c) ↔ m.id = modelId ∧ tables.Serves m c := by
  constructor
  · intro h
    simp only [serving, Option.bind_eq_some_iff, Option.filter_eq_some_iff, Option.map_eq_some_iff,
      Prod.mk.injEq] at h
    obtain ⟨m, ⟨hm, hon⟩, c, ⟨hc, hup⟩, rfl, rfl⟩ := h
    have hid : m.id = modelId := (Table.get?_eq_some.mp hm).2
    exact ⟨hid, by rw [hid]; exact hm, hon, hc, hup⟩
  · intro ⟨hid, h⟩
    subst hid
    simp only [serving, Option.bind_eq_some_iff, Option.filter_eq_some_iff, Option.map_eq_some_iff]
    exact ⟨m, ⟨h.model, h.model_enabled⟩, c, ⟨h.channel, h.channel_enabled⟩, rfl⟩

theorem Serves.isRowId_model (h : tables.Serves m c) : IsRowId m.id :=
  tables.models_id m (Table.get?_eq_some.mp h.model).1

theorem Serves.isRowId_channel (h : tables.Serves m c) : IsRowId c.id :=
  tables.channels_id c (Table.get?_eq_some.mp h.channel).1

end RouteTables

/-! ### Targets -/

/-- A target with its model and channel. -/
structure RoutePair where
  model : Admin.Model
  channel : RouteChannel
  target : RouteTarget
  deriving DecidableEq

/-- `DEFAULT_TARGET_LABEL`. -/
def defaultTargetLabel : Str := str "default"

/-- `_ordered_targets`. -/
def orderedTargets (policy : Admin.RoutePolicy) (tables : RouteTables) : List RoutePair :=
  policy.targets.filterMap fun t => (tables.serving t.modelId).map fun p => ⟨p.1, p.2, t⟩

/-- `_target_label`. -/
def targetLabel (t : RouteTarget) : Str :=
  match t.label with
  | none => defaultTargetLabel
  | some label => (orNone (strip label)).getD defaultTargetLabel

/-! ### Strategies -/

/-- The loop of `_weighted_pick`: the first pair whose running total reaches the draw. -/
def pickReaching (draw : ℚ) {α : Type} (weight : α → ℤ) : ℕ → List α → Option α
  | _, [] => none
  | accumulated, p :: pairs =>
      let accumulated := addBinary64 accumulated (weight p).toNat
      if draw ≤ accumulated then some p else pickReaching draw weight accumulated pairs

/-- The sum of the weights, negative ones counted as zero. -/
def totalWeight {α : Type} (weight : α → ℤ) (pairs : List α) : ℕ :=
  (pairs.map fun p => (weight p).toNat).sum

/-- What `_weighted_pick` makes of a draw, over anything that has a weight. -/
def weightedPick (draw : ℚ) {α : Type} (weight : α → ℤ) (pairs : List α) : Option α :=
  if totalWeight weight pairs = 0 then pairs.head?
  else (pickReaching draw weight 0 pairs).or pairs.getLast?

/-- `random.uniform(0, total)` raises: the total is beyond the range of the binary64 numbers. -/
def UniformRaises (total : ℕ) : Prop := 2 ^ maxExponent ≤ toBinary64 total

instance (total : ℕ) : Decidable (UniformRaises total) := inferInstanceAs (Decidable (_ ≤ _))

/-- `_weighted_pick`; `none` when `random.uniform` raises. -/
def drawnPick (draw : ℚ) {α : Type} (weight : α → ℤ) (pairs : List α) : Option (Option α) :=
  if UniformRaises (totalWeight weight pairs) then none
  else some (weightedPick draw weight pairs)

/-- The weight of a pair is that of its target. -/
def RoutePair.weight (p : RoutePair) : ℤ := p.target.weight

/-- The pairs of `_round_robin_pick`: the first one of each model. -/
def uniquePairs (pairs : List RoutePair) : List RoutePair := firstSeen (fun p => p.model.id) pairs

/-- `_round_robin_pick`, for the cursor that it obtained. -/
def roundRobinPick (cursor : ℤ) (pairs : List RoutePair) : Option RoutePair :=
  (uniquePairs pairs)[(cursor % (uniquePairs pairs).length).toNat]?

/-- What `select_route` finds around it. -/
structure RouteEnv (Usage : Type) where
  tools : RuleTools
  /-- The tables behind `db`, if a session is given. -/
  db : Option RouteTables
  /-- `embed_classify`, given the labels of the enabled targets; `none` when it raises. -/
  classify : Admin.RoutePolicy → Admin.Model → RouteChannel → Str → List Str →
    Option (Option Str × Option Usage)
  /-- What `random.uniform` returns. -/
  draw : ℚ
  /-- The cursor of the round robin. -/
  cursor : ℤ

section
variable {Usage : Type} (env : RouteEnv Usage) (policy : Admin.RoutePolicy) (tables : RouteTables)
  (ctx : RuleContext)

/-- `smart_embedding_model_id`, when there is one. -/
def classifierId (policy : Admin.RoutePolicy) : Option ℤ :=
  policy.smartEmbeddingModelId.filter (· ≠ 0)

/-- The embedding model and its channel, if the classifier can be asked. -/
def embeddingPair (modelId : ℤ) : Option (Admin.Model × RouteChannel) :=
  if ctx.promptText.isEmpty then none
  else (env.db.bind fun db => db.serving modelId).filter fun p => p.1.kind = str "embedding"

/-- The label that decides, and what the classifier used; `none` when it raises. -/
def smartLabel (pairs : List RoutePair) : Option (Option Str × Option Usage) :=
  if pairs.isEmpty then some (none, none)
  else
    match classifierId policy with
    | some modelId =>
        match embeddingPair env ctx modelId with
        | some (em, ec) =>
            env.classify policy em ec ctx.promptText (pairs.map fun p => targetLabel p.target)
        | none => some (none, none)
    | none =>
        some ((applyRules env.tools ctx policy.smartRules).map (Json.toStr env.tools.repr), none)

/-- The pairs of one label. -/
def labelled (pairs : List RoutePair) (label : Str) : List RoutePair :=
  pairs.filter fun p => targetLabel p.target = label

/-- The pairs that a label selects and the label they have: those of the label itself, or else
those of the default label. -/
def smartGroup (pairs : List RoutePair) (chosen : Option Str) : List RoutePair × Option Str :=
  match chosen.filter fun label => !(labelled pairs label).isEmpty with
  | some label => (labelled pairs label, some label)
  | none =>
      (labelled pairs defaultTargetLabel,
        if (labelled pairs defaultTargetLabel).isEmpty then chosen else some defaultTargetLabel)

/-- What a strategy gives: the primary, the chosen label and what the classifier used. -/
structure Picked (Usage : Type) where
  primary : Option RoutePair
  chosenLabel : Option Str := none
  embeddingUsage : Option Usage := none

/-- `_smart_pick`. -/
def smartPick (pairs : List RoutePair) : Option (Picked Usage) :=
  (smartLabel env policy ctx pairs).bind fun (label, usage) =>
    let group := smartGroup pairs (label.bind fun l => orNone (strip l))
    (drawnPick env.draw RoutePair.weight group.1).map fun primary => ⟨primary, group.2, usage⟩

/-- The strategy of a policy. -/
def strategyPick (pairs : List RoutePair) : Option (Picked Usage) :=
  match policy.strategy with
  | .smart => smartPick env policy ctx pairs
  | .roundRobin => some { primary := roundRobinPick env.cursor pairs }
  | .weighted => (drawnPick env.draw RoutePair.weight pairs).map fun primary => { primary }

/-! ### The route -/

/-- `RouteDecision`. -/
structure RouteDecision (Usage : Type) where
  model : Admin.Model
  channel : RouteChannel
  fallbackChain : List (Admin.Model × RouteChannel)
  chosenLabel : Option Str
  embeddingUsage : Option Usage

/-- The primary and the fallback chain. -/
def RouteDecision.chain (d : RouteDecision Usage) : List (Admin.Model × RouteChannel) :=
  (d.model, d.channel) :: d.fallbackChain

/-- The fallback of a policy, unless it is the primary. -/
def fallbackPair (primary : Option RoutePair) : Option (Admin.Model × RouteChannel) :=
  (policy.fallbackModelId.filter fun id =>
    id ≠ 0 && !primary.any fun p => p.model.id = id).bind tables.serving

/-- The primary, and the fallback after it. -/
def routeChain (primary : Option RoutePair) : List (Admin.Model × RouteChannel) :=
  (primary.map fun p => (p.model, p.channel)).toList ++
    (fallbackPair policy tables primary).toList

/-- `select_route`; `none` when the classifier or the draw raises. -/
def selectRoute : Option (Option (RouteDecision Usage)) :=
  (strategyPick env policy ctx (orderedTargets policy tables)).map fun picked =>
    match routeChain policy tables picked.primary with
    | [] => none
    | p :: rest => some ⟨p.1, p.2, rest, picked.chosenLabel, picked.embeddingUsage⟩

/-! ### The strategies pick among their pairs -/

variable {env policy tables ctx} {pairs : List RoutePair} {p : RoutePair}

theorem mem_orderedTargets : p ∈ orderedTargets policy tables ↔
    p.target ∈ policy.targets ∧ p.model.id = p.target.modelId ∧
      tables.Serves p.model p.channel := by
  simp only [orderedTargets, List.mem_filterMap, Option.map_eq_some_iff, Prod.exists,
    RouteTables.serving_eq_some]
  constructor
  · intro ⟨t, ht, m, c, ⟨hid, hserves⟩, heq⟩
    subst heq
    exact ⟨ht, hid, hserves⟩
  · intro ⟨ht, hid, hserves⟩
    exact ⟨p.target, ht, p.model, p.channel, ⟨hid, hserves⟩, rfl⟩

theorem pickReaching_mem {draw : ℚ} {α : Type} {weight : α → ℤ} {acc : ℕ} {l : List α} {a : α}
    (h : pickReaching draw weight acc l = some a) : a ∈ l := by
  induction l generalizing acc with
  | nil => cases h
  | cons b l ih =>
      simp only [pickReaching] at h
      split at h
      · simp [Option.some.inj h]
      · exact List.mem_cons_of_mem b (ih h)

theorem weightedPick_mem {draw : ℚ} {α : Type} {weight : α → ℤ} {l : List α} {a : α}
    (h : weightedPick draw weight l = some a) : a ∈ l := by
  rw [weightedPick] at h
  split at h
  · exact List.mem_of_head? h
  · obtain hreach | ⟨-, hlast⟩ := Option.or_eq_some_iff.mp h
    · exact pickReaching_mem hreach
    · exact List.mem_of_getLast? hlast

/-- A weighted pick fails only when there is nothing to pick. -/
theorem weightedPick_eq_none {draw : ℚ} {α : Type} {weight : α → ℤ} {l : List α} :
    weightedPick draw weight l = none ↔ l = [] := by
  rw [weightedPick]
  split
  · exact List.head?_eq_none_iff
  · rw [Option.or_eq_none_iff, List.getLast?_eq_none_iff, and_iff_right_iff_imp]
    intro h
    rw [h, pickReaching]

theorem drawnPick_eq_some {draw : ℚ} {α : Type} {weight : α → ℤ} {l : List α} {r : Option α} :
    drawnPick draw weight l = some r ↔
      ¬ UniformRaises (totalWeight weight l) ∧ weightedPick draw weight l = r := by
  rw [drawnPick]
  split_ifs with h <;> simp [h]

theorem uniquePairs_eq_nil : uniquePairs pairs = [] ↔ pairs = [] := firstSeen_eq_nil

theorem roundRobinPick_mem {cursor : ℤ} (h : roundRobinPick cursor pairs = some p) : p ∈ pairs :=
  firstSeen_sublist.subset (List.mem_of_getElem? h)

/-- The cursor always falls on a pair, if there is one. -/
theorem roundRobinPick_eq_none {cursor : ℤ} : roundRobinPick cursor pairs = none ↔ pairs = [] := by
  rw [roundRobinPick, List.getElem?_eq_none_iff]
  constructor
  · intro h
    by_contra hne
    have hlen : 0 < (uniquePairs pairs).length :=
      List.length_pos_iff.mpr fun hnil => hne (uniquePairs_eq_nil.mp hnil)
    have hlt := Int.emod_lt_of_pos cursor (by omega : (0 : ℤ) < (uniquePairs pairs).length)
    have hnonneg := Int.emod_nonneg cursor (by omega : ((uniquePairs pairs).length : ℤ) ≠ 0)
    omega
  · intro h
    simp [uniquePairs_eq_nil.mpr h]

/-! ### Labels -/

theorem orNone_getD_ne_nil (s : Str) : (orNone s).getD defaultTargetLabel ≠ [] := by
  cases s with
  | nil => decide
  | cons c s => simp [orNone]

/-- The label of a target is not empty. -/
theorem targetLabel_ne_nil (t : RouteTarget) : targetLabel t ≠ [] := by
  rw [targetLabel]
  split
  · decide
  · exact orNone_getD_ne_nil _

theorem mem_labelled {label : Str} :
    p ∈ labelled pairs label ↔ p ∈ pairs ∧ targetLabel p.target = label := by
  simp [labelled]

theorem smartGroup_subset (pairs : List RoutePair) (chosen : Option Str) :
    (smartGroup pairs chosen).1 ⊆ pairs := by
  intro p hp
  rw [smartGroup.eq_def] at hp
  split at hp
  · exact (mem_labelled.mp hp).1
  · exact (mem_labelled.mp hp).1

/-- No pair carries a label that is passed over. -/
theorem labelled_eq_nil {label : Str} :
    labelled pairs label = [] ↔ ∀ q ∈ pairs, targetLabel q.target ≠ label := by
  simp [labelled]

/-- The pairs of the group all have the label that is returned with it: the chosen one if some
pair carries it, and the default one otherwise. -/
theorem smartGroup_label {chosen : Option Str} (h : p ∈ (smartGroup pairs chosen).1) :
    (smartGroup pairs chosen).2 = some (targetLabel p.target) ∧
      (chosen = some (targetLabel p.target) ∨ targetLabel p.target = defaultTargetLabel ∧
        ∀ label ∈ chosen, ∀ q ∈ pairs, targetLabel q.target ≠ label) := by
  rw [smartGroup.eq_def] at h ⊢
  split at h
  · next label hfilter =>
      obtain ⟨rfl, -⟩ := Option.filter_eq_some_iff.mp hfilter
      simp [(mem_labelled.mp h).2]
  · next hfilter =>
      have hne := List.ne_nil_of_mem h
      refine ⟨by simp [hne, (mem_labelled.mp h).2], .inr ⟨(mem_labelled.mp h).2, ?_⟩⟩
      intro label hlabel
      rw [Option.filter_eq_none_iff] at hfilter
      exact labelled_eq_nil.mp (by simpa using hfilter label hlabel)

/-- The group is empty exactly when no pair has the chosen label or the default one. -/
theorem smartGroup_ne_nil {chosen : Option Str} : (smartGroup pairs chosen).1 ≠ [] ↔
    ∃ p ∈ pairs, targetLabel p.target = defaultTargetLabel ∨
      chosen = some (targetLabel p.target) := by
  constructor
  · intro h
    obtain ⟨p, hp⟩ := List.exists_mem_of_ne_nil _ h
    refine ⟨p, smartGroup_subset pairs chosen hp, ?_⟩
    obtain hchosen | ⟨hlabel, -⟩ := (smartGroup_label hp).2
    · exact .inr hchosen
    · exact .inl hlabel
  · intro ⟨p, hp, hlabel⟩ hnil
    rw [smartGroup.eq_def] at hnil
    split at hnil
    · next hfilter =>
        obtain ⟨-, hne⟩ := Option.filter_eq_some_iff.mp hfilter
        have hnil : labelled pairs _ = [] := hnil
        simp [hnil] at hne
    · next hfilter =>
        have hdefault := labelled_eq_nil.mp hnil
        rw [Option.filter_eq_none_iff] at hfilter
        obtain hlabel | hchosen := hlabel
        · exact hdefault p hp hlabel
        · exact labelled_eq_nil.mp (by simpa using hfilter _ hchosen) p hp rfl

/-! ### What a route has to be -/

/-- A target of the policy whose model is enabled on an enabled channel. -/
def EnabledTarget (policy : Admin.RoutePolicy) (tables : RouteTables) (t : RouteTarget) : Prop :=
  t ∈ policy.targets ∧ ∃ m c, m.id = t.modelId ∧ tables.Serves m c

/-- Some enabled target carries the label. -/
def Carried (policy : Admin.RoutePolicy) (tables : RouteTables) (label : Str) : Prop :=
  ∃ t, EnabledTarget policy tables t ∧ targetLabel t = label

/-- The strategy can select an enabled target.  A smart route selects those of the label that
its rules or its classifier give, and those of the default label. -/
def Selectable (env : RouteEnv Usage) (policy : Admin.RoutePolicy) (tables : RouteTables)
    (ctx : RuleContext) : Prop :=
  match policy.strategy with
  | .smart =>
      Carried policy tables defaultTargetLabel ∨
        ∃ label usage, smartLabel env policy ctx (orderedTargets policy tables) =
          some (some label, usage) ∧ Carried policy tables (strip label)
  | _ => ∃ t, EnabledTarget policy tables t

/-- The first rule that yields a label yields this one. -/
def FirstLabel (tools : RuleTools) (ctx : RuleContext) (rules : List Json) (label : Json) : Prop :=
  ∃ before rule after, rules = before ++ rule :: after ∧ ruleLabel tools ctx rule = some label ∧
    ∀ earlier ∈ before, ruleLabel tools ctx earlier = none

/-- A label is that of the first rule that yields one, if some enabled target carries it, and
the default one otherwise. -/
structure LabelByRules (env : RouteEnv Usage) (policy : Admin.RoutePolicy) (tables : RouteTables)
    (ctx : RuleContext) (chosen : Str) : Prop where
  carried : ∀ label, FirstLabel env.tools ctx policy.smartRules label →
    Carried policy tables (strip (label.toStr env.tools.repr)) →
    chosen = strip (label.toStr env.tools.repr)
  default : (∀ label, FirstLabel env.tools ctx policy.smartRules label →
    ¬ Carried policy tables (strip (label.toStr env.tools.repr))) → chosen = defaultTargetLabel

/-- The policy has this fallback, which is enabled. -/
def EnabledFallback (policy : Admin.RoutePolicy) (tables : RouteTables) (m : Admin.Model)
    (c : RouteChannel) : Prop :=
  policy.fallbackModelId = some m.id ∧ tables.Serves m c

/-- What is promised of the primary that a strategy selects. -/
structure PrimarySound (env : RouteEnv Usage) (policy : Admin.RoutePolicy) (tables : RouteTables)
    (ctx : RuleContext) (chosenLabel : Option Str) (p : RoutePair) : Prop where
  target : p.target ∈ policy.targets
  modelId : p.model.id = p.target.modelId
  serves : tables.Serves p.model p.channel
  label : policy.strategy = .smart → chosenLabel = some (targetLabel p.target)
  byRules : policy.strategy = .smart → classifierId policy = none →
    LabelByRules env policy tables ctx (targetLabel p.target)

/-- What is promised of a route: its entries are enabled and of different models, they are the
primary, if one can be selected, and otherwise only the fallback, and the fallback is among them
when it is enabled. -/
structure RouteSound (env : RouteEnv Usage) (policy : Admin.RoutePolicy) (tables : RouteTables)
    (ctx : RuleContext) (d : RouteDecision Usage) : Prop where
  serves : ∀ p ∈ d.chain, tables.Serves p.1 p.2
  nodup : (d.chain.map fun p => p.1.id).Nodup
  entries : ∃ (primary : Option RoutePair) (rest : List (Admin.Model × RouteChannel)),
    d.chain = (primary.map fun p => (p.model, p.channel)).toList ++ rest ∧
      (primary.isSome ↔ Selectable env policy tables ctx) ∧
      (∀ p ∈ primary, PrimarySound env policy tables ctx d.chosenLabel p) ∧
      ∀ p ∈ rest, policy.fallbackModelId = some p.1.id
  fallback : ∀ m c, EnabledFallback policy tables m c → (m, c) ∈ d.chain

theorem carried_iff {label : Str} : Carried policy tables label ↔
    ∃ p ∈ orderedTargets policy tables, targetLabel p.target = label := by
  constructor
  · intro ⟨t, ⟨ht, m, c, hid, hserves⟩, hlabel⟩
    exact ⟨⟨m, c, t⟩, mem_orderedTargets.mpr ⟨ht, hid, hserves⟩, hlabel⟩
  · intro ⟨p, hp, hlabel⟩
    obtain ⟨ht, hid, hserves⟩ := mem_orderedTargets.mp hp
    exact ⟨p.target, ⟨ht, p.model, p.channel, hid, hserves⟩, hlabel⟩

theorem orderedTargets_ne_nil :
    orderedTargets policy tables ≠ [] ↔ ∃ t, EnabledTarget policy tables t := by
  constructor
  · intro h
    obtain ⟨p, hp⟩ := List.exists_mem_of_ne_nil _ h
    obtain ⟨ht, hid, hserves⟩ := mem_orderedTargets.mp hp
    exact ⟨p.target, ht, p.model, p.channel, hid, hserves⟩
  · intro ⟨t, ht, m, c, hid, hserves⟩
    have hmem : ⟨m, c, t⟩ ∈ orderedTargets policy tables :=
      mem_orderedTargets.mpr ⟨ht, hid, hserves⟩
    exact List.ne_nil_of_mem hmem

theorem firstLabel_iff {rules : List Json} {label : Json} :
    FirstLabel env.tools ctx rules label ↔ applyRules env.tools ctx rules = some label := by
  rw [applyRules, List.findSome?_eq_some_iff, FirstLabel]

/-- A label that is carried is not empty, so stripping it keeps it a label. -/
theorem orNone_strip_eq_some {label : Str} {t : RouteTarget} :
    orNone (strip label) = some (targetLabel t) ↔ strip label = targetLabel t := by
  constructor
  · intro h
    simp only [orNone] at h
    split at h
    · cases h
    · exact Option.some.inj h
  · intro h
    have hne := targetLabel_ne_nil t
    simp [orNone, h, hne]

/-! ### What the strategies select -/

/-- The strategy selects a pair exactly when one is selectable. -/
theorem strategyPick_isSome {picked : Picked Usage}
    (h : strategyPick env policy ctx (orderedTargets policy tables) = some picked) :
    picked.primary.isSome ↔ Selectable env policy tables ctx := by
  rw [strategyPick] at h
  rw [Selectable, Option.isSome_iff_ne_none]
  cases hstrategy : policy.strategy with
  | weighted =>
      simp only [hstrategy] at h ⊢
      obtain ⟨primary, hdrawn, rfl⟩ := Option.map_eq_some_iff.mp h
      rw [← (drawnPick_eq_some.mp hdrawn).2, Ne, weightedPick_eq_none]
      exact orderedTargets_ne_nil
  | roundRobin =>
      simp only [hstrategy] at h ⊢
      obtain rfl := Option.some.inj h
      rw [Ne, roundRobinPick_eq_none]
      exact orderedTargets_ne_nil
  | smart =>
      simp only [hstrategy, smartPick, Option.bind_eq_some_iff, Option.map_eq_some_iff] at h ⊢
      obtain ⟨⟨label, usage⟩, hlabel, primary, hdrawn, rfl⟩ := h
      rw [← (drawnPick_eq_some.mp hdrawn).2, Ne, weightedPick_eq_none, ← Ne, smartGroup_ne_nil]
      simp only [carried_iff, hlabel, Option.some.injEq, Prod.mk.injEq]
      constructor
      · intro ⟨p, hp, hor⟩
        obtain hdefault | hchosen := hor
        · exact .inl ⟨p, hp, hdefault⟩
        · obtain ⟨l, rfl, hl⟩ := Option.bind_eq_some_iff.mp hchosen
          exact .inr ⟨l, usage, ⟨rfl, rfl⟩, p, hp, (orNone_strip_eq_some.mp hl).symm⟩
      · intro hor
        obtain ⟨p, hp, hdefault⟩ | ⟨l, _, ⟨rfl, rfl⟩, p, hp, hl⟩ := hor
        · exact ⟨p, hp, .inl hdefault⟩
        · exact ⟨p, hp, .inr (orNone_strip_eq_some.mpr hl.symm)⟩

/-- The label of the rules, where they decide. -/
theorem smartLabel_of_rules (h : classifierId policy = none) (hne : pairs ≠ []) :
    smartLabel env policy ctx pairs =
      some ((applyRules env.tools ctx policy.smartRules).map (Json.toStr env.tools.repr), none) := by
  simp [smartLabel, h, hne]

/-- What the strategy selects is as promised. -/
theorem strategyPick_sound {picked : Picked Usage}
    (h : strategyPick env policy ctx (orderedTargets policy tables) = some picked)
    (hp : picked.primary = some p) : PrimarySound env policy tables ctx picked.chosenLabel p := by
  have hsound : p ∈ orderedTargets policy tables →
      (policy.strategy = .smart → picked.chosenLabel = some (targetLabel p.target)) →
      (policy.strategy = .smart → classifierId policy = none →
        LabelByRules env policy tables ctx (targetLabel p.target)) →
      PrimarySound env policy tables ctx picked.chosenLabel p := by
    intro hmem hlabel hrules
    obtain ⟨ht, hid, hserves⟩ := mem_orderedTargets.mp hmem
    exact ⟨ht, hid, hserves, hlabel, hrules⟩
  rw [strategyPick] at h
  cases hstrategy : policy.strategy with
  | weighted =>
      simp only [hstrategy] at h
      obtain ⟨primary, hdrawn, rfl⟩ := Option.map_eq_some_iff.mp h
      have hpick := (drawnPick_eq_some.mp hdrawn).2.trans hp
      exact hsound (weightedPick_mem hpick) (by simp [hstrategy]) (by simp [hstrategy])
  | roundRobin =>
      simp only [hstrategy] at h
      obtain rfl := Option.some.inj h
      exact hsound (roundRobinPick_mem hp) (by simp [hstrategy]) (by simp [hstrategy])
  | smart =>
      simp only [hstrategy, smartPick, Option.bind_eq_some_iff, Option.map_eq_some_iff] at h
      obtain ⟨⟨label, usage⟩, hlabel, primary, hdrawn, rfl⟩ := h
      have hgroup := weightedPick_mem ((drawnPick_eq_some.mp hdrawn).2.trans hp)
      have hmem := smartGroup_subset _ _ hgroup
      obtain ⟨hreturned, hchosen⟩ := smartGroup_label hgroup
      refine hsound hmem (fun _ => hreturned) fun _ hnone => ?_
      rw [smartLabel_of_rules hnone (List.ne_nil_of_mem hmem)] at hlabel
      obtain ⟨rfl, -⟩ := Prod.mk.inj (Option.some.inj hlabel)
      constructor
      · intro first hfirst hcarried
        rw [firstLabel_iff] at hfirst
        simp only [hfirst, Option.map_some, Option.bind_some] at hchosen
        obtain hchosen | ⟨-, hnot⟩ := hchosen
        · exact (orNone_strip_eq_some.mp hchosen).symm
        · obtain ⟨q, hq, hql⟩ := carried_iff.mp hcarried
          exact absurd rfl (hnot _ (orNone_strip_eq_some.mpr hql.symm) q hq)
      · intro hnot
        obtain hchosen | ⟨hdefault, -⟩ := hchosen
        · obtain ⟨l, hl, hstrip⟩ := Option.bind_eq_some_iff.mp hchosen
          obtain ⟨first, hfirst, rfl⟩ := Option.map_eq_some_iff.mp hl
          refine absurd ?_ (hnot first (firstLabel_iff.mpr hfirst))
          exact carried_iff.mpr ⟨p, hmem, (orNone_strip_eq_some.mp hstrip).symm⟩
        · exact hdefault

/-! ### The chain -/

variable {primary : Option RoutePair} {m : Admin.Model} {c : RouteChannel}

/-- The fallback joins the chain when it is enabled and not the primary. -/
theorem fallbackPair_eq_some : fallbackPair policy tables primary = some (m, c) ↔
    EnabledFallback policy tables m c ∧ ∀ p ∈ primary, p.model.id ≠ m.id := by
  have hother : (!primary.any fun p => p.model.id = m.id) = true ↔
      ∀ p ∈ primary, p.model.id ≠ m.id := by
    cases primary <;> simp
  simp only [fallbackPair, Option.bind_eq_some_iff, Option.filter_eq_some_iff,
    RouteTables.serving_eq_some, EnabledFallback, Bool.and_eq_true]
  constructor
  · intro ⟨id, ⟨hid, _, hcond⟩, hm, hserves⟩
    subst hm
    exact ⟨⟨hid, hserves⟩, hother.mp hcond⟩
  · intro ⟨⟨hid, hserves⟩, hne⟩
    have hpos := hserves.isRowId_model.1
    exact ⟨m.id, ⟨hid, by simpa using hpos.ne', hother.mpr hne⟩, rfl, hserves⟩

theorem mem_routeChain {q : Admin.Model × RouteChannel} :
    q ∈ routeChain policy tables primary ↔
      (∃ p ∈ primary, (p.model, p.channel) = q) ∨ fallbackPair policy tables primary = some q := by
  simp [routeChain]

theorem nodup_routeChain (primary : Option RoutePair) :
    ((routeChain policy tables primary).map fun q => q.1.id).Nodup := by
  cases primary with
  | none => cases h : fallbackPair policy tables none <;> simp [routeChain, h]
  | some p =>
      cases h : fallbackPair policy tables (some p) with
      | none => simp [routeChain, h]
      | some q =>
          have hne := (fallbackPair_eq_some.mp h).2 p rfl
          simpa [routeChain, h] using hne

/-- An enabled fallback is in the chain, as the primary if it is that. -/
theorem fallback_mem_routeChain (hprimary : ∀ p ∈ primary, tables.Serves p.model p.channel)
    (h : EnabledFallback policy tables m c) : (m, c) ∈ routeChain policy tables primary := by
  rw [mem_routeChain, fallbackPair_eq_some]
  by_cases hsame : ∀ p ∈ primary, p.model.id ≠ m.id
  · exact .inr ⟨h, hsame⟩
  · push Not at hsame
    obtain ⟨p, hp, hid⟩ := hsame
    have hserves := hprimary p hp
    have hmodel : p.model = m := by
      have hget := hserves.model
      rw [hid, h.2.model] at hget
      exact (Option.some.inj hget).symm
    have hchannel : p.channel = c := by
      have hget := hserves.channel
      rw [hmodel, h.2.channel] at hget
      exact (Option.some.inj hget).symm
    exact .inl ⟨p, hp, by rw [hmodel, hchannel]⟩

theorem routeChain_eq_nil : routeChain policy tables primary = [] ↔
    primary = none ∧ ¬ ∃ m c, EnabledFallback policy tables m c := by
  cases primary with
  | some p => simp [routeChain]
  | none =>
      rw [List.eq_nil_iff_forall_not_mem]
      simp only [mem_routeChain, Prod.forall, fallbackPair_eq_some]
      simp

/-- The classifier was asked for a label of the enabled targets, and raised. -/
def ClassifierRaised (env : RouteEnv Usage) (policy : Admin.RoutePolicy) (tables : RouteTables)
    (ctx : RuleContext) : Prop :=
  policy.strategy = .smart ∧ orderedTargets policy tables ≠ [] ∧
    ∃ modelId em ec, classifierId policy = some modelId ∧
      embeddingPair env ctx modelId = some (em, ec) ∧
      env.classify policy em ec ctx.promptText
        ((orderedTargets policy tables).map fun p => targetLabel p.target) = none

/-- The targets that a draw is made among, if any: all that are enabled, or those that the label
of a smart route selects. -/
def drawnAmong (env : RouteEnv Usage) (policy : Admin.RoutePolicy) (ctx : RuleContext)
    (pairs : List RoutePair) : List RoutePair :=
  match policy.strategy, smartLabel env policy ctx pairs with
  | .weighted, _ => pairs
  | .smart, some (label, _) => (smartGroup pairs (label.bind fun l => orNone (strip l))).1
  | _, _ => []

/-- The draw raises. -/
def DrawRaises (env : RouteEnv Usage) (policy : Admin.RoutePolicy) (tables : RouteTables)
    (ctx : RuleContext) : Prop :=
  UniformRaises
    (totalWeight RoutePair.weight (drawnAmong env policy ctx (orderedTargets policy tables)))

theorem not_uniformRaises_zero : ¬ UniformRaises 0 := by
  rw [UniformRaises, toBinary64_of_lt (Nat.two_pow_pos _), not_le]
  exact Nat.two_pow_pos _

theorem drawnPick_eq_none {draw : ℚ} {α : Type} {weight : α → ℤ} {l : List α} :
    drawnPick draw weight l = none ↔ UniformRaises (totalWeight weight l) := by
  rw [drawnPick]
  split_ifs with h <;> simp [h]

/-- No label is decided only when the classifier raises. -/
theorem smartLabel_eq_none (hstrategy : policy.strategy = .smart) :
    smartLabel env policy ctx (orderedTargets policy tables) = none ↔
      ClassifierRaised env policy tables ctx := by
  rw [ClassifierRaised, and_iff_right hstrategy]
  constructor
  · intro h
    rw [smartLabel] at h
    split at h
    · cases h
    next hne =>
    split at h
    · next modelId hid =>
        split at h
        · next em ec hpair => exact ⟨by simpa using hne, modelId, em, ec, hid, hpair, h⟩
        · cases h
    · cases h
  · intro ⟨hne, modelId, em, ec, hid, hpair, hraised⟩
    have hempty : (orderedTargets policy tables).isEmpty = false := by simpa using hne
    simp only [smartLabel, hempty, hid, hpair, hraised, Bool.false_eq_true, if_false]

/-- The strategies raise with the classifier and with the draw. -/
theorem strategyPick_eq_none :
    strategyPick env policy ctx (orderedTargets policy tables) = none ↔
      ClassifierRaised env policy tables ctx ∨ DrawRaises env policy tables ctx := by
  cases hstrategy : policy.strategy with
  | weighted =>
      have hclassifier : ¬ ClassifierRaised env policy tables ctx := by
        simp [ClassifierRaised, hstrategy]
      simp only [strategyPick, DrawRaises, drawnAmong, hstrategy, Option.map_eq_none_iff,
        drawnPick_eq_none, hclassifier, false_or]
  | roundRobin =>
      have hclassifier : ¬ ClassifierRaised env policy tables ctx := by
        simp [ClassifierRaised, hstrategy]
      simp only [strategyPick, DrawRaises, drawnAmong, hstrategy, hclassifier, false_or,
        reduceCtorEq, false_iff]
      exact not_uniformRaises_zero
  | smart =>
      rw [← smartLabel_eq_none hstrategy]
      simp only [strategyPick, smartPick, DrawRaises, drawnAmong, hstrategy]
      cases smartLabel env policy ctx (orderedTargets policy tables) with
      | none => simp
      | some decided => simp [drawnPick_eq_none]

/-- A route is as promised. -/
theorem selectRoute_eq_some {d : RouteDecision Usage}
    (h : selectRoute env policy tables ctx = some (some d)) :
    RouteSound env policy tables ctx d := by
  rw [selectRoute, Option.map_eq_some_iff] at h
  obtain ⟨picked, hpick, hd⟩ := h
  have hselectable := strategyPick_isSome hpick
  have hsound := fun p hp => strategyPick_sound (p := p) hpick hp
  have hfallback : ∀ p ∈ (fallbackPair policy tables picked.primary).toList,
      EnabledFallback policy tables p.1 p.2 :=
    fun p hp => (fallbackPair_eq_some.mp (Option.mem_toList.mp hp)).1
  cases hchain : routeChain policy tables picked.primary with
  | nil => simp [hchain] at hd
  | cons q rest =>
      rw [hchain] at hd
      obtain rfl := Option.some.inj hd
      have heq : (RouteDecision.mk q.1 q.2 rest picked.chosenLabel picked.embeddingUsage).chain =
          routeChain policy tables picked.primary := hchain.symm
      constructor
      · intro p hp
        rw [heq, mem_routeChain] at hp
        obtain ⟨p', hp', rfl⟩ | hp := hp
        · exact (hsound p' hp').serves
        · exact (hfallback p (Option.mem_toList.mpr hp)).2
      · rw [heq]
        exact nodup_routeChain picked.primary
      · exact ⟨picked.primary, _, heq, hselectable, hsound, fun p hp => (hfallback p hp).1⟩
      · intro m c h
        rw [heq]
        exact fallback_mem_routeChain (fun p hp => (hsound p hp).serves) h

/-- There is no route exactly when nothing can be selected and no fallback is enabled. -/
theorem selectRoute_eq_some_none {result : Option (RouteDecision Usage)}
    (h : selectRoute env policy tables ctx = some result) :
    result = none ↔ ¬ Selectable env policy tables ctx ∧
      ¬ ∃ m c, EnabledFallback policy tables m c := by
  rw [selectRoute, Option.map_eq_some_iff] at h
  obtain ⟨picked, hpick, rfl⟩ := h
  rw [← strategyPick_isSome hpick, Option.not_isSome_iff_eq_none, ← routeChain_eq_nil]
  cases routeChain policy tables picked.primary <;> simp

theorem selectRoute_eq_none : selectRoute env policy tables ctx = none ↔
    ClassifierRaised env policy tables ctx ∨ DrawRaises env policy tables ctx := by
  rw [selectRoute, Option.map_eq_none_iff]
  exact strategyPick_eq_none

/-- **When selecting a route is sound and complete**: it returns, there is no route exactly when
the strategy can select no enabled target and no fallback is enabled, and a route is as promised,
exactly when neither the classifier nor the draw raises. -/
theorem selectRoute_sound_complete (env : RouteEnv Usage) (policy : Admin.RoutePolicy)
    (tables : RouteTables) (ctx : RuleContext) :
    (∃ result, selectRoute env policy tables ctx = some result ∧
      (result = none ↔ ¬ Selectable env policy tables ctx ∧
        ¬ ∃ m c, EnabledFallback policy tables m c) ∧
      ∀ d ∈ result, RouteSound env policy tables ctx d) ↔
    ¬ ClassifierRaised env policy tables ctx ∧ ¬ DrawRaises env policy tables ctx := by
  have hraises := not_congr (@selectRoute_eq_none Usage env policy tables ctx)
  rw [not_or] at hraises
  rw [← hraises]
  constructor
  · intro ⟨result, h, _⟩
    rw [h]
    exact Option.some_ne_none result
  · intro h
    obtain ⟨result, hresult⟩ := Option.ne_none_iff_exists'.mp h
    refine ⟨result, hresult, selectRoute_eq_some_none hresult, fun d hd => ?_⟩
    rw [Option.mem_def.mp hd] at hresult
    exact selectRoute_eq_some hresult

end

/-- One model on one channel. -/
def oneModelTables : RouteTables where
  models := ⟨[⟨⟨str "a", 1, str "a", str "chat", none, true⟩, 1⟩], by decide⟩
  channels := ⟨[⟨⟨⟨str "openai.chat", str "openai", str "w"⟩, 1⟩, true⟩], by decide⟩
  models_id := by decide
  channels_id := by decide

/-- A weighted route to it, with this weight. -/
def weightRoute (weight : ℤ) : Admin.RoutePolicy :=
  toOrm { userFacingModel := str "auto", targets := [⟨1, weight, none⟩] } .public_ 0 1

/-- A router without a classifier. -/
def rulesEnv : RouteEnv Unit where
  tools := ⟨fun _ _ => none, id, fun _ => [], fun _ => none⟩
  db := none
  classify := fun _ _ _ _ _ => none
  draw := 0
  cursor := 0

/-- A weight that is beyond the range makes the selection raise, although its target is enabled
and selectable. -/
theorem selectRoute_heavy_raises :
    (¬ ∃ result, selectRoute rulesEnv (weightRoute (2 ^ maxExponent)) oneModelTables
        ⟨str "Hi", none⟩ = some result) ∧
      Selectable rulesEnv (weightRoute (2 ^ maxExponent)) oneModelTables ⟨str "Hi", none⟩ := by
  have htargets : orderedTargets (weightRoute (2 ^ maxExponent)) oneModelTables =
      [⟨⟨⟨str "a", 1, str "a", str "chat", none, true⟩, 1⟩,
        ⟨⟨⟨str "openai.chat", str "openai", str "w"⟩, 1⟩, true⟩, ⟨1, 2 ^ maxExponent, none⟩⟩] := rfl
  have htotal : totalWeight RoutePair.weight (drawnAmong rulesEnv
      (weightRoute (2 ^ maxExponent)) ⟨str "Hi", none⟩
      (orderedTargets (weightRoute (2 ^ maxExponent)) oneModelTables)) = 2 ^ maxExponent := by
    have hnat : ∀ k : ℕ, ((2 : ℤ) ^ k).toNat = 2 ^ k := fun k => Int.toNat_natCast (2 ^ k)
    rw [htargets]
    simp [drawnAmong, weightRoute, toOrm, totalWeight, RoutePair.weight, hnat]
  have hraises : DrawRaises rulesEnv (weightRoute (2 ^ maxExponent)) oneModelTables
      ⟨str "Hi", none⟩ := by
    rw [DrawRaises, htotal, UniformRaises]
    exact two_pow_le_toBinary64 (by rw [Nat.size_pow]; exact Nat.lt_succ_self _)
  constructor
  · rintro ⟨result, h⟩
    rw [selectRoute_eq_none.mpr (.inr hraises)] at h
    cases h
  · exact orderedTargets_ne_nil.mp (htargets ▸ List.cons_ne_nil _ _)

end Llmxy
