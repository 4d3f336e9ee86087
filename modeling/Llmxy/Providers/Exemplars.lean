import Llmxy.Admin.Catalog
import Mathlib.Data.List.MinMax

/-!
# Exemplars of a smart route

`_load_or_build_exemplars` keeps the vectors of a route's exemplars in Redis, under the id of
the route and the version of its exemplars.  A route that is updated gets a new version when
its exemplars or its embedding model change.  An embedding model that is updated changes no
version, and a batch of which only a part was answered is kept as it is.

The vector of a text is a function of the upstream model.  A batch, or the calls for single
texts after one that gave nothing, may miss any of its texts.  Between the look into the cache
and the write anything may happen.

## Main definitions

* `embedBatch`, `collectVecs` — the vectors that a build gets.
* `SmartStore`, `SmartStore.step` — the catalog, the cache and the builds under way.
* `ClassifiesCurrent` — what a classification would use is what the route and its embedding
  model are now.
* `classifiesCurrent_of_keepsCurrent` — when it is so in every state of a run.
-/

namespace Llmxy
open Admin

/-- `PROMPT_HASH_LIMIT`. -/
def promptHashLimit : ℕ := 4096

/-- The labels and texts of the exemplars, stripped; those without a label or a text are left
out. -/
def exemplarPairs (exemplars : List RouteExemplar) : List (Str × Str) :=
  (exemplars.map fun e => (strip e.label, strip e.text)).filter fun p =>
    !p.1.isEmpty && !p.2.isEmpty

/-- Which texts the embedding model answers: in the batch, and one by one. -/
structure EmbedOutcome where
  batch : ℕ → Bool
  item : ℕ → Bool

/-- All of `n` texts are obtained. -/
def EmbedOutcome.Obtains (outcome : EmbedOutcome) (n : ℕ) : Prop :=
  (∀ i < n, outcome.batch i = true) ∨
    (∀ i < n, outcome.batch i = false) ∧ ∀ i < n, outcome.item i = true

/-- None of `n` texts is obtained. -/
def EmbedOutcome.ObtainsNone (outcome : EmbedOutcome) (n : ℕ) : Prop :=
  ∀ i < n, outcome.batch i = false ∧ outcome.item i = false

section
variable {Vec : Type} (embed : Str → Str → Vec)

/-- The vector of an exemplar. -/
def exemplarVec (upstreamModel text : Str) : Vec := embed upstreamModel (text.take promptHashLimit)

/-- `_embed_batch`. -/
def embedBatch (upstreamModel : Str) (texts : List Str) (outcome : EmbedOutcome) :
    List (Option Vec) :=
  let answer (found : ℕ → Bool) :=
    texts.mapIdx fun i text => if found i then some (exemplarVec embed upstreamModel text) else none
  let vecs := answer outcome.batch
  if vecs.any Option.isSome then vecs else answer outcome.item

/-- The vectors of each label. -/
abbrev ExemplarVecs (Vec : Type) := List (Str × List Vec)

/-- `out.setdefault(label, []).append(vec)`. -/
def addVec (label : Str) (vec : Vec) : ExemplarVecs Vec → ExemplarVecs Vec
  | [] => [(label, [vec])]
  | (l, vecs) :: rest =>
      if l = label then (l, vecs ++ [vec]) :: rest else (l, vecs) :: addVec label vec rest

/-- The vectors that were obtained, by their labels. -/
def collectVecs (pairs : List (Str × Str)) (vecs : List (Option Vec)) : ExemplarVecs Vec :=
  (pairs.zip vecs).foldl (fun out p =>
    match p.2 with
    | none => out
    | some vec => addVec p.1.1 vec out) []

/-- What `_load_or_build_exemplars` builds when nothing is cached. -/
def buildVecs (upstreamModel : Str) (pairs : List (Str × Str)) (outcome : EmbedOutcome) :
    ExemplarVecs Vec :=
  collectVecs pairs (embedBatch embed upstreamModel (pairs.map Prod.snd) outcome)

/-- The vectors a classification compares with, each with its label. -/
def vecEntries (out : ExemplarVecs Vec) : Multiset (Str × Vec) :=
  (out.flatMap fun e => e.2.map fun vec => (e.1, vec) : List (Str × Vec))

/-- The vectors of all exemplars of a route under its embedding model. -/
def currentVecs (route : Admin.RoutePolicy) (model : Admin.Model) : Multiset (Str × Vec) :=
  ((exemplarPairs route.smartExemplars).map fun p =>
    (p.1, exemplarVec embed model.upstreamModel p.2) : List (Str × Vec))

/-! ### What a build gets -/

theorem vecEntries_addVec (label : Str) (vec : Vec) (out : ExemplarVecs Vec) :
    vecEntries (addVec label vec out) = (label, vec) ::ₘ vecEntries out := by
  induction out with
  | nil => rfl
  | cons e out ih =>
      obtain ⟨l, vecs⟩ := e
      rw [addVec]
      split_ifs with hl
      · subst hl
        simp only [vecEntries, List.flatMap_cons, List.map_append, List.map_cons, List.map_nil,
          List.append_assoc, Multiset.cons_coe, Multiset.coe_eq_coe]
        exact List.perm_middle
      · simp only [vecEntries, List.flatMap_cons, ← Multiset.coe_add] at ih ⊢
        rw [ih, Multiset.add_cons]

/-- The vectors that were obtained, with their labels. -/
theorem vecEntries_collectVecs (pairs : List (Str × Str)) (vecs : List (Option Vec)) :
    vecEntries (collectVecs pairs vecs) =
      ((pairs.zip vecs).filterMap fun p => p.2.map fun vec => (p.1.1, vec) : List (Str × Vec)) := by
  have hfold : ∀ (l : List ((Str × Str) × Option Vec)) (out : ExemplarVecs Vec),
      vecEntries (l.foldl (fun out p =>
        match p.2 with
        | none => out
        | some vec => addVec p.1.1 vec out) out) =
      (l.filterMap fun p => p.2.map fun vec => (p.1.1, vec) : List (Str × Vec)) +
        vecEntries out := by
    intro l
    induction l with
    | nil => simp
    | cons p l ih =>
        intro out
        obtain ⟨pair, vec⟩ := p
        cases vec with
        | none => simpa using ih out
        | some vec =>
            rw [List.foldl_cons, ih]
            simp only [vecEntries_addVec, List.filterMap_cons, Option.map_some]
            rw [← Multiset.cons_coe, Multiset.add_cons, Multiset.cons_add]
  rw [collectVecs, hfold]
  simp [vecEntries]

/-- The answers when all or none of the texts are found. -/
theorem answer_all {texts : List Str} {found : ℕ → Bool} {b : Bool}
    (h : ∀ i < texts.length, found i = b) (f : Str → Vec) :
    (texts.mapIdx fun i text => if found i then some (f text) else none) =
      texts.map fun text => if b then some (f text) else none := by
  refine List.ext_getElem (by simp) fun i hi hi' => ?_
  simp only [List.getElem_mapIdx, List.getElem_map, h i (by simpa using hi)]

variable {embed}

theorem embedBatch_obtains {upstreamModel : Str} {texts : List Str} {outcome : EmbedOutcome}
    (h : outcome.Obtains texts.length) : embedBatch embed upstreamModel texts outcome =
      texts.map fun text => some (exemplarVec embed upstreamModel text) := by
  simp only [embedBatch]
  obtain hbatch | ⟨hbatch, hitem⟩ := h
  · rw [answer_all hbatch]
    cases texts with
    | nil => rfl
    | cons text texts => simp
  · rw [answer_all hbatch, answer_all hitem]
    simp

theorem embedBatch_obtainsNone {upstreamModel : Str} {texts : List Str} {outcome : EmbedOutcome}
    (h : outcome.ObtainsNone texts.length) :
    embedBatch embed upstreamModel texts outcome = texts.map fun _ => none := by
  simp only [embedBatch]
  rw [answer_all fun i hi => (h i hi).1, answer_all fun i hi => (h i hi).2]
  simp

/-- A build that obtains everything holds the vector of every exemplar. -/
theorem vecEntries_buildVecs {upstreamModel : Str} {pairs : List (Str × Str)}
    {outcome : EmbedOutcome} (h : outcome.Obtains pairs.length) :
    vecEntries (buildVecs embed upstreamModel pairs outcome) =
      (pairs.map fun p => (p.1, exemplarVec embed upstreamModel p.2) : List (Str × Vec)) := by
  have hzip : ∀ l : List (Str × Str),
      ((l.zip ((l.map Prod.snd).map fun text => some (exemplarVec embed upstreamModel text))).filterMap
        fun p => p.2.map fun vec => (p.1.1, vec)) =
      l.map fun p => (p.1, exemplarVec embed upstreamModel p.2) := by
    intro l
    induction l with
    | nil => rfl
    | cons p l ih => simpa using ih
  rw [buildVecs, vecEntries_collectVecs, embedBatch_obtains (by simpa using h), hzip]

/-- A build that obtains nothing is empty. -/
theorem buildVecs_obtainsNone {upstreamModel : Str} {pairs : List (Str × Str)}
    {outcome : EmbedOutcome} (h : outcome.ObtainsNone pairs.length) :
    buildVecs embed upstreamModel pairs outcome = [] := by
  have hzip : ∀ (l : List (Str × Str)) (out : ExemplarVecs Vec),
      ((l.zip ((l.map Prod.snd).map fun _ => none)).foldl (fun out p =>
        match p.2 with
        | none => out
        | some vec => addVec p.1.1 vec out) out) = out := by
    intro l
    induction l with
    | nil => exact fun _ => rfl
    | cons p l ih => exact fun out => ih out
  rw [buildVecs, embedBatch_obtainsNone (by simpa using h), collectVecs]
  exact hzip pairs []

end

/-! ### The store -/

/-- A build under way: what was read when nothing was found in the cache. -/
structure ExemplarBuild where
  routeId : ℤ
  version : ℤ
  modelId : ℤ
  upstreamModel : Str
  pairs : List (Str × Str)

/-- The vectors a build is to get. -/
def ExemplarBuild.vecs {Vec : Type} (embed : Str → Str → Vec) (b : ExemplarBuild) :
    Multiset (Str × Vec) :=
  (b.pairs.map fun p => (p.1, exemplarVec embed b.upstreamModel p.2) : List (Str × Vec))

/-- The catalog, the cache in Redis, and the builds under way. -/
structure SmartStore (Vec : Type) where
  catalog : Catalog
  cache : ℤ → ℤ → Option (ExemplarVecs Vec)
  builds : List ExemplarBuild

/-- What happens to the store. -/
inductive SmartLabel where
  /-- A request to the admin API. -/
  | admin (l : CatalogLabel)
  /-- A classification, or the warm-up of a route, looks into the cache. -/
  | load (routeId : ℤ)
  /-- A build gets its vectors, and writes them unless Redis fails. -/
  | finish (k : ℕ) (outcome : EmbedOutcome) (stored : Bool)
  /-- An entry of the cache expires. -/
  | expire (routeId version : ℤ)

namespace SmartStore
variable {Vec : Type} (embed : Str → Str → Vec)

/-- Nothing is there yet. -/
def start : SmartStore Vec := ⟨.empty, fun _ _ => none, []⟩

/-- A route looks for its vectors: on a miss a build begins, if there is an embedding model
and something to embed. -/
def load (routeId : ℤ) (s : SmartStore Vec) : SmartStore Vec :=
  match s.catalog.routes.get? routeId with
  | none => s
  | some route =>
      match route.smartEmbeddingModelId.bind s.catalog.models.get? with
      | none => s
      | some model =>
          let pairs := exemplarPairs route.smartExemplars
          if (s.cache route.id route.smartEmbeddingVersion).isSome || pairs.isEmpty then s
          else
            { s with builds := ⟨route.id, route.smartEmbeddingVersion, model.id,
                model.upstreamModel, pairs⟩ :: s.builds }

/-- What is cached for a version of the exemplars of a route is set. -/
def setCache (routeId version : ℤ) (entry : Option (ExemplarVecs Vec)) (s : SmartStore Vec) :
    SmartStore Vec :=
  { s with cache := (Function.update s.cache routeId
      (Function.update (s.cache routeId) version entry)) }

/-- A build ends; what it got is written when it is not empty. -/
def finish (b : ExemplarBuild) (k : ℕ) (outcome : EmbedOutcome) (stored : Bool)
    (s : SmartStore Vec) : SmartStore Vec :=
  let out := buildVecs embed b.upstreamModel b.pairs outcome
  let s := { s with builds := s.builds.eraseIdx k }
  if stored && !out.isEmpty then s.setCache b.routeId b.version (some out) else s

/-- One label; a build that is not under way cannot end. -/
def step (s : SmartStore Vec) : SmartLabel → Option (SmartStore Vec)
  | .admin l => (s.catalog.step l).map fun catalog => { s with catalog }
  | .load routeId => some (s.load routeId)
  | .finish k outcome stored =>
      match s.builds[k]? with
      | none => none
      | some b => some (s.finish embed b k outcome stored)
  | .expire routeId version => some (s.setCache routeId version none)

/-- The vectors a classification of a route uses. -/
def usedVecs (s : SmartStore Vec) (route : Admin.RoutePolicy) (model : Admin.Model)
    (outcome : EmbedOutcome) : ExemplarVecs Vec :=
  match s.cache route.id route.smartEmbeddingVersion with
  | some out => out
  | none => buildVecs embed model.upstreamModel (exemplarPairs route.smartExemplars) outcome

/-- Whenever the vectors can be obtained, a classification uses those of all the exemplars that
its route has now, under what its embedding model is now. -/
def ClassifiesCurrent (s : SmartStore Vec) : Prop :=
  ∀ route ∈ s.catalog.routes.rows, ∀ model ∈ s.catalog.models.rows,
    route.smartEmbeddingModelId = some model.id → ∀ outcome : EmbedOutcome,
      outcome.Obtains (exemplarPairs route.smartExemplars).length →
        vecEntries (s.usedVecs embed route model outcome) = currentVecs embed route model

/-- Something is cached for a version of a route, or will be. -/
def Holds (s : SmartStore Vec) (routeId version : ℤ) : Prop :=
  (s.cache routeId version).isSome = true ∨
    ∃ b ∈ s.builds, b.routeId = routeId ∧ b.version = version

/-- An update gives no new upstream model to an embedding model while something is held for
the version of a route that uses it, and what a build writes for the version that its route
has is all of it. -/
def KeepsCurrent (s : SmartStore Vec) : SmartLabel → Prop
  | .admin (.updateModel mid req) =>
      (CatalogLabel.updateModel mid req).Accepted s.catalog →
        ∀ model ∈ s.catalog.models.get? mid, model.upstreamModel ≠ req.upstreamModel →
          ∀ route ∈ s.catalog.routes.rows, route.smartEmbeddingModelId = some mid →
            ¬s.Holds route.id route.smartEmbeddingVersion
  | .finish k outcome stored =>
      stored = true → ∀ b ∈ s.builds[k]?, ∀ route ∈ s.catalog.routes.rows,
        b.routeId = route.id → b.version = route.smartEmbeddingVersion →
          outcome.Obtains b.pairs.length ∨ outcome.ObtainsNone b.pairs.length
  | _ => True

/-! ### Every version has its own exemplars -/

section
variable {cat after : Catalog} {l : CatalogLabel}

/-- What an edit makes of a route that was there. -/
inductive RouteEdit (route route' : Admin.RoutePolicy) : Prop where
  /-- A new version. -/
  | newVersion (h : route'.smartEmbeddingVersion = route.smartEmbeddingVersion + 1)
  /-- The exemplars stay, and so does the embedding model unless it was deleted. -/
  | sameVersion (hversion : route'.smartEmbeddingVersion = route.smartEmbeddingVersion)
      (hexemplars : (route'.smartExemplars : Multiset RouteExemplar) = route.smartExemplars)
      (hmodel : ∀ mid ∈ route'.smartEmbeddingModelId, mid ∈ route.smartEmbeddingModelId)

theorem RouteEdit.refl (route : Admin.RoutePolicy) : RouteEdit route route :=
  .sameVersion rfl rfl fun _ h => h

/-- An update keeps the version only when it keeps the exemplars and the embedding model. -/
theorem routeEdit_setRoute (route : Admin.RoutePolicy) (req : Admin.RoutePolicyIn)
    (scope : RouteScope) : RouteEdit route ((Catalog.setRoute req scope).1 route) := by
  by_cases h : exemplarFingerprint route.smartEmbeddingModelId route.smartExemplars =
      exemplarFingerprint req.smartEmbeddingModelId req.smartExemplars
  · have hversion : nextVersion route req = route.smartEmbeddingVersion := if_neg (not_not.mpr h)
    obtain ⟨hmodel, hexemplars⟩ := Prod.mk.inj h
    exact .sameVersion hversion hexemplars.symm fun mid hmid => hmodel.symm ▸ hmid
  · exact .newVersion (if_pos h)

theorem routeEdit_forgetModel (route : Admin.RoutePolicy) (mid : ℤ) :
    RouteEdit route ((Catalog.forgetModel mid).1 route) :=
  .sameVersion rfl rfl fun _ h => (Option.mem_filter_iff.mp h).1

/-- The routes after a request are those from before, edited, and a new one. -/
theorem routes_step (hstep : cat.step l = some after) :
    cat.routes.nextId ≤ after.routes.nextId ∧ ∀ route' ∈ after.routes.rows,
      route'.id = cat.routes.nextId ∨
        ∃ route ∈ cat.routes.rows, route.id = route'.id ∧ RouteEdit route route' := by
  have hsame : cat.routes.nextId ≤ cat.routes.nextId ∧ ∀ route' ∈ cat.routes.rows,
      route'.id = cat.routes.nextId ∨
        ∃ route ∈ cat.routes.rows, route.id = route'.id ∧ RouteEdit route route' :=
    ⟨le_rfl, fun route hroute => .inr ⟨route, hroute, rfl, .refl route⟩⟩
  obtain hok | ⟨rfl, -⟩ := Catalog.step_eq_some.mp hstep
  swap
  · exact hsame
  cases l with
  | createRoute req =>
      obtain ⟨-, scope, rfl⟩ := Catalog.createRoute_ok hok
      refine ⟨(Int.lt_succ _).le, fun route' hroute' => ?_⟩
      obtain hroute' | rfl := (SerialTable.mem_insert fun _ => rfl).mp hroute'
      · exact .inr ⟨route', hroute', rfl, .refl route'⟩
      · exact .inl rfl
  | updateRoute rid req =>
      obtain ⟨-, -, scope, rfl⟩ := Catalog.updateRoute_ok hok
      refine ⟨le_rfl, fun route' hroute' => .inr ?_⟩
      obtain ⟨route, hroute, rfl⟩ := SerialTable.mem_update.mp hroute'
      refine ⟨route, hroute, ?_⟩
      split_ifs
      · exact ⟨rfl, routeEdit_setRoute route req scope⟩
      · exact ⟨rfl, .refl route⟩
  | createModel req =>
      obtain ⟨-, rfl⟩ := Catalog.createModel_ok hok
      exact hsame
  | updateModel mid req =>
      obtain ⟨-, -, rfl⟩ := Catalog.updateModel_ok hok
      exact hsame
  | deleteModel mid =>
      obtain rfl := Catalog.deleteModel_ok hok
      refine ⟨le_rfl, fun route' hroute' => .inr ?_⟩
      obtain ⟨route, hroute, rfl⟩ := SerialTable.mem_updateAll.mp hroute'
      exact ⟨route, hroute, rfl, routeEdit_forgetModel route mid⟩
  | createChannel req =>
      obtain ⟨protocol, connector, -, -, rfl⟩ := Catalog.createChannel_ok hok
      exact hsame
  | updateChannel cid req =>
      obtain ⟨protocol, connector, -, -, -, rfl⟩ := Catalog.updateChannel_ok hok
      exact hsame

/-- The models after a request are a new one and those from before, with their upstream model
unless the request updates it. -/
theorem models_step (hstep : cat.step l = some after) :
    cat.models.nextId ≤ after.models.nextId ∧ ∀ model' ∈ after.models.rows,
      model'.id = cat.models.nextId ∨
        ∃ model ∈ cat.models.rows, model.id = model'.id ∧
          (model'.upstreamModel = model.upstreamModel ∨ l.Accepted cat ∧
            ∃ req, l = .updateModel model.id req ∧ model'.upstreamModel = req.upstreamModel) := by
  have hsame : ∀ models : SerialTable Admin.Model,
      (∀ model ∈ models.rows, model ∈ cat.models.rows) →
        ∀ model' ∈ models.rows, model'.id = cat.models.nextId ∨ ∃ model ∈ cat.models.rows, model.id = model'.id ∧
          (model'.upstreamModel = model.upstreamModel ∨ l.Accepted cat ∧
            ∃ req, l = .updateModel model.id req ∧ model'.upstreamModel = req.upstreamModel) :=
    fun models hsub model hmodel => .inr ⟨model, hsub model hmodel, rfl, .inl rfl⟩
  obtain hok | ⟨rfl, -⟩ := Catalog.step_eq_some.mp hstep
  swap
  · exact ⟨le_rfl, hsame _ fun _ h => h⟩
  cases l with
  | createRoute req =>
      obtain ⟨-, scope, rfl⟩ := Catalog.createRoute_ok hok
      exact ⟨le_rfl, hsame _ fun _ h => h⟩
  | updateRoute rid req =>
      obtain ⟨-, -, scope, rfl⟩ := Catalog.updateRoute_ok hok
      exact ⟨le_rfl, hsame _ fun _ h => h⟩
  | createModel req =>
      obtain ⟨-, rfl⟩ := Catalog.createModel_ok hok
      refine ⟨(Int.lt_succ _).le, fun model' hmodel' => ?_⟩
      obtain hmodel' | rfl := (SerialTable.mem_insert fun _ => rfl).mp hmodel'
      · exact hsame cat.models (fun _ h => h) model' hmodel'
      · exact .inl rfl
  | updateModel mid req =>
      have haccepted : (CatalogLabel.updateModel mid req).Accepted cat := ⟨after, hok⟩
      obtain ⟨-, -, rfl⟩ := Catalog.updateModel_ok hok
      refine ⟨le_rfl, fun model' hmodel' => .inr ?_⟩
      obtain ⟨model, hmodel, rfl⟩ := SerialTable.mem_update.mp hmodel'
      refine ⟨model, hmodel, ?_⟩
      split_ifs with hmid
      · exact ⟨rfl, .inr ⟨haccepted, req, by rw [← hmid]; rfl, rfl⟩⟩
      · exact ⟨rfl, .inl rfl⟩
  | deleteModel mid =>
      obtain rfl := Catalog.deleteModel_ok hok
      exact ⟨le_rfl, hsame _ fun _ h => (SerialTable.mem_delete.mp h).1⟩
  | createChannel req =>
      obtain ⟨protocol, connector, -, -, rfl⟩ := Catalog.createChannel_ok hok
      exact ⟨le_rfl, hsame _ fun _ h => h⟩
  | updateChannel cid req =>
      obtain ⟨protocol, connector, -, -, -, rfl⟩ := Catalog.updateChannel_ok hok
      exact ⟨le_rfl, hsame _ fun _ h => h⟩

end

/-! ### What is held for the current version -/

variable {embed : Str → Str → Vec} {s s' : SmartStore Vec} {cat after : Catalog}
  {l : CatalogLabel} {routeId version : ℤ} {vecs : Multiset (Str × Vec)}

variable (embed) in
/-- What is cached for a version of a route, or what a build under way would get for it. -/
def Held (s : SmartStore Vec) (routeId version : ℤ) (vecs : Multiset (Str × Vec)) : Prop :=
  (∃ out, s.cache routeId version = some out ∧ vecEntries out = vecs) ∨
    ∃ b ∈ s.builds, b.routeId = routeId ∧ b.version = version ∧ b.vecs embed = vecs

theorem Held.holds (h : s.Held embed routeId version vecs) : s.Holds routeId version := by
  obtain ⟨out, hcache, -⟩ | ⟨b, hb, hid, hversion, -⟩ := h
  · exact .inl (by rw [hcache]; rfl)
  · exact .inr ⟨b, hb, hid, hversion⟩

variable (embed) in
/-- What may be held for a version of a route: no version that is still to come, and for the
version that the route has, what its embedding model makes of its exemplars. -/
structure HeldWell (cat : Catalog) (routeId version : ℤ) (vecs : Multiset (Str × Vec)) :
    Prop where
  known : routeId < cat.routes.nextId
  notLater : ∀ route ∈ cat.routes.rows, route.id = routeId → version ≤ route.smartEmbeddingVersion
  model : ∀ route ∈ cat.routes.rows, route.id = routeId → route.smartEmbeddingVersion = version →
    ∀ mid ∈ route.smartEmbeddingModelId, mid < cat.models.nextId
  current : ∀ route ∈ cat.routes.rows, route.id = routeId →
    route.smartEmbeddingVersion = version → ∀ model ∈ cat.models.rows,
      route.smartEmbeddingModelId = some model.id → vecs = currentVecs embed route model

/-- The vectors depend on the exemplars in whatever order, and on the upstream model. -/
theorem currentVecs_congr {route route' : Admin.RoutePolicy} {model model' : Admin.Model}
    (hexemplars : (route'.smartExemplars : Multiset RouteExemplar) = route.smartExemplars)
    (hupstream : model'.upstreamModel = model.upstreamModel) :
    currentVecs embed route' model' = currentVecs embed route model := by
  have hperm := Multiset.coe_eq_coe.mp hexemplars
  rw [currentVecs, currentVecs, hupstream]
  exact Multiset.coe_eq_coe.mpr (((hperm.map _).filter _).map _)

/-- **One edit** keeps what is held, unless it gives the embedding model of the version another
upstream model. -/
theorem HeldWell.step (h : HeldWell embed cat routeId version vecs)
    (hstep : cat.step l = some after)
    (hkeeps : ∀ mid req, l = .updateModel mid req → l.Accepted cat →
      ∀ model ∈ cat.models.get? mid, model.upstreamModel ≠ req.upstreamModel →
        ∀ route ∈ cat.routes.rows, route.smartEmbeddingModelId = some mid →
          route.id = routeId → route.smartEmbeddingVersion ≠ version) :
    HeldWell embed after routeId version vecs := by
  obtain ⟨hnext, hroutes⟩ := routes_step hstep
  obtain ⟨hnextModel, hmodels⟩ := models_step hstep
  -- a route of this id was there before
  have hbefore : ∀ route' ∈ after.routes.rows, route'.id = routeId →
      ∃ route ∈ cat.routes.rows, route.id = routeId ∧ RouteEdit route route' := by
    intro route' hroute' hid
    obtain hfresh | ⟨route, hroute, hsame, hedit⟩ := hroutes route' hroute'
    · exact absurd h.known (by omega)
    · exact ⟨route, hroute, hsame.trans hid, hedit⟩
  -- and if it has the version now, it had it before
  have hversion : ∀ route' ∈ after.routes.rows, route'.id = routeId →
      route'.smartEmbeddingVersion = version → ∃ route ∈ cat.routes.rows, route.id = routeId ∧
        route.smartEmbeddingVersion = version ∧
        (route'.smartExemplars : Multiset RouteExemplar) = route.smartExemplars ∧
        ∀ mid ∈ route'.smartEmbeddingModelId, mid ∈ route.smartEmbeddingModelId := by
    intro route' hroute' hid hnow
    obtain ⟨route, hroute, hid, hedit⟩ := hbefore route' hroute' hid
    have hle := h.notLater route hroute hid
    cases hedit with
    | newVersion hnew => omega
    | sameVersion hsame hexemplars hmodel =>
        exact ⟨route, hroute, hid, hsame.symm.trans hnow, hexemplars, hmodel⟩
  refine ⟨h.known.trans_le hnext, fun route' hroute' hid => ?_,
    fun route' hroute' hid hnow mid hmid => ?_,
    fun route' hroute' hid hnow model' hmodel' hembedding => ?_⟩
  · obtain ⟨route, hroute, hid, hedit⟩ := hbefore route' hroute' hid
    have hle := h.notLater route hroute hid
    cases hedit with
    | newVersion hnew => omega
    | sameVersion hsame => omega
  · obtain ⟨route, hroute, hid, hwas, -, hmodel⟩ := hversion route' hroute' hid hnow
    exact (h.model route hroute hid hwas mid (hmodel mid hmid)).trans_le hnextModel
  · obtain ⟨route, hroute, hid, hwas, hexemplars, hmodel⟩ := hversion route' hroute' hid hnow
    have hembeddingWas := hmodel _ hembedding
    have hlt := h.model route hroute hid hwas _ hembeddingWas
    obtain hfresh | ⟨model, hmem, hsame, hupstream⟩ := hmodels model' hmodel'
    · exact absurd hlt (by omega)
    rw [← hsame] at hembeddingWas
    rw [h.current route hroute hid hwas model hmem hembeddingWas]
    refine (currentVecs_congr hexemplars ?_).symm
    obtain hupstream | ⟨haccepted, req, hupdate, hupstream⟩ := hupstream
    · exact hupstream
    · by_contra hne
      rw [hupstream] at hne
      exact hkeeps model.id req hupdate haccepted model (SerialTable.get?_of_mem hmem) (Ne.symm hne)
        route hroute hembeddingWas hid hwas

variable (embed) in
/-- Everything that is held may be. -/
def Coherent (s : SmartStore Vec) : Prop :=
  ∀ routeId version vecs, s.Held embed routeId version vecs →
    HeldWell embed s.catalog routeId version vecs

/-- A build that begins is to get what its route and its model say. -/
theorem heldWell_of_mem {route : Admin.RoutePolicy} {model : Admin.Model}
    (hroute : route ∈ cat.routes.rows) (hmodel : model ∈ cat.models.rows)
    (hembedding : route.smartEmbeddingModelId = some model.id) :
    HeldWell embed cat route.id route.smartEmbeddingVersion (currentVecs embed route model) := by
  have honly : ∀ other ∈ cat.routes.rows, other.id = route.id → other = route :=
    fun other hother hid => Option.some.inj
      ((SerialTable.get?_eq_some.mpr ⟨hother, hid⟩).symm.trans (SerialTable.get?_of_mem hroute))
  refine ⟨SerialTable.rowId_lt hroute, fun other hother hid => ?_,
    fun other hother hid _ mid hmid => ?_, fun other hother hid _ model' hmodel' h => ?_⟩
  · rw [honly other hother hid]
  · rw [honly other hother hid, hembedding] at hmid
    obtain rfl := Option.some.inj hmid
    exact SerialTable.rowId_lt hmodel
  · rw [honly other hother hid] at h ⊢
    have hsame : model'.id = model.id := Option.some.inj (h.symm.trans hembedding)
    have hget := SerialTable.get?_of_mem hmodel
    obtain rfl := Option.some.inj
      (hget.symm.trans (SerialTable.get?_eq_some.mpr ⟨hmodel', hsame⟩))
    rfl

/-- What is cached after an entry is set. -/
theorem setCache_cache (entry : Option (ExemplarVecs Vec)) (routeId' version' : ℤ) :
    (s.setCache routeId version entry).cache routeId' version' =
      if routeId' = routeId ∧ version' = version then entry else s.cache routeId' version' := by
  rw [setCache]
  by_cases hid : routeId' = routeId
  · subst hid
    by_cases hversion : version' = version
    · simp [hversion]
    · simp [hversion]
  · simp [hid]

/-- A look-up begins at most the build of the exemplars that a route has now. -/
theorem load_cases (s : SmartStore Vec) (routeId : ℤ) : s.load routeId = s ∨
    ∃ route ∈ s.catalog.routes.rows, ∃ model ∈ s.catalog.models.rows,
      route.smartEmbeddingModelId = some model.id ∧
      s.load routeId = { s with builds := ⟨route.id, route.smartEmbeddingVersion, model.id,
        model.upstreamModel, exemplarPairs route.smartExemplars⟩ :: s.builds } := by
  rw [load]
  split
  · exact .inl rfl
  · next route hroute =>
    split
    · exact .inl rfl
    · next model hmodel =>
      dsimp only
      split_ifs
      · exact .inl rfl
      · obtain ⟨mid, hmid, hget⟩ := Option.bind_eq_some_iff.mp hmodel
        obtain ⟨hmem, rfl⟩ := SerialTable.get?_eq_some.mp hget
        exact .inr ⟨route, (SerialTable.get?_eq_some.mp hroute).1, model, hmem, hmid, rfl⟩

theorem coherent_load (h : Coherent embed s) (routeId : ℤ) : Coherent embed (s.load routeId) := by
  obtain heq | ⟨route, hroute, model, hmodel, hembedding, heq⟩ := load_cases s routeId
  · rw [heq]
    exact h
  · rw [heq]
    rintro routeId version vecs (hcached | ⟨b, hb, rfl, rfl, rfl⟩)
    · exact h _ _ _ (.inl hcached)
    · obtain rfl | hb := List.mem_cons.mp hb
      · exact heldWell_of_mem hroute hmodel hembedding
      · exact h _ _ _ (.inr ⟨b, hb, rfl, rfl, rfl⟩)

theorem coherent_finish {b : ExemplarBuild} {k : ℕ} {outcome : EmbedOutcome} {stored : Bool}
    (h : Coherent embed s) (hb : s.builds[k]? = some b)
    (hkeeps : s.KeepsCurrent (.finish k outcome stored)) :
    Coherent embed (s.finish embed b k outcome stored) := by
  have hbuild := h _ _ _ (.inr ⟨b, List.mem_of_getElem? hb, rfl, rfl, rfl⟩)
  have herase : Coherent embed { s with builds := s.builds.eraseIdx k } := by
    rintro routeId version vecs (hcached | ⟨b', hb', hheld⟩)
    · exact h _ _ _ (.inl hcached)
    · exact h _ _ _ (.inr ⟨b', List.mem_of_mem_eraseIdx hb', hheld⟩)
  simp only [finish]
  split_ifs with hstored
  swap
  · exact herase
  obtain ⟨hstored, hout⟩ := Bool.and_eq_true_iff.mp hstored
  rintro routeId version vecs (⟨out, hcache, rfl⟩ | hheld)
  swap
  · exact herase _ _ _ (.inr hheld)
  rw [setCache_cache] at hcache
  split_ifs at hcache with hkey
  swap
  · exact herase _ _ _ (.inl ⟨out, hcache, rfl⟩)
  obtain ⟨rfl, rfl⟩ := hkey
  obtain rfl := Option.some.inj hcache
  refine ⟨hbuild.known, hbuild.notLater, hbuild.model,
    fun route hroute hid hversion model hmodel hembedding => ?_⟩
  obtain hall | hnone := hkeeps hstored b hb route hroute hid.symm hversion.symm
  · rw [vecEntries_buildVecs hall]
    exact hbuild.current route hroute hid hversion model hmodel hembedding
  · rw [buildVecs_obtainsNone hnone] at hout
    cases hout

theorem coherent_setCache_none (h : Coherent embed s) (routeId version : ℤ) :
    Coherent embed (s.setCache routeId version none) := by
  rintro routeId' version' vecs (⟨out, hcache, rfl⟩ | hheld)
  · rw [setCache_cache] at hcache
    split_ifs at hcache
    exact h _ _ _ (.inl ⟨out, hcache, rfl⟩)
  · exact h _ _ _ (.inr hheld)

/-- **One step** that keeps what is current keeps the store coherent. -/
theorem coherent_step {a : SmartLabel} (hkeeps : s.KeepsCurrent a) (h : Coherent embed s)
    (hstep : s.step embed a = some s') : Coherent embed s' := by
  cases a with
  | admin l =>
      obtain ⟨catalog, hcatalog, rfl⟩ := Option.map_eq_some_iff.mp hstep
      intro routeId version vecs hheld
      refine (h _ _ _ hheld).step hcatalog ?_
      rintro mid req rfl haccepted model hmodel hne route hroute hembedding rfl rfl
      exact hkeeps haccepted model hmodel hne route hroute hembedding (Held.holds hheld)
  | load routeId =>
      obtain rfl := Option.some.inj hstep
      exact coherent_load h routeId
  | finish k outcome stored =>
      rw [step] at hstep
      cases hb : s.builds[k]? with
      | none =>
          rw [hb] at hstep
          cases hstep
      | some b =>
          rw [hb] at hstep
          obtain rfl := Option.some.inj hstep
          exact coherent_finish h hb hkeeps
  | expire routeId version =>
      obtain rfl := Option.some.inj hstep
      exact coherent_setCache_none h routeId version

/-- In a coherent store a classification uses what is current. -/
theorem Coherent.classifiesCurrent (h : Coherent embed s) : s.ClassifiesCurrent embed := by
  intro route hroute model hmodel hembedding outcome hobtains
  rw [usedVecs]
  cases hcache : s.cache route.id route.smartEmbeddingVersion with
  | some out =>
      exact (h _ _ _ (.inl ⟨out, hcache, rfl⟩)).current route hroute rfl rfl model hmodel hembedding
  | none => exact vecEntries_buildVecs hobtains

/-- **Classifications use current vectors**, in every state of a run of edits, look-ups and
builds, when no update gives an embedding model another upstream model while a route holds
vectors of it, and no build writes a part of the exemplars for the version that its route
has. -/
theorem classifiesCurrent_of_keepsCurrent (embed : Str → Str → Vec) (labels : List SmartLabel)
    {t : SmartStore Vec} (hkeeps : Along (step embed) KeepsCurrent labels start)
    (hrun : run (step embed) labels start = some t) : t.ClassifiesCurrent embed := by
  refine Coherent.classifiesCurrent (run_induction_along
    (fun _ _ _ hkeeps h hstep => coherent_step hkeeps h hstep) hkeeps ?_ hrun)
  rintro routeId version vecs (⟨out, hcache, -⟩ | ⟨b, hb, -⟩)
  · cases hcache
  · cases hb

/-- A model of the first channel. -/
def exemplarModel (upstreamModel kind : String) : Admin.ModelIn where
  code := str kind
  channelId := 1
  upstreamModel := str upstreamModel
  kind := str kind

/-- A smart route whose exemplars the second model embeds. -/
def greetingRoute : Admin.RoutePolicyIn where
  userFacingModel := str "auto"
  strategy := .smart
  targets := [{ modelId := 1, label := some (str "cheap") }]
  smartEmbeddingModelId := some 2
  smartExemplars := [⟨str "cheap", str "hi"⟩, ⟨str "cheap", str "bye"⟩]

/-- The route is set up. -/
def greetingSetup : List SmartLabel :=
  [.admin (.createChannel { baseUrl := str "https://api.openai.com" }),
    .admin (.createModel (exemplarModel "gpt" "chat")),
    .admin (.createModel (exemplarModel "small" "embedding")), .admin (.createRoute greetingRoute)]

/-- What a run caches for the first version of the first route. -/
def greetingVecs (labels : List SmartLabel) : Option (ExemplarVecs (Str × Str)) :=
  (run (step Prod.mk) (greetingSetup ++ labels) start).bind fun t => t.cache 1 1

/-- Both vectors are built, and used. -/
theorem classifiesCurrent_of_built :
    greetingVecs [.load 1, .finish 0 ⟨fun _ => true, fun _ => true⟩ true] =
        some [(str "cheap", [(str "small", str "hi"), (str "small", str "bye")])] ∧
      ∀ t, run (step Prod.mk)
          (greetingSetup ++ [.load 1, .finish 0 ⟨fun _ => true, fun _ => true⟩ true]) start =
        some t → t.ClassifiesCurrent Prod.mk := by
  refine ⟨by decide +kernel, fun t hrun => classifiesCurrent_of_keepsCurrent Prod.mk _ ?_ hrun⟩
  refine ⟨trivial, fun _ _ => ⟨trivial, fun _ _ => ⟨trivial, fun _ _ => ⟨trivial, fun _ _ =>
    ⟨trivial, fun _ _ => ⟨?_, fun _ _ => trivial⟩⟩⟩⟩⟩⟩
  exact fun _ _ _ _ _ _ _ => .inl (.inl fun _ _ => rfl)

/-- Some route uses vectors that are not those of its embedding model. -/
def ServesStale (t : SmartStore (Str × Str)) : Bool :=
  t.catalog.routes.rows.any fun route => t.catalog.models.rows.any fun model =>
    route.smartEmbeddingModelId = some model.id &&
      vecEntries (t.usedVecs Prod.mk route model ⟨fun _ => true, fun _ => true⟩) ≠
        currentVecs Prod.mk route model

theorem ServesStale.not_classifiesCurrent {t : SmartStore (Str × Str)}
    (h : ServesStale t = true) : ¬t.ClassifiesCurrent Prod.mk := by
  intro hall
  obtain ⟨route, hroute, h⟩ := List.any_eq_true.mp h
  obtain ⟨model, hmodel, h⟩ := List.any_eq_true.mp h
  obtain ⟨hembedding, hne⟩ := Bool.and_eq_true_iff.mp h
  exact of_decide_eq_true hne (hall route hroute model hmodel (of_decide_eq_true hembedding) _
    (.inl fun _ _ => rfl))

/-- The embedding model gets another upstream model: no version is new, and the route keeps the
vectors of the old one. -/
theorem upstreamModel_stale :
    ∃ t, run (step Prod.mk) (greetingSetup ++ [.load 1,
        .finish 0 ⟨fun _ => true, fun _ => true⟩ true,
        .admin (.updateModel 2 (exemplarModel "large" "embedding"))]) start = some t ∧
      ¬t.ClassifiesCurrent Prod.mk := by
  have hstale : (run (step Prod.mk) (greetingSetup ++ [.load 1,
      .finish 0 ⟨fun _ => true, fun _ => true⟩ true,
      .admin (.updateModel 2 (exemplarModel "large" "embedding"))]) start).any ServesStale =
        true := by
    decide +kernel
  obtain ⟨t, hrun, ht⟩ := (Option.any_eq_true _ _).mp hstale
  exact ⟨t, hrun, ServesStale.not_classifiesCurrent ht⟩

/-- A batch that misses one text is kept, though the text can be had again. -/
theorem partialBatch_stale :
    ∃ t, run (step Prod.mk) (greetingSetup ++ [.load 1,
        .finish 0 ⟨fun i => i = 0, fun _ => true⟩ true]) start = some t ∧
      ¬t.ClassifiesCurrent Prod.mk := by
  have hstale : (run (step Prod.mk) (greetingSetup ++ [.load 1,
      .finish 0 ⟨fun i => i = 0, fun _ => true⟩ true]) start).any ServesStale = true := by
    decide +kernel
  obtain ⟨t, hrun, ht⟩ := (Option.any_eq_true _ _).mp hstale
  exact ⟨t, hrun, ServesStale.not_classifiesCurrent ht⟩

end SmartStore
end Llmxy
