import Llmxy.Admin.Catalog

/-!
# Models of a route's modality

A route is bound to one modality, and its endpoints check the kind of every model it refers to.
The endpoint that changes a model does not look at the routes.

## Main definitions

* `OfModality` — the models that routes refer to are of their modality.
* `KeepsModality` — a request that keeps it so.
* `ofModality_iff` — when it is so in every state of a run.
-/

namespace Llmxy.Admin

/-- Every model that a route refers to has the kind of the route's modality. -/
def OfModality (cat : Catalog) : Prop :=
  ∀ route ∈ cat.routes.rows, ∀ m ∈ cat.models.rows, route.refers m.id → m.kind = route.modality

instance (cat : Catalog) : Decidable (OfModality cat) :=
  inferInstanceAs (Decidable (∀ route ∈ cat.routes.rows, ∀ m ∈ cat.models.rows, _ → _))

/-- A route that is written names models with a kind, and a model that some route refers to
keeps its kind. -/
def WritesOfKind (cat : Catalog) : CatalogLabel → Prop
  | .createRoute req | .updateRoute _ req =>
      ∀ m ∈ cat.models.rows, req.names m.id → m.kind ≠ []
  | .updateModel mid req =>
      ∀ m ∈ cat.models.get? mid, (∃ route ∈ cat.routes.rows, route.refers mid) → req.kind = m.kind
  | _ => True

/-- A request that is not refused writes so. -/
def KeepsModality (cat : Catalog) (l : CatalogLabel) : Prop := l.Accepted cat → WritesOfKind cat l

/-- The routes refer to ids that were given. -/
def RefersBack (cat : Catalog) : Prop :=
  ∀ route ∈ cat.routes.rows, ∀ modelId, route.refers modelId → modelId < cat.models.nextId

/-! ### Requests -/

section
variable {cat after : Catalog}

/-- An accepted route refers to models that exist and count as its modality. -/
theorem refers_of_validated {models : SerialTable Model} {req : RoutePolicyIn}
    {scope : RouteScope} {version id modelId : ℤ} (h : validateModality models req = .ok ())
    (href : (toOrm req scope version id).refers modelId) :
    ∃ m, models.get? modelId = some m ∧ textOr (str "chat") (some m.kind) = req.modality :=
  validateModality_ok h href

/-- A model that counts as a modality is of it exactly when it has a kind. -/
theorem kind_eq_iff {kind modality : Str} (h : textOr (str "chat") (some kind) = modality) :
    kind = modality ↔ kind ≠ [] := by
  cases kind with
  | nil =>
      obtain rfl := h
      exact iff_of_false (by decide) fun hne => hne rfl
  | cons c kind => exact iff_of_true h (List.cons_ne_nil c kind)

/-- A deleted model is no fallback. -/
theorem refers_forgetModel {mid modelId : ℤ} {route : RoutePolicy}
    (h : ((Catalog.forgetModel mid).1 route).refers modelId) : route.refers modelId :=
  h.imp_right fun hfallback => (Option.filter_eq_some_iff.mp hfallback).1

theorem refersBack_step {l : CatalogLabel} (h : RefersBack cat) (hstep : cat.step l = some after) :
    RefersBack after := by
  obtain hok | ⟨rfl, -⟩ := Catalog.step_eq_some.mp hstep
  swap
  · exact h
  have hvalidated : ∀ {req scope version id}, validateModality cat.models req = .ok () →
      ∀ modelId, (toOrm req scope version id).refers modelId → modelId < cat.models.nextId := by
    intro req scope version id hvalid modelId href
    obtain ⟨m, hm, -⟩ := refers_of_validated hvalid href
    exact SerialTable.lt_of_get? hm
  cases l with
  | createRoute req =>
      obtain ⟨hvalid, scope, rfl⟩ := Catalog.createRoute_ok hok
      intro route hroute modelId href
      obtain hroute | rfl := (SerialTable.mem_insert fun _ => rfl).mp hroute
      · exact h route hroute modelId href
      · exact hvalidated hvalid modelId href
  | updateRoute rid req =>
      obtain ⟨-, hvalid, scope, rfl⟩ := Catalog.updateRoute_ok hok
      intro route hroute modelId href
      obtain ⟨row, hrow, rfl⟩ := SerialTable.mem_update.mp hroute
      split_ifs at href
      · exact hvalidated hvalid modelId href
      · exact h row hrow modelId href
  | createModel req =>
      obtain ⟨-, rfl⟩ := Catalog.createModel_ok hok
      exact fun route hroute modelId href => (h route hroute modelId href).trans (Int.lt_succ _)
  | updateModel mid req =>
      obtain ⟨-, -, rfl⟩ := Catalog.updateModel_ok hok
      exact h
  | deleteModel mid =>
      obtain rfl := Catalog.deleteModel_ok hok
      intro route hroute modelId href
      obtain ⟨row, hrow, rfl⟩ := SerialTable.mem_updateAll.mp hroute
      exact h row hrow modelId (refers_forgetModel href)
  | createChannel req =>
      obtain ⟨protocol, connector, -, -, rfl⟩ := Catalog.createChannel_ok hok
      exact h
  | updateChannel cid req =>
      obtain ⟨protocol, connector, -, -, -, rfl⟩ := Catalog.updateChannel_ok hok
      exact h

/-- A route that is written is of its modality exactly when its models have a kind. -/
theorem ofModality_written {req : RoutePolicyIn} (hvalid : validateModality cat.models req = .ok ()) :
    (∀ m ∈ cat.models.rows, req.names m.id → m.kind = req.modality) ↔
      ∀ m ∈ cat.models.rows, req.names m.id → m.kind ≠ [] := by
  refine forall₂_congr fun m hm => forall_congr' fun href => ?_
  obtain ⟨m', hm', hkind⟩ := validateModality_ok hvalid href
  obtain rfl := Option.some.inj (hm'.symm.trans (SerialTable.get?_of_mem hm))
  exact kind_eq_iff hkind

/-- **One request** keeps the models of the routes of their modality exactly under its
condition. -/
theorem ofModality_step_iff {l : CatalogLabel} (hback : RefersBack cat) (h : OfModality cat)
    (hstep : cat.step l = some after) : OfModality after ↔ KeepsModality cat l := by
  obtain hok | ⟨rfl, e, herror⟩ := Catalog.step_eq_some.mp hstep
  swap
  · refine iff_of_true h ?_
    rintro ⟨_, hok⟩
    cases herror.symm.trans hok
  rw [KeepsModality, forall_prop_of_true ⟨after, hok⟩]
  cases l with
  | createRoute req =>
      obtain ⟨hvalid, scope, rfl⟩ := Catalog.createRoute_ok hok
      rw [WritesOfKind, ← ofModality_written hvalid]
      constructor
      · intro hall m hm href
        exact hall _ ((SerialTable.mem_insert fun _ => rfl).mpr (.inr rfl)) m hm href
      · intro hnew route hroute m hm href
        obtain hroute | rfl := (SerialTable.mem_insert fun _ => rfl).mp hroute
        · exact h route hroute m hm href
        · exact hnew m hm href
  | updateRoute rid req =>
      obtain ⟨⟨row, hrow⟩, hvalid, scope, rfl⟩ := Catalog.updateRoute_ok hok
      rw [WritesOfKind, ← ofModality_written hvalid]
      constructor
      · intro hall m hm href
        obtain ⟨hmem, hid⟩ := SerialTable.get?_eq_some.mp hrow
        exact hall _ (SerialTable.mem_update.mpr ⟨row, hmem, if_pos hid⟩) m hm href
      · intro hnew route hroute m hm href
        obtain ⟨row', hrow', rfl⟩ := SerialTable.mem_update.mp hroute
        split_ifs at href ⊢
        · exact hnew m hm href
        · exact h row' hrow' m hm href
  | createModel req =>
      obtain ⟨-, rfl⟩ := Catalog.createModel_ok hok
      refine iff_of_true (fun route hroute m hm href => ?_) trivial
      obtain hm | rfl := (SerialTable.mem_insert fun _ => rfl).mp hm
      · exact h route hroute m hm href
      · exact absurd (hback route hroute _ href) (lt_irrefl _)
  | updateModel mid req =>
      obtain ⟨-, ⟨m, hget⟩, rfl⟩ := Catalog.updateModel_ok hok
      obtain ⟨hm, hid⟩ := SerialTable.get?_eq_some.mp hget
      obtain rfl : m.id = mid := hid
      constructor
      · rintro hall m' hget' ⟨route, hroute, href⟩
        obtain rfl := Option.some.inj (hget.symm.trans hget')
        have hnew := hall route hroute _ (SerialTable.mem_update.mpr ⟨m, hm, if_pos rfl⟩)
        rw [h route hroute m hm href]
        exact hnew href
      · intro hkept route hroute m' hm' href
        obtain ⟨r, hr, rfl⟩ := SerialTable.mem_update.mp hm'
        split_ifs at href ⊢ with hrid
        · have hsame : r = m := Option.some.inj
            ((SerialTable.get?_eq_some.mpr ⟨hr, hrid⟩).symm.trans hget)
          subst hsame
          exact (hkept r hget ⟨route, hroute, href⟩).trans (h route hroute r hr href)
        · exact h route hroute r hr href
  | deleteModel mid =>
      obtain rfl := Catalog.deleteModel_ok hok
      refine iff_of_true (fun route hroute m hm href => ?_) trivial
      obtain ⟨row, hrow, rfl⟩ := SerialTable.mem_updateAll.mp hroute
      exact h row hrow m (SerialTable.mem_delete.mp hm).1 (refers_forgetModel href)
  | createChannel req =>
      obtain ⟨protocol, connector, -, -, rfl⟩ := Catalog.createChannel_ok hok
      exact iff_of_true h trivial
  | updateChannel cid req =>
      obtain ⟨protocol, connector, -, -, -, rfl⟩ := Catalog.updateChannel_ok hok
      exact iff_of_true h trivial

/-- **Routes refer to models of their modality alone**, in every state of a run from an empty
catalog, exactly when no accepted route names a model without a kind and no accepted update
changes the kind of a model that a route refers to. -/
theorem ofModality_iff (labels : List CatalogLabel) :
    (∀ prefixes cat, prefixes <+: labels → run Catalog.step prefixes .empty = some cat →
        OfModality cat) ↔
      Along Catalog.step KeepsModality labels .empty := by
  refine forall_prefix_iff_along (J := RefersBack) (I := OfModality)
    (fun _ _ _ hJ hstep => refersBack_step hJ hstep) ?_
    (fun _ _ _ hJ hI hstep => ofModality_step_iff hJ hI hstep) labels ?_ ?_
  · intro cat l hstuck
    rw [Catalog.step] at hstuck
    split at hstuck <;> cases hstuck
  · intro route hroute
    cases hroute
  · intro route hroute
    cases hroute

end

/-- A channel of OpenAI. -/
def openaiChannel : ChannelIn := { baseUrl := str "https://api.openai.com" }

/-- A model of that channel. -/
def gptModel (kind : String) : ModelIn where
  code := str "gpt"
  channelId := 1
  upstreamModel := str "gpt"
  kind := str kind

/-- A chat route to the first model. -/
def gptRoute : RoutePolicyIn := { userFacingModel := str "auto", targets := [{ modelId := 1 }] }

/-- A chat model is put behind a chat route, and then updated to be an embedding model. -/
theorem modality_lost :
    (run Catalog.step
        [.createChannel openaiChannel, .createModel (gptModel "chat"), .createRoute gptRoute,
          .updateModel 1 (gptModel "embedding")] .empty).map
      (fun cat => (cat.routes.rows.map RoutePolicy.modality,
        cat.models.rows.map fun m => m.kind, decide (OfModality cat))) =
      some ([str "chat"], [str "embedding"], false) := by
  decide +kernel

end Llmxy.Admin
