import Llmxy.Lib.Machine
import Llmxy.Lib.Text
import Mathlib.Data.Finset.Basic

/-!
# One ADS stream

A stream of the discovery service is two tasks.  The reader takes the requests of Envoy and
marks types as pending; the push loop waits for an event, reads the resources of the types
that are pending and sends those whose content has changed.  A notification sets the same
event and marks nothing: the loop takes it as one when nothing is pending.

The resources are what the database says at a time.  Whoever changes them notifies the node
afterwards.

## Main definitions

* `AdsStream`, `AdsStream.step` — the stream with its two tasks.
* `AdsStream.Quiescent`, `AdsStream.UpToDate` — the stream is at rest, and what it has sent.
* `AdsStream.WakesWell` — no notification is taken for a request.
* `upToDate_of_wakesWell` — then nothing is lost.
-/

namespace Llmxy

/-- `TYPE_URL_CLUSTER`. -/
def typeUrlCluster : Str := str "type.googleapis.com/envoy.config.cluster.v3.Cluster"

/-- `TYPE_URL_LISTENER`. -/
def typeUrlListener : Str := str "type.googleapis.com/envoy.config.listener.v3.Listener"

/-- `TYPE_URL_ROUTE`. -/
def typeUrlRoute : Str := str "type.googleapis.com/envoy.config.route.v3.RouteConfiguration"

/-- The keys of `_TYPE_TO_PROTO`. -/
def knownTypes : List Str := [typeUrlCluster, typeUrlListener, typeUrlRoute]

/-- What the stream reads of a `DiscoveryRequest`.  An empty text is an absent one. -/
structure DiscoveryRequest where
  typeUrl : Str
  responseNonce : Str
  /-- `error_detail.message`. -/
  errorMessage : Str

/-- `has_error`. -/
def DiscoveryRequest.hasError (req : DiscoveryRequest) : Bool := !req.errorMessage.isEmpty

/-- Where the push loop stands. -/
inductive PushPhase (Res : Type) where
  | waiting
  /-- `await _build_resources(node_id)`, for these types. -/
  | building (toPush : Finset Str)
  /-- In the loop over the types, with what was read. -/
  | pushing (toPush : Finset Str) (resources : Str → Res)
  /-- `await _touch_seen(…)`. -/
  | touching

/-- A stream, and the resources of its node. -/
structure AdsStream (Res Ver : Type) where
  /-- The resources of each type, as they would be read now. -/
  resources : Str → Res
  /-- Changes whose notification is still to come. -/
  owed : ℕ
  evtSet : Bool
  /-- A notification has come since the event was last cleared. -/
  notified : Bool
  pending : Finset Str
  subscribed : Finset Str
  sentVersion : Str → Option Ver
  sentNonce : Str → Str
  phase : PushPhase Res
  /-- The types and versions of the responses, the last one first. -/
  responses : List (Str × Ver)

/-- What happens on a stream. -/
inductive AdsLabel (Res : Type) where
  /-- The reader takes a request. -/
  | request (req : DiscoveryRequest)
  | change (resources : Str → Res)
  | notify
  /-- The event is set, and the loop goes on. -/
  | wake
  /-- Nothing was set for a while. -/
  | heartbeat
  | built
  /-- The loop deals with a type, with a nonce at hand. -/
  | push (typeUrl nonce : Str)
  | pushed
  | touched

namespace AdsStream
variable {Res Ver : Type} [DecidableEq Ver] (hash : Res → Ver)

/-- A stream whose first request has this type. -/
def start (resources : Str → Res) (typeUrl : Str) : AdsStream Res Ver where
  resources := resources
  owed := 0
  evtSet := true
  notified := false
  pending := if typeUrl.isEmpty then ∅ else {typeUrl}
  subscribed := if typeUrl.isEmpty then ∅ else {typeUrl}
  sentVersion := fun _ => none
  sentNonce := fun _ => []
  phase := .waiting
  responses := []

/-- A type is pending, and the event is set. -/
def mark (typeUrl : Str) (s : AdsStream Res Ver) : AdsStream Res Ver :=
  { s with pending := insert typeUrl s.pending, evtSet := true }

/-- `_process_request`. -/
def processRequest (req : DiscoveryRequest) (s : AdsStream Res Ver) : AdsStream Res Ver :=
  if req.typeUrl.isEmpty then s
  else
    let isNewSub := req.typeUrl ∉ s.subscribed
    let s := { s with subscribed := insert req.typeUrl s.subscribed }
    if req.hasError then
      mark req.typeUrl { s with sentVersion := Function.update s.sentVersion req.typeUrl none }
    else if !req.responseNonce.isEmpty ∧ req.responseNonce = s.sentNonce req.typeUrl then s
    else if isNewSub ∨ req.responseNonce.isEmpty then mark req.typeUrl s
    else s

/-- The types that the loop takes when it wakes. -/
def toPush (s : AdsStream Res Ver) : Finset Str :=
  (if s.pending = ∅ then s.subscribed else s.pending) ∩ s.subscribed

/-- The event is cleared, and the loop looks at what is pending. -/
def awake (s : AdsStream Res Ver) : AdsStream Res Ver :=
  let cleared := { s with evtSet := false, notified := false }
  if s.subscribed = ∅ then cleared
  else
    { cleared with
      pending := ∅
      phase := if s.toPush = ∅ then .touching else .building s.toPush }

/-- One type in the loop over the types. -/
def pushType (typeUrl nonce : Str) (toPush : Finset Str) (resources : Str → Res)
    (s : AdsStream Res Ver) : AdsStream Res Ver :=
  let s := { s with phase := .pushing (toPush.erase typeUrl) resources }
  let version := hash (resources typeUrl)
  if typeUrl ∉ knownTypes ∨ s.sentVersion typeUrl = some version then s
  else
    { s with
      sentVersion := Function.update s.sentVersion typeUrl (some version)
      sentNonce := Function.update s.sentNonce typeUrl nonce
      responses := (typeUrl, version) :: s.responses }

def step (s : AdsStream Res Ver) : AdsLabel Res → Option (AdsStream Res Ver)
  | .request req => some (s.processRequest req)
  | .change resources => some { s with resources := resources, owed := s.owed + 1 }
  | .notify => some { s with owed := s.owed - 1, evtSet := true, notified := true }
  | .wake =>
      match s.phase with
      | .waiting => if s.evtSet then some s.awake else none
      | _ => none
  | .heartbeat =>
      match s.phase with
      | .waiting => some { s with phase := .touching }
      | _ => none
  | .built =>
      match s.phase with
      | .building toPush => some { s with phase := .pushing toPush s.resources }
      | _ => none
  | .push typeUrl nonce =>
      match s.phase with
      | .pushing toPush resources =>
          if typeUrl ∈ toPush then some (s.pushType hash typeUrl nonce toPush resources) else none
      | _ => none
  | .pushed =>
      match s.phase with
      | .pushing toPush _ => if toPush = ∅ then some { s with phase := .touching } else none
      | _ => none
  | .touched =>
      match s.phase with
      | .touching => some { s with phase := .waiting }
      | _ => none

section
variable {hash} {s t : AdsStream Res Ver}

/-! What a step of the loop is. -/

theorem step_wake : step hash s .wake = some t ↔
    s.phase = .waiting ∧ s.evtSet = true ∧ s.awake = t := by
  cases hphase : s.phase <;> simp [step, hphase]

theorem step_heartbeat : step hash s .heartbeat = some t ↔
    s.phase = .waiting ∧ { s with phase := .touching } = t := by
  cases hphase : s.phase <;> simp [step, hphase]

theorem step_built : step hash s .built = some t ↔
    ∃ toPush, s.phase = .building toPush ∧
      { s with phase := .pushing toPush s.resources } = t := by
  cases hphase : s.phase <;> simp [step, hphase]

theorem step_push {typeUrl nonce : Str} : step hash s (.push typeUrl nonce) = some t ↔
    ∃ toPush resources, s.phase = .pushing toPush resources ∧ typeUrl ∈ toPush ∧
      s.pushType hash typeUrl nonce toPush resources = t := by
  cases hphase : s.phase <;> simp [step, hphase]

theorem step_pushed : step hash s .pushed = some t ↔
    (∃ resources, s.phase = .pushing ∅ resources) ∧ { s with phase := .touching } = t := by
  cases hphase : s.phase <;> simp [step, hphase]

theorem step_touched : step hash s .touched = some t ↔
    s.phase = .touching ∧ { s with phase := .waiting } = t := by
  cases hphase : s.phase <;> simp [step, hphase]

end

/-! ### Nothing is lost -/

/-- The stream is at rest: the loop waits, nothing is set or pending, and no notification is
still to come. -/
structure Quiescent (s : AdsStream Res Ver) : Prop where
  waiting : s.phase = .waiting
  evtSet : s.evtSet = false
  pending : s.pending = ∅
  owed : s.owed = 0

/-- The version of the last response of a type. -/
def lastSent (s : AdsStream Res Ver) (typeUrl : Str) : Option Ver :=
  (s.responses.find? fun r => r.1 = typeUrl).map Prod.snd

/-- What was sent last is what the resources are now. -/
def UpToDate (s : AdsStream Res Ver) : Prop :=
  ∀ typeUrl ∈ s.subscribed, typeUrl ∈ knownTypes →
    s.lastSent typeUrl = some (hash (s.resources typeUrl))

/-- The version of the type is current. -/
def Current (s : AdsStream Res Ver) (typeUrl : Str) : Prop :=
  s.sentVersion typeUrl = some (hash (s.resources typeUrl))

/-- A wake-up for a notification is not taken as one for the types that are pending: nothing
is pending, or the other types are current or have another notification to come. -/
def WakesWell (s : AdsStream Res Ver) : AdsLabel Res → Prop
  | .wake => s.notified = true → s.pending = ∅ ∨ ∀ typeUrl ∈ s.subscribed, typeUrl ∈ knownTypes →
      typeUrl ∈ s.pending ∨ s.Current hash typeUrl ∨ 0 < s.owed
  | _ => True

instance (s : AdsStream Res Ver) : (l : AdsLabel Res) → Decidable (s.WakesWell hash l)
  | .wake => inferInstanceAs (Decidable (_ → _ ∨ ∀ typeUrl ∈ _, _ ∈ knownTypes →
      _ ∨ s.sentVersion typeUrl = some (hash (s.resources typeUrl)) ∨ _))
  | .request _ | .change _ | .notify | .heartbeat | .built | .push _ _ | .pushed | .touched =>
      isTrue trivial

/-- A notification is still to be heard. -/
def Alarmed (s : AdsStream Res Ver) : Prop :=
  0 < s.owed ∨ (s.evtSet = true ∧ s.notified = true)

/-- The types that the loop is about to push. -/
def inHand (s : AdsStream Res Ver) : Finset Str :=
  match s.phase with
  | .building toPush => toPush
  | .pushing toPush _ => toPush
  | _ => ∅

/-- What every step keeps. -/
structure Coherent (s : AdsStream Res Ver) : Prop where
  pending_evtSet : s.pending ≠ ∅ → s.evtSet = true
  pending_subset : s.pending ⊆ s.subscribed
  inHand_subset : s.inHand ⊆ s.subscribed
  nonce_subscribed : ∀ typeUrl, s.sentNonce typeUrl ≠ [] → typeUrl ∈ s.subscribed
  version_lastSent : ∀ typeUrl version, s.sentVersion typeUrl = some version →
    s.lastSent typeUrl = some version
  snapshot : ∀ toPush resources, s.phase = .pushing toPush resources →
    resources = s.resources ∨ s.Alarmed

/-- A type that is not current is on its way. -/
def Cared (s : AdsStream Res Ver) : Prop :=
  ∀ typeUrl ∈ s.subscribed, typeUrl ∈ knownTypes →
    s.Current hash typeUrl ∨ typeUrl ∈ s.pending ∨ s.Alarmed ∨ typeUrl ∈ s.inHand

omit [DecidableEq Ver] in
theorem coherent_start (resources : Str → Res) (typeUrl : Str) :
    (start resources typeUrl : AdsStream Res Ver).Coherent where
  pending_evtSet _ := rfl
  pending_subset := subset_rfl
  inHand_subset := Finset.empty_subset _
  nonce_subscribed _ h := absurd rfl h
  version_lastSent _ _ h := by cases h
  snapshot _ _ h := by cases h

omit [DecidableEq Ver] in
theorem cared_start (resources : Str → Res) (typeUrl : Str) :
    (start resources typeUrl : AdsStream Res Ver).Cared hash := by
  intro type' hsub _
  exact .inr (.inl hsub)

/-! The reader. -/

omit [DecidableEq Ver] in
/-- What a request does to a stream: nothing, or it subscribes to a type and marks it. -/
theorem processRequest_cases (req : DiscoveryRequest) (s : AdsStream Res Ver) (hs : s.Coherent) :
    s.processRequest req = s ∨
      ∃ versions, (versions = s.sentVersion ∨
          versions = Function.update s.sentVersion req.typeUrl none) ∧
        s.processRequest req =
          mark req.typeUrl
            { s with subscribed := insert req.typeUrl s.subscribed, sentVersion := versions } := by
  rw [processRequest]
  by_cases hempty : req.typeUrl.isEmpty = true
  · exact .inl (if_pos hempty)
  rw [if_neg hempty]
  by_cases herror : req.hasError = true
  · exact .inr ⟨_, .inr rfl, if_pos herror⟩
  simp only [herror, Bool.false_eq_true, if_false]
  by_cases hsub : req.typeUrl ∈ s.subscribed
  · simp only [Finset.insert_eq_of_mem hsub, hsub, not_true, false_or]
    split_ifs with hack hfirst
    · exact .inl rfl
    · exact .inr ⟨_, .inl rfl, rfl⟩
    · exact .inl rfl
  · refine .inr ⟨_, .inl rfl, ?_⟩
    have hnonce : s.sentNonce req.typeUrl = [] := by
      by_contra hne
      exact hsub (hs.nonce_subscribed _ hne)
    have hack : ¬((!req.responseNonce.isEmpty) = true ∧
        req.responseNonce = s.sentNonce req.typeUrl) := by
      rw [hnonce]
      rintro ⟨hne, heq⟩
      simp [heq] at hne
    rw [if_neg hack, if_pos (.inl hsub)]

omit [DecidableEq Ver] in
theorem coherent_processRequest (req : DiscoveryRequest) {s : AdsStream Res Ver}
    (hs : s.Coherent) : (s.processRequest req).Coherent := by
  obtain heq | ⟨versions, hversions, heq⟩ := processRequest_cases req s hs
  · rw [heq]
    exact hs
  rw [heq]
  refine ⟨fun _ => rfl, Finset.insert_subset_insert _ hs.pending_subset,
    hs.inHand_subset.trans (Finset.subset_insert _ _),
    fun typeUrl h => Finset.mem_insert_of_mem (hs.nonce_subscribed typeUrl h), ?_, ?_⟩
  · intro typeUrl version h
    obtain rfl | rfl := hversions
    · exact hs.version_lastSent typeUrl version h
    · by_cases hT : typeUrl = req.typeUrl
      · subst hT
        simp [mark] at h
      · exact hs.version_lastSent typeUrl version ((Function.update_of_ne hT _ _).symm.trans h)
  · intro toPush resources h
    obtain rfl | halarm := hs.snapshot toPush resources h
    · exact .inl rfl
    · exact .inr (halarm.imp_right fun h => ⟨rfl, h.2⟩)

omit [DecidableEq Ver] in
theorem cared_processRequest (req : DiscoveryRequest) {s : AdsStream Res Ver}
    (hs : s.Coherent) (hcared : s.Cared hash) : (s.processRequest req).Cared hash := by
  obtain heq | ⟨versions, hversions, heq⟩ := processRequest_cases req s hs
  · rw [heq]
    exact hcared
  rw [heq]
  intro typeUrl hsub hknown
  by_cases hT : typeUrl = req.typeUrl
  · exact .inr (.inl (hT ▸ Finset.mem_insert_self _ _))
  have hbefore : typeUrl ∈ s.subscribed := Finset.mem_of_mem_insert_of_ne hsub hT
  obtain hcur | hpend | halarm | hhand := hcared typeUrl hbefore hknown
  · left
    obtain rfl | rfl := hversions
    · exact hcur
    · exact (Function.update_of_ne hT _ _).trans hcur
  · exact .inr (.inl (Finset.mem_insert_of_mem hpend))
  · exact .inr (.inr (.inl (halarm.imp_right fun h => ⟨rfl, h.2⟩)))
  · exact .inr (.inr (.inr hhand))

/-! The push loop. -/

omit [DecidableEq Ver] in
theorem toPush_subset (s : AdsStream Res Ver) : s.toPush ⊆ s.subscribed :=
  Finset.inter_subset_right

omit [DecidableEq Ver] in
theorem toPush_of_pending {s : AdsStream Res Ver} (hs : s.Coherent) (hpending : s.pending ≠ ∅) :
    s.toPush = s.pending := by
  rw [toPush, if_neg hpending, Finset.inter_eq_left.mpr hs.pending_subset]

omit [DecidableEq Ver] in
theorem toPush_of_none {s : AdsStream Res Ver} (hpending : s.pending = ∅) :
    s.toPush = s.subscribed := by
  rw [toPush, if_pos hpending, Finset.inter_self]

omit [DecidableEq Ver] in
/-- What the loop has in hand when it has woken. -/
theorem inHand_awake {s : AdsStream Res Ver} (hsub : s.subscribed ≠ ∅) :
    s.awake.inHand = s.toPush := by
  rw [awake, if_neg hsub, inHand]
  by_cases hpush : s.toPush = ∅
  · simp only [hpush, if_true]
  · simp only [hpush, if_false]

omit [DecidableEq Ver] in
theorem coherent_awake {s : AdsStream Res Ver} (hs : s.Coherent) (hphase : s.phase = .waiting) :
    s.awake.Coherent := by
  by_cases hsub : s.subscribed = ∅
  · have hpending : s.pending = ∅ := Finset.subset_empty.mp (hsub ▸ hs.pending_subset)
    rw [awake, if_pos hsub]
    refine ⟨fun h => absurd hpending h, hs.pending_subset, hs.inHand_subset,
      hs.nonce_subscribed, hs.version_lastSent, fun toPush resources h => ?_⟩
    cases hphase.symm.trans h
  · have hhand : s.awake.inHand ⊆ s.subscribed := inHand_awake hsub ▸ s.toPush_subset
    rw [awake, if_neg hsub] at hhand ⊢
    refine ⟨fun h => absurd rfl h, Finset.empty_subset _, hhand,
      hs.nonce_subscribed, hs.version_lastSent, fun toPush resources h => ?_⟩
    by_cases hpush : s.toPush = ∅
    · simp only [hpush, if_true] at h
      cases h
    · simp only [hpush, if_false] at h
      cases h

omit [DecidableEq Ver] in
theorem cared_awake {s : AdsStream Res Ver} (hs : s.Coherent) (hphase : s.phase = .waiting)
    (hcared : s.Cared hash) (hwell : s.WakesWell hash .wake) : s.awake.Cared hash := by
  by_cases hsub : s.subscribed = ∅
  · intro typeUrl h
    rw [awake, if_pos hsub] at h
    exact absurd h (hsub ▸ Finset.notMem_empty typeUrl)
  have hhand : s.awake.inHand = s.toPush := inHand_awake hsub
  intro typeUrl hmem hknown
  have hmem : typeUrl ∈ s.subscribed := by rwa [awake, if_neg hsub] at hmem
  have howed : 0 < s.owed → s.awake.Alarmed := fun h => .inl (by rwa [awake, if_neg hsub])
  have hcur : s.Current hash typeUrl → s.awake.Current hash typeUrl := fun h => by
    rwa [awake, if_neg hsub]
  rw [hhand]
  by_cases hpending : s.pending = ∅
  · exact .inr (.inr (.inr (toPush_of_none hpending ▸ hmem)))
  rw [toPush_of_pending hs hpending]
  by_cases hnotified : s.notified = true
  · obtain h | h | h := (hwell hnotified).resolve_left hpending typeUrl hmem hknown
    · exact .inr (.inr (.inr h))
    · exact .inl (hcur h)
    · exact .inr (.inr (.inl (howed h)))
  · obtain h | h | (h | h) | h := hcared typeUrl hmem hknown
    · exact .inl (hcur h)
    · exact .inr (.inr (.inr h))
    · exact .inr (.inr (.inl (howed h)))
    · exact absurd h.2 hnotified
    · rw [inHand, hphase] at h
      exact absurd h (Finset.notMem_empty typeUrl)

/-- The last version after a type was dealt with. -/
theorem sentVersion_pushType (typeUrl nonce : Str) (toPush : Finset Str) (resources : Str → Res)
    (s : AdsStream Res Ver) :
    (s.pushType hash typeUrl nonce toPush resources).sentVersion =
      if typeUrl ∈ knownTypes then
        Function.update s.sentVersion typeUrl (some (hash (resources typeUrl)))
      else s.sentVersion := by
  rw [pushType]
  by_cases hknown : typeUrl ∈ knownTypes
  · rw [if_pos hknown]
    by_cases hsame : s.sentVersion typeUrl = some (hash (resources typeUrl))
    · rw [if_pos (.inr hsame), ← hsame, Function.update_eq_self]
    · rw [if_neg (not_or.mpr ⟨not_not.mpr hknown, hsame⟩)]
  · rw [if_neg hknown, if_pos (.inl hknown)]

/-- What dealing with a type leaves alone. -/
theorem pushType_frame (typeUrl nonce : Str) (toPush : Finset Str) (resources : Str → Res)
    (s : AdsStream Res Ver) :
    let t := s.pushType hash typeUrl nonce toPush resources
    t.resources = s.resources ∧ t.owed = s.owed ∧ t.evtSet = s.evtSet ∧
      t.notified = s.notified ∧ t.pending = s.pending ∧ t.subscribed = s.subscribed ∧
      t.phase = .pushing (toPush.erase typeUrl) resources := by
  simp only [pushType]
  split_ifs <;> exact ⟨rfl, rfl, rfl, rfl, rfl, rfl, rfl⟩

theorem coherent_pushType {typeUrl nonce : Str} {toPush : Finset Str} {resources : Str → Res}
    {s : AdsStream Res Ver} (hs : s.Coherent) (hphase : s.phase = .pushing toPush resources)
    (hmem : typeUrl ∈ toPush) : (s.pushType hash typeUrl nonce toPush resources).Coherent := by
  have hsub : toPush ⊆ s.subscribed := by simpa only [inHand, hphase] using hs.inHand_subset
  obtain ⟨hres, howed, hevt, hnot, hpend, hsubs, hph⟩ :=
    s.pushType_frame hash typeUrl nonce toPush resources
  refine ⟨?_, ?_, ?_, ?_, ?_, ?_⟩
  · rw [hpend, hevt]
    exact hs.pending_evtSet
  · rw [hpend, hsubs]
    exact hs.pending_subset
  · rw [inHand, hph, hsubs]
    exact (Finset.erase_subset _ _).trans hsub
  · intro type' h
    rw [hsubs]
    rw [pushType] at h
    by_cases hT : type' = typeUrl
    · exact hT ▸ hsub hmem
    · split_ifs at h
      · exact hs.nonce_subscribed type' h
      · exact hs.nonce_subscribed type' fun hnil =>
          h ((Function.update_of_ne hT _ _).trans hnil)
  · intro type' version h
    rw [pushType] at h ⊢
    split_ifs at h ⊢
    · exact hs.version_lastSent type' version h
    · by_cases hT : type' = typeUrl
      · subst hT
        simpa [lastSent] using h
      · have h := hs.version_lastSent type' version ((Function.update_of_ne hT _ _).symm.trans h)
        simpa [lastSent, Ne.symm hT] using h
  · intro toPush' resources' h
    rw [hph] at h
    obtain ⟨-, rfl⟩ := PushPhase.pushing.inj h
    rw [hres, Alarmed, howed, hevt, hnot]
    exact hs.snapshot toPush resources hphase

theorem cared_pushType {typeUrl nonce : Str} {toPush : Finset Str} {resources : Str → Res}
    {s : AdsStream Res Ver} (hs : s.Coherent) (hphase : s.phase = .pushing toPush resources)
    (hcared : s.Cared hash) : (s.pushType hash typeUrl nonce toPush resources).Cared hash := by
  obtain ⟨hres, howed, hevt, hnot, hpend, hsubs, hph⟩ :=
    s.pushType_frame hash typeUrl nonce toPush resources
  intro type' hmem hknown
  rw [Current, sentVersion_pushType, hres, Alarmed, howed, hevt, hnot, hpend, inHand, hph]
  by_cases hT : type' = typeUrl
  · subst hT
    rw [if_pos hknown, Function.update_self]
    obtain rfl | halarm := hs.snapshot toPush resources hphase
    · exact .inl rfl
    · exact .inr (.inr (.inl halarm))
  · have hversion : (if typeUrl ∈ knownTypes then
        Function.update s.sentVersion typeUrl (some (hash (resources typeUrl)))
        else s.sentVersion) type' = s.sentVersion type' := by
      split_ifs
      · exact Function.update_of_ne hT _ _
      · rfl
    rw [hversion]
    obtain h | h | h | h := hcared type' (hsubs ▸ hmem) hknown
    · exact .inl h
    · exact .inr (.inl h)
    · exact .inr (.inr (.inl h))
    · simp only [inHand, hphase] at h
      exact .inr (.inr (.inr (Finset.mem_erase.mpr ⟨hT, h⟩)))

/-! A step. -/

variable {hash}

/-- Every step keeps what is coherent. -/
theorem coherent_step {s t : AdsStream Res Ver} {l : AdsLabel Res} (hs : s.Coherent)
    (hstep : step hash s l = some t) : t.Coherent := by
  cases l with
  | request req =>
      obtain rfl := Option.some.inj hstep
      exact coherent_processRequest req hs
  | change resources =>
      obtain rfl := Option.some.inj hstep
      exact ⟨hs.pending_evtSet, hs.pending_subset, hs.inHand_subset, hs.nonce_subscribed,
        hs.version_lastSent, fun _ _ _ => .inr (.inl (Nat.succ_pos _))⟩
  | notify =>
      obtain rfl := Option.some.inj hstep
      exact ⟨fun _ => rfl, hs.pending_subset, hs.inHand_subset, hs.nonce_subscribed,
        hs.version_lastSent, fun _ _ _ => .inr (.inr ⟨rfl, rfl⟩)⟩
  | wake =>
      obtain ⟨hphase, -, rfl⟩ := step_wake.mp hstep
      exact coherent_awake hs hphase
  | heartbeat =>
      obtain ⟨-, rfl⟩ := step_heartbeat.mp hstep
      exact ⟨hs.pending_evtSet, hs.pending_subset, Finset.empty_subset _, hs.nonce_subscribed,
        hs.version_lastSent, fun _ _ h => by cases h⟩
  | built =>
      obtain ⟨toPush, hphase, rfl⟩ := step_built.mp hstep
      have hsub : toPush ⊆ s.subscribed := by
        simpa only [inHand, hphase] using hs.inHand_subset
      exact ⟨hs.pending_evtSet, hs.pending_subset, hsub, hs.nonce_subscribed,
        hs.version_lastSent, fun _ _ h => .inl (PushPhase.pushing.inj h).2.symm⟩
  | push typeUrl nonce =>
      obtain ⟨toPush, resources, hphase, hmem, rfl⟩ := step_push.mp hstep
      exact coherent_pushType hash hs hphase hmem
  | pushed =>
      obtain ⟨-, rfl⟩ := step_pushed.mp hstep
      exact ⟨hs.pending_evtSet, hs.pending_subset, Finset.empty_subset _, hs.nonce_subscribed,
        hs.version_lastSent, fun _ _ h => by cases h⟩
  | touched =>
      obtain ⟨-, rfl⟩ := step_touched.mp hstep
      exact ⟨hs.pending_evtSet, hs.pending_subset, Finset.empty_subset _, hs.nonce_subscribed,
        hs.version_lastSent, fun _ _ h => by cases h⟩

omit [DecidableEq Ver] in
/-- The loop may move on as long as it keeps what it has in hand. -/
theorem Cared.moved {s : AdsStream Res Ver} {phase : PushPhase Res} (hcared : s.Cared hash)
    (hhand : ({ s with phase := phase } : AdsStream Res Ver).inHand = s.inHand) :
    ({ s with phase := phase } : AdsStream Res Ver).Cared hash := by
  intro typeUrl hmem hknown
  rw [hhand]
  exact hcared typeUrl hmem hknown

/-- Under a good wake-up every step leaves the types that are not current on their way. -/
theorem cared_step {s t : AdsStream Res Ver} {l : AdsLabel Res} (hs : s.Coherent)
    (hcared : s.Cared hash) (hwell : s.WakesWell hash l) (hstep : step hash s l = some t) :
    t.Cared hash := by
  cases l with
  | request req =>
      obtain rfl := Option.some.inj hstep
      exact cared_processRequest hash req hs hcared
  | change resources =>
      obtain rfl := Option.some.inj hstep
      exact fun _ _ _ => .inr (.inr (.inl (.inl (Nat.succ_pos _))))
  | notify =>
      obtain rfl := Option.some.inj hstep
      exact fun _ _ _ => .inr (.inr (.inl (.inr ⟨rfl, rfl⟩)))
  | wake =>
      obtain ⟨hphase, -, rfl⟩ := step_wake.mp hstep
      exact cared_awake hash hs hphase hcared hwell
  | heartbeat =>
      obtain ⟨hphase, rfl⟩ := step_heartbeat.mp hstep
      exact hcared.moved (by simp only [inHand, hphase])
  | built =>
      obtain ⟨toPush, hphase, rfl⟩ := step_built.mp hstep
      exact hcared.moved (by simp only [inHand, hphase])
  | push typeUrl nonce =>
      obtain ⟨toPush, resources, hphase, -, rfl⟩ := step_push.mp hstep
      exact cared_pushType hash hs hphase hcared
  | pushed =>
      obtain ⟨⟨resources, hphase⟩, rfl⟩ := step_pushed.mp hstep
      exact hcared.moved (by simp only [inHand, hphase])
  | touched =>
      obtain ⟨hphase, rfl⟩ := step_touched.mp hstep
      exact hcared.moved (by simp only [inHand, hphase])

omit [DecidableEq Ver] in
/-- A stream at rest has sent what is current. -/
theorem Quiescent.upToDate {s : AdsStream Res Ver} (hrest : s.Quiescent) (hs : s.Coherent)
    (hcared : s.Cared hash) : s.UpToDate hash := by
  intro typeUrl hmem hknown
  obtain h | h | (h | h) | h := hcared typeUrl hmem hknown
  · exact hs.version_lastSent typeUrl _ h
  · exact absurd h (hrest.pending ▸ Finset.notMem_empty typeUrl)
  · exact absurd h (by simp [hrest.owed])
  · exact absurd h.1 (by simp [hrest.evtSet])
  · rw [inHand, hrest.waiting] at h
    exact absurd h (Finset.notMem_empty typeUrl)

/-- **No change is lost** in a run in which no wake-up takes a notification for the requests
that are pending. -/
theorem upToDate_of_wakesWell (resources : Str → Res) (typeUrl : Str)
    (labels : List (AdsLabel Res)) (t : AdsStream Res Ver)
    (hwell : Along (step hash) (WakesWell hash) labels (start resources typeUrl))
    (hrun : run (step hash) labels (start resources typeUrl) = some t) (hrest : t.Quiescent) :
    t.UpToDate hash := by
  have hinv : t.Coherent ∧ t.Cared hash :=
    run_induction_along (I := fun s => s.Coherent ∧ s.Cared hash)
      (fun _ _ _ hP hI hstep => ⟨coherent_step hI.1 hstep, cared_step hI.1 hI.2 hP hstep⟩)
      hwell ⟨coherent_start resources typeUrl, cared_start hash resources typeUrl⟩ hrun
  exact hrest.upToDate hinv.1 hinv.2

/-- A change of the first type is sent when its notification is taken by itself. -/
theorem upToDate_of_notify : ∃ t : AdsStream ℕ ℕ,
    run (step id)
        [.wake, .built, .push typeUrlCluster (str "1"), .pushed, .touched,
          .change (fun _ => 1), .notify,
          .wake, .built, .push typeUrlCluster (str "2"), .pushed, .touched]
        (start (fun _ => 0) typeUrlCluster) = some t ∧ t.Quiescent ∧ t.UpToDate id :=
  ⟨_, rfl, ⟨rfl, rfl, rfl, rfl⟩,
    upToDate_of_wakesWell (fun _ => 0) typeUrlCluster
      [.wake, .built, .push typeUrlCluster (str "1"), .pushed, .touched,
        .change (fun _ => 1), .notify,
        .wake, .built, .push typeUrlCluster (str "2"), .pushed, .touched]
      _ (by decide +kernel) rfl ⟨rfl, rfl, rfl, rfl⟩⟩

/-- A subscription to listeners comes before the loop has woken for a change of the clusters:
only the listeners are sent, and the change is lost. -/
theorem change_lost : ∃ t : AdsStream ℕ ℕ,
    run (step id)
        [.wake, .built, .push typeUrlCluster (str "1"), .pushed, .touched,
          .change (fun _ => 1), .notify, .request ⟨typeUrlListener, [], []⟩,
          .wake, .built, .push typeUrlListener (str "2"), .pushed, .touched]
        (start (fun _ => 0) typeUrlCluster) = some t ∧ t.Quiescent ∧ ¬t.UpToDate id :=
  ⟨_, rfl, ⟨rfl, rfl, rfl, rfl⟩, fun h =>
    absurd (h typeUrlCluster (by decide +kernel) (by decide +kernel)) (by decide +kernel)⟩

end AdsStream
end Llmxy
