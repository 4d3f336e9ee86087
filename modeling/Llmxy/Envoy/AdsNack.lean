import Llmxy.Envoy.AdsStream
import Mathlib.Data.List.Nodup
import Mathlib.Tactic.Common

/-!
# Rejected configurations

A stretch of a run in which the resources of the node do not change.  The hash check of the
push loop keeps it from sending the same content twice; a rejection drops the version that the
check compares with, and wakes the loop.

## Main definitions

* `AdsStream.sentSince` — what a stretch has sent.
* `AdsStream.RejectsUnsent` — a rejection comes before the current content was sent.
* `AdsStream.sentSince_nodup` — then no content is sent twice.
* `AdsStream.rejected_again` — a client that rejects every response gets as many as it likes.
-/

namespace Llmxy

/-- No resources change. -/
def AdsLabel.Quiet {Res : Type} : AdsLabel Res → Prop
  | .change _ => False
  | _ => True

instance {Res : Type} : (l : AdsLabel Res) → Decidable l.Quiet
  | .change _ => isFalse id
  | .request _ | .notify | .wake | .heartbeat | .built | .push _ _ | .pushed | .touched =>
      isTrue trivial

namespace AdsStream
variable {Res Ver : Type} [DecidableEq Ver] {hash : Res → Ver}

/-- What was sent after the first `n` responses, the last one first. -/
def sentSince (n : ℕ) (s : AdsStream Res Ver) : List (Str × Ver) :=
  s.responses.take (s.responses.length - n)

/-- A rejection is of a type whose current content was not sent in the stretch that began
after the first `n` responses. -/
def RejectsUnsent (hash : Res → Ver) (n : ℕ) (s : AdsStream Res Ver) : AdsLabel Res → Prop
  | .request req => req.hasError = true →
      (req.typeUrl, hash (s.resources req.typeUrl)) ∉ s.sentSince n
  | _ => True

instance (n : ℕ) (s : AdsStream Res Ver) :
    (l : AdsLabel Res) → Decidable (s.RejectsUnsent hash n l)
  | .request req => inferInstanceAs (Decidable (req.hasError = true → _ ∉ s.sentSince n))
  | .change _ | .notify | .wake | .heartbeat | .built | .push _ _ | .pushed | .touched =>
      isTrue trivial

/-- What a stretch without a change keeps. -/
structure SentOnce (hash : Res → Ver) (n : ℕ) (s : AdsStream Res Ver) : Prop where
  length_le : n ≤ s.responses.length
  nodup : (s.sentSince n).Nodup
  version : ∀ typeUrl, (typeUrl, hash (s.resources typeUrl)) ∈ s.sentSince n → s.Current hash typeUrl
  /-- What is in hand was read now, or its types were not sent in the stretch. -/
  snapshot : ∀ toPush resources, s.phase = .pushing toPush resources → resources = s.resources ∨
    ∀ typeUrl ∈ toPush, ∀ version, (typeUrl, version) ∉ s.sentSince n

omit [DecidableEq Ver] in
theorem sentSince_length (s : AdsStream Res Ver) : s.sentSince s.responses.length = [] := by
  rw [sentSince, Nat.sub_self, List.take_zero]

omit [DecidableEq Ver] in
theorem sentOnce_here (s : AdsStream Res Ver) : s.SentOnce hash s.responses.length where
  length_le := le_rfl
  nodup := by
    rw [sentSince_length]
    exact List.nodup_nil
  version _ h := absurd h (by simp [sentSince_length])
  snapshot _ _ _ := .inr fun _ _ _ h => absurd h (by simp [sentSince_length])

omit [DecidableEq Ver] in
/-- A response is one more of the stretch. -/
theorem sentSince_cons {n : ℕ} {s t : AdsStream Res Ver} {response : Str × Ver}
    (hlen : n ≤ s.responses.length) (ht : t.responses = response :: s.responses) :
    t.sentSince n = response :: s.sentSince n := by
  rw [sentSince, ht, List.length_cons, Nat.succ_sub hlen, List.take_succ_cons, sentSince]

omit [DecidableEq Ver] in
/-- What a request leaves alone. -/
theorem processRequest_frame (req : DiscoveryRequest) (s : AdsStream Res Ver) :
    (s.processRequest req).resources = s.resources ∧
      (s.processRequest req).responses = s.responses ∧
      (s.processRequest req).phase = s.phase ∧
      (s.processRequest req).sentVersion =
        if req.typeUrl.isEmpty = false ∧ req.hasError = true then
          Function.update s.sentVersion req.typeUrl none
        else s.sentVersion := by
  rw [processRequest]
  by_cases hempty : req.typeUrl.isEmpty = true
  · simp [hempty]
  by_cases herror : req.hasError = true
  · simp [hempty, herror, mark]
  · simp only [hempty, herror]
    split_ifs <;> simp_all [mark]

omit [DecidableEq Ver] in
theorem sentOnce_processRequest {n : ℕ} {s : AdsStream Res Ver} {req : DiscoveryRequest}
    (hs : s.SentOnce hash n) (hunsent : s.RejectsUnsent hash n (.request req)) :
    (s.processRequest req).SentOnce hash n := by
  obtain ⟨hres, hresp, hphase, hversion⟩ := processRequest_frame req s
  have hsent : (s.processRequest req).sentSince n = s.sentSince n := by
    rw [sentSince, hresp, sentSince]
  refine ⟨hresp ▸ hs.length_le, hsent ▸ hs.nodup, ?_, ?_⟩
  · intro typeUrl hmem
    rw [hsent, hres] at hmem
    rw [Current, hversion, hres]
    split_ifs with hrejected
    · have hT : typeUrl ≠ req.typeUrl := by
        rintro rfl
        exact hunsent hrejected.2 hmem
      rw [Function.update_of_ne hT]
      exact hs.version typeUrl hmem
    · exact hs.version typeUrl hmem
  · rw [hphase, hres, hsent]
    exact hs.snapshot

omit [DecidableEq Ver] in
/-- The loop may move on as long as it does not take up what it has not read. -/
theorem SentOnce.moved {n : ℕ} {s : AdsStream Res Ver} {phase : PushPhase Res}
    (hs : s.SentOnce hash n)
    (hphase : ∀ toPush resources, phase = .pushing toPush resources → resources = s.resources) :
    ({ s with phase := phase } : AdsStream Res Ver).SentOnce hash n :=
  ⟨hs.length_le, hs.nodup, hs.version, fun toPush resources h => .inl (hphase toPush resources h)⟩

/-- Dealing with a type sends nothing, or its content that was not sent last. -/
theorem pushType_cases (hash : Res → Ver) (typeUrl nonce : Str) (toPush : Finset Str)
    (resources : Str → Res) (s : AdsStream Res Ver) :
    (s.pushType hash typeUrl nonce toPush resources =
        { s with phase := .pushing (toPush.erase typeUrl) resources }) ∨
      s.sentVersion typeUrl ≠ some (hash (resources typeUrl)) ∧
        s.pushType hash typeUrl nonce toPush resources =
          { s with
            phase := .pushing (toPush.erase typeUrl) resources
            sentVersion := Function.update s.sentVersion typeUrl (some (hash (resources typeUrl)))
            sentNonce := Function.update s.sentNonce typeUrl nonce
            responses := (typeUrl, hash (resources typeUrl)) :: s.responses } := by
  rw [pushType]
  by_cases hskip : typeUrl ∉ knownTypes ∨ s.sentVersion typeUrl = some (hash (resources typeUrl))
  · exact .inl (if_pos hskip)
  · exact .inr ⟨fun h => hskip (.inr h), if_neg hskip⟩

theorem sentOnce_pushType {n : ℕ} {s : AdsStream Res Ver} {typeUrl nonce : Str}
    {toPush : Finset Str} {resources : Str → Res} (hs : s.SentOnce hash n)
    (hphase : s.phase = .pushing toPush resources) (hmem : typeUrl ∈ toPush) :
    (s.pushType hash typeUrl nonce toPush resources).SentOnce hash n := by
  have hsnap := hs.snapshot toPush resources hphase
  obtain heq | ⟨hversion, heq⟩ := pushType_cases hash typeUrl nonce toPush resources s
  · rw [heq]
    refine ⟨hs.length_le, hs.nodup, hs.version, fun toPush' resources' h => ?_⟩
    obtain ⟨rfl, rfl⟩ := PushPhase.pushing.inj h
    exact hsnap.imp_right fun h type' hmem' => h type' (Finset.mem_of_mem_erase hmem')
  have hsent := sentSince_cons (n := n) hs.length_le (congrArg AdsStream.responses heq)
  rw [heq] at hsent ⊢
  -- what is sent now was not sent in the stretch: it is current, or the type was not sent at all
  have hnew : (typeUrl, hash (resources typeUrl)) ∉ s.sentSince n := by
    obtain rfl | hstale := hsnap
    · exact fun hold => hversion (hs.version typeUrl hold)
    · exact hstale typeUrl hmem _
  refine ⟨Nat.le_succ_of_le hs.length_le, ?_, ?_, ?_⟩
  · rw [hsent]
    exact List.nodup_cons.mpr ⟨hnew, hs.nodup⟩
  · intro type' hmem'
    rw [hsent, List.mem_cons, Prod.mk.injEq] at hmem'
    by_cases hT : type' = typeUrl
    · subst hT
      obtain ⟨-, hsame⟩ | hold := hmem'
      · exact (Function.update_self _ _ _).trans (congrArg some hsame.symm)
      · obtain rfl | hstale := hsnap
        · exact absurd hold hnew
        · exact absurd hold (hstale type' hmem _)
    · have hold := hmem'.resolve_left fun h => hT h.1
      exact (Function.update_of_ne hT _ _).trans (hs.version type' hold)
  · intro toPush' resources' h
    obtain ⟨rfl, rfl⟩ := PushPhase.pushing.inj h
    refine hsnap.imp_right fun hstale type' hmem' version => ?_
    rw [hsent, List.mem_cons, Prod.mk.injEq]
    have hne := Finset.ne_of_mem_erase hmem'
    exact not_or.mpr ⟨fun h => hne h.1, hstale type' (Finset.mem_of_mem_erase hmem') version⟩

theorem sentOnce_step {n : ℕ} {s t : AdsStream Res Ver} {l : AdsLabel Res}
    (hs : s.SentOnce hash n) (hunsent : s.RejectsUnsent hash n l) (hquiet : l.Quiet)
    (hstep : step hash s l = some t) : t.SentOnce hash n := by
  cases l with
  | request req =>
      obtain rfl := Option.some.inj hstep
      exact sentOnce_processRequest hs hunsent
  | change resources => exact absurd hquiet id
  | notify =>
      obtain rfl := Option.some.inj hstep
      exact ⟨hs.length_le, hs.nodup, hs.version, hs.snapshot⟩
  | wake =>
      obtain ⟨-, -, rfl⟩ := step_wake.mp hstep
      rw [awake]
      split_ifs
      · exact ⟨hs.length_le, hs.nodup, hs.version, hs.snapshot⟩
      · exact ⟨hs.length_le, hs.nodup, hs.version, fun _ _ h => by cases h⟩
      · exact ⟨hs.length_le, hs.nodup, hs.version, fun _ _ h => by cases h⟩
  | heartbeat =>
      obtain ⟨-, rfl⟩ := step_heartbeat.mp hstep
      exact hs.moved fun _ _ h => by cases h
  | built =>
      obtain ⟨toPush, -, rfl⟩ := step_built.mp hstep
      exact hs.moved fun _ _ h => (PushPhase.pushing.inj h).2.symm
  | push typeUrl nonce =>
      obtain ⟨toPush, resources, hphase, hmem, rfl⟩ := step_push.mp hstep
      exact sentOnce_pushType hs hphase hmem
  | pushed =>
      obtain ⟨-, rfl⟩ := step_pushed.mp hstep
      exact hs.moved fun _ _ h => by cases h
  | touched =>
      obtain ⟨-, rfl⟩ := step_touched.mp hstep
      exact hs.moved fun _ _ h => by cases h

/-- **No content is sent twice** while the resources stay as they are, if a rejection of a
type comes only before its content was sent. -/
theorem sentSince_nodup (s t : AdsStream Res Ver) (labels : List (AdsLabel Res))
    (hquiet : ∀ l ∈ labels, l.Quiet)
    (hunsent : Along (step hash) (RejectsUnsent hash s.responses.length) labels s)
    (hrun : run (step hash) labels s = some t) : (t.sentSince s.responses.length).Nodup := by
  have hinv : t.SentOnce hash s.responses.length :=
    run_induction_along (fun _ _ _ hP hI hstep => sentOnce_step hI hP.1 hP.2 hstep)
      (hunsent.and_forall hquiet) (sentOnce_here s) hrun
  exact hinv.nodup

/-- A client that acknowledges the clusters and subscribes once more gets them once. -/
theorem sentSince_nodup_of_ack : ∃ t : AdsStream ℕ ℕ,
    run (step id)
        [.wake, .built, .push typeUrlCluster (str "1"), .pushed, .touched,
          .request ⟨typeUrlCluster, str "1", []⟩, .request ⟨typeUrlCluster, [], []⟩,
          .wake, .built, .push typeUrlCluster (str "2"), .pushed, .touched]
        (start (fun _ => 0) typeUrlCluster) = some t ∧ (t.sentSince 0).Nodup :=
  ⟨_, rfl, @sentSince_nodup ℕ ℕ _ id (start (fun _ => 0) typeUrlCluster) _
    [.wake, .built, .push typeUrlCluster (str "1"), .pushed, .touched,
      .request ⟨typeUrlCluster, str "1", []⟩, .request ⟨typeUrlCluster, [], []⟩,
      .wake, .built, .push typeUrlCluster (str "2"), .pushed, .touched]
    (by decide +kernel) (by decide +kernel) rfl⟩

/-- A rejection of the clusters makes the server send them again, though nothing has changed. -/
theorem rejected_twice : ∃ t : AdsStream ℕ ℕ,
    run (step id)
        ([.wake, .built, .push typeUrlCluster (str "1"), .pushed, .touched] ++
          [.request ⟨typeUrlCluster, str "1", str "rejected"⟩,
            .wake, .built, .push typeUrlCluster (str "2"), .pushed, .touched])
        (start (fun _ => 0) typeUrlCluster) = some t ∧
      t.sentSince 0 = [(typeUrlCluster, 0), (typeUrlCluster, 0)] :=
  ⟨_, rfl, by decide +kernel⟩

/-! ### A client that rejects everything -/

/-- The client rejects a type, and the loop goes round once. -/
def rejectRound (typeUrl : Str) : List (AdsLabel Res) :=
  [.request ⟨typeUrl, [], str "rejected"⟩, .wake, .built, .push typeUrl (str "1"), .pushed,
    .touched]

/-- Once round, and the content is sent again. -/
theorem run_rejectRound (hash : Res → Ver) {s : AdsStream Res Ver} {typeUrl : Str} (hknown : typeUrl ∈ knownTypes)
    (hsub : s.subscribed = {typeUrl}) (hpending : s.pending = ∅) (hphase : s.phase = .waiting) :
    ∃ t, run (step hash) (rejectRound typeUrl) s = some t ∧
      t.subscribed = {typeUrl} ∧ t.pending = ∅ ∧ t.phase = .waiting ∧
      t.resources = s.resources ∧
      t.responses = (typeUrl, hash (s.resources typeUrl)) :: s.responses := by
  have hempty : typeUrl.isEmpty = false := by
    have hall : ∀ known ∈ knownTypes, known.isEmpty = false := by decide
    exact hall typeUrl hknown
  have herror : (⟨typeUrl, [], str "rejected"⟩ : DiscoveryRequest).hasError = true := rfl
  simp [rejectRound, run, step, processRequest, mark, awake, toPush, pushType, hempty, herror,
    hsub, hpending, hphase, hknown]

/-- A client that rejects every response gets the same content as often as it likes. -/
theorem rejected_again (hash : Res → Ver) {s : AdsStream Res Ver} {typeUrl : Str}
    (hknown : typeUrl ∈ knownTypes) (hsub : s.subscribed = {typeUrl}) (hpending : s.pending = ∅)
    (hphase : s.phase = .waiting) (n : ℕ) :
    ∃ t, run (step hash) (List.replicate n (rejectRound typeUrl)).flatten s = some t ∧
      t.responses = List.replicate n (typeUrl, hash (s.resources typeUrl)) ++ s.responses := by
  induction n generalizing s with
  | zero => exact ⟨s, rfl, rfl⟩
  | succ n ih =>
      obtain ⟨s', hrun, hsub', hpending', hphase', hres, hresp⟩ :=
        run_rejectRound hash hknown hsub hpending hphase
      obtain ⟨t, hrest, hmore⟩ := ih hsub' hpending' hphase'
      refine ⟨t, ?_, ?_⟩
      · rw [List.replicate_succ, List.flatten_cons]
        exact run_append_eq_some.mpr ⟨s', hrun, hrest⟩
      · rw [hmore, hres, hresp, List.replicate_succ', List.append_assoc, List.singleton_append]

end AdsStream
end Llmxy
