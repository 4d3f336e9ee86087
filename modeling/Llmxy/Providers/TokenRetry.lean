import Llmxy.Providers.TokenField
import Llmxy.Relay.Failover

/-!
# Retries with the other name of the limit

`chat` sends the limit under the name that it has learned for a target.  When the upstream
answers 400 and its error mentions both names, `chat` asks again with the name that the payload
itself does not have, and learns that one.

## Main definitions

* `ProviderAdapter.chatCall` — the bodies that a call sends, and what it learns.
* `ProviderAdapter.MovesLimit` — a retry sends the limit under the other name.
* `ProviderAdapter.wantedAfter` — the name that the answer to a payload asks for.
-/

namespace Llmxy

/-- The error of a reply, as a completion and as a stream read it. -/
def Reply.errorData (stream : Bool) (r : Reply) : Json :=
  if stream then r.rawData else r.data

/-- A call of `chat`: the bodies that it sends, the last reply, and what it has learned then. -/
structure ChatCall where
  sent : List (List (Str × Json))
  reply : Reply
  learned : TokenLimitFields

/-- A body has the limit under this name only. -/
structure TokenField.Carries (field : TokenField) (limit : Json) (body : List (Str × Json)) :
    Prop where
  held : Json.lookup field.name body = some limit
  only : Json.lookup field.other.name body = none

namespace ProviderAdapter

section
variable (env : Surroundings) (ask : Ask) (target : UpstreamTarget) (stream : Bool)

/-- The name of the limit that a reply to a payload asks for. -/
def wantedAfter (payload : List (Str × Json)) (r : Reply) : Option Str :=
  if r.status = 400 then wantedTokenField env payload (r.errorData stream) else none

/-- `chat`, in either mode. -/
def chatCall (adapter : ProviderAdapter) (payload : List (Str × Json))
    (learned : TokenLimitFields) : ChatCall :=
  let preferred := learned (adapter, target)
  let r := ask (chatRequest payload preferred)
  let body := normalizeChatPayloadForProtocol payload false preferred
  match wantedAfter env stream payload r with
  | some field =>
      ⟨[body, normalizeChatPayloadForProtocol payload false (some field)],
        ask (chatRequest payload (some field)),
        rememberTokenField learned (adapter, target) field⟩
  | none => ⟨[body], r, learned⟩

/-- A completion is read off the call. -/
theorem chatExchange_eq (adapter : ProviderAdapter) (payload : List (Str × Json))
    (learned : TokenLimitFields) : chatExchange env ask target adapter payload learned =
      ((chatCall env ask target false adapter payload learned).reply,
        (chatCall env ask target false adapter payload learned).learned) := by
  rw [chatExchange, chatCall]
  set r := ask (chatRequest payload (learned (adapter, target)))
  have hwanted : (if r.status = 400 then wantedTokenField env payload r.data else none) =
      wantedAfter env false payload r := rfl
  rw [hwanted]
  cases wantedAfter env false payload r <;> rfl

/-- A stream yields the last reply of the call, an error that is not retried as one piece. -/
theorem chatChunks_eq (adapter : ProviderAdapter) (payload : List (Str × Json))
    (learned : TokenLimitFields) : chatChunks env ask target adapter payload learned =
      let call := chatCall env ask target true adapter payload learned
      if call.sent.length = 1 ∧ call.reply.status = 400 then [call.reply.raw.flatten]
      else call.reply.raw := by
  rw [chatChunks, chatCall]
  set r := ask (chatRequest payload (learned (adapter, target)))
  by_cases hstatus : r.status = 400
  · have hwanted : wantedAfter env true payload r = wantedTokenField env payload r.rawData :=
      if_pos hstatus
    rw [if_pos hstatus, hwanted]
    cases wantedTokenField env payload r.rawData with
    | none => exact (if_pos ⟨rfl, hstatus⟩).symm
    | some field => exact (if_neg fun h => absurd h.1 (Nat.succ_ne_succ_iff.mpr one_ne_zero)).symm
  · have hwanted : wantedAfter env true payload r = none := if_neg hstatus
    rw [if_neg hstatus, hwanted]
    exact (if_neg fun h => hstatus h.2).symm

/-- **A retry moves the limit**: where a call asks twice, the limit is under another name the
second time, and that name is learned. -/
def MovesLimit (adapter : ProviderAdapter) (payload : List (Str × Json)) (call : ChatCall) :
    Prop :=
  ∀ rejected retried, call.sent = [rejected, retried] →
    ∃ before after : TokenField, before ≠ after ∧
      before.Carries (openaiChatTokenLimit (.obj payload) .null) rejected ∧
      after.Carries (openaiChatTokenLimit (.obj payload) .null) retried ∧
      call.learned (adapter, target) = some after.name

/-- A payload that is asked for a name has the limit under the other one only. -/
theorem wantedAfter_eq {payload : List (Str × Json)} {r : Reply} {name : Str}
    (h : wantedAfter env stream payload r = some name) :
    ∃ field : TokenField, name = field.name ∧ Json.lookup field.name payload = none ∧
      ∃ limit, Json.lookup field.other.name payload = some limit := by
  have hretry : ∀ {suggested field : Str},
      shouldRetryWith env.float suggested field payload (r.errorData stream) = true →
        Json.lookup suggested payload = none ∧
          ∃ limit, Json.lookup field payload = some limit := by
    intro suggested field hretry
    rw [shouldRetryWith] at hretry
    split_ifs at hretry with hguard
    rw [Bool.or_eq_true, not_or, Bool.not_eq_true, Bool.not_eq_true, Option.isNone_eq_false_iff,
      Option.isSome_eq_false_iff, Option.isSome_iff_exists, Option.isNone_iff_eq_none] at hguard
    exact ⟨hguard.2, hguard.1⟩
  rw [wantedAfter] at h
  split_ifs at h with hstatus
  rw [wantedTokenField] at h
  split_ifs at h with hcompletion htokens
  · cases h
    exact ⟨.maxCompletionTokens, rfl, hretry hcompletion⟩
  · cases h
    exact ⟨.maxTokens, rfl, hretry htokens⟩

end

section
variable {payload : List (Str × Json)} {field : TokenField} {limit : Json}

/-- Any other preference leaves a payload as it is. -/
theorem normalize_of_ne {preferred : Option Str} (habsent : Json.lookup field.name payload = none)
    (hne : preferred ≠ some field.name) :
    normalizeChatPayloadForProtocol payload false preferred = payload := by
  rw [normalizeChatPayloadForProtocol]
  cases field with
  | maxTokens =>
      simp only [Bool.false_eq_true, if_false]
      split_ifs with hother hsame
      · exact renameTokenField_of_absent habsent
      · exact absurd hsame hne
      · rfl
  | maxCompletionTokens =>
      simp only [Bool.false_eq_true, if_false]
      split_ifs with hsame hother
      · exact absurd hsame hne
      · exact renameTokenField_of_absent habsent
      · rfl

theorem limit_of_only (habsent : Json.lookup field.name payload = none)
    (hheld : Json.lookup field.other.name payload = some limit) :
    openaiChatTokenLimit (.obj payload) .null = limit := by
  have hnull : fieldOf field.name (.obj payload) = .null := by
    rw [fieldOf, habsent, Option.getD_none]
  have hlimit : fieldOf field.other.name (.obj payload) = limit := by
    rw [fieldOf, hheld, Option.getD_some]
  rw [openaiChatTokenLimit_eq]
  cases field with
  | maxTokens =>
      rw [← hlimit]
      refine ite_eq_left_iff.mpr fun h => ?_
      exact hnull.trans (not_not.mp h).symm
  | maxCompletionTokens => exact (if_neg (not_not.mpr hnull)).trans hlimit

/-- The limit goes to the preferred name, unless it is null. -/
theorem normalize_preferred (habsent : Json.lookup field.name payload = none)
    (hheld : Json.lookup field.other.name payload = some limit) :
    Json.lookup field.name (normalizeChatPayloadForProtocol payload false (some field.name)) =
        (if limit = .null then none else some limit) ∧
      Json.lookup field.other.name
        (normalizeChatPayloadForProtocol payload false (some field.name)) = none := by
  have hbody : normalizeChatPayloadForProtocol payload false (some field.name) =
      renameTokenField field.other.name field.name payload :=
    normalizeChatPayloadForProtocol_eq payload false (some field)
  rw [hbody, lookup_renameTokenField field.name_ne_other,
    lookup_renameTokenField field.name_ne_other]
  refine ⟨?_, if_pos rfl⟩
  rw [if_neg field.name_ne_other, if_pos rfl, habsent, hheld, Option.none_or, Option.filter_some]
  by_cases hnull : limit = .null
  · rw [if_pos hnull, if_neg (by simp [hnull])]
  · rw [if_neg hnull, if_pos (decide_eq_true hnull)]

end

/-- **A retry moves the limit** exactly when there is one, and the name that the error asks for is
not the one that is sent already. -/
theorem chatCall_movesLimit_iff (env : Surroundings) (ask : Ask) (target : UpstreamTarget)
    (stream : Bool) (adapter : ProviderAdapter) (payload : List (Str × Json))
    (learned : TokenLimitFields) :
    MovesLimit target adapter payload (chatCall env ask target stream adapter payload learned) ↔
      ∀ name, wantedAfter env stream payload
          (ask (chatRequest payload (learned (adapter, target)))) = some name →
        learned (adapter, target) ≠ some name ∧
          openaiChatTokenLimit (.obj payload) .null ≠ .null := by
  rw [chatCall]
  cases hwanted : wantedAfter env stream payload
      (ask (chatRequest payload (learned (adapter, target)))) with
  | none => exact iff_of_true (fun rejected retried hsent => by cases hsent) nofun
  | some name =>
      obtain ⟨field, rfl, habsent, limit, hheld⟩ := wantedAfter_eq env stream hwanted
      obtain ⟨hretried, hgone⟩ := normalize_preferred habsent hheld
      rw [limit_of_only habsent hheld]
      simp only [MovesLimit, limit_of_only habsent hheld]
      constructor
      · intro hmoves name hname
        cases hname
        obtain ⟨before, after, hne, hbefore, hafter, -⟩ := hmoves _ _ rfl
        have hfield : after = field := by
          by_contra h
          rw [TokenField.eq_other_of_ne h] at hafter
          cases hafter.held.symm.trans hgone
        rw [hfield] at hafter hne
        rw [TokenField.eq_other_of_ne hne] at hbefore
        constructor
        · intro hlearned
          rw [hlearned] at hbefore
          cases hbefore.held.symm.trans hgone
        · intro hnull
          rw [if_pos hnull] at hretried
          cases hafter.held.symm.trans hretried
      · intro hcondition rejected retried hsent
        obtain ⟨hlearned, hlimit⟩ := hcondition _ rfl
        cases hsent
        rw [if_neg hlimit] at hretried
        refine ⟨field.other, field, field.other_ne, ⟨?_, ?_⟩, ⟨hretried, hgone⟩,
          Function.update_self ..⟩
        · rw [normalize_of_ne habsent hlearned, hheld]
        · rw [normalize_of_ne habsent hlearned, field.other_other, habsent]

end ProviderAdapter

/-! ### An upstream that changes its mind -/

/-- An error that asks for one name in place of the other. -/
def unsupportedName (field : TokenField) : Reply :=
  ⟨400, some (errorBody (str "Unsupported parameter: " ++ field.name ++ str ". Use " ++
    field.other.name)), [], [], []⟩

/-- What a first call learns from an upstream that refuses `max_tokens`. -/
def learnedOnce : TokenLimitFields :=
  (ProviderAdapter.chatCall noSurroundings (fun _ => unsupportedName .maxTokens) ⟨9, str "m"⟩
    false .openai [(maxTokensField, .int 64)] fun _ => none).learned

/-- An upstream that then refuses the other name gets the same request again. -/
theorem chatCall_repeats :
    ¬ ProviderAdapter.MovesLimit ⟨9, str "m"⟩ .openai [(maxTokensField, .int 128)]
      (ProviderAdapter.chatCall noSurroundings (fun _ => unsupportedName .maxCompletionTokens)
        ⟨9, str "m"⟩ false .openai [(maxTokensField, .int 128)] learnedOnce) := by
  intro hmoves
  obtain ⟨before, after, hne, hbefore, hafter, -⟩ :=
    hmoves [(maxCompletionTokensField, .int 128)] [(maxCompletionTokensField, .int 128)]
      (by decide +kernel)
  have hname : ∀ field : TokenField,
      field.Carries (.int 128) [(maxCompletionTokensField, .int 128)] →
        field = .maxCompletionTokens := by
    rintro (_ | _) h
    · exact absurd h.held (by decide)
    · rfl
  exact hne ((hname before hbefore).trans (hname after hafter).symm)

end Llmxy
