import Llmxy.Providers.OpenaiCompat

/-!
# The name of the token limit

`normalize_chat_payload_for_protocol` moves the limit of a payload to the preferred name.
`openai_chat_token_limit` reads it off a payload: `max_completion_tokens` comes first, and a null
counts as absent.

## Main definitions

* `TokenField` — the two names.
* `lookup_renameTokenField` — what each key holds afterwards.
* `KeepsLimit` — a normalised payload has the same limit, under the preferred name only.
* `LimitUnshadowed` — nothing stands under the preferred name in place of the limit.
-/

namespace Llmxy

/-- The names of the token limit. -/
inductive TokenField where
  | maxTokens | maxCompletionTokens
  deriving DecidableEq

namespace TokenField

def name : TokenField → Str
  | maxTokens => maxTokensField
  | maxCompletionTokens => maxCompletionTokensField

def other : TokenField → TokenField
  | maxTokens => maxCompletionTokens
  | maxCompletionTokens => maxTokens

theorem name_ne_other (field : TokenField) : field.name ≠ field.other.name := by
  cases field <;> decide

theorem other_ne (field : TokenField) : field.other ≠ field := by
  cases field <;> decide

theorem other_other (field : TokenField) : field.other.other = field := by
  cases field <;> rfl

theorem eq_other_of_ne {a b : TokenField} (h : a ≠ b) : a = b.other := by
  cases a <;> cases b <;> first | rfl | exact absurd rfl h

end TokenField

/-! ### Renaming -/

section
variable {source target : Str}

/-- What the keys hold afterwards. -/
theorem lookup_renameTokenField (hne : target ≠ source) (body : List (Str × Json)) (key : Str) :
    Json.lookup key (renameTokenField source target body) =
      if key = source then none
      else if key = target then
        (Json.lookup target body).or ((Json.lookup source body).filter (· ≠ .null))
      else Json.lookup key body := by
  have htarget := (Json.lookup_without source body target).trans (if_neg hne)
  rw [renameTokenField]
  simp only [htarget]
  split
  · next limit hlimit habsent =>
      rw [Json.lookup_append, Json.lookup_without, Json.lookup_cons, Json.lookup_nil, hlimit,
        habsent, Option.none_or]
      by_cases hsource : key = source
      · rw [if_pos hsource, if_pos hsource, if_neg fun h => hne (h.trans hsource), Option.none_or]
      · rw [if_neg hsource, if_neg hsource]
        by_cases hkey : key = target
        · rw [if_pos hkey, if_pos hkey.symm, hkey, habsent, Option.none_or]
        · rw [if_neg hkey, if_neg fun h => hkey h.symm, Option.or_none]
  · next hkept =>
      rw [Json.lookup_without]
      by_cases hsource : key = source
      · rw [if_pos hsource, if_pos hsource]
      · rw [if_neg hsource, if_neg hsource]
        by_cases hkey : key = target
        · rw [if_pos hkey, hkey]
          cases hlimit : (Json.lookup source body).filter (· ≠ .null) with
          | none => exact Option.or_none.symm
          | some limit =>
              cases hheld : Json.lookup target body with
              | none => exact absurd hheld (hkept limit hlimit)
              | some held => rfl
        · rw [if_neg hkey]

/-- A payload without the other name stays as it is. -/
theorem renameTokenField_of_absent {body : List (Str × Json)}
    (h : Json.lookup source body = none) : renameTokenField source target body = body := by
  have hrest : (body.filter fun f => f.1 ≠ source) = body := by
    rw [List.filter_eq_self]
    intro f hf
    have hsource := Json.lookup_eq_none_iff.mp h
    exact decide_eq_true fun heq => hsource (heq ▸ List.mem_map_of_mem hf)
  rw [renameTokenField, hrest, h]
  rfl

end

/-! ### The preferred name -/

/-- `token_field`: the name that the limit goes to. -/
def TokenField.chosen (force : Bool) (preferred : Option TokenField) : Option TokenField :=
  if force then some .maxCompletionTokens else preferred

/-- The normalisation, by the name that the limit goes to. -/
theorem normalizeChatPayloadForProtocol_eq (payload : List (Str × Json)) (force : Bool)
    (preferred : Option TokenField) :
    normalizeChatPayloadForProtocol payload force (preferred.map TokenField.name) =
      match TokenField.chosen force preferred with
      | none => payload
      | some field => renameTokenField field.other.name field.name payload := by
  have hne : maxTokensField ≠ maxCompletionTokensField := by decide
  rw [normalizeChatPayloadForProtocol, TokenField.chosen]
  cases force with
  | true => rfl
  | false =>
      match preferred with
      | none => rfl
      | some .maxTokens => simp [TokenField.name, TokenField.other, hne]
      | some .maxCompletionTokens => simp [TokenField.name, TokenField.other]

/-- **The limit is kept**: the normalised payload has the same limit, under the preferred name
only, its other fields are those of the payload, and it is normalised. -/
structure KeepsLimit (payload : List (Str × Json)) (force : Bool)
    (preferred : Option TokenField) (body : List (Str × Json)) : Prop where
  limit : openaiChatTokenLimit (.obj body) .null = openaiChatTokenLimit (.obj payload) .null
  only : ∀ field, TokenField.chosen force preferred = some field →
    Json.lookup field.other.name body = none
  others : ∀ key, (∀ field : TokenField, key ≠ field.name) →
    Json.lookup key body = Json.lookup key payload
  again : normalizeChatPayloadForProtocol body force (preferred.map TokenField.name) = body

/-- Nothing under the preferred name takes the place of the limit.  A null under
`max_completion_tokens` does so for a limit under `max_tokens`, and whatever stands under
`max_tokens` for another limit under `max_completion_tokens`. -/
def LimitUnshadowed (payload : List (Str × Json)) : Option TokenField → Prop
  | none => True
  | some .maxCompletionTokens =>
      Json.lookup maxCompletionTokensField payload = some .null →
        fieldOf maxTokensField (.obj payload) = .null
  | some .maxTokens =>
      (Json.lookup maxTokensField payload).isSome →
        fieldOf maxCompletionTokensField (.obj payload) ≠ .null →
          fieldOf maxCompletionTokensField (.obj payload) = fieldOf maxTokensField (.obj payload)

theorem openaiChatTokenLimit_eq (body : List (Str × Json)) :
    openaiChatTokenLimit (.obj body) .null =
      if fieldOf maxCompletionTokensField (.obj body) ≠ .null then
        fieldOf maxCompletionTokensField (.obj body)
      else fieldOf maxTokensField (.obj body) := by
  have hlast : ∀ v : Json, (if v ≠ .null then v else .null) = v := fun v =>
    ite_eq_left_iff.mpr fun h => (not_not.mp h).symm
  rw [openaiChatTokenLimit]
  exact congrArg (ite _ _) (hlast _)

/-- The limit of a payload that is renamed. -/
theorem openaiChatTokenLimit_rename (field : TokenField) (payload : List (Str × Json)) :
    openaiChatTokenLimit (.obj (renameTokenField field.other.name field.name payload)) .null =
      ((Json.lookup field.name payload).getD (fieldOf field.other.name (.obj payload))) := by
  have hother : fieldOf field.other.name
      (.obj (renameTokenField field.other.name field.name payload)) = .null := by
    rw [fieldOf, lookup_renameTokenField field.name_ne_other, if_pos rfl, Option.getD_none]
  have hfield : fieldOf field.name
      (.obj (renameTokenField field.other.name field.name payload)) =
        (Json.lookup field.name payload).getD (fieldOf field.other.name (.obj payload)) := by
    rw [fieldOf, lookup_renameTokenField field.name_ne_other, if_neg field.name_ne_other,
      if_pos rfl, fieldOf]
    cases Json.lookup field.name payload with
    | some held => rfl
    | none =>
        rw [Option.none_or, Option.getD_none]
        cases Json.lookup field.other.name payload with
        | none => rfl
        | some limit =>
            by_cases hlimit : limit = .null
            · rw [hlimit]
              rfl
            · rw [Option.filter_some, if_pos (decide_eq_true hlimit)]
  rw [openaiChatTokenLimit_eq, ← hfield]
  cases field with
  | maxTokens => exact if_neg (not_not.mpr hother)
  | maxCompletionTokens =>
      refine ite_eq_left_iff.mpr fun h => ?_
      exact hother.trans (not_not.mp h).symm

/-- Where the limit goes to a name, it is kept exactly when nothing stands there in its place. -/
theorem limit_renamed_iff (field : TokenField) (payload : List (Str × Json)) :
    openaiChatTokenLimit (.obj (renameTokenField field.other.name field.name payload)) .null =
        openaiChatTokenLimit (.obj payload) .null ↔ LimitUnshadowed payload (some field) := by
  rw [openaiChatTokenLimit_rename, openaiChatTokenLimit_eq]
  cases field with
  | maxTokens =>
      simp only [TokenField.name, TokenField.other, LimitUnshadowed]
      cases hheld : Json.lookup maxTokensField payload with
      | none =>
          have hnull : fieldOf maxTokensField (.obj payload) = .null := by
            rw [fieldOf, hheld, Option.getD_none]
          rw [hnull, Option.getD_none, Option.isSome_none]
          refine ⟨fun _ h => ?_, fun _ => (ite_eq_left_iff.mpr fun h => (not_not.mp h).symm).symm⟩
          cases h
      | some held =>
          have hfield : fieldOf maxTokensField (.obj payload) = held := by
            rw [fieldOf, hheld, Option.getD_some]
          rw [hfield, Option.getD_some, Option.isSome_some, eq_comm, ite_eq_right_iff]
          exact ⟨fun h _ => h, fun h => h rfl⟩
  | maxCompletionTokens =>
      simp only [TokenField.name, TokenField.other, LimitUnshadowed]
      cases hheld : Json.lookup maxCompletionTokensField payload with
      | none =>
          have hnull : fieldOf maxCompletionTokensField (.obj payload) = .null := by
            rw [fieldOf, hheld, Option.getD_none]
          rw [hnull, Option.getD_none, if_neg (not_not.mpr rfl)]
          refine ⟨fun _ h => ?_, fun _ => rfl⟩
          cases h
      | some held =>
          have hfield : fieldOf maxCompletionTokensField (.obj payload) = held := by
            rw [fieldOf, hheld, Option.getD_some]
          rw [hfield, Option.getD_some, Option.some_inj, eq_comm, ite_eq_left_iff, not_not]
          refine forall_congr' fun h => ?_
          rw [h]

/-- **The limit is kept** exactly when nothing stands in its place. -/
theorem normalizeChatPayloadForProtocol_keepsLimit_iff (payload : List (Str × Json))
    (force : Bool) (preferred : Option TokenField) :
    KeepsLimit payload force preferred
        (normalizeChatPayloadForProtocol payload force (preferred.map TokenField.name)) ↔
      LimitUnshadowed payload (TokenField.chosen force preferred) := by
  have hbody := normalizeChatPayloadForProtocol_eq payload force preferred
  have hagain := normalizeChatPayloadForProtocol_eq
    (normalizeChatPayloadForProtocol payload force (preferred.map TokenField.name)) force preferred
  cases hchosen : TokenField.chosen force preferred with
  | none =>
      simp only [hchosen] at hbody hagain
      rw [hbody] at hagain ⊢
      refine iff_of_true ⟨rfl, fun field h => ?_, fun _ _ => rfl, hagain⟩ trivial
      rw [hchosen] at h
      cases h
  | some field =>
      simp only [hchosen] at hbody hagain
      have hgone : Json.lookup field.other.name
          (renameTokenField field.other.name field.name payload) = none := by
        rw [lookup_renameTokenField field.name_ne_other, if_pos rfl]
      rw [renameTokenField_of_absent (hbody ▸ hgone), hbody] at hagain
      rw [hbody, ← limit_renamed_iff]
      refine ⟨KeepsLimit.limit, fun hlimit =>
        ⟨hlimit, fun chosen h => ?_, fun key hkey => ?_, hagain⟩⟩
      · rw [hchosen] at h
        cases h
        exact hgone
      · rw [lookup_renameTokenField field.name_ne_other, if_neg (hkey field.other),
          if_neg (hkey field)]

/-- A null under the preferred name takes the place of the limit. -/
theorem normalizeChatPayloadForProtocol_loses_limit :
    ¬ KeepsLimit [(maxTokensField, .int 100), (maxCompletionTokensField, .null)] false
      (some .maxCompletionTokens)
      (normalizeChatPayloadForProtocol
        [(maxTokensField, .int 100), (maxCompletionTokensField, .null)] false
        (some maxCompletionTokensField)) := by
  intro h
  have hlimit := h.limit
  revert hlimit
  decide

end Llmxy
