import Llmxy.Billing.Basic
import Llmxy.Lib.Loops
import Llmxy.Protocols.ChatRead
import Mathlib.Algebra.Order.Ring.Int

/-!
# The price of images

A model has a price for each image, by the size and the quality of a tier, or is priced by the
tokens of its prompt and its images.  The quote for the images that were asked for and that for
the images that came back are the same function.

The pricing is a JSON object that nothing validates, so a quote can raise.

## Main definitions

* `matchImageTierMicro`, `quoteImageCostCents` — the quote.
* `PricesNonneg` — no number of a pricing is negative.
* `quoteImageCostCents_nonneg` — then no quote is.
-/

namespace Llmxy

/-- `ceil(micro / per)`, with the exact quotient as in `calcCostCents`. -/
def ceilCents (per micro : ℤ) : ℤ := (micro + (per - 1)) / per

/-- `int(d.get(key, 0))`, `none` when it raises. -/
def intOrZero (key : Str) (fields : List (Str × Json)) : Option ℤ :=
  ((Json.lookup key fields).getD (.int 0)).toInt?

/-- `int(t.get("price_micro", 0))`. -/
def tierPriceMicro : Json → Option ℤ
  | .obj tier => intOrZero (str "price_micro") tier
  | _ => none

/-- `cfg.get("mode") or "per_image"` is `"token"`. -/
def isTokenMode (cfg : List (Str × Json)) : Bool :=
  Json.lookup (str "mode") cfg = some (.str (str "token"))

/-- The tokens of one image.  `none` when it raises. -/
def outTokensEach (cfg : List (Str × Json)) (size quality : Str) : Option ℤ :=
  match (getTruthy (str "output_tokens") cfg).getD (.obj []) with
  | .obj outMap =>
      match Json.lookup (size ++ str "|" ++ quality) outMap with
      | some tokens => tokens.toInt?
      | none => intOrZero (str "default_out_tokens") cfg
  | _ => none

section
variable (repr : Json → Str)

/-- The tier is for the size, and for the quality or any. -/
def tierMatches (size quality : Str) (tier : List (Str × Json)) : Bool :=
  ((Json.lookup (str "size") tier).getD .null).toStr repr = size &&
    match (Json.lookup (str "quality") tier).getD .null with
    | .null => true
    | tq => tq.toStr repr = quality

/-- The loop over the tiers: the first one that matches.  `none` when it raises. -/
def findTier (size quality : Str) : List Json → Option (Option Json)
  | [] => some none
  | .obj tier :: rest =>
      if tierMatches repr size quality tier then some (some (.obj tier))
      else findTier size quality rest
  | _ :: _ => none

/-- `_match_image_tier_micro`. -/
def matchImageTierMicro (cfg : List (Str × Json)) (size quality : Str) : Option ℤ :=
  match getTruthy (str "tiers") cfg with
  | none => intOrZero (str "default_price_micro") cfg
  | some (.arr tiers) =>
      (findTier repr size quality tiers).bind fun
        | some tier => tierPriceMicro tier
        | none => (tiers.mapM tierPriceMicro).bind List.max?
  | some _ => none

/-- `quote_image_cost_cents`, without its `meta`. -/
def quoteImageCostCents (model : Model) (pricing : List (Str × Json)) (size quality : Str) (n : ℤ)
    (promptText : Str) : Option ℤ :=
  let n := max 0 n
  if isTokenMode pricing then
    (outTokensEach pricing size quality).map fun outPer =>
      let promptTokens : ℤ :=
        if promptText.isEmpty then 0 else max 1 ((promptText.length / 4 : ℕ) : ℤ)
      ceilCents 10000000 (promptTokens * model.promptRate + outPer * n * model.completionRate)
  else
    (matchImageTierMicro repr pricing size quality).map fun unit => ceilCents 10000 (unit * n)

end

/-! ### Prices that are not negative -/

/-- No number that a quote reads is negative. -/
structure PricesNonneg (model : Model) (pricing : List (Str × Json)) : Prop where
  promptRate : 0 ≤ model.promptRate
  completionRate : 0 ≤ model.completionRate
  tiers : ∀ tiers, Json.lookup (str "tiers") pricing = some (.arr tiers) →
    ∀ tier ∈ tiers, ∀ price ∈ tierPriceMicro tier, 0 ≤ price
  defaultPrice : ∀ price ∈ intOrZero (str "default_price_micro") pricing, 0 ≤ price
  outTokens : ∀ outMap, Json.lookup (str "output_tokens") pricing = some (.obj outMap) →
    ∀ key, ∀ v ∈ Json.lookup key outMap, ∀ tokens ∈ v.toInt?, 0 ≤ tokens
  defaultOutTokens : ∀ tokens ∈ intOrZero (str "default_out_tokens") pricing, 0 ≤ tokens

section
variable {repr : Json → Str} {model : Model} {pricing : List (Str × Json)} {size quality : Str}
  {per micro price tokens : ℤ}

theorem ceilCents_nonneg_iff (hper : 0 < per) : 0 ≤ ceilCents per micro ↔ -per < micro := by
  rw [ceilCents, Int.ediv_nonneg_iff_of_pos hper]
  omega

theorem mem_of_findTier {tiers : List Json} {tier : Json}
    (h : findTier repr size quality tiers = some (some tier)) : tier ∈ tiers := by
  induction tiers with
  | nil => cases h
  | cons t tiers ih =>
      cases t with
      | obj fields =>
          rw [findTier] at h
          split_ifs at h
          · cases h
            exact List.mem_cons_self
          · exact List.mem_cons_of_mem _ (ih h)
      | _ => cases h

theorem lookup_of_getTruthy {key : Str} {fields : List (Str × Json)} {v : Json}
    (h : getTruthy key fields = some v) : Json.lookup key fields = some v :=
  (Option.filter_eq_some_iff.mp h).1

theorem matchImageTierMicro_nonneg (h : PricesNonneg model pricing)
    (hprice : matchImageTierMicro repr pricing size quality = some price) : 0 ≤ price := by
  rw [matchImageTierMicro] at hprice
  split at hprice
  · exact h.defaultPrice price hprice
  · next tiers htiers =>
      have htiers := h.tiers tiers (lookup_of_getTruthy htiers)
      obtain ⟨found, hfound, hprice⟩ := Option.bind_eq_some_iff.mp hprice
      cases found with
      | some tier => exact htiers tier (mem_of_findTier hfound) price hprice
      | none =>
          obtain ⟨prices, hprices, hmax⟩ := Option.bind_eq_some_iff.mp hprice
          have hmem := List.max?_mem hmax
          obtain ⟨tier, htier, heq⟩ := exists_of_mem_mapM hprices hmem
          exact htiers tier htier price heq
  · cases hprice

theorem outTokensEach_nonneg (h : PricesNonneg model pricing)
    (htokens : outTokensEach pricing size quality = some tokens) : 0 ≤ tokens := by
  rw [outTokensEach] at htokens
  split at htokens
  · next outMap hmap =>
      split at htokens
      · next v hv =>
          cases hlookup : getTruthy (str "output_tokens") pricing with
          | none =>
              rw [hlookup] at hmap
              cases hmap
              cases hv
          | some m =>
              rw [hlookup] at hmap
              cases hmap
              exact h.outTokens outMap (lookup_of_getTruthy hlookup) _ v hv tokens htokens
      · exact h.defaultOutTokens tokens htokens
  · cases htokens

/-- **No quote is negative** where no price is. -/
theorem quoteImageCostCents_nonneg (h : PricesNonneg model pricing) {n cents : ℤ}
    {promptText : Str}
    (hquote : quoteImageCostCents repr model pricing size quality n promptText = some cents) :
    0 ≤ cents := by
  have hn : 0 ≤ max 0 n := le_max_left 0 n
  by_cases hmode : isTokenMode pricing = true
  · simp only [quoteImageCostCents, if_pos hmode] at hquote
    obtain ⟨outPer, hout, rfl⟩ := Option.map_eq_some_iff.mp hquote
    have hprompt : (0 : ℤ) ≤
        if promptText.isEmpty then 0 else max 1 ((promptText.length / 4 : ℕ) : ℤ) := by
      split_ifs <;> omega
    have hmicro := add_nonneg (mul_nonneg hprompt h.promptRate)
      (mul_nonneg (mul_nonneg (outTokensEach_nonneg h hout) hn) h.completionRate)
    exact (ceilCents_nonneg_iff (by decide)).mpr (lt_of_lt_of_le (by decide) hmicro)
  · simp only [quoteImageCostCents, if_neg hmode] at hquote
    obtain ⟨unit, hunit, rfl⟩ := Option.map_eq_some_iff.mp hquote
    have hmicro := mul_nonneg (matchImageTierMicro_nonneg h hunit) hn
    exact (ceilCents_nonneg_iff (by decide)).mpr (lt_of_lt_of_le (by decide) hmicro)

end
end Llmxy
