import Llmxy.Billing.Funds
import Llmxy.Billing.ImagePricing
import Llmxy.Relay.Failover

/-!
# Images

A request for images tries its candidates in turn.  Each attempt holds the estimate first, after
a gate that compares it with what the user has, then asks the upstream, and then settles: the
first upstream that returns images is paid what they cost, and any other hold is refunded.

The gate and the hold look at the subscriptions at two times, and the tokens that an upstream
reports are taken at their word.

## Main definitions

* `ImageTry` — a candidate, when its attempt is made, and what its upstream answers.
* `tryImage`, `executeImageRelay` — an attempt and the loop.
* `ImageCostExact` — a request costs what its serving candidate cost, and no hold overdraws.
* `CoveredAndPriced` — what its attempts need for it.
* `executeImageRelay_exact_iff` — when a request costs what it should.
* `coveredAndPriced_of_noEnd` — as where no subscription ends between a gate and its hold.
-/

namespace Llmxy

/-! ### The request -/

/-- A model with its channel and its pricing. -/
structure ImageCandidate extends Candidate where
  pricing : List (Str × Json)

/-- The adapters of the image registry. -/
inductive ImageAdapter where
  | openai
  | azureOpenai
  | gemini
  deriving DecidableEq

/-- `get_image_adapter`. -/
def getImageAdapter (connector : Str) : Option ImageAdapter :=
  [(str "openai", .openai), (str "azure_openai", .azureOpenai), (str "gemini", .gemini)].lookup
    (normalizeConnector (some connector))

/-- `adapter.images`, where the request to the upstream comes to `answer`: its status and body,
or those that a timeout or another error is given.  `none` when it raises. -/
def ImageAdapter.images (answer : Option (ℤ × Json)) : ImageAdapter → Option (ℤ × Json)
  | .openai | .azureOpenai => answer
  | .gemini => some (501, errorBody (str "Gemini image generation not yet supported"))

/-- What is read off a payload. -/
structure ImageParams where
  size : Str
  quality : Str
  n : ℤ
  promptText : Str
  deriving DecidableEq

/-- `_parse_params`.  `none` when it raises. -/
def parseParams (repr : Json → Str) : Json → Option ImageParams
  | .obj payload =>
      let n :=
        match getTruthy (str "n") payload with
        | none => some 1
        -- the `OverflowError` is not caught
        | some (.infinity _) => none
        | some v => some (v.toInt?.getD 1)
      n.map fun n =>
        { size := ((getTruthy (str "size") payload).getD (.str (str "1024x1024"))).toStr repr
          quality := ((getTruthy (str "quality") payload).getD (.str (str "standard"))).toStr repr
          n := max 1 n
          promptText := ((getTruthy (str "prompt") payload).getD (.str [])).toStr repr }
  | _ => none

/-- When the steps of an attempt look at the clock, in a request that began before. -/
structure AttemptClock (began : ℤ) where
  gateAt : ℤ
  heldAt : ℤ
  settledAt : ℤ
  began_le_gateAt : began ≤ gateAt
  gateAt_le_heldAt : gateAt ≤ heldAt
  heldAt_le_settledAt : heldAt ≤ settledAt

/-- A candidate, the times of its attempt, and what its upstream answers. -/
structure ImageTry (began : ℤ) where
  candidate : ImageCandidate
  clock : AttemptClock began
  latencyMs : ℤ
  answer : Option (ℤ × Json)

/-- What the caller passes on, beside the user and the candidates. -/
structure ImageCall where
  userFacingModel : Str
  requestId : Str
  resolvedLabel : Option Str
  payload : Json

/-- What the relay raises. -/
inductive ImageRaise where
  | imageRelayError (statusCode : ℤ) (message : Str)
  | other
  deriving DecidableEq

/-! ### Replies -/

/-- `images_returned`. -/
def imagesReturned (reply : ℤ × Json) : ℕ :=
  match reply.2.get? (str "data") with
  | some (.arr data) => if reply.1 = 200 then data.length else 0
  | _ => 0

/-- The micro-cents of the tokens that an upstream reports.  `none` when reading them raises. -/
def usageMicro (model : Model) (usage : List (Str × Json)) : Option ℤ := do
  let inTok ← usageInt (str "input_tokens") (str "prompt_tokens") usage
  let outTok ← usageInt (str "output_tokens") (str "completion_tokens") usage
  return inTok * model.promptRate + outTok * model.completionRate

namespace ImageCandidate
variable (repr : Json → Str) (p : ImageParams) (c : ImageCandidate)

/-- The quote for the images that the request asks for. -/
def quote : Option ℤ :=
  quoteImageCostCents repr c.rates c.pricing p.size p.quality p.n p.promptText

/-- What a reply with images costs.  `none` when it raises. -/
def actualCents (reply : ℤ × Json) : Option ℤ :=
  match isTokenMode c.pricing, reply.2.get? (str "usage") with
  | true, some (.obj usage) => (usageMicro c.rates usage).map (ceilCents 10000000)
  | _, _ => c.quote repr { p with n := imagesReturned reply }

end ImageCandidate

namespace ImageTry
variable {began : ℤ} (repr : Json → Str) (p : ImageParams) (a : ImageTry began)

/-- The reply to an attempt that is not skipped. -/
def reply : Option (ℤ × Json) :=
  ((getImageAdapter a.candidate.connector).filter fun _ =>
    connectorSupportsProtocol (some a.candidate.connector) (some a.candidate.protocol)).bind
      fun adapter => adapter.images a.answer

/-- The upstream returns images. -/
def serves : Bool := a.reply.any fun reply => 0 < imagesReturned reply

/-- What the images cost. -/
def cost : Option ℤ := a.reply.bind fun reply => a.candidate.actualCents repr p reply

end ImageTry

/-- What the serving candidate costs, or nothing when there is none. -/
def servedCost {began : ℤ} (repr : Json → Str) (p : ImageParams) (tries : List (ImageTry began)) :
    Option ℤ :=
  match tries.find? ImageTry.serves with
  | some a => a.cost repr p
  | none => some 0

/-! ### The relay -/

/-- `available_cents`, for the loaded user. -/
def Sess.availableCents (s : Sess) (now : ℤ) : ℤ :=
  activeQuota s.pg s.user.id now + max 0 s.user.balance.value

/-- `await db.flush()` after the rows of a charge or a refund.  `none` when it raises. -/
def flushRows {α : Type} (r : Option (α × Sess)) : Option (α × Sess) :=
  r.filter fun r => r.2.rowsFit

/-- A hold that was placed, in the session before it. -/
structure ImageHold where
  before : Sess
  estimate : ℤ
  heldAt : ℤ
  after : Sess

/-- How an attempt ends. -/
inductive TryOutcome where
  /-- The next candidate is tried, and this is the last reply. -/
  | next (last : ℤ × Json) (s : Sess)
  | served (reply : ℤ × Json) (s : Sess)
  | raised (e : ImageRaise)

/-- The log of a request. -/
def imageLog (call : ImageCall) (c : ImageCandidate) (costCents latencyMs : ℤ) (status : Str)
    (s : Sess) : UsageLog where
  userId := s.user.id
  apiKeyId := s.keyId
  modelId := some c.rates.id
  userFacingModel := some call.userFacingModel
  upstreamModel := some c.rates.upstreamModel.1
  promptTokens := 0
  completionTokens := 0
  costCents := costCents
  latencyMs := latencyMs
  status := status
  requestId := some call.requestId
  kind := str "relay"
  resolvedLabel := call.resolvedLabel

section
variable {began : ℤ} (repr : Json → Str) (call : ImageCall) (p : ImageParams)

/-- The rest of a hold goes back, or what is missing is charged. -/
def reconcile (breakdown : List Share) (estimate actual now : ℤ) (s : Sess) : Option Sess :=
  if actual < estimate then
    (flushRows (refundToSources breakdown (estimate - actual) (some call.requestId)
      (some (call.userFacingModel ++ str " [image-refund]")) now s)).map Prod.snd
  else if estimate < actual then
    (flushRows (chargeUser (actual - estimate) (some call.requestId)
      (some (call.userFacingModel ++ str " [image-adjust]")) now s)).map Prod.snd
  else some s

/-- The hold of an attempt that failed goes back. -/
def releaseHold (breakdown : List Share) (estimate now : ℤ) (s : Sess) : Option Sess :=
  if 0 < estimate then
    (flushRows (refundToSources breakdown estimate (some call.requestId)
      (some (call.userFacingModel ++ str " [image-refund]")) now s)).map Prod.snd
  else some s

/-- What follows a hold. -/
def settleTry (a : ImageTry began) (adapter : ImageAdapter) (estimate : ℤ)
    (breakdown : List Share) (s : Sess) : TryOutcome :=
  match adapter.images a.answer with
  | none => .raised .other
  | some reply =>
      if 0 < imagesReturned reply then
        match a.candidate.actualCents repr p reply with
        | none => .raised .other
        | some actual =>
            match reconcile call breakdown estimate actual a.clock.settledAt s with
            | none => .raised .other
            | some s =>
                .served reply (s.addLog (imageLog call a.candidate actual a.latencyMs (str "ok") s))
      else
        match releaseHold call breakdown estimate a.clock.settledAt s with
        | none => .raised .other
        | some s => .next reply s

/-- One pass of the loop, with the hold that it has placed. -/
def tryImage (s : Sess) (a : ImageTry began) : TryOutcome × List ImageHold :=
  let connector := a.candidate.connector
  let protocol := a.candidate.protocol
  match getImageAdapter connector with
  | none => (.next (502, errorBody (str "no image adapter for connector " ++ connector)) s, [])
  | some adapter =>
      if !connectorSupportsProtocol (some connector) (some protocol) then
        (.next (502, errorBody (str "connector " ++ connector ++
          str " does not support protocol " ++ protocol)) s, [])
      else
        match a.candidate.quote repr p with
        | none => (.raised .other, [])
        | some estimate =>
            if 0 < estimate ∧ s.availableCents a.clock.gateAt < estimate then
              (.raised (.imageRelayError 402 (str "insufficient balance for image request")), [])
            else
              match flushRows (chargeUser estimate (some call.requestId)
                (some (call.userFacingModel ++ str " [image-hold]")) a.clock.heldAt s) with
              | none => (.raised .other, [])
              | some (breakdown, held) =>
                  (settleTry repr call p a adapter estimate breakdown held,
                    [⟨s, estimate, a.clock.heldAt, held⟩])

/-- What a request comes to, and the holds that it has placed. -/
structure ImageRun where
  result : Except ImageRaise ((ℤ × Json) × Sess)
  holds : List ImageHold

/-- The loop over the candidates, the first of which is logged when all of them fail. -/
def imageLoop (first : ImageCandidate) : List (ImageTry began) → ℤ × Json → Sess → ImageRun
  | [], last, s =>
      let status := if last.1 = 504 then str "timeout" else str "error"
      ⟨.ok (last, s.addLog (imageLog call first 0 0 status s)), []⟩
  | a :: rest, _, s =>
      match tryImage repr call p s a with
      | (.next last s, holds) =>
          let run := imageLoop first rest last s
          ⟨run.result, holds ++ run.holds⟩
      | (.served reply s, holds) => ⟨.ok (reply, s), holds⟩
      | (.raised e, holds) => ⟨.error e, holds⟩

/-- `execute_image_relay`. -/
def executeImageRelay (tries : List (ImageTry began)) (s : Sess) : ImageRun :=
  match tries with
  | [] => ⟨.error (.imageRelayError 502 (str "no upstream")), []⟩
  | first :: _ =>
      match parseParams repr call.payload with
      | none => ⟨.error .other, []⟩
      | some p =>
          imageLoop repr call p first.candidate tries (502, errorBody (str "no upstream")) s

end

/-- The caller commits what the relay returns, and rolls back when it raises. -/
def ImageRun.committed (pg : Pg) (run : ImageRun) : Pg :=
  match run.result with
  | .ok (_, s) => s.commit.getD pg
  | .error _ => pg

/-! ### What a request is to cost -/

namespace ImageHold
variable (uid : ℤ) (h : ImageHold)

/-- The hold leaves a wallet that was not negative so. -/
def Safe : Prop :=
  ∀ before, h.before.pg.wallet uid = some before → 0 ≤ before →
    ∀ after, h.after.pg.wallet uid = some after → 0 ≤ after

/-- The hold would pass the gate again at the moment that it is placed. -/
def Covered : Prop :=
  ∀ before, h.before.pg.wallet uid = some before → 0 ≤ before →
    h.estimate ≤ activeQuota h.before.pg uid h.heldAt + before

end ImageHold

/-- Tokens that an upstream is paid by do not come to a credit of a cent. -/
def ImageTry.UsagePriced {began : ℤ} (a : ImageTry began) : Prop :=
  isTokenMode a.candidate.pricing = true → ∀ reply ∈ a.reply, ∀ usage,
    reply.2.get? (str "usage") = some (.obj usage) →
      ∀ micro ∈ usageMicro a.candidate.rates usage, -10000000 < micro

/-- **A request costs what its serving candidate cost.**  When it returns, one log was added,
with that cost or with zero if there is no such candidate, and the funds are less by it; when it
raises, nothing is kept; and no hold overdraws. -/
structure ImageCostExact {began : ℤ} (repr : Json → Str) (call : ImageCall)
    (tries : List (ImageTry began)) (pg : Pg) (uid : ℤ) (run : ImageRun) : Prop where
  returned : ∀ reply t, run.result = .ok (reply, t) → ∃ log, t.newLogs = [log] ∧
    ((parseParams repr call.payload).bind fun p => servedCost repr p tries) =
      some log.costCents ∧
    t.view.fundsAt uid began = (pg.fundsAt uid began).map (· - log.costCents)
  raised : ∀ e, run.result = .error e → run.committed pg = pg
  holds : ∀ h ∈ run.holds, h.Safe uid

section
variable {began : ℤ} (repr : Json → Str) (call : ImageCall) (p : ImageParams) (uid : ℤ)

/-- What the attempts need of the sessions that they start from: a hold that is placed would pass
the gate again at that moment, and the tokens that an upstream is paid by are no credit. -/
def CoveredAndPriced : List (ImageTry began) → Sess → Prop
  | [], _ => True
  | a :: rest, s =>
      (∀ h ∈ (tryImage repr call p s a).2, h.Covered uid) ∧
        match (tryImage repr call p s a).1 with
        | .next _ t => CoveredAndPriced rest t
        | .served _ _ => a.UsagePriced
        | .raised _ => True

/-- The part of `ImageCostExact` that is about the loop. -/
structure LoopExact (tries : List (ImageTry began)) (s : Sess) (run : ImageRun) : Prop where
  returned : ∀ reply t, run.result = .ok (reply, t) → ∃ log, t.newLogs = [log] ∧
    servedCost repr p tries = some log.costCents ∧
    t.view.fundsAt uid began = (s.pg.fundsAt uid began).map (· - log.costCents)
  holds : ∀ h ∈ run.holds, h.Safe uid

end

section
variable {began uid estimate now : ℤ} {repr : Json → Str} {call : ImageCall} {p : ImageParams}
  {s t held : Sess} {bd : List Share} {a : ImageTry began} {adapter : ImageAdapter}

/-! ### A hold -/

/-- **A hold overdraws** exactly when it would not pass the gate. -/
theorem safe_iff_covered (hs : s.Loaded uid)
    (hheld : ChargedFunds uid began estimate now s bd held) :
    ImageHold.Safe uid ⟨s, estimate, now, held⟩ ↔
      ImageHold.Covered uid ⟨s, estimate, now, held⟩ := by
  have hcap : ∀ x ∈ sources s.pg uid now, 0 ≤ x.2 := fun x hx => (sources_pos x hx).le
  have hcover := le_sum_add_shortfall hcap estimate
  have hshort := shortfall_of_pos (a := estimate) hcap
  have hafter := hheld.balance
  rw [sum_sources] at hcover hshort
  simp only [ImageHold.Safe, ImageHold.Covered, hs.wallet, hheld.loaded.wallet,
    Option.some.injEq, forall_eq']
  omega

/-! ### Settling -/

theorem flushRows_eq_some {α : Type} {r : Option (α × Sess)} {x : α × Sess}
    (h : flushRows r = some x) : r = some x := (Option.filter_eq_some_iff.mp h).1

section
variable {cents settledAt : ℤ} {refId note : Option Str}

/-- A refund after a hold that was placed. -/
theorem refundedFunds_of_flush (hbegan : began ≤ settledAt)
    (hheld : ChargedFunds uid began estimate now s bd held)
    (h : (flushRows (refundToSources bd cents refId note settledAt held)).map Prod.snd = some t) :
    RefundedFunds uid began bd cents held t := by
  obtain ⟨⟨n, t'⟩, hflush, rfl⟩ := Option.map_eq_some_iff.mp h
  obtain ⟨m, t'', hback, hrefunded⟩ :=
    refund_loaded hheld.loaded hbegan hheld.shares cents refId note
  cases (flushRows_eq_some hflush).symm.trans hback
  exact hrefunded

/-- A charge after a hold that was placed. -/
theorem chargedFunds_of_flush (hbegan : began ≤ settledAt)
    (hheld : ChargedFunds uid began estimate now s bd held)
    (h : (flushRows (chargeUser cents refId note settledAt held)).map Prod.snd = some t) :
    ∃ bd', ChargedFunds uid began cents settledAt held bd' t := by
  obtain ⟨⟨bd', t'⟩, hflush, rfl⟩ := Option.map_eq_some_iff.mp h
  obtain ⟨bd'', t'', hmore, hcharged⟩ := charge_loaded hheld.loaded hbegan cents refId note
  cases (flushRows_eq_some hflush).symm.trans hmore
  exact ⟨bd', hcharged⟩

end

/-- The funds after an attempt that returned images. -/
theorem reconcile_spec {actual settledAt : ℤ} (hest : 0 ≤ estimate) (hbegan : began ≤ settledAt)
    (hheld : ChargedFunds uid began estimate now s bd held) (hs : s.Loaded uid)
    (h : reconcile call bd estimate actual settledAt held = some t) :
    t.Loaded uid ∧ t.newLogs = s.newLogs ∧
      (t.pg.fundsAt uid began = (s.pg.fundsAt uid began).map (· - actual) ↔ 0 ≤ actual) := by
  have hfunds := hheld.funds
  rw [hs.fundsAt_eq] at hfunds ⊢
  rw [reconcile] at h
  split_ifs at h with hless hmore
  · have hrefunded := refundedFunds_of_flush hbegan hheld h
    refine ⟨hrefunded.loaded, hrefunded.newLogs.trans hheld.newLogs, ?_⟩
    rw [hrefunded.funds, hfunds, hheld.sum]
    simp only [Option.map_some, Option.some.injEq]
    omega
  · obtain ⟨bd', hcharged⟩ := chargedFunds_of_flush hbegan hheld h
    refine ⟨hcharged.loaded, hcharged.newLogs.trans hheld.newLogs, ?_⟩
    rw [hcharged.funds, hfunds]
    simp only [Option.map_some, Option.some.injEq]
    omega
  · cases h
    refine ⟨hheld.loaded, hheld.newLogs, ?_⟩
    rw [hfunds]
    simp only [Option.map_some, Option.some.injEq]
    omega

/-- An attempt that failed leaves the funds. -/
theorem releaseHold_spec {settledAt : ℤ} (hbegan : began ≤ settledAt)
    (hheld : ChargedFunds uid began estimate now s bd held)
    (h : releaseHold call bd estimate settledAt held = some t) :
    t.Loaded uid ∧ t.newLogs = s.newLogs ∧ t.pg.fundsAt uid began = s.pg.fundsAt uid began ∧
      EndsKept s.pg.subscriptions t.pg.subscriptions := by
  have hfunds := hheld.funds
  rw [releaseHold] at h
  split_ifs at h with hpos
  · have hrefunded := refundedFunds_of_flush hbegan hheld h
    refine ⟨hrefunded.loaded, hrefunded.newLogs.trans hheld.newLogs, ?_,
      hheld.ends.trans hrefunded.ends⟩
    rw [hrefunded.funds, hfunds, hheld.sum, Option.map_map]
    simp [Function.comp_def]
  · cases h
    refine ⟨hheld.loaded, hheld.newLogs, ?_, hheld.ends⟩
    rw [hfunds, max_eq_left (not_lt.mp hpos)]
    simp

/-- A cost is not negative exactly when reported tokens do not come to a credit. -/
theorem actualCents_nonneg_iff {reply : ℤ × Json} {actual : ℤ}
    (hprices : PricesNonneg a.candidate.rates a.candidate.pricing) (hreply : a.reply = some reply)
    (hactual : a.candidate.actualCents repr p reply = some actual) :
    0 ≤ actual ↔ a.UsagePriced := by
  rw [ImageCandidate.actualCents] at hactual
  split at hactual
  · next usage hmode husage =>
      obtain ⟨micro, hmicro, rfl⟩ := Option.map_eq_some_iff.mp hactual
      rw [ceilCents_nonneg_iff (by decide)]
      constructor
      · intro hpos _ reply' hreply' usage' husage' micro' hmicro'
        cases hreply.symm.trans hreply'
        cases husage.symm.trans husage'
        cases hmicro.symm.trans hmicro'
        exact hpos
      · exact fun h => h hmode reply hreply usage husage micro hmicro
  · next hother =>
      refine iff_of_true (quoteImageCostCents_nonneg hprices hactual) ?_
      intro hmode reply' hreply' usage husage
      cases hreply.symm.trans hreply'
      exact absurd husage (hother usage hmode)

/-! ### One attempt -/

/-- What follows a hold: images are served, or the hold goes back, or something raises. -/
theorem settleTry_cases {P : TryOutcome → Prop} (hreply : a.reply = adapter.images a.answer)
    (hraised : ∀ e, P (.raised e))
    (hserved : ∀ reply actual t, a.reply = some reply → a.serves = true →
      a.candidate.actualCents repr p reply = some actual →
      reconcile call bd estimate actual a.clock.settledAt held = some t →
      P (.served reply (t.addLog (imageLog call a.candidate actual a.latencyMs (str "ok") t))))
    (hnext : ∀ reply t, a.reply = some reply → a.serves = false →
      releaseHold call bd estimate a.clock.settledAt held = some t → P (.next reply t)) :
    P (settleTry repr call p a adapter estimate bd held) := by
  rw [settleTry]
  cases himages : adapter.images a.answer with
  | none => exact hraised .other
  | some reply =>
      rw [himages] at hreply
      dsimp only
      split_ifs with hcount
      · have hserves : a.serves = true := by simp [ImageTry.serves, hreply, hcount]
        cases hactual : a.candidate.actualCents repr p reply with
        | none => exact hraised .other
        | some actual =>
            dsimp only
            cases hrest : reconcile call bd estimate actual a.clock.settledAt held with
            | none => exact hraised .other
            | some t => exact hserved reply actual t hreply hserves hactual hrest
      · have hserves : a.serves = false := by simp [ImageTry.serves, hreply, hcount]
        cases hrest : releaseHold call bd estimate a.clock.settledAt held with
        | none => exact hraised .other
        | some t => exact hnext reply t hreply hserves hrest

/-- One pass of the loop: the candidate is skipped, or something raises before the hold, or the
hold is placed. -/
theorem tryImage_cases {P : TryOutcome × List ImageHold → Prop}
    (hskip : ∀ body, a.reply = none → P (.next (502, body) s, []))
    (hraised : ∀ e, P (.raised e, []))
    (hhold : ∀ adapter estimate bd held, a.reply = adapter.images a.answer →
      a.candidate.quote repr p = some estimate →
      ¬(0 < estimate ∧ s.availableCents a.clock.gateAt < estimate) →
      chargeUser estimate (some call.requestId)
        (some (call.userFacingModel ++ str " [image-hold]")) a.clock.heldAt s = some (bd, held) →
      P (settleTry repr call p a adapter estimate bd held,
        [⟨s, estimate, a.clock.heldAt, held⟩])) :
    P (tryImage repr call p s a) := by
  rw [tryImage]
  cases hadapter : getImageAdapter a.candidate.connector with
  | none => exact hskip _ (by rw [ImageTry.reply, hadapter]; rfl)
  | some adapter =>
      have hreply : a.reply = if connectorSupportsProtocol (some a.candidate.connector)
          (some a.candidate.protocol) then adapter.images a.answer else none := by
        rw [ImageTry.reply, hadapter, Option.filter_some]
        split_ifs <;> rfl
      dsimp only
      split_ifs with hprotocol
      · rw [Bool.not_eq_true'] at hprotocol
        exact hskip _ (by rw [hreply, hprotocol]; rfl)
      · rw [Bool.not_eq_true', Bool.not_eq_false] at hprotocol
        rw [hprotocol, if_pos rfl] at hreply
        cases hquote : a.candidate.quote repr p with
        | none => exact hraised .other
        | some estimate =>
            dsimp only
            split_ifs with hgate
            · exact hraised _
            · split
              · exact hraised .other
              · next bd held hflush =>
                  exact hhold adapter estimate bd held hreply hquote hgate
                    (flushRows_eq_some hflush)

/-- How an attempt is to end. -/
def TryOutcome.Spec (repr : Json → Str) (p : ImageParams) (a : ImageTry began) (uid : ℤ)
    (s : Sess) : TryOutcome → Prop
  | .next _ t => a.serves = false ∧ t.Loaded uid ∧ t.newLogs = s.newLogs ∧
      t.pg.fundsAt uid began = s.pg.fundsAt uid began ∧
      EndsKept s.pg.subscriptions t.pg.subscriptions
  | .served _ t => a.serves = true ∧ ∃ log, t.newLogs = s.newLogs ++ [log] ∧
      a.cost repr p = some log.costCents ∧
      (t.view.fundsAt uid began = (s.pg.fundsAt uid began).map (· - log.costCents) ↔
        a.UsagePriced)
  | .raised _ => True

theorem settleTry_spec (hs : s.Loaded uid)
    (hprices : PricesNonneg a.candidate.rates a.candidate.pricing)
    (hreply : a.reply = adapter.images a.answer)
    (hquote : a.candidate.quote repr p = some estimate)
    (hheld : ChargedFunds uid began estimate now s bd held) :
    (settleTry repr call p a adapter estimate bd held).Spec repr p a uid s := by
  have hest : 0 ≤ estimate := quoteImageCostCents_nonneg hprices hquote
  have hbegan : began ≤ a.clock.settledAt :=
    a.clock.began_le_gateAt.trans (a.clock.gateAt_le_heldAt.trans a.clock.heldAt_le_settledAt)
  refine settleTry_cases hreply (fun _ => trivial) ?_ fun _ _ _ hserves hrest =>
    ⟨hserves, releaseHold_spec hbegan hheld hrest⟩
  intro reply actual t hreply hserves hactual hrest
  obtain ⟨hloaded, hlogs, hfunds⟩ := reconcile_spec hest hbegan hheld hs hrest
  refine ⟨hserves, imageLog call a.candidate actual a.latencyMs (str "ok") t, ?_, ?_, ?_⟩
  · rw [Sess.newLogs_addLog, hlogs]
  · rw [ImageTry.cost, hreply]
    exact hactual
  · rw [Sess.view_addLog, Sess.view_of_clean hloaded.clean]
    exact hfunds.trans (actualCents_nonneg_iff hprices hreply hactual)

/-- **One attempt**: what it leaves for the next one, or what it has charged; and its hold. -/
theorem tryImage_spec (call : ImageCall) (hs : s.Loaded uid)
    (hprices : PricesNonneg a.candidate.rates a.candidate.pricing) :
    (tryImage repr call p s a).1.Spec repr p a uid s ∧
      ∀ h ∈ (tryImage repr call p s a).2, h.Safe uid ↔ h.Covered uid := by
  refine tryImage_cases
    (P := fun r => r.1.Spec repr p a uid s ∧ ∀ h ∈ r.2, h.Safe uid ↔ h.Covered uid)
    (fun body hnone => ⟨⟨?_, hs, rfl, rfl, .refl _⟩, by simp⟩) (fun _ => ⟨trivial, by simp⟩) ?_
  · rw [ImageTry.serves, hnone]
    rfl
  · intro adapter estimate bd held hreply hquote _ hcharge
    obtain ⟨bd', held', hcharge', hheld⟩ := charge_loaded hs
      (a.clock.began_le_gateAt.trans a.clock.gateAt_le_heldAt) estimate
      (some call.requestId) (some (call.userFacingModel ++ str " [image-hold]"))
    cases hcharge.symm.trans hcharge'
    refine ⟨settleTry_spec hs hprices hreply hquote hheld, fun h hh => ?_⟩
    rw [List.mem_singleton.mp hh]
    exact safe_iff_covered hs hheld

/-! ### The chain -/

/-- A chain that goes on after an attempt. -/
theorem loopExact_next {rest : List (ImageTry began)} {run : ImageRun} {holds : List ImageHold}
    (hserves : a.serves = false) (hfunds : t.pg.fundsAt uid began = s.pg.fundsAt uid began) :
    LoopExact repr p uid (a :: rest) s ⟨run.result, holds ++ run.holds⟩ ↔
      (∀ h ∈ holds, h.Safe uid) ∧ LoopExact repr p uid rest t run := by
  have hcost : servedCost repr p (a :: rest) = servedCost repr p rest := by
    rw [servedCost, List.find?_cons_of_neg (by simp [hserves]), servedCost]
  constructor
  · intro h
    refine ⟨fun x hx => h.holds x (List.mem_append_left _ hx), fun reply t' hr => ?_,
      fun x hx => h.holds x (List.mem_append_right _ hx)⟩
    rw [← hcost, hfunds]
    exact h.returned reply t' hr
  · rintro ⟨hholds, h⟩
    refine ⟨fun reply t' hr => ?_, fun x hx => (List.mem_append.mp hx).elim (hholds x) (h.holds x)⟩
    rw [hcost, ← hfunds]
    exact h.returned reply t' hr

/-- A chain that an attempt ends. -/
theorem loopExact_served {rest : List (ImageTry began)} {reply : ℤ × Json}
    {holds : List ImageHold} {log : UsageLog} (hserves : a.serves = true)
    (hlogs : t.newLogs = [log]) (hcost : a.cost repr p = some log.costCents) :
    LoopExact repr p uid (a :: rest) s ⟨.ok (reply, t), holds⟩ ↔
      (∀ h ∈ holds, h.Safe uid) ∧
        t.view.fundsAt uid began = (s.pg.fundsAt uid began).map (· - log.costCents) := by
  constructor
  · intro h
    obtain ⟨log', hlogs', -, hfunds⟩ := h.returned reply t rfl
    cases hlogs.symm.trans hlogs'
    exact ⟨h.holds, hfunds⟩
  · rintro ⟨hholds, hfunds⟩
    refine ⟨fun reply' t' hr => ?_, hholds⟩
    cases hr
    refine ⟨log, hlogs, ?_, hfunds⟩
    rw [servedCost, List.find?_cons_of_pos hserves]
    exact hcost

/-- **The chain**: each attempt starts from the funds that the one before has left. -/
theorem imageLoop_exact_iff (repr : Json → Str) (call : ImageCall) (p : ImageParams)
    (first : ImageCandidate) {tries : List (ImageTry began)}
    (hprices : ∀ a ∈ tries, PricesNonneg a.candidate.rates a.candidate.pricing)
    (last : ℤ × Json) (hs : s.Loaded uid) (hlogs : s.newLogs = []) :
    LoopExact repr p uid tries s (imageLoop repr call p first tries last s) ↔
      CoveredAndPriced repr call p uid tries s := by
  induction tries generalizing s last with
  | nil =>
      refine iff_of_true ⟨fun reply t h => ?_, by simp [imageLoop]⟩ trivial
      cases h
      refine ⟨imageLog call first 0 0 (if last.1 = 504 then str "timeout" else str "error") s, ?_,
        rfl, ?_⟩
      · rw [Sess.newLogs_addLog, hlogs]
        rfl
      · rw [Sess.view_addLog, Sess.view_of_clean hs.clean]
        simp [imageLog]
  | cons a rest ih =>
      obtain ⟨hspec, hholds⟩ := tryImage_spec call hs (hprices a List.mem_cons_self)
      have hrest := fun x hx => hprices x (List.mem_cons_of_mem a hx)
      rw [imageLoop, CoveredAndPriced, ← forall₂_congr hholds]
      generalize tryImage repr call p s a = r at hspec
      obtain ⟨outcome, holds⟩ := r
      cases outcome with
      | next last t =>
          obtain ⟨hserves, hloaded, hnew, hfunds, -⟩ := hspec
          exact (loopExact_next hserves hfunds).trans
            (and_congr_right fun _ => ih hrest last hloaded (hnew.trans hlogs))
      | served reply t =>
          obtain ⟨hserves, log, hnew, hcost, hfunds⟩ := hspec
          rw [hlogs] at hnew
          exact (loopExact_served hserves hnew hcost).trans (and_congr_right fun _ => hfunds)
      | raised e =>
          refine ⟨fun h => ⟨h.holds, trivial⟩, fun h => ⟨fun reply t hr => ?_, h.1⟩⟩
          cases hr

/-! ### Where no subscription ends -/

/-- No subscription of the user ends between the gate and the hold. -/
def ImageTry.NoEnd (uid : ℤ) (subs : Table Subscription) (a : ImageTry began) : Prop :=
  ∀ x ∈ subs.rows, x.userId = uid → a.clock.gateAt < x.currentPeriodEnd →
    a.clock.heldAt < x.currentPeriodEnd

theorem ImageTry.NoEnd.kept {subs subs' : Table Subscription} (h : a.NoEnd uid subs)
    (hends : EndsKept subs subs') : a.NoEnd uid subs' := by
  intro x' hx' huser hgate
  obtain ⟨x, hx, huser', hend⟩ := hends x' hx'
  rw [← hend] at hgate ⊢
  exact h x hx (huser'.trans huser) hgate

/-- Then the gate speaks for the hold. -/
theorem tryImage_covered (repr : Json → Str) (p : ImageParams) (call : ImageCall)
    (hs : s.Loaded uid) (hends : a.NoEnd uid s.pg.subscriptions) :
    ∀ h ∈ (tryImage repr call p s a).2, h.Covered uid := by
  have hquota : activeQuota s.pg uid a.clock.gateAt = activeQuota s.pg uid a.clock.heldAt :=
    activeQuota_congr fun x hx huser =>
      ⟨hends x hx huser, a.clock.gateAt_le_heldAt.trans_lt⟩
  have hnonneg := activeQuota_nonneg s.pg uid a.clock.heldAt
  refine tryImage_cases (P := fun r => ∀ h ∈ r.2, h.Covered uid) (fun _ _ => by simp)
    (fun _ => by simp) ?_
  intro adapter estimate bd held _ _ hgate _ h hh before hbefore h0
  rw [List.mem_singleton.mp hh] at hbefore ⊢
  cases hs.wallet.symm.trans hbefore
  rw [Sess.availableCents, hs.userId, hquota] at hgate
  dsimp only
  omega

/-- **No hold overdraws** when no subscription of the user ends between the gate of an attempt
and its hold. -/
theorem coveredAndPriced_of_noEnd (call : ImageCall) {tries : List (ImageTry began)}
    (hprices : ∀ a ∈ tries, PricesNonneg a.candidate.rates a.candidate.pricing)
    (hpriced : ∀ a ∈ tries, a.UsagePriced) (hs : s.Loaded uid)
    (hends : ∀ a ∈ tries, a.NoEnd uid s.pg.subscriptions) :
    CoveredAndPriced repr call p uid tries s := by
  induction tries generalizing s with
  | nil => trivial
  | cons a rest ih =>
      obtain ⟨hspec, -⟩ := tryImage_spec call hs (hprices a List.mem_cons_self)
      have hcovered := tryImage_covered repr p call hs (hends a List.mem_cons_self)
      rw [CoveredAndPriced]
      refine ⟨hcovered, ?_⟩
      generalize tryImage repr call p s a = r at hspec
      obtain ⟨outcome, holds⟩ := r
      cases outcome with
      | next last t =>
          obtain ⟨-, hloaded, -, -, hkept⟩ := hspec
          exact ih (fun x hx => hprices x (List.mem_cons_of_mem a hx))
            (fun x hx => hpriced x (List.mem_cons_of_mem a hx)) hloaded
            (fun x hx => (hends x (List.mem_cons_of_mem a hx)).kept hkept)
      | served reply t => exact hpriced a List.mem_cons_self
      | raised e => trivial

end

/-- A request that raises before its first attempt costs nothing. -/
theorem imageCostExact_raised {began : ℤ} (repr : Json → Str) (call : ImageCall)
    (tries : List (ImageTry began)) (pg : Pg) (uid : ℤ) (e : ImageRaise) :
    ImageCostExact repr call tries pg uid ⟨.error e, []⟩ := by
  refine ⟨fun reply t h => ?_, fun _ _ => rfl, by simp⟩
  cases h

/-- **An image request costs what its serving candidate cost**, and no hold overdraws, exactly
when every hold is covered and no reported tokens are a credit. -/
theorem executeImageRelay_exact_iff {began uid : ℤ} (repr : Json → Str) (call : ImageCall)
    (tries : List (ImageTry began)) (pg : Pg) (user : User) (apiKey : Option ApiKey)
    (hu : pg.users.get? uid = some user)
    (hprices : ∀ a ∈ tries, PricesNonneg a.candidate.rates a.candidate.pricing) :
    ImageCostExact repr call tries pg uid
        (executeImageRelay repr call tries (Sess.start pg user apiKey)) ↔
      ∀ p ∈ parseParams repr call.payload,
        CoveredAndPriced repr call p uid tries (Sess.start pg user apiKey) := by
  have hs := Sess.loaded_start apiKey hu
  rw [executeImageRelay.eq_def]
  cases tries with
  | nil => exact iff_of_true (imageCostExact_raised _ _ _ _ _ _) fun _ _ => trivial
  | cons a rest =>
      dsimp only
      cases hparams : parseParams repr call.payload with
      | none => exact iff_of_true (imageCostExact_raised _ _ _ _ _ _) (by simp)
      | some p =>
          have hloop := imageLoop_exact_iff repr call p a.candidate hprices
            (502, errorBody (str "no upstream")) hs rfl
          simp only [Option.mem_some_iff, forall_eq']
          rw [← hloop]
          constructor
          · intro h
            refine ⟨fun reply t hr => ?_, h.holds⟩
            obtain ⟨log, hlogs, hcost, hfunds⟩ := h.returned reply t hr
            rw [hparams, Option.bind_some] at hcost
            exact ⟨log, hlogs, hcost, hfunds⟩
          · intro h
            refine ⟨fun reply t hr => ?_, fun e hr => by rw [ImageRun.committed, hr], h.holds⟩
            obtain ⟨log, hlogs, hcost, hfunds⟩ := h.returned reply t hr
            refine ⟨log, hlogs, ?_, hfunds⟩
            rw [hparams, Option.bind_some]
            exact hcost

/-! ### An end and a credit -/

/-- An image model of OpenAI. -/
def imageCandidate (pricing : List (Str × Json)) : ImageCandidate where
  toCandidate :=
    { openaiCandidate 9 with
      model := { (openaiCandidate 9).model with kind := str "image" }
      rates_id := rfl
      rates_upstreamModel := rfl }
  pricing := pricing

/-- 40 cents for each image. -/
def perImagePricing : List (Str × Json) := [(str "default_price_micro", .int 400000)]

/-- 10 tokens for each image. -/
def perTokenPricing : List (Str × Json) :=
  [(str "mode", .str (str "token")), (str "default_out_tokens", .int 10)]

theorem pricesNonneg_perImage : PricesNonneg modelNine perImagePricing where
  promptRate := by decide
  completionRate := by decide
  tiers := by
    intro tiers h
    cases h
  defaultPrice := by
    intro price h
    cases h
    decide
  outTokens := by
    intro outMap h
    cases h
  defaultOutTokens := by
    intro tokens h
    cases h
    decide

theorem pricesNonneg_perToken : PricesNonneg modelNine perTokenPricing where
  promptRate := by decide
  completionRate := by decide
  tiers := by
    intro tiers h
    cases h
  defaultPrice := by
    intro price h
    cases h
    decide
  outTokens := by
    intro outMap h
    cases h
  defaultOutTokens := by
    intro tokens h
    cases h
    decide

/-- A reply with an image, and the tokens of its prompt. -/
def imageReply (usage : List (Str × Json)) : ℤ × Json :=
  (200, .obj [(str "data", .arr [.obj []]), (str "usage", .obj usage)])

/-- An attempt whose hold and settlement are at the given time, a microsecond after its gate. -/
def attemptAt (began heldAt : ℤ) (h : began < heldAt) : AttemptClock began where
  gateAt := heldAt - 1
  heldAt := heldAt
  settledAt := heldAt
  began_le_gateAt := by omega
  gateAt_le_heldAt := by omega
  heldAt_le_settledAt := le_rfl

/-- A request for an image. -/
def imageCall : ImageCall :=
  ⟨str "m", str "r", none, .obj [(str "prompt", .str (str "a cat"))]⟩

/-- An image for 40 cents, with the hold at the end of the subscription of `oneSubPg`. -/
def endingTry : ImageTry 0 :=
  ⟨imageCandidate perImagePricing, attemptAt 0 100000000 (by decide), 3, some (imageReply [])⟩

/-- An image of a model that is paid by tokens, for which the upstream reports -5 of them. -/
def creditTry : ImageTry 0 :=
  ⟨imageCandidate perTokenPricing, attemptAt 0 100 (by decide), 3,
    some (imageReply [(str "input_tokens", .int (-5))])⟩

/-- The subscription is gone between the gate and the hold, which leaves the wallet at -40; and
tokens that are reported as negative are logged as a cost that the funds do not show. -/
theorem imageRelay_not_exact :
    (PricesNonneg endingTry.candidate.rates endingTry.candidate.pricing ∧
      ¬ ImageCostExact (fun _ => []) imageCall [endingTry] (oneSubPg 0 100) 1
        (executeImageRelay (fun _ => []) imageCall [endingTry]
          (Sess.start (oneSubPg 0 100) (userOne 0) none))) ∧
      PricesNonneg creditTry.candidate.rates creditTry.candidate.pricing ∧
        ¬ ImageCostExact (fun _ => []) imageCall [creditTry] (oneSubPg 100 0) 1
          (executeImageRelay (fun _ => []) imageCall [creditTry]
            (Sess.start (oneSubPg 100 0) (userOne 100) none)) := by
  refine ⟨⟨pricesNonneg_perImage, ?_⟩, pricesNonneg_perToken, ?_⟩
  · intro h
    have hwallets : (executeImageRelay (fun _ => []) imageCall [endingTry]
        (Sess.start (oneSubPg 0 100) (userOne 0) none)).holds.map
          (fun hold => (hold.before.pg.wallet 1, hold.after.pg.wallet 1)) =
        [(some 0, some (-40))] := by decide +kernel
    obtain ⟨hold, hmem, heq⟩ := List.mem_map.mp (hwallets ▸ List.mem_singleton_self _)
    obtain ⟨hbefore, hafter⟩ := Prod.mk.inj heq
    have hnonneg := h.holds hold hmem 0 hbefore le_rfl (-40) hafter
    omega
  · intro h
    have hrun : ((executeImageRelay (fun _ => []) imageCall [creditTry]
        (Sess.start (oneSubPg 100 0) (userOne 100) none)).result.toOption.map fun r =>
          (r.2.newLogs.map UsageLog.costCents, r.2.view.fundsAt 1 0)) =
        some ([-5], some 100) := by decide +kernel
    have hbefore : (oneSubPg 100 0).fundsAt 1 0 = some 100 := by decide +kernel
    cases hr : (executeImageRelay (fun _ => []) imageCall [creditTry]
        (Sess.start (oneSubPg 100 0) (userOne 100) none)).result with
    | error e =>
        rw [hr] at hrun
        cases hrun
    | ok r =>
        obtain ⟨log, hlogs, -, hfunds⟩ := h.returned r.1 r.2 hr
        rw [hr] at hrun
        simp only [Except.toOption, Option.map_some, hlogs, List.map_cons, List.map_nil,
          Option.some.injEq, Prod.mk.injEq, List.cons.injEq, and_true] at hrun
        rw [hrun.2, hbefore, hrun.1, Option.map_some, Option.some.injEq] at hfunds
        omega

/-- An attempt well before that end. -/
def openTry : ImageTry 0 := { endingTry with clock := attemptAt 0 5 (by decide) }

/-- It costs what it is to cost. -/
theorem executeImageRelay_exact_open :
    ImageCostExact (fun _ => []) imageCall [openTry] (oneSubPg 0 100) 1
      (executeImageRelay (fun _ => []) imageCall [openTry]
        (Sess.start (oneSubPg 0 100) (userOne 0) none)) := by
  have hprices : ∀ a ∈ [openTry], PricesNonneg a.candidate.rates a.candidate.pricing := by
    intro a ha
    rw [List.mem_singleton.mp ha]
    exact pricesNonneg_perImage
  have hends : ∀ a ∈ [openTry], a.NoEnd 1 (oneSubPg 0 100).subscriptions := by
    intro a ha x hx _ _
    rw [List.mem_singleton.mp ha, List.mem_singleton.mp hx]
    decide
  have hpriced : ∀ a ∈ [openTry], a.UsagePriced := by
    intro a ha hmode
    rw [List.mem_singleton.mp ha] at hmode
    cases hmode
  exact (executeImageRelay_exact_iff _ _ _ _ _ _ rfl hprices).mpr fun _ _ =>
    coveredAndPriced_of_noEnd _ hprices hpriced (Sess.loaded_start none rfl) hends

end Llmxy
