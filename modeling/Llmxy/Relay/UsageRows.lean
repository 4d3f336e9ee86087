import Llmxy.Envoy.Als
import Llmxy.Relay.Image

/-!
# Usage rows and charges

A request commits `UsageLog` rows next to the `BalanceTx` rows of its charges and refunds,
whichever way it was served: by a direct endpoint, by the translator, by the image relay with its
holds, or from the access log.  The rows are to cost what was charged.

A charge ignores a cost that is not positive, and the row is written with the cost as it is.  So
the rows match as long as no cost is a credit.

## Main definitions

* `RowsMatch` — what a request has logged is what it was charged.
* `Sess.Ahead` — how much more a session has logged than it has charged.
* `ServedRequest`, `ServedRequest.serve` — a request, and what it commits.
* `ServedRequest.Priced`, `rowsMatch_iff` — when the rows match.
-/

namespace Llmxy

/-! ### Rows -/

/-- A row of a charge or of its refund. -/
def BalanceTx.isBilling (b : BalanceTx) : Bool := b.type = .consume || b.type = .refund

/-- What was charged, less what was refunded. -/
def chargedCents (txs : List BalanceTx) : ℤ :=
  -((txs.filter BalanceTx.isBilling).map (·.amountCents)).sum

/-- What usage rows cost. -/
def loggedCents (logs : List UsageLog) : ℤ := (logs.map (·.costCents)).sum

/-- The new usage rows cost what the new rows of the balance log have charged. -/
def RowsMatch (pg after : Pg) : Prop :=
  ∃ txs logs, after.balanceTx = pg.balanceTx ++ txs ∧ after.usageLogs = pg.usageLogs ++ logs ∧
    loggedCents logs = chargedCents txs

@[simp] theorem chargedCents_concat (txs : List BalanceTx) {b : BalanceTx} (h : b.isBilling) :
    chargedCents (txs ++ [b]) = chargedCents txs - b.amountCents := by
  simp only [chargedCents, List.filter_append, List.filter_singleton, h, cond_true,
    List.map_append, List.sum_append, List.map_singleton, List.sum_singleton]
  omega

@[simp] theorem loggedCents_concat (logs : List UsageLog) (l : UsageLog) :
    loggedCents (logs ++ [l]) = loggedCents logs + l.costCents := by
  simp [loggedCents]

theorem rowsMatch_refl (pg : Pg) : RowsMatch pg pg :=
  ⟨[], [], (List.append_nil _).symm, (List.append_nil _).symm, rfl⟩

/-- The rows that are new are determined. -/
theorem rowsMatch_iff_of_rows {pg after : Pg} {txs : List BalanceTx} {logs : List UsageLog}
    (htxs : after.balanceTx = pg.balanceTx ++ txs)
    (hlogs : after.usageLogs = pg.usageLogs ++ logs) :
    RowsMatch pg after ↔ loggedCents logs = chargedCents txs := by
  constructor
  · rintro ⟨txs', logs', htxs', hlogs', hmatch⟩
    rw [List.append_cancel_left (htxs.symm.trans htxs'),
      List.append_cancel_left (hlogs.symm.trans hlogs')]
    exact hmatch
  · intro hmatch
    exact ⟨txs, logs, htxs, hlogs, hmatch⟩

/-! ### Requests -/

/-- What the classifier costs, if it was called. -/
def classifierCents (classifier : Option ClassifierCall) : ℤ :=
  classifier.elim 0 ClassifierCall.cost

/-- Where an image endpoint knows the classifier's call from. -/
inductive ClassifierSource where
  | decision (eu : Option EmbeddingUsage)
  | headers (h : TranslatorHeaders)

/-- The call that is to be billed.  `none` when reading it raises. -/
def ClassifierSource.call (pg : Pg) : ClassifierSource → Option (Option ClassifierCall)
  | .decision eu => some (eu.map EmbeddingUsage.call)
  | .headers h => classifierFromHeaders pg h

/-- The request as the row of the classifier shows it. -/
def ImageCall.relayCall (call : ImageCall) (c : ImageCandidate) : RelayCall where
  requestId := call.requestId
  userFacingModel := call.userFacingModel
  model := c.rates
  upstreamModel := c.rates.upstreamModel.1
  promptTokens := 0
  completionTokens := 0
  latencyMs := 0
  resolvedLabel := call.resolvedLabel

/-- A request of an image endpoint. -/
structure RelayedImages where
  user : User
  apiKey : Option ApiKey
  call : ImageCall
  began : ℤ
  tries : List (ImageTry began)
  classifier : ClassifierSource
  /-- When the classifier is charged. -/
  later : ℤ

/-- The endpoints around `execute_image_relay`: the classifier is billed with a reply of status
200, and all is committed.  `none` when it is rolled back. -/
def RelayedImages.bill (repr : Json → Str) (req : RelayedImages) (pg : Pg) : Option Pg :=
  match req.tries,
      (executeImageRelay repr req.call req.tries (.start pg req.user req.apiKey)).result with
  | first :: _, .ok (reply, s) =>
      if reply.1 = 200 then
        (req.classifier.call pg).bind fun classifier =>
          (recordClassifier (req.call.relayCall first.candidate) classifier req.later s).bind
            Sess.commit
      else s.commit
  | _, _ => none

/-- A request, by the way it is served.  A chat request is one that an upstream has answered with
success; without that, nothing is committed. -/
inductive ServedRequest where
  | direct (req : DirectRequest) (promptTokens completionTokens now later : ℤ)
  | translated (req : TranslatedRequest) (promptTokens completionTokens now later : ℤ)
  | images (req : RelayedImages)
  | ingested (e : LogEntry) (now : ℤ)

/-- What the request commits.  `none` when it is rolled back. -/
def ServedRequest.serve (repr : Json → Str) (pg : Pg) : ServedRequest → Option Pg
  | .direct req p c now later => billDirect req p c now later pg
  | .translated req p c now later => billChatRelay req p c now later pg
  | .images req => req.bill repr pg
  | .ingested e now => some (ingestEntry e now pg)

/-! ### No credits -/

namespace ImageTry
variable {began : ℤ}

/-- The status of an attempt; a skipped one counts as 502. -/
def status (a : ImageTry began) : ℤ := a.reply.elim 502 Prod.fst

/-- Neither the quote nor what the images cost is a credit. -/
structure Priced (repr : Json → Str) (p : ImageParams) (a : ImageTry began) : Prop where
  quote : ∀ cents ∈ a.candidate.quote repr p, 0 ≤ cents
  cost : ∀ cents ∈ a.cost repr p, 0 ≤ cents

end ImageTry

/-- The status that the candidates come to: that of the one that serves, or the last. -/
def imageStatus {began : ℤ} : ℤ → List (ImageTry began) → ℤ
  | last, [] => last
  | _, a :: rest => if a.serves then a.status else imageStatus a.status rest

/-- No cost of the images or the classifier is a credit. -/
@[mk_iff]
structure RelayedImages.Priced (repr : Json → Str) (pg : Pg) (req : RelayedImages) : Prop where
  serving : ∀ p ∈ parseParams repr req.call.payload, ∀ a ∈ req.tries.find? ImageTry.serves,
    a.Priced repr p
  classifier : imageStatus 502 req.tries = 200 →
    ∀ classifier ∈ req.classifier.call pg, 0 ≤ classifierCents classifier

/-- The fields of an entry that is ingested. -/
def LogEntry.fields (e : LogEntry) : Option AlsFields :=
  if billedSync e.requestHeaders then none
  else do
    let userId ← headerOr (hdr e.requestHeaders (str "x-llmxy-user-id"))
    let modelId ← headerOr (hdr e.requestHeaders (str "x-llmxy-model-id"))
    alsFields e.requestHeaders userId modelId

/-- What the entry is billed is no credit, unless it is an image model's or its rows are
rejected. -/
def AlsFields.Priced (f : AlsFields) (e : LogEntry) (pg : Pg) : Prop :=
  f.isImage pg = true ∨ 0 ≤ f.relayCost e pg + f.classifierCost pg ∨
    (f.logs e pg).all (UsageLog.fits pg) = false

/-- No cost by which the request is billed is a credit. -/
def ServedRequest.Priced (repr : Json → Str) (pg : Pg) : ServedRequest → Prop
  | .direct req p c _ _ =>
      0 ≤ (req.call p c).cost ∧ 0 ≤ classifierCents (req.embeddingUsage.map EmbeddingUsage.call)
  | .translated req p c _ _ => req.user.isSome → ∀ m ∈ req.model,
      0 ≤ (req.call m p c).cost ∧
        ∀ classifier ∈ classifierFromHeaders pg req.headers, 0 ≤ classifierCents classifier
  | .images req => req.Priced repr pg
  | .ingested e _ => ∀ f ∈ e.fields, f.Priced e pg

/-! ### Sessions -/

/-- The session has logged `cents` more than it has charged, and nothing of it is committed. -/
structure Sess.Ahead (pg : Pg) (cents : ℤ) (s : Sess) : Prop where
  clean : s.Clean
  balanceTx : s.pg.balanceTx = pg.balanceTx
  usageLogs : s.pg.usageLogs = pg.usageLogs
  ahead : loggedCents s.newLogs = chargedCents s.newTx + cents

/-- What the breakdown of a charge adds up to. -/
theorem breakdown_chargeUser {cost now : ℤ} {refId note : Option Str} {s t : Sess}
    {bd : List Share} (hs : s.Clean) (h : chargeUser cost refId note now s = some (bd, t)) :
    (∀ b ∈ bd, 0 ≤ b.2.2) ∧ (bd.map fun b => b.2.2).sum = max 0 cost := by
  by_cases hc : 0 < cost
  · obtain ⟨rfl, -⟩ := chargeUser_eq_some hs hc h
    rw [sum_chargedShares hc, max_eq_right hc.le]
    exact ⟨fun b hb => (chargedShares_pos b hb).le, rfl⟩
  · rw [chargeUser, if_pos (not_lt.mp hc)] at h
    cases h
    rw [max_eq_left (not_lt.mp hc)]
    exact ⟨fun b hb => absurd hb List.not_mem_nil, rfl⟩

namespace Sess.Ahead
variable {pg after : Pg} {s t : Sess} {cents cost refundCents now n : ℤ}
  {refId note : Option Str} {bd : List Share}

theorem start (pg : Pg) (user : User) (apiKey : Option ApiKey) :
    (Sess.start pg user apiKey).Ahead pg 0 :=
  ⟨Sess.clean_start pg user apiKey, rfl, rfl, rfl⟩

theorem addLog (h : s.Ahead pg cents) (l : UsageLog) :
    (s.addLog l).Ahead pg (cents + l.costCents) := by
  refine ⟨h.clean, h.balanceTx, h.usageLogs, ?_⟩
  rw [Sess.newLogs_addLog, Sess.newTx_addLog, loggedCents_concat, h.ahead, add_assoc]

theorem addLogs (h : s.Ahead pg cents) (logs : List UsageLog) :
    (logs.foldl (fun s l => s.addLog l) s).Ahead pg (cents + loggedCents logs) := by
  induction logs generalizing s cents with
  | nil => exact (add_zero cents).symm ▸ h
  | cons l logs ih =>
      have hlogs : loggedCents (l :: logs) = l.costCents + loggedCents logs := by
        simp [loggedCents]
      rw [List.foldl_cons, hlogs, ← add_assoc]
      exact ih (h.addLog l)

/-- A charge catches up by its cost, unless that is negative. -/
theorem charge (h : s.Ahead pg cents) (hcharge : chargeUser cost refId note now s = some (bd, t)) :
    t.Ahead pg (cents - max 0 cost) := by
  by_cases hc : 0 < cost
  · obtain ⟨-, hpg, hclean, -, hlogs, after, htx, -⟩ := chargeUser_eq_some h.clean hc hcharge
    refine ⟨hclean, ?_, ?_, ?_⟩
    · rw [hpg]
      exact h.balanceTx
    · rw [hpg]
      exact h.usageLogs
    · have hahead := h.ahead
      rw [hlogs, htx, chargedCents_concat _ rfl, max_eq_right hc.le]
      dsimp only
      omega
  · rw [chargeUser, if_pos (not_lt.mp hc)] at hcharge
    cases hcharge
    rw [max_eq_left (not_lt.mp hc), sub_zero]
    exact h

/-- A refund falls behind by what it returns. -/
theorem refund (h : s.Ahead pg cents) (hpos : ∀ b ∈ bd, 0 ≤ b.2.2)
    (hrefund : refundToSources bd refundCents refId note now s = some (n, t)) :
    t.Ahead pg (cents + max 0 (min refundCents (bd.map fun b => b.2.2).sum)) := by
  have hsum : 0 ≤ (bd.map fun b => b.2.2).sum := sum_map_nonneg hpos
  by_cases hnothing : refundCents ≤ 0 ∨ bd = []
  · rw [refundToSources, if_pos (by simpa using hnothing)] at hrefund
    cases hrefund
    have hzero : max 0 (min refundCents (bd.map fun b => b.2.2).sum) = 0 := by
      obtain hr | rfl := hnothing
      · omega
      · simp
    rw [hzero, add_zero]
    exact h
  · push Not at hnothing
    obtain ⟨hr, hbd⟩ := hnothing
    obtain ⟨hclean, htxs, hlogs, row, hrow, htype, -, hamount, -⟩ :=
      refundToSources_logs h.clean hr hbd hrefund
    obtain ⟨-, -, hnew, -⟩ := refundToSources_session h.clean hr hbd hrefund
    have htotal := refundSplit_total
      ((activeSubscriptions s.pg s.user.id now).map (·.id)) hpos refundCents
    refine ⟨hclean, htxs.trans h.balanceTx, hlogs.trans h.usageLogs, ?_⟩
    have hahead := h.ahead
    rw [hnew, hrow, chargedCents_concat _ (by simp [BalanceTx.isBilling, htype]), hamount, htotal]
    omega

/-- The rows that a session commits match if it is not ahead. -/
theorem rowsMatch_commit (h : s.Ahead pg cents) (hcommit : s.commit = some after) :
    RowsMatch pg after ↔ cents = 0 := by
  obtain ⟨htxs, hlogs⟩ := Sess.rows_commit hcommit
  have hahead := h.ahead
  rw [rowsMatch_iff_of_rows (by rw [htxs, h.balanceTx]) (by rw [hlogs, h.usageLogs])]
  omega

/-- Billing the classifier gets ahead by its credit. -/
theorem classifier {c : RelayCall} {classifier : Option ClassifierCall} (h : s.Ahead pg cents)
    (hrecord : recordClassifier c classifier now s = some t) :
    t.Ahead pg (cents + min 0 (classifierCents classifier)) := by
  cases classifier with
  | none =>
      cases hrecord
      simpa [classifierCents] using h
  | some e =>
      rw [recordClassifier_some] at hrecord
      obtain ⟨⟨bd, r⟩, hcharge, heq⟩ := Option.map_eq_some_iff.mp hrecord
      cases heq
      have hcents : cents - max 0 e.cost + e.cost = cents + min 0 e.cost := by omega
      exact hcents ▸ (h.charge hcharge).addLog (e.log c r)

/-- The rows of a relayed chat request match if neither cost is a credit. -/
theorem rowsMatch_billRelay {c : RelayCall} {classifier : Option ClassifierCall} {later : ℤ}
    (h : s.Ahead pg 0) (hbill : billRelay c classifier now later s = some after) :
    RowsMatch pg after ↔ 0 ≤ c.cost ∧ 0 ≤ classifierCents classifier := by
  obtain ⟨⟨bd, t⟩, hcharge, hbill⟩ := Option.bind_eq_some_iff.mp hbill
  obtain ⟨u, hrecord, hcommit⟩ := Option.bind_eq_some_iff.mp hbill
  rw [(((h.charge hcharge).addLog (c.log t)).classifier hrecord).rowsMatch_commit hcommit]
  show 0 - max 0 c.cost + c.cost + min 0 (classifierCents classifier) = 0 ↔ _
  omega

end Sess.Ahead

/-! ### Images -/

section
variable {began : ℤ} {repr : Json → Str} {call : ImageCall} {p : ImageParams} {pg : Pg}
  {s t held : Sess} {bd : List Share} {a : ImageTry began} {cents estimate now : ℤ}

/-- After a hold, what is settled leaves the session ahead by a credit. -/
theorem ahead_reconcile {actual : ℤ} (h : held.Ahead pg (cents - max 0 estimate))
    (hpos : ∀ b ∈ bd, 0 ≤ b.2.2) (hsum : (bd.map fun b => b.2.2).sum = max 0 estimate)
    (hsettle : reconcile call bd estimate actual now held = some t) :
    ∃ credit ≤ 0, t.Ahead pg (cents + credit - actual) ∧
      (credit = 0 ↔ 0 ≤ estimate ∧ 0 ≤ actual) := by
  rw [reconcile] at hsettle
  split_ifs at hsettle with hless hmore
  · obtain ⟨⟨n, t'⟩, hflush, rfl⟩ := Option.map_eq_some_iff.mp hsettle
    have hback := h.refund hpos (flushRows_eq_some hflush)
    rw [hsum] at hback
    refine ⟨actual - max 0 estimate + max 0 (min (estimate - actual) (max 0 estimate)), ?_, ?_, ?_⟩
    · omega
    · convert hback using 1
      omega
    · omega
  · obtain ⟨⟨bd', t'⟩, hflush, rfl⟩ := Option.map_eq_some_iff.mp hsettle
    have hmore := h.charge (flushRows_eq_some hflush)
    refine ⟨actual - max 0 estimate - max 0 (actual - estimate), ?_, ?_, ?_⟩
    · omega
    · convert hmore using 1
      omega
    · omega
  · cases hsettle
    refine ⟨actual - max 0 estimate, ?_, ?_, ?_⟩
    · omega
    · convert h using 1
      omega
    · omega

/-- A hold that goes back is as if it had not been placed. -/
theorem ahead_releaseHold (h : held.Ahead pg (cents - max 0 estimate))
    (hpos : ∀ b ∈ bd, 0 ≤ b.2.2) (hsum : (bd.map fun b => b.2.2).sum = max 0 estimate)
    (hrelease : releaseHold call bd estimate now held = some t) : t.Ahead pg cents := by
  rw [releaseHold] at hrelease
  split_ifs at hrelease with hest
  · obtain ⟨⟨n, t'⟩, hflush, rfl⟩ := Option.map_eq_some_iff.mp hrelease
    have hback := h.refund hpos (flushRows_eq_some hflush)
    rw [hsum] at hback
    convert hback using 1
    omega
  · cases hrelease
    convert h using 1
    omega

/-- What an attempt leaves, when it begins with a session that is `cents` ahead. -/
def TryOutcome.Ahead (repr : Json → Str) (p : ImageParams) (pg : Pg) (cents : ℤ)
    (a : ImageTry began) : TryOutcome → Prop
  | .next last t => a.serves = false ∧ last.1 = a.status ∧ t.Ahead pg cents
  | .served reply t => a.serves = true ∧ reply.1 = a.status ∧
      ∃ credit ≤ 0, t.Ahead pg (cents + credit) ∧ (credit = 0 ↔ a.Priced repr p)
  | .raised _ => True

theorem ahead_settleTry {adapter : ImageAdapter} (hreply : a.reply = adapter.images a.answer)
    (hquote : a.candidate.quote repr p = some estimate)
    (h : held.Ahead pg (cents - max 0 estimate))
    (hpos : ∀ b ∈ bd, 0 ≤ b.2.2) (hsum : (bd.map fun b => b.2.2).sum = max 0 estimate) :
    (settleTry repr call p a adapter estimate bd held).Ahead repr p pg cents a := by
  have hstatus : ∀ reply, a.reply = some reply → reply.1 = a.status := fun reply hreply => by
    rw [ImageTry.status, hreply, Option.elim_some]
  refine settleTry_cases hreply (fun _ => trivial) ?_ fun reply t hreply hserves hrest =>
    ⟨hserves, hstatus reply hreply, ahead_releaseHold h hpos hsum hrest⟩
  intro reply actual t hreply hserves hactual hrest
  obtain ⟨credit, hcredit, ht, hzero⟩ := ahead_reconcile h hpos hsum hrest
  have hlog := ht.addLog (imageLog call a.candidate actual a.latencyMs (str "ok") t)
  have hcost : a.cost repr p = some actual := by
    rw [ImageTry.cost, hreply]
    exact hactual
  refine ⟨hserves, hstatus reply hreply, credit, hcredit, ?_, hzero.trans ⟨?_, ?_⟩⟩
  · exact sub_add_cancel (cents + credit) actual ▸ hlog
  · rintro ⟨hest, hact⟩
    refine ⟨fun q hq => ?_, fun c hc => ?_⟩
    · cases hquote.symm.trans hq
      exact hest
    · cases hcost.symm.trans hc
      exact hact
  · exact fun hpriced => ⟨hpriced.quote estimate hquote, hpriced.cost actual hcost⟩

/-- **One attempt** is ahead by the credit of the images that it serves. -/
theorem ahead_tryImage (repr : Json → Str) (call : ImageCall) (p : ImageParams)
    (a : ImageTry began) (h : s.Ahead pg cents) :
    (tryImage repr call p s a).1.Ahead repr p pg cents a := by
  refine tryImage_cases (P := fun r => r.1.Ahead repr p pg cents a)
    (fun body hnone => ⟨?_, ?_, h⟩) (fun _ => trivial) ?_
  · rw [ImageTry.serves, hnone]
    rfl
  · rw [ImageTry.status, hnone]
    rfl
  · intro adapter estimate bd held hreply hquote _ hcharge
    obtain ⟨hpos, hsum⟩ := breakdown_chargeUser h.clean hcharge
    exact ahead_settleTry hreply hquote (h.charge hcharge) hpos hsum

/-- **The chain** is ahead by the credit of its serving candidate. -/
theorem ahead_imageLoop (repr : Json → Str) (call : ImageCall) (p : ImageParams)
    (first : ImageCandidate) {tries : List (ImageTry began)} {last reply : ℤ × Json}
    (h : s.Ahead pg 0) (hrun : (imageLoop repr call p first tries last s).result = .ok (reply, t)) :
    reply.1 = imageStatus last.1 tries ∧ ∃ credit ≤ 0, t.Ahead pg credit ∧
      (credit = 0 ↔ ∀ a ∈ tries.find? ImageTry.serves, a.Priced repr p) := by
  induction tries generalizing last s with
  | nil =>
      cases hrun
      exact ⟨rfl, 0, le_rfl, h.addLog (imageLog call first 0 0 _ s), by simp⟩
  | cons a rest ih =>
      have hspec := ahead_tryImage repr call p a h
      rw [imageLoop] at hrun
      rw [imageStatus, List.find?_cons]
      generalize tryImage repr call p s a = r at hspec hrun
      obtain ⟨outcome, holds⟩ := r
      cases outcome with
      | next last t' =>
          obtain ⟨hserves, hstatus, hnext⟩ := hspec
          rw [hserves, if_neg Bool.false_ne_true, ← hstatus]
          exact ih hnext hrun
      | served reply' t' =>
          cases hrun
          obtain ⟨hserves, hstatus, credit, hcredit, hahead, hzero⟩ := hspec
          rw [hserves, if_pos rfl]
          rw [zero_add] at hahead
          exact ⟨hstatus, credit, hcredit, hahead, by simpa using hzero⟩
      | raised e => cases hrun

end

/-- The rows of an image request match if nothing in it is a credit. -/
theorem RelayedImages.rowsMatch_bill {repr : Json → Str} {pg after : Pg} {req : RelayedImages}
    (h : req.bill repr pg = some after) : RowsMatch pg after ↔ req.Priced repr pg := by
  rw [RelayedImages.bill] at h
  split at h
  · next first rest reply t htries hrun =>
      rw [htries, executeImageRelay] at hrun
      cases hparams : parseParams repr req.call.payload with
      | none =>
          rw [hparams] at hrun
          cases hrun
      | some p =>
          simp only [hparams] at hrun
          obtain ⟨hstatus, credit, hcredit, hahead, hzero⟩ := ahead_imageLoop repr req.call p
            first.candidate (Sess.Ahead.start pg req.user req.apiKey) hrun
          have hserving : (∀ p ∈ parseParams repr req.call.payload,
              ∀ a ∈ req.tries.find? ImageTry.serves, a.Priced repr p) ↔ credit = 0 := by
            simp [hparams, hzero, htries]
          rw [RelayedImages.priced_iff, hserving, htries, ← hstatus]
          split_ifs at h with hok
          · obtain ⟨classifier, hclassifier, h⟩ := Option.bind_eq_some_iff.mp h
            obtain ⟨u, hrecord, hcommit⟩ := Option.bind_eq_some_iff.mp h
            rw [(hahead.classifier hrecord).rowsMatch_commit hcommit, hclassifier]
            simp only [hok, true_imp_iff, Option.mem_def, Option.some.injEq, forall_eq']
            omega
          · simp [hahead.rowsMatch_commit h, hok]
  · cases h

/-! ### The access log -/

namespace AlsFields
variable {f : AlsFields} {e : LogEntry} {pg after : Pg} {now : ℤ}

/-- A classifier that costs something has its row. -/
theorem loggedCents_logs (f : AlsFields) (e : LogEntry) (pg : Pg) :
    loggedCents (f.logs e pg) = f.relayCost e pg + f.classifierCost pg := by
  rw [logs, loggedCents, List.map_cons, List.sum_cons]
  refine congrArg (f.relayCost e pg + ·) ?_
  split
  · exact add_zero _
  · next hnone =>
      -- without a model it costs nothing, and an empty status is not `ok`
      rw [classifierCost]
      split_ifs with hok
      · rw [hok, show headerOr (some (str "ok")) = some (str "ok") by decide] at hnone
        cases hid : f.classifierModelId with
        | none => rfl
        | some id => exact absurd rfl (hnone id _ hid)
      · rfl

/-- Rows that are inserted without a charge match if they cost nothing. -/
theorem rowsMatch_insertLogs {logs : List UsageLog} (h : insertLogs logs pg = some after) :
    RowsMatch pg after ↔ loggedCents logs = 0 := by
  unfold insertLogs at h
  split_ifs at h
  cases h
  exact @rowsMatch_iff_of_rows pg { pg with usageLogs := pg.usageLogs ++ logs } [] logs
    (List.append_nil _).symm rfl

/-- The rows of a billing transaction match unless its total is a credit. -/
theorem rowsMatch_transaction (h : f.transaction e now pg = some after) :
    RowsMatch pg after ↔ 0 ≤ f.relayCost e pg + f.classifierCost pg := by
  have hlogged := loggedCents_logs f e pg
  have hok := (transaction_eq_some h).2
  unfold transaction at h
  dsimp only at h
  split at h
  · next user huser =>
      split_ifs at huser with htotal
      obtain ⟨⟨bd, t⟩, hcharge, hcommit⟩ := Option.bind_eq_some_iff.mp h
      have hcharged := (Sess.Ahead.start pg user (f.apiKeyId.bind pg.apiKeys.get?)).charge hcharge
      rw [(hcharged.addLogs (f.logs e pg)).rowsMatch_commit hcommit, hlogged]
      omega
  · next hnone =>
      rw [rowsMatch_insertLogs h, hlogged]
      by_cases htotal : 0 < f.relayCost e pg + f.classifierCost pg
      · -- a user that is not there has no row either
        rw [if_pos htotal] at hnone
        simp [rowAccepted, Table.refers, hnone] at hok
      · omega

/-- The degraded row costs nothing. -/
theorem rowsMatch_degraded (f : AlsFields) (e : LogEntry) (status : Str) (pg : Pg) :
    RowsMatch pg ((insertLogs [f.log e 0 status] pg).getD pg) := by
  cases hinsert : insertLogs [f.log e 0 status] pg with
  | none => exact rowsMatch_refl pg
  | some after => exact (rowsMatch_insertLogs hinsert).mpr rfl

/-- **The rows of an entry** match exactly when what it is billed is no credit. -/
theorem rowsMatch_ingest (f : AlsFields) (e : LogEntry) (now : ℤ) (pg : Pg) :
    RowsMatch pg (f.ingest e now pg) ↔ f.Priced e pg := by
  rw [ingest]
  split_ifs with himage
  · exact iff_of_true (rowsMatch_refl pg) (.inl himage)
  · by_cases htotal : 0 ≤ f.relayCost e pg + f.classifierCost pg
    · refine iff_of_true ?_ (.inr (.inl htotal))
      cases htx : f.transaction e now pg with
      | none => exact rowsMatch_degraded f e _ pg
      | some after => exact (rowsMatch_transaction htx).mpr htotal
    · -- nothing is charged, and the rows alone are inserted
      have hinsert : f.transaction e now pg = insertLogs (f.logs e pg) pg := by
        rw [transaction, if_neg (by omega)]
      cases htx : f.transaction e now pg with
      | none =>
          refine iff_of_true (rowsMatch_degraded f e _ pg) (.inr (.inr ?_))
          rw [hinsert, insertLogs] at htx
          split_ifs at htx with hfits
          exact Bool.eq_false_iff.mpr hfits
      | some after =>
          have hfits := (insertLogs_eq_some (hinsert.symm.trans htx)).1
          refine (rowsMatch_transaction htx).trans (iff_of_false htotal ?_)
          rintro (himage' | hnonneg | hrejected)
          · exact himage himage'
          · exact htotal hnonneg
          · exact Bool.false_ne_true (hrejected.symm.trans hfits)

end AlsFields

/-- An entry that has no fields to ingest changes nothing. -/
theorem ingestEntry_eq (e : LogEntry) (now : ℤ) (pg : Pg) :
    ingestEntry e now pg = e.fields.elim pg fun f => f.ingest e now pg := by
  rw [ingestEntry, LogEntry.fields]
  split_ifs
  · rfl
  · cases headerOr (hdr e.requestHeaders (str "x-llmxy-user-id")) with
    | none => rfl
    | some userId =>
        cases headerOr (hdr e.requestHeaders (str "x-llmxy-model-id")) with
        | none => rfl
        | some modelId =>
            dsimp only [Option.bind_eq_bind, Option.bind_some]
            cases alsFields e.requestHeaders userId modelId <;> rfl

/-! ### All of them -/

/-- **What a request has logged is what it was charged**, whichever way it was served, exactly
when no cost by which it is billed is a credit; and the access log does not bill again what the
processor has let through. -/
theorem rowsMatch_iff (repr : Json → Str) (pg : Pg) :
    (∀ (req : ServedRequest) (after : Pg), req.serve repr pg = some after →
      (RowsMatch pg after ↔ req.Priced repr pg)) ∧
    ∀ (gate : Gate) (req : ClientRequest) (set : Headers) (answer : UpstreamAnswer)
      (durationMs now : ℤ), processRequest gate req = .forward set →
      ingestEntry (accessLogEntry gate req answer durationMs) now pg = pg := by
  refine ⟨fun req after h => ?_, fun gate req set answer durationMs now h =>
    ingest_forwarded h answer durationMs now pg⟩
  cases req with
  | direct req p c now later => exact (Sess.Ahead.start pg req.user _).rowsMatch_billRelay h
  | translated req p c now later =>
      rw [ServedRequest.serve, billChatRelay] at h
      rw [ServedRequest.Priced]
      cases huser : req.user with
      | none =>
          rw [huser] at h
          cases h
          simp [rowsMatch_refl]
      | some user =>
          cases hmodel : req.model with
          | none =>
              rw [huser, hmodel] at h
              cases h
              simp [rowsMatch_refl]
          | some m =>
              rw [huser, hmodel] at h
              obtain ⟨classifier, hclassifier, hbill⟩ := Option.bind_eq_some_iff.mp h
              rw [(Sess.Ahead.start pg user req.apiKey).rowsMatch_billRelay hbill, hclassifier]
              simp
  | images req => exact req.rowsMatch_bill h
  | ingested e now =>
      cases h
      rw [ServedRequest.Priced, ingestEntry_eq]
      cases e.fields with
      | none => simp [rowsMatch_refl]
      | some f => simpa using f.rowsMatch_ingest e now pg

/-- A request of 40 tokens. -/
theorem rowsMatch_forty : ∃ after, (ServedRequest.direct (relayRequest none) 40 0 0 0).serve
    (fun _ => []) relayPg = some after ∧ RowsMatch relayPg after := by
  have hsome : (billDirect (relayRequest none) 40 0 0 0 relayPg).isSome := by decide +kernel
  obtain ⟨after, hafter⟩ := Option.isSome_iff_exists.mp hsome
  have hiff := (rowsMatch_iff (fun _ => []) relayPg).1 (.direct (relayRequest none) 40 0 0 0)
  exact ⟨after, hafter, (hiff after hafter).mpr ⟨by decide, by decide⟩⟩

/-- An upstream that reports -5 tokens: the request is logged with a cost of -5 cents, and nothing
is charged. -/
theorem credit_not_rowsMatch : ∃ after, (ServedRequest.direct (relayRequest none) (-5) 0 0 0).serve
    (fun _ => []) relayPg = some after ∧ ¬ RowsMatch relayPg after := by
  have hrows : (billDirect (relayRequest none) (-5) 0 0 0 relayPg).map (fun after =>
      (after.balanceTx, after.usageLogs.map UsageLog.costCents)) = some ([], [-5]) := by
    decide +kernel
  obtain ⟨after, hafter, heq⟩ := Option.map_eq_some_iff.mp hrows
  obtain ⟨htxs, hlogs⟩ := Prod.mk.inj heq
  refine ⟨after, hafter, ?_⟩
  rw [@rowsMatch_iff_of_rows relayPg after [] after.usageLogs htxs rfl, loggedCents, hlogs]
  decide

end Llmxy
