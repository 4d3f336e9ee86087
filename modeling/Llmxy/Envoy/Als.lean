import Llmxy.Envoy.ExtProc
import Llmxy.Relay.Commit

/-!
# The access log

Envoy sends an entry for every request it has handled, with the `x-llmxy-*` request
headers, and `_ingest_entry` bills the entries that nobody has billed yet.  It takes
the headers for those the external processor set.

A request that the processor answered itself carries the client's own headers, so the
client decides what is ingested: `ingest_untouched_iff` says for which headers nothing
happens.

## Main definitions

* `LogEntry`, `immediateEntry` — an entry, and that of an immediate response.
* `AlsFields`, `alsFields` — what is read from the headers.
* `ingestEntry` — `_ingest_entry`.
* `Untouched`, `Harmless`, `ingest_untouched_iff`.
-/

namespace Llmxy

/-- An access-log entry. -/
structure LogEntry where
  requestHeaders : Headers
  responseCode : ℕ
  durationMs : ℤ
  /-- The dynamic metadata `llmxy.usage`. -/
  promptTokens : ℤ
  completionTokens : ℤ

/-- `additional_request_headers_to_log`. -/
def loggedHeaders : List String :=
  ["x-llmxy-request-id", "x-llmxy-user-id", "x-llmxy-api-key-id", "x-llmxy-model-id",
    "x-llmxy-user-facing-model", "x-llmxy-upstream-model", "x-llmxy-provider-type",
    "x-llmxy-cluster", "x-llmxy-resolved-label", "x-llmxy-client-protocol",
    "x-llmxy-billed-sync", "x-llmxy-classifier-model-id", "x-llmxy-classifier-upstream-model",
    "x-llmxy-classifier-prompt-tokens", "x-llmxy-classifier-latency-ms",
    "x-llmxy-classifier-status"]

/-- The headers of an entry. -/
def Headers.logged (headers : Headers) : Headers :=
  headers.filter fun h => lower h.1 ∈ loggedHeaders.map str

/-- How the upstream of a forwarded request answered. -/
structure UpstreamAnswer where
  code : ℕ
  promptTokens : ℤ
  completionTokens : ℤ

/-- The entry Envoy logs for a request.  An immediate response leaves the client's own
headers untouched and carries no usage metadata; a forwarded request has the headers
the processor set. -/
def accessLogEntry (gate : Gate) (req : ClientRequest) (answer : UpstreamAnswer)
    (durationMs : ℤ) : LogEntry :=
  match processRequest gate req with
  | .immediate code => ⟨req.headers.logged, code, durationMs, 0, 0⟩
  | .forward set => ⟨(req.headers.overwrite set).logged, answer.code, durationMs,
      answer.promptTokens, answer.completionTokens⟩

/-- `_hdr`: an exact match before one up to case. -/
def hdr (headers : Headers) (name : Str) : Option Str :=
  match headers.find? fun h => h.1 = name with
  | some h => some h.2
  | none => (headers.find? fun h => lower h.1 = lower name).map Prod.snd

/-- What `_ingest_entry` reads from the headers. -/
structure AlsFields where
  requestId : Str
  userId : ℤ
  apiKeyId : Option ℤ
  modelId : Option ℤ
  userFacingModel : Option Str
  upstreamModel : Option Str
  resolvedLabel : Option Str
  classifierModelId : Option ℤ
  classifierUpstream : Option Str
  classifierPromptTokens : ℤ
  classifierLatencyMs : ℤ
  classifierStatus : Option Str

/-- `int(v) if (v and v.isdigit()) else None`.  The outer `none` is the exception. -/
def idHeader (v : Option Str) : Option (Option ℤ) :=
  match v with
  | some s => if isDigit s then (parseInt s).map some else some none
  | none => some none

/-- The ids and numbers of the headers.  `none` when an `int` raises. -/
def alsFields (headers : Headers) (userId modelId : Str) : Option AlsFields := do
  some {
    requestId := (headerOr (hdr headers (str "x-llmxy-request-id"))).getD (str "-")
    userId := ← parseInt userId
    apiKeyId := ← idHeader (hdr headers (str "x-llmxy-api-key-id"))
    modelId := ← idHeader (some modelId)
    userFacingModel := hdr headers (str "x-llmxy-user-facing-model")
    upstreamModel := hdr headers (str "x-llmxy-upstream-model")
    resolvedLabel := hdr headers (str "x-llmxy-resolved-label")
    classifierModelId := ← idHeader (hdr headers (str "x-llmxy-classifier-model-id"))
    classifierUpstream := hdr headers (str "x-llmxy-classifier-upstream-model")
    classifierPromptTokens := ← intHeader (hdr headers (str "x-llmxy-classifier-prompt-tokens"))
    classifierLatencyMs := ← intHeader (hdr headers (str "x-llmxy-classifier-latency-ms"))
    classifierStatus := hdr headers (str "x-llmxy-classifier-status") }

/-- The relay's row.  The degraded row is the one with no cost and the status
`error`. -/
def AlsFields.log (f : AlsFields) (e : LogEntry) (cost : ℤ) (status : Str) : UsageLog where
  userId := f.userId
  apiKeyId := f.apiKeyId
  modelId := f.modelId
  userFacingModel := f.userFacingModel
  upstreamModel := f.upstreamModel
  promptTokens := e.promptTokens
  completionTokens := e.completionTokens
  costCents := cost
  latencyMs := e.durationMs
  status := status
  requestId := some f.requestId
  kind := str "relay"
  resolvedLabel := f.resolvedLabel

/-- The classifier's row. -/
def AlsFields.classifierLog (f : AlsFields) (cost : ℤ) (status : Str) : UsageLog where
  userId := f.userId
  apiKeyId := f.apiKeyId
  modelId := f.classifierModelId
  userFacingModel := f.userFacingModel
  upstreamModel := headerOr f.classifierUpstream
  promptTokens := f.classifierPromptTokens
  completionTokens := 0
  costCents := cost
  latencyMs := f.classifierLatencyMs
  status := status
  requestId := some f.requestId
  kind := str "classifier"
  resolvedLabel := f.resolvedLabel

/-- `status_str`. -/
def LogEntry.status (e : LogEntry) : Str :=
  if 200 ≤ e.responseCode ∧ e.responseCode < 300 then str "ok" else str "error"

/-- What the relay costs: only a successful response is charged. -/
def AlsFields.relayCost (f : AlsFields) (e : LogEntry) (pg : Pg) : ℤ :=
  if e.status = str "ok" then
    calcCostCents (f.modelId.bind pg.models.get?) e.promptTokens e.completionTokens
  else 0

/-- What the classifier costs, whatever became of the relay. -/
def AlsFields.classifierCost (f : AlsFields) (pg : Pg) : ℤ :=
  if f.classifierStatus = some (str "ok") then
    calcCostCents (f.classifierModelId.bind pg.models.get?) f.classifierPromptTokens 0
  else 0

/-- The note of the charge. -/
def AlsFields.note (f : AlsFields) (relayCost classifierCost : ℤ) : Str :=
  let note := f.userFacingModel.getD []
  if 0 < classifierCost ∧ 0 < relayCost then note ++ str " [relay+classifier]"
  else if 0 < classifierCost then note ++ str " [classifier]"
  else note

/-- The rows of an entry: the relay's, and the classifier's if it was called. -/
def AlsFields.logs (f : AlsFields) (e : LogEntry) (pg : Pg) : List UsageLog :=
  f.log e (f.relayCost e pg) e.status ::
    match f.classifierModelId, headerOr f.classifierStatus with
    | some _, some status => [f.classifierLog (f.classifierCost pg) status]
    | _, _ => []

/-- Insert rows in a transaction of their own. -/
def insertLogs (logs : List UsageLog) (pg : Pg) : Option Pg :=
  if logs.all (UsageLog.fits pg) then some { pg with usageLogs := pg.usageLogs ++ logs } else none

/-- The billing transaction: one charge for the relay and the classifier, and their
rows.  A user that does not exist is not charged.  `none` when it is rolled back. -/
def AlsFields.transaction (f : AlsFields) (e : LogEntry) (now : ℤ) (pg : Pg) : Option Pg :=
  let relayCost := f.relayCost e pg
  let classifierCost := f.classifierCost pg
  let total := relayCost + classifierCost
  match if 0 < total then pg.users.get? f.userId else none with
  | some user =>
      (chargeUser total (some f.requestId) (some (f.note relayCost classifierCost)) now
        (.start pg user (f.apiKeyId.bind pg.apiKeys.get?))).bind fun r =>
        ((f.logs e pg).foldl (fun s l => s.addLog l) r.2).commit
  | none => insertLogs (f.logs e pg) pg

/-- The model the fields name is an image model. -/
def AlsFields.isImage (f : AlsFields) (pg : Pg) : Bool :=
  (f.modelId.bind pg.models.get?).any fun m => m.kind = str "image"

/-- The rest of `_ingest_entry` once the headers are read: the transaction, or a
degraded row when it is rolled back.  Image models are billed elsewhere. -/
def AlsFields.ingest (f : AlsFields) (e : LogEntry) (now : ℤ) (pg : Pg) : Pg :=
  if f.isImage pg then pg
  else
    match f.transaction e now pg with
    | some pg' => pg'
    | none => (insertLogs [f.log e 0 (str "error")] pg).getD pg

/-- `x-llmxy-billed-sync`, the mark of a request that is billed already. -/
def billedSync (headers : Headers) : Bool :=
  lower ((hdr headers (str "x-llmxy-billed-sync")).getD []) == str "true"

/-- `_ingest_entry`, whose exceptions the caller logs. -/
def ingestEntry (e : LogEntry) (now : ℤ) (pg : Pg) : Pg :=
  if billedSync e.requestHeaders then pg
  else
    match headerOr (hdr e.requestHeaders (str "x-llmxy-user-id")),
        headerOr (hdr e.requestHeaders (str "x-llmxy-model-id")) with
    | some userId, some modelId =>
        match alsFields e.requestHeaders userId modelId with
        | some f => f.ingest e now pg
        | none => pg
    | _, _ => pg

/-! ### Requests nobody authorised -/

/-- No user is charged and no `UsageLog` row is written. -/
structure Untouched (pg after : Pg) : Prop where
  users : after.users = pg.users
  subscriptions : after.subscriptions = pg.subscriptions
  balanceTx : after.balanceTx = pg.balanceTx
  usageLogs : after.usageLogs = pg.usageLogs

/-- PostgreSQL accepts a relay row without cost for these fields. -/
def AlsFields.rowAccepted (f : AlsFields) (e : LogEntry) (pg : Pg) : Bool :=
  pg.users.refers (some f.userId) && pg.apiKeys.refers f.apiKeyId && pg.models.refers f.modelId &&
    varcharFits 128 f.userFacingModel && varcharFits 128 f.upstreamModel &&
    varcharFits 64 (some f.requestId) && varcharFits 64 f.resolvedLabel &&
    numbersFit e.promptTokens e.completionTokens 0 e.durationMs

/-- The client's headers do nothing: they are marked as billed, name no user or no
model, hold an id or a count that is no number, name an image model, or describe a row
that PostgreSQL rejects for the entry. -/
def Harmless (headers : Headers) (e : LogEntry) (pg : Pg) : Prop :=
  billedSync headers = true ∨
    headerOr (hdr headers (str "x-llmxy-user-id")) = none ∨
    headerOr (hdr headers (str "x-llmxy-model-id")) = none ∨
    ∃ userId modelId, headerOr (hdr headers (str "x-llmxy-user-id")) = some userId ∧
      headerOr (hdr headers (str "x-llmxy-model-id")) = some modelId ∧
      ∀ f, alsFields headers userId modelId = some f → f.isImage pg = true ∨
        f.rowAccepted e pg = false

theorem Untouched.refl (pg : Pg) : Untouched pg pg := ⟨rfl, rfl, rfl, rfl⟩

/-- Whoever appends a row has touched the database. -/
theorem not_untouched_of_logs {pg after : Pg} {l : UsageLog} {logs : List UsageLog}
    (h : after.usageLogs = pg.usageLogs ++ l :: logs) : ¬ Untouched pg after := by
  intro hun
  have := congrArg List.length (h.symm.trans hun.usageLogs)
  simp only [List.length_append, List.length_cons] at this
  omega

/-- A search is not disturbed by leaving out what it cannot find. -/
theorem find?_filter_of_imp {α : Type} {p q : α → Bool} (h : ∀ a, q a = true → p a = true)
    (l : List α) : (l.filter p).find? q = l.find? q := by
  rw [List.find?_filter]
  congr 1
  funext a
  cases hq : q a with
  | true => simp [h a hq]
  | false => simp

/-- Logging keeps every header that is read. -/
theorem hdr_logged (headers : Headers) {name : String} (hname : name ∈ loggedHeaders) :
    hdr headers.logged (str name) = hdr headers (str name) := by
  have hlower : ∀ n ∈ loggedHeaders, lower (str n) = str n := by decide +kernel
  have hmem : lower (str name) ∈ loggedHeaders.map str := by
    rw [hlower name hname]
    exact List.mem_map_of_mem hname
  have hexact : (headers.logged.find? fun h => h.1 = str name) =
      headers.find? fun h => h.1 = str name := by
    refine find?_filter_of_imp (fun h hh => ?_) headers
    rw [of_decide_eq_true hh]
    exact decide_eq_true hmem
  have hfolded : (headers.logged.find? fun h => lower h.1 = lower (str name)) =
      headers.find? fun h => lower h.1 = lower (str name) := by
    refine find?_filter_of_imp (fun h hh => ?_) headers
    rw [of_decide_eq_true hh]
    exact decide_eq_true hmem
  rw [hdr, hexact, hfolded, ← hdr]

theorem billedSync_logged (headers : Headers) : billedSync headers.logged = billedSync headers := by
  rw [billedSync, hdr_logged headers (by simp [loggedHeaders]), ← billedSync]

theorem alsFields_logged (headers : Headers) (userId modelId : Str) :
    alsFields headers.logged userId modelId = alsFields headers userId modelId := by
  simp (disch := decide) only [alsFields, hdr_logged]

/-- An entry with the logged headers is ingested as one with all headers would be. -/
theorem ingestEntry_logged (headers : Headers) (code : ℕ) (d p c now : ℤ) (pg : Pg) :
    ingestEntry ⟨headers.logged, code, d, p, c⟩ now pg =
      if billedSync headers then pg
      else
        match headerOr (hdr headers (str "x-llmxy-user-id")),
            headerOr (hdr headers (str "x-llmxy-model-id")) with
        | some userId, some modelId =>
            match alsFields headers userId modelId with
            | some f => f.ingest ⟨headers.logged, code, d, p, c⟩ now pg
            | none => pg
        | _, _ => pg := by
  simp (disch := decide) only [ingestEntry, billedSync_logged, alsFields_logged,
    hdr_logged]

namespace AlsFields
variable {f : AlsFields} {e : LogEntry} {pg after : Pg} {now : ℤ}

/-- The relay's row fits whatever its status, if its cost does. -/
theorem fits_relayLog (f : AlsFields) (e : LogEntry) (cost : ℤ) {status : Str}
    (hstatus : status.length ≤ 32) (pg : Pg) :
    (f.log e cost status).fits pg = (f.rowAccepted e pg && int4Fits cost) := by
  have hkind : (str "relay").length ≤ 16 := by decide
  have hs : varcharFits 32 (some status) = true := varcharFits_some.mpr hstatus
  have hk : varcharFits 16 (some (str "relay")) = true := varcharFits_some.mpr hkind
  have hzero : int4Fits 0 = true := by decide
  cases hcost : int4Fits cost <;>
    simp [log, UsageLog.fits, rowAccepted, numbersFit, hs, hk, hcost, hzero]

theorem length_status_le (e : LogEntry) : e.status.length ≤ 32 := by
  unfold LogEntry.status
  split_ifs <;> decide

theorem insertLogs_eq_some {logs : List UsageLog} (h : insertLogs logs pg = some after) :
    logs.all (UsageLog.fits pg) = true ∧ after.usageLogs = pg.usageLogs ++ logs := by
  unfold insertLogs at h
  split_ifs at h with hfits
  cases h
  exact ⟨hfits, rfl⟩

theorem foldl_addLog (logs : List UsageLog) (s : Sess) :
    logs.foldl (fun s l => s.addLog l) s = { s with newLogs := s.newLogs ++ logs } := by
  induction logs generalizing s with
  | nil => simp
  | cons l logs ih =>
      rw [List.foldl_cons, ih]
      simp [Sess.addLog]

/-- A billing transaction that commits appends its rows, which were accepted. -/
theorem transaction_eq_some (h : f.transaction e now pg = some after) :
    after.usageLogs = pg.usageLogs ++ f.logs e pg ∧ f.rowAccepted e pg = true := by
  suffices hrows : after.usageLogs = pg.usageLogs ++ f.logs e pg ∧
      (f.logs e pg).all (UsageLog.fits pg) = true by
    refine ⟨hrows.1, ?_⟩
    have hall := hrows.2
    rw [logs, List.all_cons, Bool.and_eq_true] at hall
    have hrelay := hall.1
    rw [fits_relayLog f e (f.relayCost e pg) (length_status_le e), Bool.and_eq_true] at hrelay
    exact hrelay.1
  unfold transaction at h
  dsimp only at h
  split at h
  · rename_i user huser
    split_ifs at huser
    have hid : user.id = f.userId := (Table.get?_eq_some.mp huser).2
    obtain ⟨bd, t, hcharge, ht⟩ :=
      chargeUser_charged (Sess.clean_start pg user (f.apiKeyId.bind pg.apiKeys.get?))
        (f.relayCost e pg + f.classifierCost pg) now f.requestId
        (f.note (f.relayCost e pg) (f.classifierCost pg))
        (Table.refers_of_get? (r := user) (by rw [← hid] at huser; exact huser))
    have hids := sameIds_pgAfter (.start pg user (f.apiKeyId.bind pg.apiKeys.get?))
      (f.relayCost e pg + f.classifierCost pg) now
    have hpg := rows_pgAfter (.start pg user (f.apiKeyId.bind pg.apiKeys.get?))
      (f.relayCost e pg + f.classifierCost pg) now
    rw [← ht.pg] at hids hpg
    rw [hcharge, Option.bind_some, foldl_addLog, ht.logs] at h
    have hcommit : Sess.commit { t with newLogs := f.logs e pg } = some after := h
    have hsome := (Sess.commit_isSome (s := { t with newLogs := f.logs e pg }) ht.clean).mp
      (by rw [hcommit]; rfl)
    obtain ⟨-, hlogs⟩ := Sess.rows_commit hcommit
    have hfits : UsageLog.fits t.pg = UsageLog.fits pg := funext fun l => hids.fits_log l
    refine ⟨by rw [hlogs, hpg.2]; rfl, ?_⟩
    have hall := hsome.2
    rw [hfits] at hall
    exact hall
  · obtain ⟨hfits, hlogs⟩ := insertLogs_eq_some h
    exact ⟨hlogs, hfits⟩

/-- **What ingesting does** once the headers are read: nothing for an image model or a
row that is rejected, and otherwise it writes. -/
theorem ingest_untouched_iff (f : AlsFields) (e : LogEntry) (now : ℤ) (pg : Pg) :
    Untouched pg (f.ingest e now pg) ↔ f.isImage pg = true ∨ f.rowAccepted e pg = false := by
  unfold ingest
  split_ifs with himage
  · simp [himage, Untouched.refl]
  · cases htx : f.transaction e now pg with
    | some after =>
        obtain ⟨hlogs, hok⟩ := transaction_eq_some htx
        simp only [himage, hok, Bool.false_eq_true, Bool.true_eq_false, or_self, iff_false]
        exact not_untouched_of_logs hlogs
    | none =>
        -- the transaction was rolled back and the degraded row is written
        have hfits := fits_relayLog f e 0 (show (str "error").length ≤ 32 by decide) pg
        simp only [insertLogs, List.all_cons, List.all_nil, Bool.and_true, hfits,
          show int4Fits 0 = true from rfl]
        cases hok : f.rowAccepted e pg with
        | false => simp [Untouched.refl]
        | true =>
            simp only [himage, Bool.false_eq_true, Bool.true_eq_false, or_self, iff_false]
            exact @not_untouched_of_logs pg _ _ [] rfl

end AlsFields

/-- **A request that was not authorised charges nobody**, and writes no row, exactly
when the headers its client sent are harmless. -/
theorem ingest_denied_iff {gate : Gate} {req : ClientRequest} {code : ℕ}
    (h : processRequest gate req = .immediate code) (answer : UpstreamAnswer)
    (durationMs now : ℤ) (pg : Pg) :
    Untouched pg (ingestEntry (accessLogEntry gate req answer durationMs) now pg) ↔
      Harmless req.headers (accessLogEntry gate req answer durationMs) pg := by
  rw [accessLogEntry, h, ingestEntry_logged, Harmless]
  cases hsync : billedSync req.headers with
  | true => simp [Untouched.refl]
  | false =>
      simp only [Bool.false_eq_true, if_false, false_or]
      cases huser : headerOr (hdr req.headers (str "x-llmxy-user-id")) with
      | none => simp [Untouched.refl]
      | some userId =>
          cases hmodel : headerOr (hdr req.headers (str "x-llmxy-model-id")) with
          | none => simp [Untouched.refl]
          | some modelId =>
              simp only [reduceCtorEq, false_or, Option.some.injEq, exists_and_left,
                exists_eq_left']
              cases hf : alsFields req.headers userId modelId with
              | none => simp [Untouched.refl]
              | some f => simpa using f.ingest_untouched_iff _ now pg

/-- The headers carry the mark of a billed request. -/
def Decision.Marked : Decision → Prop
  | .deny _ _ => True
  | .allow set => (set.find? fun x => x.1 = str "x-llmxy-billed-sync") =
      some (str "x-llmxy-billed-sync", str "true")

theorem Decision.Marked.ite {p : Prop} [Decidable p] {a b : Decision} (ha : a.Marked)
    (hb : b.Marked) : (if p then a else b).Marked := by
  split_ifs
  · exact ha
  · exact hb

theorem marked_decideRoute (gate : Gate) (key : KeySnapshot) (requestId : Str)
    (req : ClientRequest) : (decideRoute gate key requestId req).Marked := by
  unfold decideRoute
  dsimp only
  split
  · trivial
  split
  · trivial
  split
  · trivial
  refine .ite trivial (.ite trivial ?_)
  split
  · trivial
  · rfl

/-- Every request the processor lets through gets the mark of a billed one. -/
theorem marked_decideRequest (gate : Gate) (req : ClientRequest) :
    (decideRequest gate req).Marked := by
  unfold decideRequest
  dsimp only
  split
  · trivial
  refine .ite trivial ?_
  split
  · trivial
  refine .ite trivial ?_
  split
  · trivial
  refine .ite trivial (.ite trivial (.ite rfl ?_))
  exact marked_decideRoute _ _ _ _

/-- A request the processor let through is marked as billed, and not ingested. -/
theorem ingest_forwarded {gate : Gate} {req : ClientRequest} {set : Headers}
    (h : processRequest gate req = .forward set) (answer : UpstreamAnswer)
    (durationMs now : ℤ) (pg : Pg) :
    ingestEntry (accessLogEntry gate req answer durationMs) now pg = pg := by
  have hset : (set.find? fun x => x.1 = str "x-llmxy-billed-sync") =
      some (str "x-llmxy-billed-sync", str "true") := by
    unfold processRequest at h
    split_ifs at h
    cases hd : decideRequest gate req with
    | deny code message =>
        rw [hd] at h
        cases h
    | allow set' =>
        rw [hd] at h
        cases h
        have hmarked := marked_decideRequest gate req
        rw [hd] at hmarked
        exact hmarked
  have hmark : billedSync (req.headers.overwrite set) = true := by
    have hfind : ((req.headers.overwrite set).find? fun x => x.1 = str "x-llmxy-billed-sync") =
        some (str "x-llmxy-billed-sync", str "true") := by
      rw [Headers.overwrite, List.find?_append, hset]
      rfl
    simp only [billedSync, hdr, hfind]
    decide
  rw [accessLogEntry, h, ingestEntry_logged, hmark]
  rfl

/-- Nothing is authorised. -/
def closedGate : Gate where
  keySnapshot := fun _ => none
  userSnapshot := fun _ => none
  hasQuotaFast := fun _ => (false, [])
  rateLimit := fun _ _ => false
  parseBody := fun _ => none
  loadRoute := fun name => .inl (404, name)
  selectRoute := fun _ _ _ _ => none

/-- A request without a key, with the given headers. -/
def keylessRequest (headers : Headers) : ClientRequest :=
  ⟨(str ":path", str "/v1/chat/completions") :: headers, [], ⟨str "0123456789abcdef", length_hexDigits⟩⟩

theorem ingest_denied_plain :
    Untouched relayPg (ingestEntry (accessLogEntry closedGate (keylessRequest [])
      ⟨0, 0, 0⟩ 3) 0 relayPg) :=
  (ingest_denied_iff (show processRequest closedGate (keylessRequest []) = .immediate 401 by rfl)
    ⟨0, 0, 0⟩ 3 0 relayPg).mpr (.inr (.inl (by decide)))

/-- A client that claims to be user 1 and to have used the classifier. -/
def spoofedHeaders : Headers :=
  [(str "x-llmxy-user-id", str "1"), (str "x-llmxy-model-id", str "9"),
    (str "x-llmxy-classifier-model-id", str "9"), (str "x-llmxy-classifier-status", str "ok"),
    (str "x-llmxy-classifier-prompt-tokens", str "40")]

/-- A caller without a key is denied, and user 1, who has 100 cents and a subscription
with 30, pays 40 cents. -/
theorem denied_caller_debits_user :
    processRequest closedGate (keylessRequest spoofedHeaders) = .immediate 401 ∧
      relayPg.fundsOfOne = (some 100, some 30) ∧
      (ingestEntry (accessLogEntry closedGate (keylessRequest spoofedHeaders) ⟨0, 0, 0⟩ 3) 0
        relayPg).fundsOfOne = (some 90, some 0) ∧
      (ingestEntry (accessLogEntry closedGate (keylessRequest spoofedHeaders) ⟨0, 0, 0⟩ 3) 0
        relayPg).usageLogs.length = 2 :=
  ⟨rfl, by decide +kernel, by decide +kernel, by decide +kernel⟩

end Llmxy
