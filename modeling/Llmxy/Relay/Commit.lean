import Llmxy.Relay.Billing

/-!
# When the billing of a relayed request commits

The billing transaction of a direct endpoint adds one or two `BalanceTx` rows and
one or two `UsageLog` rows after the upstream has answered.  PostgreSQL rejects an
over-long text, and with it the whole transaction, so the request is free.

Two lengths are not bounded by the code: that of the request id, which is the
client's `X-Request-ID` header as it came, and that of a note, which grows with the
number of subscriptions a charge drains.

## Main definitions

* `noteLength` — how long the note of a charge is.
* `NoteFits` — the note of a charge fits its column.
* `RowsFit`, `billRelay_isSome_iff` — when the transaction commits.
* `billDirect_commits_iff` — the same for a direct endpoint.
-/

namespace Llmxy

/-- The length of `f"{base} [{';'.join(parts)}]".strip()` for at least one part: each
part is followed by a semicolon or the bracket. -/
def noteLength (base : Str) (parts : List Str) : ℕ :=
  (lstrip (base ++ str " [")).length + (parts.map List.length).sum + parts.length

/-- The note of a charge fits its column. -/
def NoteFits (base : Str) (pg : Pg) (userId cost now : ℤ) : Prop :=
  0 < cost → noteLength base ((chargedShares pg userId cost now).map showTaken) ≤ 256

instance (base : Str) (pg : Pg) (userId cost now : ℤ) :
    Decidable (NoteFits base pg userId cost now) :=
  inferInstanceAs (Decidable (_ → _))

theorem length_fullNote (base : Str) {parts : List Str} (h : parts ≠ []) :
    (fullNote (some base) parts).length = noteLength base parts := by
  have hbracket : ∃ c ∈ base ++ str " [", isSpace c = false :=
    ⟨91, by simp [str], by decide⟩
  have hpos : 0 < parts.length := List.length_pos_iff.mpr h
  simp only [fullNote, Option.getD_some, List.isEmpty_iff, if_neg h, strip]
  rw [List.append_assoc (base ++ str " ["), lstrip_append hbracket, ← List.append_assoc,
    show str "]" = [93] from rfl, rstrip_concat (by decide)]
  simp only [List.length_append, length_join, List.length_singleton, noteLength,
    show (str ";").length = 1 from rfl]
  omega

/-- The `BalanceTx` row of a charge of a request. -/
structure BalanceTx.IsCharge (b : BalanceTx) (userId cost : ℤ) (refId : Str) : Prop where
  user : b.userId = userId
  type : b.type = .consume
  amount : b.amountCents = -cost
  ref : b.refId = some refId

/-- What a charge in session `s` leaves in session `t`. -/
structure Charged (cost now : ℤ) (refId base : Str) (s t : Sess) : Prop where
  clean : t.Clean
  pg : t.pg = pgAfter s cost now
  user : t.user.id = s.user.id
  key : t.keyId = s.keyId
  logs : t.newLogs = s.newLogs
  tx : ∃ rows, t.newTx = s.newTx ++ rows ∧
    (0 < cost → ∃ b, rows = [b] ∧ b.IsCharge s.user.id cost refId)
  /-- PostgreSQL takes the row exactly when the reference and the note fit. -/
  fits : ∀ pg, SameIds s.pg pg → (t.newTx.all (BalanceTx.fits pg) = true ↔
    s.newTx.all (BalanceTx.fits pg) = true ∧ (0 < cost → refId.length ≤ 64) ∧
      NoteFits base s.pg s.user.id cost now)

/-- **A charge** in a clean session succeeds and adds its one row. -/
theorem chargeUser_charged {s : Sess} (hs : s.Clean) (cost now : ℤ) (refId base : Str)
    (hu : s.pg.users.refers (some s.user.id) = true) :
    ∃ bd t, chargeUser cost (some refId) (some base) now s = some (bd, t) ∧
      Charged cost now refId base s t := by
  by_cases hc : 0 < cost
  · have hsome := chargeUser_isSome cost now (some refId) (some base) (s := s)
      (by rw [Sess.view_of_clean hs]; simpa [Table.refers] using hu)
    obtain ⟨⟨bd, t⟩, h⟩ := Option.isSome_iff_exists.mp hsome
    obtain ⟨rfl, hpg, hclean, hid, hlogs, after, hrow, -⟩ := chargeUser_eq_some hs hc h
    refine ⟨_, t, h, hclean, by rw [hpg, pgAfter, if_pos hc], hid, keyId_chargeUser h, hlogs,
      ⟨_, hrow, fun _ => ⟨_, rfl, rfl, rfl, rfl, rfl⟩⟩, fun pg hids => ?_⟩
    have hparts : (chargedShares s.pg s.user.id cost now).map showTaken ≠ [] := by
      simpa using chargedShares_ne_nil hc
    have hlen := length_fullNote base hparts
    have hnote : orNone (fullNote (some base)
        ((chargedShares s.pg s.user.id cost now).map showTaken)) =
        some (fullNote (some base) ((chargedShares s.pg s.user.id cost now).map showTaken)) := by
      refine if_neg fun hempty => ?_
      rw [List.isEmpty_iff.mp hempty] at hlen
      have hpos := List.length_pos_iff.mpr hparts
      simp only [List.length_nil, noteLength] at hlen
      omega
    rw [hrow, hnote]
    simp only [List.all_append, List.all_cons, List.all_nil, Bool.and_true, Bool.and_eq_true,
      BalanceTx.fits, hids.users, hu, varcharFits_some, hlen, NoteFits, hc, true_imp_iff, true_and]
  · refine ⟨[], s, if_pos (by omega), hs, by rw [pgAfter, if_neg hc], rfl, rfl, rfl,
      ⟨[], by simp, fun h => absurd h hc⟩, fun pg _ => ?_⟩
    simp [NoteFits, hc]

theorem sameIds_pgAfter (s : Sess) (cost now : ℤ) : SameIds s.pg (pgAfter s cost now) := by
  unfold pgAfter
  split_ifs
  · exact sameIds_chargedPg s cost now
  · exact SameIds.refl _

/-- A classifier that costs nothing is charged nothing. -/
theorem recordClassifier_some (c : RelayCall) (e : ClassifierCall) (now : ℤ) (s : Sess) :
    recordClassifier c (some e) now s =
      (chargeUser e.cost (some c.requestId) (some (classifierNote c)) now s).map fun r =>
        r.2.addLog (e.log c r.2) := by
  simp only [recordClassifier]
  split_ifs with h
  · rfl
  · rw [chargeUser, if_pos (by omega)]
    rfl

/-- A clean session commits when every row it has added is accepted. -/
theorem Sess.commit_isSome {s : Sess} (hs : s.Clean) :
    s.commit.isSome ↔
      s.newTx.all (BalanceTx.fits s.pg) = true ∧ s.newLogs.all (UsageLog.fits s.pg) = true := by
  rw [Sess.commit, Sess.flush_of_clean hs, ← Bool.and_eq_true, ← Sess.rowsFit]
  split_ifs with h <;> simp [h]

/-- A charge adds no row to the committed logs. -/
theorem rows_pgAfter (s : Sess) (cost now : ℤ) :
    (pgAfter s cost now).balanceTx = s.pg.balanceTx ∧
      (pgAfter s cost now).usageLogs = s.pg.usageLogs := by
  unfold pgAfter
  split_ifs
  · exact ⟨rfl, rfl⟩
  · exact ⟨rfl, rfl⟩

/-- A commit appends the rows the session has added. -/
theorem Sess.rows_commit {s : Sess} {after : Pg} (h : s.commit = some after) :
    after.balanceTx = s.pg.balanceTx ++ s.newTx ∧
      after.usageLogs = s.pg.usageLogs ++ s.newLogs := by
  rw [Sess.commit] at h
  split_ifs at h
  cases h
  exact ⟨rfl, rfl⟩

/-- The counts, the cost and the latency of the relay fit their columns. -/
def RelayCall.numbersFit (c : RelayCall) : Bool :=
  Llmxy.numbersFit c.promptTokens c.completionTokens c.cost c.latencyMs

/-- Those of the classifier do. -/
def ClassifierCall.numbersFit (e : ClassifierCall) : Bool :=
  Llmxy.numbersFit e.promptTokens 0 e.cost e.latencyMs

section
variable {c : RelayCall} {s : Sess} {pg : Pg}

/-- When the relay's row is accepted. -/
theorem fits_log (hu : pg.users.refers (some s.user.id) = true)
    (hk : pg.apiKeys.refers s.keyId = true) (hm : pg.models.refers (some c.model.id) = true) :
    (c.log s).fits pg = true ↔ c.userFacingModel.length ≤ 128 ∧ c.upstreamModel.length ≤ 128 ∧
      c.requestId.length ≤ 64 ∧ varcharFits 64 c.resolvedLabel = true ∧ c.numbersFit = true := by
  have hconst : (str "ok").length ≤ 32 ∧ (str "relay").length ≤ 16 := by decide
  simp [RelayCall.log, UsageLog.fits, RelayCall.numbersFit, hu, hk, hm, varcharFits_some, hconst,
    and_assoc]

/-- When the classifier's row is accepted. -/
theorem fits_classifierLog {e : ClassifierCall} (hu : pg.users.refers (some s.user.id) = true)
    (hk : pg.apiKeys.refers s.keyId = true) (hm : pg.models.refers (some e.model.id) = true) :
    (e.log c s).fits pg = true ↔ c.userFacingModel.length ≤ 128 ∧
      varcharFits 128 e.upstreamModel = true ∧ e.status.length ≤ 32 ∧ c.requestId.length ≤ 64 ∧
      varcharFits 64 c.resolvedLabel = true ∧ e.numbersFit = true := by
  have hconst : (str "classifier").length ≤ 16 := by decide
  simp [ClassifierCall.log, UsageLog.fits, ClassifierCall.numbersFit, hu, hk, hm, varcharFits_some,
    hconst, and_assoc]

end

/-- What the rows of a request need to fit: the texts of the request itself, the notes of
the relay's and of the classifier's charge, and the numbers of both. -/
structure RowsFit (c : RelayCall) (classifier : Option ClassifierCall) (now later : ℤ)
    (s : Sess) : Prop where
  requestId : c.requestId.length ≤ 64
  label : varcharFits 64 c.resolvedLabel = true
  userFacingModel : c.userFacingModel.length ≤ 128
  upstreamModel : c.upstreamModel.length ≤ 128
  relayNote : NoteFits c.userFacingModel s.pg s.user.id c.cost now
  classifierUpstream : ∀ e ∈ classifier, varcharFits 128 e.upstreamModel = true
  classifierStatus : ∀ e ∈ classifier, e.status.length ≤ 32
  classifierNote : ∀ e ∈ classifier,
    NoteFits (classifierNote c) (pgAfter s c.cost now) s.user.id e.cost later
  numbers : c.numbersFit = true
  classifierNumbers : ∀ e ∈ classifier, e.numbersFit = true

/-- What the billing needs of the session it runs in: fresh, with rows that exist. -/
structure Billable (c : RelayCall) (classifier : Option ClassifierCall) (s : Sess) : Prop where
  clean : s.Clean
  noTx : s.newTx = []
  noLogs : s.newLogs = []
  user : s.pg.users.refers (some s.user.id) = true
  key : s.pg.apiKeys.refers s.keyId = true
  model : s.pg.models.refers (some c.model.id) = true
  classifier : ∀ e ∈ classifier, s.pg.models.refers (some e.model.id) = true

/-- **The billing transaction**, in a fresh session, commits exactly when the rows
fit. -/
theorem billRelay_isSome_iff {c : RelayCall} {classifier : Option ClassifierCall} {s : Sess}
    (hs : Billable c classifier s) (now later : ℤ) :
    (billRelay c classifier now later s).isSome ↔ RowsFit c classifier now later s := by
  -- the relay's charge and row
  obtain ⟨bd, t, hcharge, ht⟩ :=
    chargeUser_charged hs.clean c.cost now c.requestId c.userFacingModel hs.user
  have hids := sameIds_pgAfter s c.cost now
  rw [← ht.pg] at hids
  have hrelay : ∀ pg, SameIds s.pg pg → ((c.log t).fits pg = true ↔
      c.userFacingModel.length ≤ 128 ∧ c.upstreamModel.length ≤ 128 ∧
        c.requestId.length ≤ 64 ∧ varcharFits 64 c.resolvedLabel = true ∧
        c.numbersFit = true) := fun pg h =>
    fits_log (by rw [ht.user, h.users]; exact hs.user) (by rw [ht.key, h.apiKeys]; exact hs.key)
      (by rw [h.models]; exact hs.model)
  simp only [billRelay, hcharge, Option.bind_some]
  cases classifier with
  | none =>
      simp only [recordClassifier, Option.bind_some]
      rw [Sess.commit_isSome (s := t.addLog (c.log t)) ht.clean]
      simp only [Sess.newTx_addLog, Sess.pg_addLog, Sess.newLogs_addLog, ht.logs, hs.noTx,
        hs.noLogs, ht.fits t.pg hids, List.nil_append, List.all_cons, List.all_nil, Bool.and_true,
        hrelay t.pg hids, true_and]
      constructor
      · rintro ⟨⟨-, hnote⟩, hname, hup, hid, hlabel, hnum⟩
        exact ⟨hid, hlabel, hname, hup, hnote, by simp, by simp, by simp, hnum, by simp⟩
      · rintro ⟨hid, hlabel, hname, hup, hnote, -, -, -, hnum, -⟩
        exact ⟨⟨fun _ => hid, hnote⟩, hname, hup, hid, hlabel, hnum⟩
  | some e =>
      -- the classifier's charge and row
      obtain ⟨bd', r, hcharge', hr⟩ :=
        chargeUser_charged (s := t.addLog (c.log t)) ht.clean e.cost later c.requestId
          (classifierNote c) (by
            simp only [Sess.pg_addLog, Sess.user_addLog, ht.user, hids.users]
            exact hs.user)
      have hids' : SameIds t.pg r.pg := by
        rw [hr.pg]
        exact sameIds_pgAfter (t.addLog (c.log t)) e.cost later
      have hids'' := hids.trans hids'
      have hclassifier : (e.log c r).fits r.pg = true ↔ c.userFacingModel.length ≤ 128 ∧
          varcharFits 128 e.upstreamModel = true ∧ e.status.length ≤ 32 ∧
          c.requestId.length ≤ 64 ∧ varcharFits 64 c.resolvedLabel = true ∧ e.numbersFit = true :=
        fits_classifierLog
          (by rw [hr.user, hids''.users, Sess.user_addLog, ht.user]; exact hs.user)
          (by rw [hr.key, hids''.apiKeys, Sess.keyId_addLog, ht.key]; exact hs.key)
          (by rw [hids''.models]; exact hs.classifier e rfl)
      simp only [recordClassifier_some, hcharge', Option.map_some, Option.bind_some]
      rw [Sess.commit_isSome (s := r.addLog (e.log c r)) hr.clean]
      simp only [Sess.newTx_addLog, Sess.pg_addLog, Sess.newLogs_addLog, hr.logs, ht.logs, hs.noTx,
        hs.noLogs, hr.fits r.pg hids', ht.fits r.pg hids'', List.nil_append, List.all_append,
        List.all_cons, List.all_nil, Bool.and_true, Bool.and_eq_true, hrelay r.pg hids'',
        hclassifier, true_and, Sess.user_addLog, ht.user, ht.pg]
      constructor
      · rintro ⟨⟨⟨-, hnote⟩, -, hnote'⟩, ⟨hname, hup, hid, hlabel, hnum⟩, -, hup', hstatus, -, -,
          hnum'⟩
        exact ⟨hid, hlabel, hname, hup, hnote, fun _ h => by cases h; exact hup',
          fun _ h => by cases h; exact hstatus, fun _ h => by cases h; exact hnote', hnum,
          fun _ h => by cases h; exact hnum'⟩
      · rintro ⟨hid, hlabel, hname, hup, hnote, hup', hstatus, hnote', hnum, hnum'⟩
        exact ⟨⟨⟨fun _ => hid, hnote⟩, fun _ => hid, hnote' e rfl⟩,
          ⟨hname, hup, hid, hlabel, hnum⟩, hname, hup' e rfl, hstatus e rfl, hid, hlabel,
          hnum' e rfl⟩

/-- **The request is billed**: one row of the relay is new in `usage_logs`, and a cost
that is positive was charged. -/
structure Billed (c : RelayCall) (s : Sess) (after : Pg) : Prop where
  log : ∃ rest, after.usageLogs = s.pg.usageLogs ++ c.log s :: rest ∧
    ∀ l ∈ rest, l.kind ≠ str "relay"
  charge : 0 < c.cost → ∃ b rest, after.balanceTx = s.pg.balanceTx ++ b :: rest ∧
    b.IsCharge s.user.id c.cost c.requestId

/-- A committed billing transaction has billed the request. -/
theorem billRelay_billed {c : RelayCall} {classifier : Option ClassifierCall} {s : Sess}
    {after : Pg} {now later : ℤ} (hs : Billable c classifier s)
    (h : billRelay c classifier now later s = some after) : Billed c s after := by
  obtain ⟨bd, t, hcharge, ht⟩ :=
    chargeUser_charged hs.clean c.cost now c.requestId c.userFacingModel hs.user
  obtain ⟨rows, hrows, hpaid⟩ := ht.tx
  have hlog : c.log t = c.log s := by simp [RelayCall.log, ht.user, ht.key]
  have hpg := rows_pgAfter s c.cost now
  rw [← ht.pg] at hpg
  simp only [billRelay, hcharge, Option.bind_some] at h
  cases classifier with
  | none =>
      obtain ⟨htx, hlogs⟩ := Sess.rows_commit (s := t.addLog (c.log t)) h
      simp only [Sess.pg_addLog, Sess.newTx_addLog, Sess.newLogs_addLog, hpg, hrows, hs.noTx,
        ht.logs, hs.noLogs, hlog, List.nil_append] at htx hlogs
      refine ⟨⟨[], hlogs, by simp⟩, fun hc => ?_⟩
      obtain ⟨b, rfl, hb⟩ := hpaid hc
      exact ⟨b, [], htx, hb⟩
  | some e =>
      obtain ⟨bd', r, hcharge', hr⟩ :=
        chargeUser_charged (s := t.addLog (c.log t)) ht.clean e.cost later c.requestId
          (classifierNote c) (by
            simp only [Sess.pg_addLog, Sess.user_addLog, ht.user, ht.pg,
              (sameIds_pgAfter s c.cost now).users]
            exact hs.user)
      obtain ⟨rows', hrows', -⟩ := hr.tx
      have hpg' := rows_pgAfter (t.addLog (c.log t)) e.cost later
      rw [← hr.pg] at hpg'
      simp only [recordClassifier_some, hcharge', Option.map_some, Option.bind_some] at h
      obtain ⟨htx, hlogs⟩ := Sess.rows_commit (s := r.addLog (e.log c r)) h
      simp only [Sess.pg_addLog, Sess.newTx_addLog, Sess.newLogs_addLog, hpg', hpg, hrows', hrows,
        hr.logs, hs.noTx, ht.logs, hs.noLogs, hlog, List.nil_append, List.singleton_append]
        at htx hlogs
      refine ⟨⟨[e.log c r], hlogs, ?_⟩, fun hc => ?_⟩
      · intro l hl
        rw [List.mem_singleton.mp hl]
        exact (by decide : str "classifier" ≠ str "relay")
      · obtain ⟨b, rfl, hb⟩ := hpaid hc
        exact ⟨b, rows', htx, hb⟩

/-! ### The direct endpoints -/

theorem length_effectiveRequestId (header : Option Str) (fresh : FreshId) :
    (effectiveRequestId header fresh).length ≤ 64 ↔ ∀ h ∈ header, h.length ≤ 64 := by
  have hfresh := fresh.2
  cases header with
  | none => simp [effectiveRequestId, hfresh]
  | some h =>
      cases h with
      | nil => simp [effectiveRequestId, hfresh]
      | cons x h => simp [effectiveRequestId]

/-- The rows that a request has loaded are in the database. -/
structure DirectRequest.Loaded (req : DirectRequest) (pg : Pg) : Prop where
  user : pg.users.get? req.user.id = some req.user
  apiKey : pg.apiKeys.get? req.apiKey.id = some req.apiKey
  model : pg.models.get? req.model.id = some req.model
  classifier : ∀ e ∈ req.embeddingUsage, pg.models.get? e.model.id = some e.model

theorem DirectRequest.Loaded.billable {req : DirectRequest} {pg : Pg} (h : req.Loaded pg)
    (promptTokens completionTokens : ℤ) :
    Billable (req.call promptTokens completionTokens)
      (req.embeddingUsage.map EmbeddingUsage.call) (.start pg req.user (some req.apiKey)) where
  clean := Sess.clean_start _ _ _
  noTx := rfl
  noLogs := rfl
  user := Table.refers_of_get? h.user
  key := Table.refers_of_get? h.apiKey
  model := Table.refers_of_get? h.model
  classifier := by
    intro e he
    obtain ⟨eu, heu, rfl⟩ := Option.map_eq_some_iff.mp he
    exact Table.refers_of_get? (h.classifier eu heu)

/-- **The billing of a direct endpoint commits** exactly when the client's
`X-Request-ID` and the route's label have at most 64 characters, the notes of the
charges, which list every drained source, at most 256, and the counts, costs and
latencies of the relay and of the classifier fit their `INTEGER` columns. -/
theorem billDirect_commits_iff {pg : Pg} {req : DirectRequest} (h : req.Loaded pg)
    (promptTokens completionTokens now later : ℤ) :
    (billDirect req promptTokens completionTokens now later pg).isSome ↔
      (∀ x ∈ req.header, x.length ≤ 64) ∧ (∀ x ∈ req.resolvedLabel, x.length ≤ 64) ∧
        NoteFits req.userFacingModel.1 pg req.user.id
          (calcCostCents (some req.model) promptTokens completionTokens) now ∧
        (∀ e ∈ req.embeddingUsage, NoteFits (req.userFacingModel.1 ++ str " [classifier]")
          (pgAfter (.start pg req.user (some req.apiKey))
            (calcCostCents (some req.model) promptTokens completionTokens) now)
          req.user.id e.call.cost later) ∧
        numbersFit promptTokens completionTokens
          (calcCostCents (some req.model) promptTokens completionTokens) req.latencyMs = true ∧
        ∀ e ∈ req.embeddingUsage, numbersFit e.promptTokens 0 e.call.cost e.latencyMs = true := by
  rw [billDirect, billRelay_isSome_iff (h.billable _ _),
    ← length_effectiveRequestId req.header req.fresh]
  constructor
  · rintro ⟨hid, hlabel, -, -, hrelay, -, -, hclassifier, hnum, hnum'⟩
    refine ⟨hid, fun x hx => ?_, hrelay, fun e he => hclassifier e.call (by simp_all), hnum,
      fun e he => hnum' e.call (by simp_all)⟩
    simp only [DirectRequest.call] at hlabel
    rw [hx] at hlabel
    exact varcharFits_some.mp hlabel
  · rintro ⟨hid, hlabel, hrelay, hclassifier, hnum, hnum'⟩
    refine ⟨hid, ?_, req.userFacingModel.2, req.model.upstreamModel.2, hrelay, ?_, ?_, ?_, hnum, ?_⟩
    · simp only [DirectRequest.call]
      cases hl : req.resolvedLabel with
      | none => rfl
      | some x => exact varcharFits_some.mpr (hlabel x hl)
    · intro e he
      obtain ⟨eu, -, rfl⟩ := Option.map_eq_some_iff.mp he
      exact varcharFits_some.mpr eu.model.upstreamModel.2
    · intro e he
      obtain ⟨eu, -, rfl⟩ := Option.map_eq_some_iff.mp he
      simp only [EmbeddingUsage.call]
      cases eu.status <;> decide
    · intro e he
      obtain ⟨eu, heu, rfl⟩ := Option.map_eq_some_iff.mp he
      exact hclassifier eu heu
    · intro e he
      obtain ⟨eu, heu, rfl⟩ := Option.map_eq_some_iff.mp he
      exact hnum' eu heu

/-- A chat model that costs 10 000 000 micro-cents for 1000 prompt tokens. -/
def modelNine : Model :=
  ⟨9, ⟨str "gpt", by decide⟩, ⟨str "gpt-up", by decide⟩, str "chat", 10000000, 0, true⟩

/-- User 1 with 100 cents and a subscription, and that model. -/
def relayPg : Pg := { oneSubPg 100 30 with models := .single modelNine }

/-- A request for that model with the given header. -/
def relayRequest (header : Option Str) : DirectRequest where
  user := userOne 100
  apiKey := keyThree
  header := header
  fresh := ⟨str "0123456789abcdef", length_hexDigits⟩
  userFacingModel := ⟨str "fast", by decide⟩
  model := modelNine
  embeddingUsage := none
  resolvedLabel := none
  latencyMs := 5

theorem loaded_relayRequest (header : Option Str) : (relayRequest header).Loaded relayPg :=
  ⟨rfl, rfl, rfl, by simp [relayRequest]⟩

theorem billDirect_commits_short :
    (billDirect (relayRequest (some (str "abc"))) 40 0 0 0 relayPg).isSome :=
  (billDirect_commits_iff (loaded_relayRequest _) 40 0 0 0).mpr
    ⟨by decide, by simp [relayRequest], by decide, by simp [relayRequest], by decide,
      by simp [relayRequest]⟩

/-- A header of 65 characters: the request is not billed. -/
theorem billDirect_long_header :
    (∀ x ∈ (relayRequest (some (List.replicate 65 97))).header, x.length = 65) ∧
      billDirect (relayRequest (some (List.replicate 65 97))) 40 0 0 0 relayPg = none := by
  decide

end Llmxy
