import Llmxy.Relay.Commit
import Llmxy.Relay.Usage

/-!
# Delivering a stream and billing it

A streaming endpoint is a generator: it reads the upstream chunk by chunk, yields
events to the client, and bills once the upstream is exhausted.  When the client goes
away the generator is closed at the yield it stands at, and the billing, which comes
after the loop, never runs.  The same happens when the upstream or the handling of a
chunk raises.

The six endpoints differ in what they do with a chunk (`StreamHandler`) and in how they
bill (`StreamRequest`: a direct endpoint or the translator).  The protocol converters
of the responses and messages endpoints are arguments.

## Main definitions

* `StreamHandler` — what an endpoint does with the upstream, `StreamHandler.deliver`.
* `chatHandler`, `responsesHandler`, `messagesHandler` — the endpoints.
* `StreamRequest.bill`, `streamAndBill` — the generator with its billing.
* `stream_billed_iff`, `responses_billed_iff` — when a stream is billed.
-/

namespace Llmxy

/-- What an endpoint does with the chunks of the upstream, in a state `σ`, yielding
events `ε`.  An answer of `none` in place of the next state is an exception after the
events. -/
structure StreamHandler (σ ε : Type) where
  receive : σ → Bytes → List ε × Option σ
  /-- After the last chunk. -/
  finish : σ → List ε × Option σ
  /-- The usage accumulated so far. -/
  counts : σ → Counts

/-- The chunks of the upstream, and whether it raises after them. -/
structure Upstream where
  chunks : List Bytes
  fails : Bool

/-- How far a generator came. -/
structure Delivery (σ ε : Type) where
  /-- The events the client got. -/
  sent : List ε
  state : σ
  /-- The loop was left at its end. -/
  completed : Bool

variable {σ ε : Type}

/-- Yield events one after the other.  The generator is closed at the yield number
`cut`, counted from the start of the stream.  Answers what was sent, and whether the
generator is still running. -/
def yieldAll (cut : Option ℕ) : List ε → List ε → List ε × Bool
  | [], sent => (sent, true)
  | e :: es, sent =>
      if cut = some sent.length then (sent ++ [e], false) else yieldAll cut es (sent ++ [e])

namespace StreamHandler

/-- Yield the events of a step and move to its state.  `none` when the generator stops
here. -/
def emit (cut : Option ℕ) (step : List ε × Option σ) (sent : List ε) : List ε × Option σ :=
  let y := yieldAll cut step.1 sent
  (y.1, if y.2 then step.2 else none)

/-- Run the generator up to the billing. -/
def deliver (h : StreamHandler σ ε) (cut : Option ℕ) (fails : Bool) :
    List Bytes → List ε → σ → Delivery σ ε
  | [], sent, s =>
      if fails then ⟨sent, s, false⟩
      else
        let r := emit cut (h.finish s) sent
        ⟨r.1, r.2.getD s, r.2.isSome⟩
  | chunk :: chunks, sent, s =>
      let step := h.receive s chunk
      let r := emit cut step sent
      match r.2 with
      | some s => h.deliver cut fails chunks r.1 s
      | none => ⟨r.1, step.2.getD s, false⟩

/-- The events of a stream that nobody interrupts. -/
def events (h : StreamHandler σ ε) : List Bytes → σ → List ε
  | [], s => (h.finish s).1
  | chunk :: chunks, s =>
      (h.receive s chunk).1 ++ ((h.receive s chunk).2.map (h.events chunks)).getD []

/-- The state after all chunks.  `none` when handling one of them raises. -/
def final (h : StreamHandler σ ε) : List Bytes → σ → Option σ
  | [], s => (h.finish s).2
  | chunk :: chunks, s => (h.receive s chunk).2.bind (h.final chunks)

end StreamHandler

/-! ### The endpoints -/

/-- The chat endpoints forward each chunk as it is. -/
def chatHandler (loop : StreamLoop) : StreamHandler Counts Bytes where
  receive counts chunk :=
    match loop.receive counts chunk with
    | some counts => ([chunk], some counts)
    | none => ([], none)
  finish counts := ([], some counts)
  counts := id

/-- A protocol converter: what it yields for a chunk and at the end. -/
structure Converter (σ ε : Type) where
  feed : σ → Bytes → List ε × Option σ
  finish : σ → List ε × Option σ

/-- The converter after all chunks.  `none` when it raises. -/
def Converter.final (conv : Converter σ ε) : List Bytes → σ → Option σ
  | [], s => (conv.finish s).2
  | chunk :: chunks, s => (conv.feed s chunk).2.bind (conv.final chunks)

/-- The responses endpoints convert the chunks after reading their usage. -/
def responsesHandler (conv : Converter σ ε) : StreamHandler (Counts × σ) ε where
  receive s chunk :=
    match StreamLoop.translated.receive s.1 chunk with
    | some counts => ((conv.feed s.2 chunk).1, (conv.feed s.2 chunk).2.map fun t => (counts, t))
    | none => ([], none)
  finish s := ((conv.finish s.2).1, (conv.finish s.2).2.map fun t => (s.1, t))
  counts := Prod.fst

/-- The messages endpoints keep the usage in the converter, which reads it too. -/
def messagesHandler (conv : Converter (Counts × σ) ε) : StreamHandler (Counts × σ) ε where
  receive s chunk :=
    match StreamLoop.translated.receive s.1 chunk with
    | some counts => conv.feed (counts, s.2) chunk
    | none => ([], none)
  finish := conv.finish
  counts := Prod.fst

/-! ### Billing at the end -/

/-- An integer column takes an integer or a truth value. -/
def Json.column? : Json → Option ℤ
  | .int n => some n
  | .bool b => some (if b then 1 else 0)
  | _ => none

/-- The counts as the columns of the log take them. -/
def Counts.columns? (counts : Counts) : Option (ℤ × ℤ) := do
  some (← counts.1.column?, ← counts.2.column?)

/-- A streamed request of either transport. -/
inductive StreamRequest where
  | direct (req : DirectRequest)
  | translated (req : TranslatedRequest)

namespace StreamRequest

/-- The request as it is billed, for a user and a model that are known. -/
def call : StreamRequest → ℤ → ℤ → Option RelayCall
  | .direct req, p, c => some (req.call p c)
  | .translated req, p, c => req.user.bind fun _ => req.model.map fun m => req.call m p c

/-- The classifier call to bill, `none` when reading it raises. -/
def classifier (pg : Pg) : StreamRequest → Option (Option ClassifierCall)
  | .direct req => some (req.embeddingUsage.map EmbeddingUsage.call)
  | .translated req => classifierFromHeaders pg req.headers

/-- The session of the billing. -/
def session (pg : Pg) : StreamRequest → Option Sess
  | .direct req => some (.start pg req.user (some req.apiKey))
  | .translated req => req.user.map fun u => .start pg u req.apiKey

/-- The billing of counts.  Counts that are no integers raise. -/
def bill (req : StreamRequest) (counts : Counts) (now later : ℤ) (pg : Pg) : Option Pg :=
  counts.columns?.bind fun n =>
    match req with
    | .direct req => billDirect req n.1 n.2 now later pg
    | .translated req => billChatRelay req n.1 n.2 now later pg

/-- The rows that a request has loaded are in the database. -/
def Loaded (pg : Pg) : StreamRequest → Prop
  | .direct req => req.Loaded pg
  | .translated req =>
      (∀ u ∈ req.user, pg.users.get? u.id = some u) ∧
        (∀ k ∈ req.apiKey, pg.apiKeys.get? k.id = some k) ∧
        ∀ m ∈ req.model, pg.models.get? m.id = some m

end StreamRequest

/-- The generator with its billing.  Answers how far it came and the database
afterwards. -/
def streamAndBill (h : StreamHandler σ ε) (req : StreamRequest) (up : Upstream) (cut : Option ℕ)
    (s₀ : σ) (now later : ℤ) (pg : Pg) : Delivery σ ε × Pg :=
  let d := h.deliver cut up.fails up.chunks [] s₀
  (d, if d.completed then (req.bill (h.counts d.state) now later pg).getD pg else pg)

/-! ### How far the generator comes -/

/-- Events before the cut are all sent. -/
theorem yieldAll_of_le {cut : Option ℕ} {es sent : List ε}
    (h : ∀ n ∈ cut, sent.length + es.length ≤ n) : yieldAll cut es sent = (sent ++ es, true) := by
  induction es generalizing sent with
  | nil => simp [yieldAll]
  | cons e es ih =>
      have hne : cut ≠ some sent.length := fun heq => by
        have := h _ heq
        simp only [List.length_cons] at this
        omega
      rw [yieldAll, if_neg hne, ih]
      · simp
      · intro n hn
        have := h n hn
        simp only [List.length_append, List.length_cons, List.length_nil] at this ⊢
        omega

/-- A cut among the events closes the generator. -/
theorem yieldAll_of_lt {n : ℕ} {es sent : List ε} (hle : sent.length ≤ n)
    (hlt : n < sent.length + es.length) : (yieldAll (some n) es sent).2 = false := by
  induction es generalizing sent with
  | nil =>
      simp only [List.length_nil] at hlt
      omega
  | cons e es ih =>
      rw [yieldAll]
      split_ifs with h
      · rfl
      · have hne : n ≠ sent.length := fun heq => h (by rw [heq])
        refine ih ?_ ?_ <;> simp only [List.length_append, List.length_cons, List.length_nil] at *
        · omega
        · omega

namespace StreamHandler

/-- A step is completed when it does not raise and the cut comes after its events. -/
theorem emit_eq_some {cut : Option ℕ} {step : List ε × Option σ} {sent : List ε} {t : σ}
    (hcut : ∀ n ∈ cut, sent.length ≤ n) :
    (emit cut step sent).2 = some t ↔
      step.2 = some t ∧ ∀ n ∈ cut, sent.length + step.1.length ≤ n := by
  by_cases h : ∀ n ∈ cut, sent.length + step.1.length ≤ n
  · simp only [emit, yieldAll_of_le h, if_true]
    exact ⟨fun ht => ⟨ht, h⟩, And.left⟩
  · push Not at h
    obtain ⟨n, rfl, hn⟩ := h
    simp only [emit, yieldAll_of_lt (hcut n rfl) hn]
    refine ⟨fun ht => by simp at ht, fun ht => ?_⟩
    have := ht.2 n rfl
    omega

theorem emit_sent {cut : Option ℕ} {step : List ε × Option σ} {sent : List ε}
    (h : ∀ n ∈ cut, sent.length + step.1.length ≤ n) : (emit cut step sent).1 = sent ++ step.1 := by
  simp only [emit, yieldAll_of_le h]

/-- **How far a generator comes**: to its end, exactly when the upstream does not fail,
no chunk raises, and the client stays for every event. -/
theorem deliver_completed_iff (h : StreamHandler σ ε) {cut : Option ℕ} {fails : Bool}
    {chunks : List Bytes} {sent : List ε} {s t : σ} (hcut : ∀ n ∈ cut, sent.length ≤ n) :
    (h.deliver cut fails chunks sent s).completed = true ∧
        (h.deliver cut fails chunks sent s).state = t ↔
      fails = false ∧ h.final chunks s = some t ∧
        ∀ n ∈ cut, sent.length + (h.events chunks s).length ≤ n := by
  induction chunks generalizing sent s with
  | nil =>
      cases fails with
      | true => simp [deliver]
      | false =>
          simp only [deliver, Bool.false_eq_true, if_false, final, events, true_and]
          rw [← emit_eq_some hcut, Option.isSome_iff_exists]
          constructor
          · rintro ⟨⟨t', ht'⟩, rfl⟩
            rw [ht']
            rfl
          · intro ht
            exact ⟨⟨t, ht⟩, by rw [ht]; rfl⟩
  | cons chunk chunks ih =>
      simp only [deliver, final, events]
      cases hr : (emit cut (h.receive s chunk) sent).2 with
      | none =>
          -- the generator stops at this chunk
          simp only [Bool.false_eq_true, false_and, false_iff, not_and]
          intro _ ht hn
          obtain ⟨s', hs', ht'⟩ := Option.bind_eq_some_iff.mp ht
          have hsome := (emit_eq_some (t := s') hcut).mpr ⟨hs', fun n hmem => by
            have := hn n hmem
            rw [List.length_append] at this
            omega⟩
          rw [hr] at hsome
          cases hsome
      | some s' =>
          obtain ⟨hs', hle⟩ := (emit_eq_some hcut).mp hr
          have hsent := emit_sent hle
          rw [ih (by rw [hsent]; simpa using hle), hsent, hs']
          simp [Nat.add_assoc]

end StreamHandler

/-! ### What is billed -/

namespace StreamRequest
variable {req : StreamRequest} {pg : Pg} {counts : Counts} {p c : ℤ} {call : RelayCall} {s : Sess}

theorem session_pg (h : req.session pg = some s) : s.pg = pg := by
  cases req with
  | direct req => cases h; rfl
  | translated req => obtain ⟨u, -, rfl⟩ := Option.map_eq_some_iff.mp h; rfl

/-- The billing of a request that names a user and a model. -/
theorem bill_eq (hcounts : counts.columns? = some (p, c)) (hcall : req.call p c = some call)
    (hs : req.session pg = some s) (now later : ℤ) :
    req.bill counts now later pg =
      (req.classifier pg).bind fun cls => billRelay call cls now later s := by
  cases req with
  | direct req =>
      cases hcall
      cases hs
      simp [bill, hcounts, classifier, billDirect]
  | translated req =>
      obtain ⟨u, hu, hcall⟩ := Option.bind_eq_some_iff.mp hcall
      obtain ⟨m, hmodel, rfl⟩ := Option.map_eq_some_iff.mp hcall
      simp only [session, hu, Option.map_some, Option.some.injEq] at hs
      subst hs
      simp [bill, hcounts, classifier, billChatRelay, hu, hmodel]

theorem model_classifierFromHeaders {h : TranslatorHeaders} {e : ClassifierCall}
    (he : classifierFromHeaders pg h = some (some e)) :
    pg.models.refers (some e.model.id) = true := by
  unfold classifierFromHeaders at he
  split at he
  · split_ifs at he
    · obtain ⟨id, -, he⟩ := Option.bind_eq_some_iff.mp he
      split_ifs at he
      cases hm : pg.models.get? id with
      | none => simp [hm] at he
      | some m =>
          simp only [hm, Option.bind_eq_bind, Option.bind_eq_some_iff, Option.some.injEq] at he
          obtain ⟨_, -, _, -, rfl⟩ := he
          have hid : m.id = id := (Table.get?_eq_some.mp hm).2
          exact Table.refers_of_get? (r := m) (by rw [hid]; exact hm)
    · cases he
  · cases he

/-- Requests whose rows are in the database can be billed. -/
theorem billable {cls : Option ClassifierCall} (hreq : req.Loaded pg)
    (hcall : req.call p c = some call) (hcls : req.classifier pg = some cls)
    (hs : req.session pg = some s) : Billable call cls s := by
  cases req with
  | direct req =>
      cases hcall
      cases hcls
      cases hs
      exact DirectRequest.Loaded.billable hreq p c
  | translated req =>
      obtain ⟨huser, hkey, hmodels⟩ := hreq
      obtain ⟨u, hu, hcall⟩ := Option.bind_eq_some_iff.mp hcall
      obtain ⟨m, hmodel, rfl⟩ := Option.map_eq_some_iff.mp hcall
      simp only [session, hu, Option.map_some, Option.some.injEq] at hs
      subst hs
      refine ⟨Sess.clean_start _ _ _, rfl, rfl, Table.refers_of_get? (huser u hu), ?_,
        Table.refers_of_get? (hmodels m hmodel), ?_⟩
      · cases hk : req.apiKey with
        | none => rfl
        | some k => exact Table.refers_of_get? (hkey k hk)
      · rintro e rfl
        exact model_classifierFromHeaders hcls

end StreamRequest

/-- **A stream is billed**: the counts are numbers, the request names who pays for what,
and the call with these counts is billed. -/
def StreamBilled (req : StreamRequest) (counts : Counts) (pg after : Pg) : Prop :=
  ∃ p c call s, counts.columns? = some (p, c) ∧ req.call p c = some call ∧
    req.session pg = some s ∧ Billed call s after

/-- PostgreSQL accepts the rows of a stream with these counts. -/
def StreamRowsFit (req : StreamRequest) (counts : Counts) (now later : ℤ) (pg : Pg) : Prop :=
  ∃ p c call cls s, counts.columns? = some (p, c) ∧ req.call p c = some call ∧
    req.classifier pg = some cls ∧ req.session pg = some s ∧ RowsFit call cls now later s

/-- Nothing is billed when the database is as before. -/
theorem not_streamBilled_self (req : StreamRequest) (counts : Counts) (pg : Pg) :
    ¬ StreamBilled req counts pg pg := by
  rintro ⟨p, c, call, s, -, -, hs, ⟨rest, hlog, -⟩, -⟩
  rw [StreamRequest.session_pg hs] at hlog
  have := congrArg List.length hlog
  simp only [List.length_append, List.length_cons] at this
  omega

/-- A stream is billed exactly when its generator ran to the end and the rows fit. -/
theorem streamBilled_iff_completed (h : StreamHandler σ ε) {req : StreamRequest} {pg : Pg}
    (hreq : req.Loaded pg) (up : Upstream) (cut : Option ℕ) (s₀ : σ) (now later : ℤ) :
    StreamBilled req (h.counts (streamAndBill h req up cut s₀ now later pg).1.state) pg
        (streamAndBill h req up cut s₀ now later pg).2 ↔
      (streamAndBill h req up cut s₀ now later pg).1.completed = true ∧
        StreamRowsFit req (h.counts (streamAndBill h req up cut s₀ now later pg).1.state) now
          later pg := by
  simp only [streamAndBill]
  generalize h.deliver cut up.fails up.chunks [] s₀ = d
  constructor
  · intro hbilled
    have hcompleted : d.completed = true := by
      by_contra hnot
      rw [if_neg hnot] at hbilled
      exact not_streamBilled_self _ _ _ hbilled
    refine ⟨hcompleted, ?_⟩
    rw [if_pos hcompleted] at hbilled
    cases hb : req.bill (h.counts d.state) now later pg with
    | none =>
        rw [hb] at hbilled
        exact absurd hbilled (not_streamBilled_self _ _ _)
    | some after =>
        obtain ⟨p, c, call, s, hcounts, hcall, hs, -⟩ := hbilled
        rw [StreamRequest.bill_eq hcounts hcall hs] at hb
        obtain ⟨cls, hcls, hrelay⟩ := Option.bind_eq_some_iff.mp hb
        refine ⟨p, c, call, cls, s, hcounts, hcall, hcls, hs, ?_⟩
        exact (billRelay_isSome_iff (StreamRequest.billable hreq hcall hcls hs) now later).mp
          (by rw [hrelay]; rfl)
  · intro ⟨hcompleted, p, c, call, cls, s, hcounts, hcall, hcls, hs, hfit⟩
    have hbillable := StreamRequest.billable hreq hcall hcls hs
    obtain ⟨after, hafter⟩ := Option.isSome_iff_exists.mp
      ((billRelay_isSome_iff hbillable now later).mpr hfit)
    refine ⟨p, c, call, s, hcounts, hcall, hs, ?_⟩
    rw [if_pos hcompleted, StreamRequest.bill_eq hcounts hcall hs, hcls, Option.bind_some, hafter]
    exact billRelay_billed hbillable hafter

/-- How far the generator came, from the start of the stream. -/
theorem streamAndBill_completed_iff (h : StreamHandler σ ε) (req : StreamRequest) (up : Upstream)
    (cut : Option ℕ) (s₀ : σ) (now later : ℤ) (pg : Pg) {t : σ} :
    (streamAndBill h req up cut s₀ now later pg).1.completed = true ∧
        (streamAndBill h req up cut s₀ now later pg).1.state = t ↔
      up.fails = false ∧ h.final up.chunks s₀ = some t ∧
        ∀ n ∈ cut, (h.events up.chunks s₀).length ≤ n := by
  rw [streamAndBill, h.deliver_completed_iff (by simp), List.length_nil]
  simp only [Nat.zero_add]

/-- The responses endpoints count as the chat endpoints do, whatever the converter yields. -/
theorem final_responsesHandler (conv : Converter σ ε) (chunks : List Bytes) (counts : Counts)
    (s : σ) : (responsesHandler conv).final chunks (counts, s) =
      ((chatHandler .translated).final chunks counts).bind fun counts =>
        (conv.final chunks s).map fun t => (counts, t) := by
  induction chunks generalizing counts s with
  | nil => rfl
  | cons chunk chunks ih =>
      simp only [StreamHandler.final, Converter.final, responsesHandler, chatHandler] at ih ⊢
      cases StreamLoop.translated.receive counts chunk with
      | none => rfl
      | some counts' =>
          cases (conv.feed s chunk).2 with
          | none => simp
          | some t => simpa using ih counts' t

/-- **A responses stream is billed** for what the chat endpoints would count, exactly when the
upstream did not fail, neither the counting nor the converter raised, the client stayed for
every event and the rows fit. -/
theorem responses_billed_iff (conv : Converter σ ε) {req : StreamRequest} {pg : Pg}
    (hreq : req.Loaded pg) (up : Upstream) (cut : Option ℕ) (s₀ : σ) (now later : ℤ) :
    StreamBilled req (streamAndBill (responsesHandler conv) req up cut (zeroCounts, s₀) now later
        pg).1.state.1 pg
        (streamAndBill (responsesHandler conv) req up cut (zeroCounts, s₀) now later pg).2 ↔
      up.fails = false ∧
        (∀ n ∈ cut, ((responsesHandler conv).events up.chunks (zeroCounts, s₀)).length ≤ n) ∧
        (conv.final up.chunks s₀).isSome ∧
        ∃ counts, (chatHandler .translated).final up.chunks zeroCounts = some counts ∧
          StreamRowsFit req counts now later pg := by
  have hfinal := final_responsesHandler conv up.chunks zeroCounts s₀
  refine (streamBilled_iff_completed (responsesHandler conv) hreq up cut _ now later).trans ?_
  constructor
  · intro ⟨hcompleted, hfit⟩
    obtain ⟨hup, hstate, hstay⟩ := (streamAndBill_completed_iff _ req up cut _ now later pg).mp
      ⟨hcompleted, rfl⟩
    rw [hfinal] at hstate
    obtain ⟨counts, hcounts, hstate⟩ := Option.bind_eq_some_iff.mp hstate
    obtain ⟨t, ht, hstate⟩ := Option.map_eq_some_iff.mp hstate
    rw [← hstate] at hfit
    exact ⟨hup, hstay, by rw [ht]; rfl, counts, hcounts, hfit⟩
  · intro ⟨hup, hstay, hconv, counts, hcounts, hfit⟩
    obtain ⟨t, ht⟩ := Option.isSome_iff_exists.mp hconv
    rw [hcounts, ht] at hfinal
    obtain ⟨hcompleted, hstate⟩ :=
      (streamAndBill_completed_iff _ req up cut _ now later pg).mpr ⟨hup, hfinal, hstay⟩
    rw [hstate]
    exact ⟨hcompleted, hfit⟩

end Llmxy
