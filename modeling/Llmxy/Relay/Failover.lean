import Llmxy.Providers.Adapters
import Llmxy.Relay.Stream

/-!
# Failing over to the next upstream

The chat endpoint tries the candidates of a route in turn.  For a completion it asks an
upstream and goes on to the next one unless the answer is a success.  For a stream it goes on
only when a request cannot be made at all: the result that an adapter returns for a stream has
status 200 before the upstream has been asked.

Whose upstream answers what is arbitrary here: `ask i` is the upstream of the candidate at
position `i`.

## Main definitions

* `Candidate` — a model and its channel.
* `streamer`, `completer` — the two loops, with the candidate that they bill.
* `firstSuccess` — the first candidate whose upstream answers with success.
* `failsOverAlike_iff` — when both loops bill that one.
-/

namespace Llmxy

/-- A model with its channel.  The columns that a request is billed by are in `rates`. -/
structure Candidate where
  model : Admin.Model
  channel : Admin.Channel
  rates : Model
  rates_id : rates.id = model.id
  rates_upstreamModel : rates.upstreamModel.1 = model.upstreamModel

namespace Candidate
variable (c : Candidate)

def connector : Str := resolveConnectorType c.model.toModelIn c.channel.toChannelIn

def protocol : Str := resolveUpstreamProtocol c.model.toModelIn c.channel.toChannelIn

/-- The adapter of a candidate whose connector supports its protocol. -/
def adapter? : Option ProviderAdapter :=
  (getConnectorAdapter c.connector).filter fun _ =>
    connectorSupportsProtocol (some c.connector) (some c.protocol)

def target : UpstreamTarget := ⟨c.channel.id, c.model.upstreamModel⟩

variable (env : Surroundings) (ask : Ask) (payload : List (Str × Json))
  (learned : TokenLimitFields)

/-- The requests for a completion, and the reply that it is read off. -/
def exchange : Option ((UpstreamEndpoint × Reply) × TokenLimitFields) :=
  c.adapter?.bind fun adapter => adapter.exchange env ask c.target c.protocol payload learned

/-- `run_chat` for a completion. -/
def complete : Option ChatResult × TokenLimitFields :=
  match c.adapter? with
  | some adapter => adapter.complete env ask c.target c.protocol payload learned
  | none => (none, learned)

/-- `run_chat` for a stream. -/
def stream : Option ChatResult :=
  c.adapter?.bind fun adapter => adapter.stream env ask c.target c.protocol payload learned

end Candidate

/-! ### The loops -/

/-- The candidate that a request is billed for, and its counts.  The billing itself may still
raise. -/
structure Served where
  candidate : Candidate
  position : ℕ
  counts : Counts

section
variable (env : Surroundings) (ask : ℕ → Ask) (payload : List (Str × Json))

/-- The loop of a streamed request.  `none` when every candidate fails, and when a stream
raises. -/
def streamer (learned : TokenLimitFields) : List (Candidate × ℕ) → Option Served
  | [] => none
  | (c, i) :: rest =>
      match c.stream env (ask i) payload learned with
      | none => streamer learned rest
      | some result =>
          match result.stream with
          | some chunks =>
              if result.status = 200 then
                (chunks.bind (StreamLoop.direct.accumulate zeroCounts)).map (Served.mk c i)
              else streamer learned rest
          | none => streamer learned rest

/-- The loop of a request for a completion. -/
def completer : TokenLimitFields → List (Candidate × ℕ) → Option Served
  | _, [] => none
  | learned, (c, i) :: rest =>
      match c.complete env (ask i) payload learned with
      | (none, learned) => completer learned rest
      | (some result, learned) =>
          if result.status = 200 ∧ result.body.any Json.truthy = true then
            some ⟨c, i, result.promptTokens, result.completionTokens⟩
          else completer learned rest

/-! ### Upstreams that answer with success -/

/-- The reply has status 200, and the adapter reads a completion off it. -/
def Candidate.isSuccess (c : Candidate) (answer : UpstreamEndpoint × Reply) : Bool :=
  answer.2.status = 200 &&
    ((ProviderAdapter.readReply env c.target answer.2 answer.1).bind ChatResult.body).any
      Json.truthy

/-- The position of the first candidate whose upstream answers with success.  What one upstream
teaches about the name of the token limit is known to those after it. -/
def firstSuccess : TokenLimitFields → List (Candidate × ℕ) → Option ℕ
  | _, [] => none
  | learned, (c, i) :: rest =>
      match c.exchange env (ask i) payload learned with
      | none => firstSuccess learned rest
      | some (answer, learned) =>
          if c.isSuccess env answer then some i else firstSuccess learned rest

end

/-- The database after a request: the billing of the candidate that served it. -/
def afterServing (req : DirectRequest) (now later : ℤ) (pg : Pg) : Option Served → Pg
  | none => pg
  | some s =>
      ((StreamRequest.direct { req with model := s.candidate.rates }).bill s.counts now later
        pg).getD pg

/-- **Both modes fail over alike**: each bills the first candidate whose upstream answers with
success, and none when there is none. -/
structure FailsOverAlike (env : Surroundings) (ask : ℕ → Ask) (payload : List (Str × Json))
    (learned : TokenLimitFields) (candidates : List Candidate) (req : DirectRequest)
    (now later : ℤ) (pg : Pg) : Prop where
  streamed : (streamer env ask payload learned candidates.zipIdx).map Served.position =
    firstSuccess env ask payload learned candidates.zipIdx
  completed : (completer env ask payload learned candidates.zipIdx).map Served.position =
    firstSuccess env ask payload learned candidates.zipIdx
  unbilled : firstSuccess env ask payload learned candidates.zipIdx = none →
    afterServing req now later pg (streamer env ask payload learned candidates.zipIdx) = pg ∧
      afterServing req now later pg (completer env ask payload learned candidates.zipIdx) = pg

/-! ### Requests that can be made -/

namespace ProviderAdapter

/-- A streamed request can be made of the payload. -/
def streamable (env : Surroundings) (adapter : ProviderAdapter) (protocol : Str)
    (payload : List (Str × Json)) : Bool :=
  if speaksResponses adapter protocol then
    (openaiChatToResponsesPayload env.repr (.obj payload)).isSome
  else
    match adapter with
    | .openai | .azureOpenai => streamOptionsRead (.obj payload)
    | .anthropic => (AnthropicAdapter.toAnthropic (.obj payload)).isSome
    | .gemini => (GeminiAdapter.toGemini (.obj payload)).isSome

variable {env : Surroundings} {ask : Ask} {target : UpstreamTarget} {adapter : ProviderAdapter}
  {protocol : Str} {payload : List (Str × Json)} {learned : TokenLimitFields}

theorem isSome_stream :
    (stream env ask target adapter protocol payload learned).isSome =
      streamable env adapter protocol payload := by
  rw [stream.eq_def, streamable.eq_def]
  split
  · exact Option.isSome_map
  · cases adapter with
    | openai => dsimp only; split <;> simp [*]
    | azureOpenai => dsimp only; split <;> simp [*]
    | anthropic => exact Option.isSome_map
    | gemini => exact Option.isSome_map

/-- A result for a stream has status 200, whatever the upstream will answer. -/
theorem stream_ok {result : ChatResult}
    (h : stream env ask target adapter protocol payload learned = some result) :
    result.status = 200 ∧ ∃ chunks, result.stream = some chunks := by
  rw [stream.eq_def] at h
  split at h
  · obtain ⟨body, -, rfl⟩ := Option.map_eq_some_iff.mp h
    exact ⟨rfl, _, rfl⟩
  · cases adapter with
    | openai =>
        dsimp only at h
        split at h
        · cases h
          exact ⟨rfl, _, rfl⟩
        · cases h
    | azureOpenai =>
        dsimp only at h
        split at h
        · cases h
          exact ⟨rfl, _, rfl⟩
        · cases h
    | anthropic =>
        obtain ⟨body, -, rfl⟩ := Option.map_eq_some_iff.mp h
        exact ⟨rfl, _, rfl⟩
    | gemini =>
        obtain ⟨body, -, rfl⟩ := Option.map_eq_some_iff.mp h
        exact ⟨rfl, _, rfl⟩

/-- A reply of 200 that was converted keeps its status. -/
theorem converted_status {out : Option Json} {result : ChatResult}
    (h : (do
      let out ← out
      let usage ← (fieldOf (str "usage") out).fields?
      return completion 200 out usage) = some result) : result.status = 200 := by
  obtain ⟨out, -, h⟩ := Option.bind_eq_some_iff.mp h
  obtain ⟨usage, -, h⟩ := Option.bind_eq_some_iff.mp h
  cases h
  rfl

theorem convertedReply_status {toOpenai : Json → Option Json} {r : Reply} {result : ChatResult}
    (h : convertedReply toOpenai r = some result) : result.status = r.status := by
  rw [convertedReply] at h
  split at h
  · cases h
    rfl
  · split at h
    next => cases h; rfl
    next hok => exact (converted_status h).trans (not_not.mp hok).symm

/-- An adapter passes the status of the upstream on. -/
theorem readReply_status {r : Reply} {endpoint : UpstreamEndpoint} {result : ChatResult}
    (h : readReply env target r endpoint = some result) : result.status = r.status := by
  cases endpoint with
  | chatCompletions =>
      obtain ⟨fields, -, h⟩ := Option.bind_eq_some_iff.mp h
      obtain ⟨usage, -, h⟩ := Option.bind_eq_some_iff.mp h
      cases h
      rfl
  | responses =>
      rw [readReply] at h
      split at h
      next => cases h; rfl
      next hok => exact (converted_status h).trans (not_not.mp hok).symm
  | messages => exact convertedReply_status h
  | generateContent => exact convertedReply_status h

end ProviderAdapter

section
variable (env : Surroundings) (payload : List (Str × Json))

/-- A streamed request can be made for the candidate. -/
def Candidate.streamable (c : Candidate) : Bool :=
  c.adapter?.any fun adapter => adapter.streamable env c.protocol payload

/-- The first candidate that a streamed request can be made for. -/
def firstStreamable (candidates : List (Candidate × ℕ)) : Option (Candidate × ℕ) :=
  candidates.find? fun p => p.1.streamable env payload

/-- The counts that are read off what the candidate's upstream answers to a streamed request,
be it a success or an error.  `none` when reading it raises. -/
def Candidate.streamCounts (c : Candidate) (ask : Ask) (learned : TokenLimitFields) :
    Option Counts :=
  (((c.stream env ask payload learned).bind ChatResult.stream).bind id).bind
    (StreamLoop.direct.accumulate zeroCounts)

/-- The first candidate that a streamed request can be made for is the first one whose upstream
answers with success, and its stream is read to its end.  Or no upstream answers with success,
and reading what that candidate's upstream answers raises, if there is one. -/
def FirstDecides (ask : ℕ → Ask) (learned : TokenLimitFields) (candidates : List Candidate) :
    Prop :=
  match firstStreamable env payload candidates.zipIdx with
  | some (c, i) =>
      firstSuccess env ask payload learned candidates.zipIdx =
        if (c.streamCounts env payload (ask i) learned).isSome then some i else none
  | none => firstSuccess env ask payload learned candidates.zipIdx = none

end

section
variable {env : Surroundings} {ask : ℕ → Ask} {payload : List (Str × Json)}
  {learned : TokenLimitFields} {candidates : List Candidate}

theorem Candidate.isSome_stream (c : Candidate) (ask : Ask) :
    (c.stream env ask payload learned).isSome = c.streamable env payload := by
  rw [Candidate.stream, Candidate.streamable]
  cases c.adapter? with
  | none => rfl
  | some adapter => exact ProviderAdapter.isSome_stream

/-- The loop of a streamed request stays with the first candidate that a request can be made
for. -/
theorem streamer_eq (l : List (Candidate × ℕ)) :
    streamer env ask payload learned l = (firstStreamable env payload l).bind fun p =>
      (p.1.streamCounts env payload (ask p.2) learned).map (Served.mk p.1 p.2) := by
  induction l with
  | nil => rfl
  | cons p rest ih =>
      obtain ⟨c, i⟩ := p
      have hsome : (c.stream env (ask i) payload learned).isSome = c.streamable env payload :=
        c.isSome_stream (ask i)
      rw [streamer, firstStreamable, List.find?_cons]
      cases hstream : c.stream env (ask i) payload learned with
      | none =>
          rw [hstream] at hsome
          simp only [← hsome, Option.isSome_none]
          exact ih
      | some result =>
          rw [hstream] at hsome
          obtain ⟨adapter, -, hadapter⟩ := Option.bind_eq_some_iff.mp hstream
          obtain ⟨hstatus, chunks, hchunks⟩ := ProviderAdapter.stream_ok hadapter
          simp only [← hsome, Option.isSome_some, Option.bind_some, Candidate.streamCounts,
            hstream, hchunks, hstatus, if_true]
          rfl

theorem Candidate.complete_eq (c : Candidate) (ask : Ask) :
    c.complete env ask payload learned =
      match c.exchange env ask payload learned with
      | some ((endpoint, r), learned) =>
          (ProviderAdapter.readReply env c.target r endpoint, learned)
      | none => (none, learned) := by
  rw [Candidate.complete, Candidate.exchange]
  cases c.adapter? with
  | none => rfl
  | some adapter => rfl

/-- The loop of a request for a completion goes on to the first success. -/
theorem completer_position (l : List (Candidate × ℕ)) (learned : TokenLimitFields) :
    (completer env ask payload learned l).map Served.position =
      firstSuccess env ask payload learned l := by
  induction l generalizing learned with
  | nil => rfl
  | cons p rest ih =>
      obtain ⟨c, i⟩ := p
      rw [completer, firstSuccess, c.complete_eq]
      cases c.exchange env (ask i) payload learned with
      | none => exact ih learned
      | some answered =>
          obtain ⟨⟨endpoint, r⟩, learned'⟩ := answered
          simp only [Candidate.isSuccess]
          obtain hread | ⟨result, hread⟩ :=
            Option.eq_none_or_eq_some (ProviderAdapter.readReply env c.target r endpoint)
          · simp only [hread, Option.bind_none, Option.any_none, Bool.and_false]
            exact ih learned'
          · have hstatus := ProviderAdapter.readReply_status hread
            simp only [hread, Option.bind_some, Bool.and_eq_true, decide_eq_true_eq, hstatus]
            split
            · rfl
            · exact ih learned'

/-- **Failing over alike** comes down to the first candidate that a streamed request can be made
for: a stream never goes on to the next one. -/
theorem failsOverAlike_iff (req : DirectRequest) (now later : ℤ) (pg : Pg) :
    FailsOverAlike env ask payload learned candidates req now later pg ↔
      FirstDecides env payload ask learned candidates := by
  have hposition : (streamer env ask payload learned candidates.zipIdx).map Served.position =
      firstSuccess env ask payload learned candidates.zipIdx ↔
        FirstDecides env payload ask learned candidates := by
    rw [streamer_eq, FirstDecides]
    cases firstStreamable env payload candidates.zipIdx with
    | none => exact eq_comm
    | some p =>
        simp only [Option.bind_some, Option.map_map]
        cases p.1.streamCounts env payload (ask p.2) learned with
        | none => exact eq_comm
        | some counts => exact eq_comm
  constructor
  · exact fun h => hposition.mp h.streamed
  · intro h
    have hstreamed := hposition.mpr h
    refine ⟨hstreamed, completer_position _ _, fun hnone => ?_⟩
    have hcompleted := (completer_position candidates.zipIdx learned).trans hnone
    rw [hnone] at hstreamed
    rw [Option.map_eq_none_iff.mp hstreamed, Option.map_eq_none_iff.mp hcompleted]
    exact ⟨rfl, rfl⟩

/-- The request of a candidate that serves is billed. -/
theorem served_billed {req : DirectRequest} {now later : ℤ} {pg : Pg} {s : Served}
    (hreq : (StreamRequest.direct { req with model := s.candidate.rates }).Loaded pg)
    (hfit : StreamRowsFit (.direct { req with model := s.candidate.rates }) s.counts now later pg) :
    StreamBilled (.direct { req with model := s.candidate.rates }) s.counts pg
      (afterServing req now later pg (some s)) := by
  obtain ⟨p, c, call, cls, sess, hcounts, hcall, hcls, hsess, hrows⟩ := hfit
  have hbillable := StreamRequest.billable hreq hcall hcls hsess
  obtain ⟨after, hafter⟩ := Option.isSome_iff_exists.mp
    ((billRelay_isSome_iff hbillable now later).mpr hrows)
  refine ⟨p, c, call, sess, hcounts, hcall, hsess, ?_⟩
  rw [afterServing, StreamRequest.bill_eq hcounts hcall hsess, hcls, Option.bind_some, hafter]
  exact billRelay_billed hbillable hafter

end

/-! ### An upstream that fails -/

/-- A chat model of OpenAI. -/
def openaiCandidate (id : ℤ) : Candidate where
  model := { code := str "m", channelId := id, upstreamModel := modelNine.upstreamModel.1, id := id }
  channel := { baseUrl := str "https://api.openai.com/v1", id := id }
  rates := { modelNine with id := id }
  rates_id := rfl
  rates_upstreamModel := rfl

def noSurroundings : Surroundings :=
  ⟨str "1", 0, fun _ => plainChat, fun _ _ => none, fun _ => [], noFloats⟩

def greetingPayload : List (Str × Json) :=
  [(str "model", .str (str "fast")),
    (str "messages", .arr [chatMessage (.str (str "user")) (.str (str "Hi"))])]

/-- The first upstream answers 500, the second one with a completion. -/
def secondSucceeds : ℕ → Ask
  | 0, _ => ⟨500, some (errorBody (str "overloaded")), [], [ascii "overloaded"], [str "overloaded"]⟩
  | _, _ => ⟨200, some (.obj [(str "usage", .obj [(str "prompt_tokens", .int 5)])]), [],
      [usageStream], []⟩

/-- The stream stays with the first upstream, which is billed for its error. -/
theorem stream_bills_failed :
    ¬ FailsOverAlike noSurroundings secondSucceeds greetingPayload (fun _ => none)
      [openaiCandidate 9, openaiCandidate 10] (relayRequest none) 0 0 relayPg := by
  intro h
  have hstreamed := h.streamed
  revert hstreamed
  decide +kernel

end Llmxy
