import Llmxy.Protocols.AnthropicStream
import Llmxy.Protocols.ChatShapes

/-!
# The events of an Anthropic stream

The endpoints feed the converter with the chunks of a stream and write its token counts from
outside, from the usage that they read off a chunk themselves.  Whatever they do in which
order, the events that come out make up one message: both events that open it come before the
first text, and the end carries what was set last.

## Main definitions

* `ConverterCall`, `AnthropicStream.call` — what the endpoints do with the converter.
* `ConverterInput`, `inputs` — what it reads by it.
* `anthropicEvents` — the events of a message.
* `events_of_calls` — those of any calls.
-/

namespace Llmxy

/-! ### Calls -/

/-- What the converter reads: an object of the stream, or a usage that its caller has read. -/
inductive ConverterInput where
  | object (obj : Json)
  | usage (u : Json)

/-- What a caller does with the converter. -/
inductive ConverterCall where
  | feed (chunk : Bytes)
  /-- `converter.prompt_tokens = int(usage.get("prompt_tokens") or …)`, and the same of the
  completion. -/
  | usage (u : Json)

/-- The counts are written from outside. -/
def AnthropicState.setUsage (s : AnthropicState) (u : Json) :
    Option (List SseEvent × AnthropicState) :=
  (translatedCounts u s.counts).map fun counts => ([], { s with counts })

/-- What is read, one after the other. -/
def AnthropicState.receive (float : Bool → ℕ → ℤ → Str) (s : AnthropicState) :
    ConverterInput → Option (List SseEvent × AnthropicState)
  | .object obj => s.feedObject float obj
  | .usage u => s.setUsage u

/-- What is done, one after the other. -/
def AnthropicStream.call (float : Bool → ℕ → ℤ → Str) (s : AnthropicStream) :
    ConverterCall → Option (List SseEvent × AnthropicStream)
  | .feed chunk => s.feed float chunk
  | .usage u => (s.state.setUsage u).map fun r => (r.1, { s with state := r.2 })

/-- The objects of a block. -/
def partObjects (part : Str) : List Json :=
  (splitlines part).filterMap fun line => (dataOf (strip line)).bind loads

/-- What is read by the calls, after the text in the buffer. -/
def inputs : Str → List ConverterCall → List ConverterInput
  | _, [] => []
  | buffer, .feed chunk :: calls =>
      let parts := splitBlank (buffer ++ decode chunk)
      (parts.1.flatMap partObjects).map .object ++ inputs parts.2 calls
  | buffer, .usage u :: calls => .usage u :: inputs buffer calls

/-! ### What is set -/

/-- The stop reason that an input sets. -/
def ConverterInput.stopReason? : ConverterInput → Option Str
  | .object obj => do
      let fields ← obj.fields?
      let choice ← (← firstChoice fields).fields?
      (getTruthy (str "finish_reason") choice).map finishReasonToAnthropic
  | .usage _ => none

/-- The completion tokens that an input sets. -/
def ConverterInput.completion? : ConverterInput → Option ℤ
  | .object obj => obj.fields?.bind (chunkCount (str "completion_tokens"))
  | .usage u => countOf (str "completion_tokens") u

/-- The stop reason set last. -/
def lastStopReason (items : List ConverterInput) : Str :=
  (items.filterMap ConverterInput.stopReason?).getLast?.getD (str "end_turn")

/-- The completion tokens set last. -/
def lastCompletion (items : List ConverterInput) : ℤ :=
  (items.filterMap ConverterInput.completion?).getLast?.getD 0

/-! ### A message -/

/-- What a message opens with, and its texts. -/
def anthropicOpened (model messageId : Str) (prompt : ℤ) (contents : List Json) : List SseEvent :=
  [⟨str "message_start", AnthropicState.messageStart
      { (AnthropicStream.init model messageId).state with counts := (.int prompt, .int 0) }⟩,
    ⟨str "content_block_start", AnthropicState.contentBlockStart⟩] ++
  contents.map fun c => ⟨str "content_block_delta", AnthropicState.contentBlockDelta c⟩

/-- The events of a message. -/
def anthropicEvents (model messageId : Str) (prompt : ℤ) (contents : List Json)
    (stopReason : Str) (completion : ℤ) : List SseEvent :=
  anthropicOpened model messageId prompt contents ++
  [⟨str "content_block_stop", .obj [(str "type", .str (str "content_block_stop")),
      (str "index", .int 0)]⟩,
    ⟨str "message_delta", .obj [(str "type", .str (str "message_delta")),
      (str "delta", .obj [(str "stop_reason", .str stopReason), (str "stop_sequence", .null)]),
      (str "usage", .obj [(str "output_tokens", .int completion)])]⟩,
    ⟨str "message_stop", .obj [(str "type", .str (str "message_stop"))]⟩]

section
variable {float : Bool → ℕ → ℤ → Str}

/-! ### Calls and what is read by them -/

theorem feedPart_eq (s : AnthropicState) (part : Str) :
    s.feedPart float part = collect (AnthropicState.feedObject float) s (partObjects part) := by
  rw [AnthropicState.feedPart, partObjects, collect_filterMap]
  congr 1
  funext s line
  rw [AnthropicState.feedLine]
  cases dataOf (strip line) with
  | none => rfl
  | some raw =>
      dsimp only [Option.bind_some]
      cases loads raw <;> rfl

/-- **The calls do what is read by them**, one input after the other. -/
theorem collect_call (s : AnthropicStream) (calls : List ConverterCall) :
    (collect (AnthropicStream.call float) s calls).map (fun r => (r.1, r.2.state)) =
      collect (AnthropicState.receive float) s.state (inputs s.buffer calls) := by
  induction calls generalizing s with
  | nil => rfl
  | cons c calls ih =>
      cases c with
      | feed chunk =>
          have hparts : (fun s part => AnthropicState.feedPart float s part) = fun s part =>
              collect (AnthropicState.feedObject float) s (partObjects part) :=
            funext fun s => funext fun part => feedPart_eq s part
          rw [inputs, collect_append, collect_map, collect_flatMap, collect]
          simp only [AnthropicStream.call, AnthropicStream.feed, AnthropicState.receive,
            Option.bind_eq_bind, hparts]
          cases collect (fun s part => collect (AnthropicState.feedObject float) s
              (partObjects part)) s.state (splitBlank (s.buffer ++ decode chunk)).1 with
          | none => rfl
          | some r =>
              have hrest := ih ⟨(splitBlank (s.buffer ++ decode chunk)).2, r.2⟩
              simp only [Option.map_some, Option.bind_some] at hrest ⊢
              rw [← hrest]
              cases collect (AnthropicStream.call float)
                ⟨(splitBlank (s.buffer ++ decode chunk)).2, r.2⟩ calls <;> rfl
      | usage u =>
          rw [inputs, collect, collect]
          simp only [AnthropicStream.call, AnthropicState.receive, Option.bind_eq_bind]
          cases s.state.setUsage u with
          | none => rfl
          | some r =>
              have hrest := ih { s with state := r.2 }
              simp only [Option.map_some, Option.bind_some] at hrest ⊢
              rw [← hrest]
              cases collect (AnthropicStream.call float) { s with state := r.2 } calls <;> rfl

/-! ### What can be sent -/

/-- What the events of a state are written from. -/
structure AnthropicState.Sendable (s : AnthropicState) : Prop where
  model : IsText s.model
  messageId : IsText s.messageId
  counts : ∃ p c : ℤ, s.counts = (.int p, .int c)
  stopReason : IsText s.stopReason

namespace AnthropicState
variable {s : AnthropicState}

theorem encodable_messageStart (h : s.Sendable) : s.messageStart.Encodable float := by
  obtain ⟨p, c, hcounts⟩ := h.counts
  simp +decide [messageStart, hcounts, h.model, h.messageId]

theorem encodable_contentBlockStart : contentBlockStart.Encodable float := by
  simp +decide [contentBlockStart]

theorem encodable_contentBlockDelta {content : Json} :
    (contentBlockDelta content).Encodable float ↔ content.Encodable float := by
  simp +decide [contentBlockDelta]

/-- What `_ensure_started` sends. -/
def opening (s : AnthropicState) : List SseEvent :=
  (if s.started then [] else [⟨str "message_start", s.messageStart⟩]) ++
    if s.contentStarted then [] else [⟨str "content_block_start", contentBlockStart⟩]

theorem ensureStarted_sendable (h : s.Sendable) : s.ensureStarted float =
    some (s.opening, { s with started := true, contentStarted := true }) := by
  rw [ensureStarted, sendOnce, sendOnce, sse_eq (by decide), sse_eq (by decide),
    if_pos (encodable_messageStart h), if_pos encodable_contentBlockStart, opening]
  cases s.started <;> cases s.contentStarted <;> rfl

/-- The events of the end. -/
def closing (s : AnthropicState) : List SseEvent :=
  [⟨str "content_block_stop", .obj [(str "type", .str (str "content_block_stop")),
      (str "index", .int 0)]⟩,
    ⟨str "message_delta", .obj [(str "type", .str (str "message_delta")),
      (str "delta", .obj [(str "stop_reason", .str s.stopReason), (str "stop_sequence", .null)]),
      (str "usage", .obj [(str "output_tokens", s.counts.2)])]⟩,
    ⟨str "message_stop", .obj [(str "type", .str (str "message_stop"))]⟩]

theorem finish_sendable (h : s.Sendable) : s.finish float =
    some (s.opening ++ s.closing, { s with started := true, contentStarted := true }) := by
  obtain ⟨p, c, hcounts⟩ := h.counts
  have hdelta : (Json.obj [(str "type", .str (str "message_delta")),
      (str "delta", .obj [(str "stop_reason", .str s.stopReason), (str "stop_sequence", .null)]),
      (str "usage", .obj [(str "output_tokens", s.counts.2)])]).Encodable float := by
    simp +decide [hcounts, h.stopReason]
  have hstop : (Json.obj [(str "type", .str (str "content_block_stop")),
      (str "index", .int 0)]).Encodable float := by
    simp +decide
  have hlast : (Json.obj [(str "type", .str (str "message_stop"))]).Encodable float := by
    simp +decide
  rw [finish, ensureStarted_sendable h, sse_eq (by decide), sse_eq (by decide), sse_eq (by decide),
    if_pos hstop, if_pos hdelta, if_pos hlast]
  rfl

end AnthropicState

/-! ### What one input sets -/

/-- What `feed` does with an object that does not make it raise. -/
theorem feedObject_some {s : AnthropicState} {obj : Json} {r : List SseEvent × AnthropicState}
    (h : s.feedObject float obj = some r) :
    ∃ fields counts first choice delta, obj.fields? = some fields ∧
      readCounts fields s.counts = some counts ∧ firstChoice fields = some first ∧
      first.fields? = some choice ∧
      ((getTruthy (str "delta") choice).getD (.obj [])).fields? = some delta ∧
      AnthropicState.sendContent float
        { s with counts, stopReason := AnthropicState.readStopReason choice s.stopReason } delta =
          some r := by
  simp only [AnthropicState.feedObject, Option.bind_eq_bind, Option.bind_eq_some_iff] at h
  obtain ⟨fields, hfields, counts, hcounts, first, hfirst, choice, hchoice, delta, hdelta,
    hsend⟩ := h
  exact ⟨fields, counts, first, choice, delta, hfields, hcounts, hfirst, hchoice, hdelta, hsend⟩

theorem isText_finishReasonToAnthropic (reason : Json) :
    IsText (finishReasonToAnthropic reason) := by
  rw [finishReasonToAnthropic]
  split_ifs <;> decide

theorem readStopReason_eq (choice : List (Str × Json)) (stopReason : Str) :
    AnthropicState.readStopReason choice stopReason =
      ((getTruthy (str "finish_reason") choice).map finishReasonToAnthropic).getD stopReason := by
  rw [AnthropicState.readStopReason]
  cases getTruthy (str "finish_reason") choice <;> rfl

/-! ### The invariant -/

/-- Either nothing was sent, or the message was opened once and texts have followed. -/
def Begun (model messageId : Str) (s : AnthropicState) (events : List SseEvent) : Prop :=
  (s.started = false ∧ s.contentStarted = false ∧ events = []) ∨
    (s.started = true ∧ s.contentStarted = true ∧
      ∃ prompt contents, events = anthropicOpened model messageId prompt contents)

/-- The converter after it has read these and sent these events. -/
structure Converting (model messageId : Str) (items : List ConverterInput) (s : AnthropicState)
    (events : List SseEvent) : Prop where
  model_eq : s.model = model
  messageId_eq : s.messageId = messageId
  counts : ∃ prompt, s.counts = (.int prompt, .int (lastCompletion items))
  stopReason : s.stopReason = lastStopReason items
  stopText : IsText s.stopReason
  begun : Begun model messageId s events

section
variable {model messageId : Str} {items : List ConverterInput} {s : AnthropicState}
  {events : List SseEvent}

theorem Converting.init (model messageId : Str) :
    Converting model messageId [] (AnthropicStream.init model messageId).state [] where
  model_eq := rfl
  messageId_eq := rfl
  counts := ⟨0, rfl⟩
  stopReason := rfl
  stopText := (by decide : IsText (str "end_turn"))
  begun := .inl ⟨rfl, rfl, rfl⟩

theorem Converting.sendable (h : Converting model messageId items s events) (hm : IsText model)
    (hid : IsText messageId) : s.Sendable where
  model := h.model_eq ▸ hm
  messageId := h.messageId_eq ▸ hid
  counts := h.counts.imp fun _ hp => ⟨_, hp⟩
  stopReason := h.stopText

/-- Whatever was sent, what opens the message and a text complete it. -/
theorem Converting.opened (h : Converting model messageId items s events) :
    ∃ prompt contents, events ++ s.opening = anthropicOpened model messageId prompt contents := by
  obtain ⟨hstarted, hcontent, rfl⟩ | ⟨hstarted, hcontent, prompt, contents, rfl⟩ := h.begun
  · obtain ⟨prompt, hcounts⟩ := h.counts
    refine ⟨prompt, [], ?_⟩
    have hstart : s.messageStart = AnthropicState.messageStart
        { (AnthropicStream.init model messageId).state with counts := (.int prompt, .int 0) } := by
      rw [AnthropicState.messageStart, AnthropicState.messageStart, h.model_eq, h.messageId_eq,
        hcounts]
      rfl
    rw [AnthropicState.opening, hstarted, hcontent, hstart]
    rfl
  · refine ⟨prompt, contents, ?_⟩
    rw [AnthropicState.opening, hstarted, hcontent]
    exact List.append_nil _

theorem anthropicOpened_concat (prompt : ℤ) (contents : List Json) (content : Json) :
    anthropicOpened model messageId prompt contents ++
        [⟨str "content_block_delta", AnthropicState.contentBlockDelta content⟩] =
      anthropicOpened model messageId prompt (contents ++ [content]) := by
  rw [anthropicOpened, anthropicOpened, List.map_append, List.append_assoc]
  rfl

/-- What is set changes nothing of what was sent. -/
theorem Converting.set (h : Converting model messageId items s events) {item : ConverterInput}
    {counts : Counts} {stopReason : Str}
    (hcounts : ∃ prompt, counts =
      (.int prompt, .int (item.completion?.getD (lastCompletion items))))
    (hstop : stopReason = item.stopReason?.getD (lastStopReason items))
    (htext : IsText stopReason) :
    Converting model messageId (items ++ [item]) { s with counts, stopReason } events where
  model_eq := h.model_eq
  messageId_eq := h.messageId_eq
  counts := by
    rw [lastCompletion, getLast?_filterMap_concat]
    exact hcounts
  stopReason := by
    rw [lastStopReason, getLast?_filterMap_concat]
    exact hstop
  stopText := htext
  begun := h.begun

/-- The events for a content. -/
theorem Converting.send (h : Converting model messageId items s events) (hm : IsText model)
    (hid : IsText messageId) {delta : List (Str × Json)} {r : List SseEvent × AnthropicState}
    (hr : s.sendContent float delta = some r) :
    Converting model messageId items r.2 (events ++ r.1) := by
  rw [AnthropicState.sendContent] at hr
  cases hcontent : getTruthy (str "content") delta with
  | none =>
      rw [hcontent] at hr
      obtain rfl := Option.some.inj hr
      rw [List.append_nil]
      exact h
  | some content =>
      rw [hcontent] at hr
      simp only [AnthropicState.ensureStarted_sendable (h.sendable hm hid), Option.bind_eq_bind,
        Option.bind_some, Option.bind_eq_some_iff, Option.some.injEq] at hr
      obtain ⟨event, hevent, rfl⟩ := hr
      rw [sse_eq (by decide)] at hevent
      split_ifs at hevent
      obtain rfl := Option.some.inj hevent
      obtain ⟨prompt, contents, hopened⟩ := h.opened
      refine ⟨h.model_eq, h.messageId_eq, h.counts, h.stopReason, h.stopText,
        .inr ⟨rfl, rfl, prompt, contents ++ [content], ?_⟩⟩
      rw [← List.append_assoc, hopened, anthropicOpened_concat]

/-- One input. -/
theorem Converting.receive (h : Converting model messageId items s events) (hm : IsText model)
    (hid : IsText messageId) {item : ConverterInput} {r : List SseEvent × AnthropicState}
    (hr : s.receive float item = some r) :
    Converting model messageId (items ++ [item]) r.2 (events ++ r.1) := by
  obtain ⟨p, hcounts⟩ := h.counts
  cases item with
  | object obj =>
      obtain ⟨fields, counts, first, choice, delta, hfields, hread, hfirst, hchoice, -, hsend⟩ :=
        feedObject_some hr
      rw [hcounts] at hread
      refine Converting.send (h.set ?_ ?_ ?_) hm hid hsend
      · have hset : (ConverterInput.object obj).completion? =
            chunkCount (str "completion_tokens") fields := by
          rw [ConverterInput.completion?, hfields, Option.bind_some]
        rw [hset]
        exact ⟨_, readCounts_some hread⟩
      · have hset : (ConverterInput.object obj).stopReason? =
            (getTruthy (str "finish_reason") choice).map finishReasonToAnthropic := by
          simp only [ConverterInput.stopReason?, hfields, hfirst, hchoice, Option.bind_eq_bind,
            Option.bind_some]
        rw [hset, readStopReason_eq, h.stopReason]
      · rw [readStopReason_eq]
        cases getTruthy (str "finish_reason") choice with
        | none => exact h.stopText
        | some reason => exact isText_finishReasonToAnthropic reason
  | usage u =>
      obtain ⟨counts, hread, rfl⟩ := Option.map_eq_some_iff.mp hr
      rw [hcounts] at hread
      rw [List.append_nil]
      exact h.set ⟨_, translatedCounts_some hread⟩ h.stopReason h.stopText

/-- Any inputs. -/
theorem Converting.collect (h : Converting model messageId items s events) (hm : IsText model)
    (hid : IsText messageId) {more : List ConverterInput} {r : List SseEvent × AnthropicState}
    (hr : collect (AnthropicState.receive float) s more = some r) :
    Converting model messageId (items ++ more) r.2 (events ++ r.1) := by
  induction more generalizing items s events r with
  | nil =>
      obtain rfl := Option.some.inj hr
      rw [List.append_nil, List.append_nil]
      exact h
  | cons item more ih =>
      obtain ⟨r₁, r₂, hr₁, hr₂, rfl⟩ := collect_cons_eq_some.mp hr
      have hrest := ih (h.receive hm hid hr₁) hr₂
      rw [List.append_assoc] at hrest
      rw [← List.append_assoc]
      exact hrest

end

/-- **The stream is one well-formed message.**  When no call raises, `finish` does not, and all
events are those of a message: one `message_start`, one `content_block_start`, the deltas of
its texts, one `content_block_stop`, one `message_delta` with the completion tokens and the
stop reason that were set last, and one `message_stop`. -/
theorem events_of_calls {model : UnicodeText} {messageId : Label} {calls : List ConverterCall}
    {events : List SseEvent} {s : AnthropicStream}
    (h : collect (AnthropicStream.call float) (.init model.text messageId.text) calls =
      some (events, s)) :
    ∃ last prompt contents, s.state.finish float = some last ∧
      events ++ last.1 = anthropicEvents model.text messageId.text prompt contents
        (lastStopReason (inputs [] calls)) (lastCompletion (inputs [] calls)) := by
  have hm := model.isText
  have hid := isText_of_ascii messageId.ascii
  have hread := @collect_call float (.init model.text messageId.text) calls
  rw [h] at hread
  have hall := (Converting.init model.text messageId.text).collect hm hid hread.symm
  obtain ⟨prompt, contents, hopened⟩ := hall.opened
  obtain ⟨p, hcounts⟩ := hall.counts
  refine ⟨_, prompt, contents, AnthropicState.finish_sendable (hall.sendable hm hid), ?_⟩
  rw [← List.append_assoc]
  refine (congrArg (· ++ s.state.closing) hopened).trans ?_
  have hstop := hall.stopReason
  dsimp only [List.nil_append] at hcounts hstop
  rw [AnthropicState.closing, hcounts, hstop]
  rfl

/-- A text, and tokens that the caller writes. -/
def helloCalls : List ConverterCall :=
  [.feed (encode (str "data: \x7b\"choices\":[\x7b\"delta\":\x7b\"content\":\"a\"\x7d\x7d]\x7d\n\n")),
    .usage (.obj [(str "completion_tokens", .int 3)])]

theorem events_of_helloCalls :
    ∃ events s last prompt contents,
      collect (AnthropicStream.call noFloats) (.init (str "m") (str "i")) helloCalls =
        some (events, s) ∧
      s.state.finish noFloats = some last ∧
      events ++ last.1 = anthropicEvents (str "m") (str "i") prompt contents
        (lastStopReason (inputs [] helloCalls)) (lastCompletion (inputs [] helloCalls)) := by
  have hsome : (collect (AnthropicStream.call noFloats) (.init (str "m") (str "i"))
      helloCalls).isSome = true := by decide +kernel
  obtain ⟨⟨events, s⟩, h⟩ := Option.isSome_iff_exists.mp hsome
  obtain ⟨last, prompt, contents, hfinish, hevents⟩ :=
    @events_of_calls noFloats ⟨str "m", by decide⟩ ⟨str "i", by decide⟩ helloCalls events s h
  exact ⟨events, s, last, prompt, contents, h, hfinish, hevents⟩

end

end Llmxy
