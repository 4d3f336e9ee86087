import Llmxy.Protocols.ChatRead
import Llmxy.Protocols.DataLine

/-!
# The stream converter of the messages endpoint

`OpenAIToAnthropicStream` turns a chat stream into the events of an Anthropic stream.
It decodes each chunk of bytes alone and drops what it cannot decode, keeps the text
after the last empty line for the next chunk, and splits each block into lines with
`str.splitlines`.

## Main definitions

* `AnthropicStream` — the converter, `AnthropicStream.feed`, `AnthropicStream.finish`.
* `openaiSseToAnthropicSse` — a whole stream.
* `Lossless` — the events carry the contents of the chunks, the tokens and the reason.
* `lossless_iff` — when they do.
-/

namespace Llmxy

/-- `_openai_finish_reason_to_anthropic`. -/
def finishReasonToAnthropic (reason : Json) : Str :=
  if reason = .str (str "length") then str "max_tokens"
  else if reason = .str (str "tool_calls") then str "tool_use"
  else if reason = .str (str "content_filter") then str "stop_sequence"
  else str "end_turn"

/-- What `OpenAIToAnthropicStream` knows of the stream it has read. -/
structure AnthropicState where
  model : Str
  messageId : Str
  started : Bool
  contentStarted : Bool
  /-- The prompt and the completion tokens. -/
  counts : Counts
  stopReason : Str

/-- `OpenAIToAnthropicStream`. -/
structure AnthropicStream where
  buffer : Str
  state : AnthropicState

/-- `__init__`. -/
def AnthropicStream.init (model messageId : Str) : AnthropicStream where
  buffer := []
  state :=
    { model := model
      messageId := messageId
      started := false
      contentStarted := false
      counts := zeroCounts
      stopReason := str "end_turn" }

namespace AnthropicState
variable (float : Bool → ℕ → ℤ → Str)

/-- The `message_start` event. -/
def messageStart (s : AnthropicState) : Json :=
  .obj [(str "type", .str (str "message_start")), (str "message", .obj [
    (str "id", .str s.messageId), (str "type", .str (str "message")),
    (str "role", .str (str "assistant")), (str "model", .str s.model), (str "content", .arr []),
    (str "stop_reason", .null), (str "stop_sequence", .null),
    (str "usage", .obj [(str "input_tokens", s.counts.1), (str "output_tokens", .int 0)])])]

def contentBlockStart : Json :=
  .obj [(str "type", .str (str "content_block_start")), (str "index", .int 0),
    (str "content_block", .obj [(str "type", .str (str "text")), (str "text", .str [])])]

def contentBlockDelta (content : Json) : Json :=
  .obj [(str "type", .str (str "content_block_delta")), (str "index", .int 0),
    (str "delta", .obj [(str "type", .str (str "text_delta")), (str "text", content)])]

/-- An event that is sent once. -/
def sendOnce (sent : Bool) (name : Str) (data : Json) : Option (List SseEvent) :=
  if sent then some [] else (sse float name data).map fun e => [e]

/-- `_ensure_started`. -/
def ensureStarted (s : AnthropicState) : Option (List SseEvent × AnthropicState) := do
  let message ← sendOnce float s.started (str "message_start") s.messageStart
  let block ← sendOnce float s.contentStarted (str "content_block_start") contentBlockStart
  some (message ++ block, { s with started := true, contentStarted := true })

/-- The stop reason after `choice.get("finish_reason")`. -/
def readStopReason (choice : List (Str × Json)) (stopReason : Str) : Str :=
  match getTruthy (str "finish_reason") choice with
  | some reason => finishReasonToAnthropic reason
  | none => stopReason

/-- The events for `delta.get("content")`. -/
def sendContent (s : AnthropicState) (delta : List (Str × Json)) :
    Option (List SseEvent × AnthropicState) :=
  match getTruthy (str "content") delta with
  | none => some ([], s)
  | some content => do
      let started ← s.ensureStarted float
      let event ← sse float (str "content_block_delta") (contentBlockDelta content)
      some (started.1 ++ [event], started.2)

/-- What `feed` does with an object.  Anything but dictionaries where it looks for keys
raises. -/
def feedObject (s : AnthropicState) (obj : Json) : Option (List SseEvent × AnthropicState) := do
  let fields ← obj.fields?
  let counts ← readCounts fields s.counts
  let choice ← (← firstChoice fields).fields?
  let delta ← ((getTruthy (str "delta") choice).getD (.obj [])).fields?
  sendContent float
    { s with counts := counts, stopReason := readStopReason choice s.stopReason } delta

/-- A line.  A text that is no JSON is skipped. -/
def feedLine (s : AnthropicState) (line : Str) : Option (List SseEvent × AnthropicState) :=
  match dataOf (strip line) with
  | none => some ([], s)
  | some raw =>
      match loads raw with
      | none => some ([], s)
      | some obj => s.feedObject float obj

/-- A block. -/
def feedPart (s : AnthropicState) (part : Str) : Option (List SseEvent × AnthropicState) :=
  collect (feedLine float) s (splitlines part)

/-- The events of `finish`. -/
def finish (s : AnthropicState) : Option (List SseEvent × AnthropicState) := do
  let started ← s.ensureStarted float
  let stop ← sse float (str "content_block_stop")
    (.obj [(str "type", .str (str "content_block_stop")), (str "index", .int 0)])
  let delta ← sse float (str "message_delta")
    (.obj [(str "type", .str (str "message_delta")),
      (str "delta", .obj [(str "stop_reason", .str s.stopReason), (str "stop_sequence", .null)]),
      (str "usage", .obj [(str "output_tokens", s.counts.2)])])
  let last ← sse float (str "message_stop") (.obj [(str "type", .str (str "message_stop"))])
  some (started.1 ++ [stop, delta, last], started.2)

end AnthropicState

/-- `feed`. -/
def AnthropicStream.feed (float : Bool → ℕ → ℤ → Str) (s : AnthropicStream) (chunk : Bytes) :
    Option (List SseEvent × AnthropicStream) :=
  let parts := splitBlank (s.buffer ++ decode chunk)
  (collect (AnthropicState.feedPart float) s.state parts.1).map fun r => (r.1, ⟨parts.2, r.2⟩)

/-- `openai_sse_to_anthropic_sse`: the events for the chunks of a stream, and the
converter after them.  `none` when it raises. -/
def openaiSseToAnthropicSse (float : Bool → ℕ → ℤ → Str) (model messageId : Str)
    (pieces : List Bytes) : Option (List SseEvent × AnthropicStream) := do
  let fed ← collect (AnthropicStream.feed float) (.init model messageId) pieces
  let finished ← fed.2.state.finish float
  some (fed.1 ++ finished.1, { fed.2 with state := finished.2 })

/-- The text of a `text_delta` event. -/
def SseEvent.textDelta (e : SseEvent) : Str :=
  if e.name = str "content_block_delta" then
    match (e.data.get? (str "delta")).bind (Json.get? (str "text")) with
    | some (.str t) => t
    | _ => []
  else []

/-- The stop reason after a chunk: that of its finish reason, if it has one. -/
def ChatChunk.stopReasonAfter (reason : Str) (chunk : ChatChunk) : Str :=
  match chunk.choice.bind ChunkChoice.finishReason with
  | none => reason
  | some r => if r.text = [] then reason else finishReasonToAnthropic (.str r.text)

/-- **The converter is lossless** on a stream that comes in these pieces: the deltas
carry the contents of the chunks, and the tokens and the stop reason are those of the
chunks. -/
def Lossless (float : Bool → ℕ → ℤ → Str) (model messageId : Str) (chunks : List ChatChunk)
    (pieces : List Bytes) : Prop :=
  ∃ events s, openaiSseToAnthropicSse float model messageId pieces = some (events, s) ∧
    events.flatMap SseEvent.textDelta = contents chunks ∧
    s.state.counts = chunks.foldl ChatChunk.countsAfter zeroCounts ∧
    s.state.stopReason = chunks.foldl ChatChunk.stopReasonAfter (str "end_turn")

/-! ### A stream in pieces -/

/-- **The pieces do not matter once they are decoded**: the blocks of the whole text are
handled one after the other. -/
theorem collect_feed {float : Bool → ℕ → ℤ → Str} {s : AnthropicStream} (pieces : List Bytes)
    (h : splitBlank s.buffer = ([], s.buffer)) :
    collect (AnthropicStream.feed float) s pieces =
      (collect (AnthropicState.feedPart float) s.state
        (splitBlank (s.buffer ++ (pieces.map decode).flatten)).1).map fun r =>
          (r.1, ⟨(splitBlank (s.buffer ++ (pieces.map decode).flatten)).2, r.2⟩) := by
  induction pieces generalizing s with
  | nil =>
      rw [List.map_nil, List.flatten_nil, List.append_nil, h]
      rfl
  | cons piece pieces ih =>
      rw [List.map_cons, List.flatten_cons, ← List.append_assoc, splitBlank_append, collect_append]
      simp only [collect, AnthropicStream.feed, Option.bind_eq_bind]
      cases collect (AnthropicState.feedPart float) s.state
          (splitBlank (s.buffer ++ decode piece)).1 with
      | none => rfl
      | some r =>
          simp only [Option.map_some, Option.bind_some]
          rw [ih (splitBlank_rest _)]
          simp only [Option.map_map]
          cases collect (AnthropicState.feedPart float) r.2 (splitBlank
              ((splitBlank (s.buffer ++ decode piece)).2 ++ (pieces.map decode).flatten)).1 with
          | none => rfl
          | some rs => rfl

/-! ### Whole chunks -/

/-- What the events of a state are written from. -/
structure AnthropicState.Fit (s : AnthropicState) : Prop where
  model : IsText s.model
  messageId : ∀ c ∈ s.messageId, c < 128
  counts : ∃ p c : ℤ, s.counts = (.int p, .int c) ∧ p.natAbs < 10 ^ maxIntDigits ∧
    c.natAbs < 10 ^ maxIntDigits
  stopReason : ∀ c ∈ s.stopReason, c < 128

theorem plain_messageStart {s : AnthropicState} (h : s.Fit) : s.messageStart.Plain := by
  obtain ⟨p, c, hcounts, hp, -⟩ := h.counts
  have husage : Clean s.model (.obj [(str "input_tokens", s.counts.1), (str "output_tokens", .int 0)]) := by
    rw [hcounts]
    exact clean_obj (by simp only [List.map_cons, List.map_nil]; decide)
      ⟨clean_int hp, clean_int (natAbs_small (by decide))⟩
  have hmessage : Clean s.model (.obj [(str "id", .str s.messageId),
      (str "type", .str (str "message")), (str "role", .str (str "assistant")),
      (str "model", .str s.model), (str "content", .arr []), (str "stop_reason", .null),
      (str "stop_sequence", .null),
      (str "usage", .obj [(str "input_tokens", s.counts.1), (str "output_tokens", .int 0)])]) :=
    clean_obj (by simp only [List.map_cons, List.map_nil]; decide)
      ⟨clean_ascii h.messageId, clean_ascii (by decide), clean_ascii (by decide), clean_own h.model,
        clean_arr trivial, clean_null, clean_null, husage⟩
  have hall : Clean s.model s.messageStart :=
    clean_obj (by simp only [List.map_cons, List.map_nil]; decide)
      ⟨clean_ascii (by decide), hmessage⟩
  exact hall.plain

theorem plain_contentBlockDelta {t : Str} (ht : IsText t) :
    (AnthropicState.contentBlockDelta (.str t)).Plain := by
  have hdelta : Clean t (.obj [(str "type", .str (str "text_delta")), (str "text", .str t)]) :=
    clean_obj (by simp only [List.map_cons, List.map_nil]; decide)
      ⟨clean_ascii (by decide), clean_own ht⟩
  have hall : Clean t (AnthropicState.contentBlockDelta (.str t)) :=
    clean_obj (by simp only [List.map_cons, List.map_nil]; decide)
      ⟨clean_ascii (by decide), clean_int (natAbs_small (by decide)), hdelta⟩
  exact hall.plain

namespace AnthropicState
variable {float : Bool → ℕ → ℤ → Str} {s : AnthropicState}

/-- Starting sends no text. -/
theorem ensureStarted_eq (h : s.Fit) : ∃ events, s.ensureStarted float =
    some (events, { s with started := true, contentStarted := true }) ∧
      events.flatMap SseEvent.textDelta = [] := by
  have hstart := @sse_of_plain float (str "message_start") _ (by decide) (plain_messageStart h)
  have hinner : Clean [] (.obj [(str "type", .str (str "text")), (str "text", .str [])]) :=
    clean_obj (by decide) ⟨clean_ascii (by decide), clean_ascii (by decide)⟩
  have hclean : Clean [] contentBlockStart :=
    clean_obj (by decide) ⟨clean_ascii (by decide), clean_int (natAbs_small (by decide)), hinner⟩
  have hblock := @sse_of_plain float (str "content_block_start") _ (by decide) hclean.plain
  unfold ensureStarted sendOnce
  rw [hstart, hblock]
  cases s.started <;> cases s.contentStarted <;> exact ⟨_, rfl, rfl⟩

end AnthropicState

namespace AnthropicState
variable {float : Bool → ℕ → ℤ → Str} {s : AnthropicState}

theorem fit_after (h : s.Fit) (chunk : ChatChunk) (started contentStarted : Bool) :
    Fit { s with
      started := started, contentStarted := contentStarted
      counts := chunk.countsAfter s.counts
      stopReason := chunk.stopReasonAfter s.stopReason } := by
  refine ⟨h.model, h.messageId, ?_, ?_⟩
  · obtain ⟨p, c, hcounts, hp, hc⟩ := h.counts
    simp only [ChatChunk.countsAfter, hcounts]
    cases hu : chunk.usage with
    | none => exact ⟨p, c, rfl, hp, hc⟩
    | some u =>
        have hbound := u.printable
        refine ⟨if u.prompt = 0 then p else u.prompt, if u.completion = 0 then c else u.completion,
          ?_, ?_, ?_⟩
        · dsimp only
          split_ifs <;> rfl
        · split_ifs
          · exact hp
          · rw [Int.natAbs_natCast]
            omega
        · split_ifs
          · exact hc
          · rw [Int.natAbs_natCast]
            omega
  · have hmapped : ∀ reason, ∀ c ∈ finishReasonToAnthropic reason, c < 128 := by
      intro reason
      unfold finishReasonToAnthropic
      split_ifs <;> decide
    simp only [ChatChunk.stopReasonAfter]
    cases chunk.choice.bind ChunkChoice.finishReason with
    | none => exact h.stopReason
    | some r =>
        dsimp only
        split_ifs
        · exact h.stopReason
        · exact hmapped _

/-- The events for a content. -/
theorem sendContent_eq (h : s.Fit) (c : ChunkChoice) :
    ∃ events started contentStarted, s.sendContent float c.deltaFields =
      some (events, { s with started := started, contentStarted := contentStarted }) ∧
        events.flatMap SseEvent.textDelta = (c.content.map UnicodeText.text).getD [] := by
  rw [sendContent, c.getTruthy_content]
  cases ht : c.content with
  | none => exact ⟨[], _, _, rfl, rfl⟩
  | some t =>
      by_cases hnil : t.text = []
      · simp only [Option.filter, hnil, ne_eq, not_true_eq_false, decide_false, if_false,
          Bool.false_eq_true, Option.map_none, Option.map_some, Option.getD_some]
        exact ⟨[], _, _, rfl, rfl⟩
      · obtain ⟨events, hevents, htext⟩ := @ensureStarted_eq float s h
        have hdelta := @sse_of_plain float (str "content_block_delta") _ (by decide)
          (plain_contentBlockDelta t.isText)
        simp only [Option.filter, hnil, ne_eq, not_false_eq_true, decide_true, if_true,
          Option.map_some, hevents, Option.bind_eq_bind, Option.bind_some, hdelta, Option.getD_some]
        refine ⟨_, _, _, rfl, ?_⟩
        rw [List.flatMap_append, htext]
        simp only [List.nil_append, List.flatMap_cons, List.flatMap_nil, List.append_nil]
        rfl

theorem readStopReason_choice (c : ChunkChoice) (reason : Str) :
    readStopReason c.fields reason = match c.finishReason with
      | none => reason
      | some r => if r.text = [] then reason else finishReasonToAnthropic (.str r.text) := by
  rw [readStopReason, c.getTruthy_finishReason]
  cases c.finishReason with
  | none => rfl
  | some r =>
      by_cases hr : r.text = []
      · simp [Option.filter, hr]
      · simp [Option.filter, hr]

/-- **A chunk that is read whole**: its text is sent, and its usage and its finish reason
are kept. -/
theorem feedObject_chunk (h : s.Fit) (chunk : ChatChunk) :
    ∃ events s', s.feedObject float chunk.json = some (events, s') ∧ s'.Fit ∧
      events.flatMap SseEvent.textDelta = chunk.content ∧
      s'.counts = chunk.countsAfter s.counts ∧
      s'.stopReason = chunk.stopReasonAfter s.stopReason := by
  obtain ⟨p, n, hcounts, -, -⟩ := h.counts
  have hfields : chunk.json.fields? = some chunk.fields := rfl
  have hread : readCounts chunk.fields s.counts = some (chunk.countsAfter s.counts) := by
    rw [hcounts, readCounts_chunk]
  unfold feedObject
  simp only [hfields, Option.bind_eq_bind, Option.bind_some, hread, chunk.firstChoice_fields]
  cases hc : chunk.choice with
  | none =>
      have hstop : chunk.stopReasonAfter s.stopReason = s.stopReason := by
        rw [ChatChunk.stopReasonAfter, hc]
        rfl
      have hfit := fit_after h chunk s.started s.contentStarted
      rw [hstop] at hfit
      refine ⟨[], _, rfl, hfit, ?_, rfl, hstop.symm⟩
      rw [ChatChunk.content, hc]
      rfl
  | some c =>
      have hchoice : c.json.fields? = some c.fields := rfl
      have hstop : readStopReason c.fields s.stopReason = chunk.stopReasonAfter s.stopReason := by
        rw [readStopReason_choice, ChatChunk.stopReasonAfter, hc]
        rfl
      simp only [Option.map_some, Option.getD_some, hchoice, Option.bind_some, c.delta_fields, hstop]
      obtain ⟨events, a, b, hsend, htext⟩ := @sendContent_eq float _
        (fit_after h chunk s.started s.contentStarted) c
      refine ⟨events, _, hsend, fit_after h chunk a b, ?_, rfl, rfl⟩
      rw [htext, ChatChunk.content, hc]
      rfl

/-- At the end no more text is sent. -/
theorem finish_eq (h : s.Fit) : ∃ events, s.finish float =
    some (events, { s with started := true, contentStarted := true }) ∧
      events.flatMap SseEvent.textDelta = [] := by
  obtain ⟨events, hevents, htext⟩ := @ensureStarted_eq float s h
  obtain ⟨p, c, hcounts, -, hc⟩ := h.counts
  have hstop : Clean [] (.obj [(str "type", .str (str "content_block_stop")),
      (str "index", .int 0)]) :=
    clean_obj (by decide) ⟨clean_ascii (by decide), clean_int (natAbs_small (by decide))⟩
  have hreason : Clean [] (.obj [(str "stop_reason", .str s.stopReason),
      (str "stop_sequence", .null)]) :=
    clean_obj (by simp only [List.map_cons, List.map_nil]; decide)
      ⟨clean_ascii h.stopReason, clean_null⟩
  have husage : Clean [] (.obj [(str "output_tokens", s.counts.2)]) := by
    rw [hcounts]
    exact clean_obj (by simp only [List.map_cons, List.map_nil]; decide) (clean_int hc)
  have hdelta : Clean [] (.obj [(str "type", .str (str "message_delta")),
      (str "delta", .obj [(str "stop_reason", .str s.stopReason), (str "stop_sequence", .null)]),
      (str "usage", .obj [(str "output_tokens", s.counts.2)])]) :=
    clean_obj (by simp only [List.map_cons, List.map_nil]; decide)
      ⟨clean_ascii (by decide), hreason, husage⟩
  have hlast : Clean [] (.obj [(str "type", .str (str "message_stop"))]) :=
    clean_obj (by decide) (clean_ascii (by decide))
  simp only [finish, hevents, Option.bind_eq_bind, Option.bind_some,
    @sse_of_plain _ (str "content_block_stop") _ (by decide) hstop.plain,
    @sse_of_plain _ (str "message_delta") _ (by decide) hdelta.plain,
    @sse_of_plain _ (str "message_stop") _ (by decide) hlast.plain]
  refine ⟨_, rfl, ?_⟩
  rw [List.flatMap_append, htext]
  rfl

end AnthropicState

/-! ### Chunks that are broken -/

variable {style : DumpStyle}

/-- The text of a chunk goes on with the finish reason. -/
theorem ChatChunk.afterContent_eq (chunk : ChatChunk) (c : ChunkChoice) :
    ∃ after m, chunk.afterContent style c = 34 :: after ∧ after = m ++ [125] ∧ NoKey after := by
  have hf : escapeChar style 102 = [102] := by simp [escapeChar]
  have hquote : quote style (str "finish_reason") =
      34 :: 102 :: (escape style (str "inish_reason") ++ [34]) := by
    have hcons : escape style (str "finish_reason") =
        escapeChar style 102 ++ escape style (str "inish_reason") := rfl
    rw [quote, hcons, hf]
    rfl
  obtain ⟨rest, hrest⟩ : ∃ rest, chunk.afterContent style c =
      34 :: ((125 :: 44 :: List.replicate style.itemGap 32) ++ 34 :: 102 :: rest) := by
    simp only [afterContent, dumpsMoreFields, ChunkChoice.finishFields, hquote, DumpStyle.itemSep]
    exact ⟨_, by simp only [List.nil_append, List.cons_append, List.append_assoc]; rfl⟩
  obtain ⟨m, hm⟩ : ∃ m, chunk.afterContent style c = 34 :: (m ++ [125]) := by
    unfold afterContent
    exact ⟨_, by rw [List.cons_append, List.cons_append, ← List.append_assoc]; rfl⟩
  refine ⟨_, m, hrest, ?_, noKey_of_next (fun c hc => ?_) (by decide) (by decide)⟩
  · exact (List.cons.inj (hrest.symm.trans hm)).2
  · simp only [List.mem_cons, List.mem_replicate] at hc
    omega

/-- **No object starts within a content**: a line that does not hold the start of the
chunk has no object with a key on it. -/
theorem fields_eq_nil_of_line {chunk : ChatChunk} {c : ChunkChoice} {t line raw : Str}
    {fields : List (Str × Json)}
    (hline : line = escape style t ∨ line = escape style t ++ chunk.afterContent style c)
    (hraw : dataText line = some raw) (hobj : loads raw = some (.obj fields)) : fields = [] := by
  cases fields with
  | nil => rfl
  | cons f fs =>
      obtain ⟨after, m, hafter, hend, hkey⟩ := @ChatChunk.afterContent_eq style chunk c
      rw [hafter] at hline
      exact absurd (dataText_loads_obj hraw hobj) (line_without_object hend hkey hline)

namespace AnthropicState
variable {float : Bool → ℕ → ℤ → Str} {s : AnthropicState}

/-- An empty object changes nothing. -/
theorem feedObject_nil (s : AnthropicState) : s.feedObject float (.obj []) = some ([], s) := rfl

/-- A line without an object that has keys sends nothing. -/
theorem feedLine_quiet {line : Str}
    (h : ∀ raw fields, dataText line = some raw → loads raw = some (.obj fields) → fields = [])
    {r : List SseEvent × AnthropicState} (hr : s.feedLine float line = some r) : r = ([], s) := by
  rw [feedLine, dataOf_strip] at hr
  cases hraw : dataText line with
  | none =>
      rw [hraw] at hr
      exact (Option.some.inj hr).symm
  | some raw =>
      rw [hraw, Option.filter] at hr
      split_ifs at hr
      · cases hobj : loads raw with
        | none =>
            simp only [hobj] at hr
            exact (Option.some.inj hr).symm
        | some obj =>
            simp only [hobj] at hr
            cases obj with
            | obj fields =>
                rw [h raw fields hraw hobj, feedObject_nil] at hr
                exact (Option.some.inj hr).symm
            | _ => cases hr
      · exact (Option.some.inj hr).symm

theorem feedLines_quiet {lines : List Str}
    (h : ∀ line ∈ lines, ∀ raw fields, dataText line = some raw → loads raw = some (.obj fields) →
      fields = [])
    {r : List SseEvent × AnthropicState} (hr : collect (feedLine float) s lines = some r) :
    r = ([], s) := by
  refine collect_idle (fun line hline r₁ hr₁ => ?_) hr
  exact feedLine_quiet (h line hline) hr₁

/-- **A chunk whose content has a line break sends nothing.** -/
theorem feedPart_broken (hraw : style.ensureAscii = false) {chunk : ChatChunk}
    (hbreak : ∃ c ∈ chunk.content, IsUnicodeBreak c) {r : List SseEvent × AnthropicState}
    (hr : s.feedPart float (str "data: " ++ dumps style chunk.json) = some r) : r = ([], s) := by
  rcases chunk.cases_content with ⟨c, t, hc, ht, hcontent, hwith⟩ | ⟨hcontent, -⟩
  · have hjson : chunk.json = chunk.contentJson c t.text := by
      rw [← (hwith t).1, ChatChunk.withText_self]
      rw [(hwith t).2, hcontent]
    obtain ⟨before, hole⟩ := ChatChunk.hole_contentJson style chunk c
    rw [hcontent] at hbreak
    rw [feedPart, hjson] at hr
    refine feedLines_quiet (fun line hline raw fields hraw' hobj => ?_) hr
    obtain hnone | ⟨t', ht'⟩ := mem_splitlines_broken hole
      (fun s hs => chunk.clean_contentJson c hs) hraw t.isText hbreak (@dataText_cut style before)
      hline
    · rw [hnone raw hraw'] at hobj
      cases hobj
    · exact fields_eq_nil_of_line ht' hraw' hobj
  · rw [hcontent] at hbreak
    obtain ⟨c, hc, -⟩ := hbreak
    cases hc

/-- The text of a chunk is that of an object. -/
theorem dumps_chunk (style : DumpStyle) (chunk : ChatChunk) :
    ∃ m, dumps style chunk.json = 123 :: (m ++ [125]) := by
  have hjson : chunk.json = .obj ((str "id", .str chunk.id.text) :: chunk.fields.tail) := rfl
  rw [hjson, dumps]
  exact ⟨_, rfl⟩

/-- **A chunk that stands on one line is read whole.** -/
theorem feedPart_whole {chunk : ChatChunk}
    (hline : ∀ c ∈ dumps style chunk.json, ¬ IsUnicodeBreak c) :
    s.feedPart float (str "data: " ++ dumps style chunk.json) =
      s.feedObject float chunk.json := by
  have hall := not_isLineBreak_dataLine (fun c hc => Written.low (chunk.written hc)) hline
  obtain ⟨m, hm⟩ := dumps_chunk style chunk
  have hloads := @loads_dumps style _ chunk.clean.plain
  rw [feedPart, splitlines_line hall (by simp [hm])]
  rw [hm] at hloads ⊢
  have hdata : dataOf (strip (str "data: " ++ 123 :: (m ++ [125]))) =
      some (123 :: (m ++ [125])) := by
    rw [dataOf_strip, dataText_object]
    rfl
  simp only [collect, feedLine, hdata, hloads, Option.bind_eq_bind, Option.bind_some,
    List.append_nil]
  cases s.feedObject float chunk.json <;> rfl

end AnthropicState

/-! ### Whole streams -/

section Stream
variable {float : Bool → ℕ → ℤ → Str} {s : AnthropicState} {chunks : List ChatChunk} {done : Bool}

/-- The end of the stream changes nothing. -/
theorem collect_done (s : AnthropicState) :
    collect (AnthropicState.feedPart float) s (if done then [str "data: [DONE]"] else []) =
      some ([], s) := by
  have hlines : splitlines (str "data: [DONE]") = [str "data: [DONE]"] := by decide
  have hdata : dataOf (strip (str "data: [DONE]")) = none := by decide
  cases done with
  | false => rfl
  | true =>
      simp only [if_true, collect, AnthropicState.feedPart, AnthropicState.feedLine, hlines, hdata]
      rfl

theorem collect_blocks :
    collect (AnthropicState.feedPart float) s (chatBlocks style chunks done) =
      collect (AnthropicState.feedPart float) s
        (chunks.map fun chunk => str "data: " ++ dumps style chunk.json) := by
  rw [chatBlocks, collect_append]
  cases collect (AnthropicState.feedPart float) s
      (chunks.map fun chunk => str "data: " ++ dumps style chunk.json) with
  | none => rfl
  | some r =>
      rw [Option.bind_some, collect_done]
      simp

/-- **A stream whose chunks stand on one line each is read whole.** -/
theorem collect_whole (h : s.Fit)
    (hline : ∀ chunk ∈ chunks, ∀ c ∈ dumps style chunk.json, ¬ IsUnicodeBreak c) :
    ∃ events s', collect (AnthropicState.feedPart float) s
        (chunks.map fun chunk => str "data: " ++ dumps style chunk.json) = some (events, s') ∧
      s'.Fit ∧ events.flatMap SseEvent.textDelta = contents chunks ∧
      s'.counts = chunks.foldl ChatChunk.countsAfter s.counts ∧
      s'.stopReason = chunks.foldl ChatChunk.stopReasonAfter s.stopReason := by
  induction chunks generalizing s with
  | nil => exact ⟨[], s, rfl, h, rfl, rfl, rfl⟩
  | cons chunk chunks ih =>
      obtain ⟨events₁, s₁, hfeed, hfit, htext, hcounts, hstop⟩ :=
        @AnthropicState.feedObject_chunk float _ h chunk
      obtain ⟨events₂, s₂, hrest, hfit₂, htext₂, hcounts₂, hstop₂⟩ :=
        ih hfit fun c hc => hline c (List.mem_cons_of_mem _ hc)
      refine ⟨events₁ ++ events₂, s₂, ?_, hfit₂, ?_, ?_, ?_⟩
      · simp only [List.map_cons, collect, hrest, Option.bind_eq_bind, Option.bind_some, hfeed,
          AnthropicState.feedPart_whole (hline chunk List.mem_cons_self)]
      · rw [List.flatMap_append, htext, htext₂]
        rfl
      · rw [hcounts₂, hcounts]
        rfl
      · rw [hstop₂, hstop]
        rfl

/-- **No more text is sent than the chunks hold**, and less when a content has a line
break that is not escaped. -/
theorem collect_length (h : s.Fit) {r : List SseEvent × AnthropicState}
    (hr : collect (AnthropicState.feedPart float) s
      (chunks.map fun chunk => str "data: " ++ dumps style chunk.json) = some r) :
    (r.1.flatMap SseEvent.textDelta).length ≤ (contents chunks).length ∧
      ((r.1.flatMap SseEvent.textDelta).length = (contents chunks).length →
        ∀ chunk ∈ chunks, ∀ c ∈ dumps style chunk.json, ¬ IsUnicodeBreak c) := by
  induction chunks generalizing s r with
  | nil =>
      obtain rfl := Option.some.inj hr
      exact ⟨le_rfl, fun _ chunk hchunk => by cases hchunk⟩
  | cons chunk chunks ih =>
      obtain ⟨r₁, r₂, hr₁, hr₂, rfl⟩ := collect_cons_eq_some.mp hr
      have hcontents : contents (chunk :: chunks) = chunk.content ++ contents chunks := rfl
      rw [hcontents, List.flatMap_append, List.length_append, List.length_append]
      by_cases hline : ∀ c ∈ dumps style chunk.json, ¬ IsUnicodeBreak c
      · obtain ⟨events, s', hfeed, hfit, htext, -⟩ :=
          @AnthropicState.feedObject_chunk float _ h chunk
        rw [AnthropicState.feedPart_whole hline, hfeed] at hr₁
        obtain rfl := Option.some.inj hr₁
        obtain ⟨hle, heq⟩ := ih hfit hr₂
        rw [htext]
        refine ⟨by omega, fun hlen chunk' hchunk' => ?_⟩
        rcases List.mem_cons.mp hchunk' with rfl | hchunk'
        · exact hline
        · exact heq (by omega) chunk' hchunk'
      · -- the content has a line break: nothing of it is sent
        push Not at hline
        obtain ⟨c, hc, hbreak⟩ := hline
        rcases chunk.written hc with hascii | ⟨hraw, -, hcontent, -⟩
        · unfold IsUnicodeBreak at hbreak
          omega
        · obtain rfl := AnthropicState.feedPart_broken hraw ⟨c, hcontent, hbreak⟩ hr₁
          obtain ⟨hle, -⟩ := ih h hr₂
          have hpos : 0 < chunk.content.length := List.length_pos_of_mem hcontent
          rw [List.flatMap_nil, List.length_nil]
          exact ⟨by omega, fun hlen => by omega⟩

theorem textDelta_sse {name : Str} {data : Json} {e : SseEvent} (h : sse float name data = some e)
    (hname : name ≠ str "content_block_delta") : e.textDelta = [] := by
  unfold sse at h
  split_ifs at h
  obtain rfl := Option.some.inj h
  exact if_neg hname

/-- The end of a stream sends no text. -/
theorem textDelta_finish {f : List SseEvent × AnthropicState} (h : s.finish float = some f) :
    f.1.flatMap SseEvent.textDelta = [] := by
  simp only [AnthropicState.finish, AnthropicState.ensureStarted, Option.bind_eq_bind,
    Option.bind_eq_some_iff] at h
  obtain ⟨started, ⟨message, hmessage, block, hblock, hstarted⟩, stop, hstop, delta, hdelta, last,
    hlast, hf⟩ := h
  obtain rfl := Option.some.inj hstarted
  obtain rfl := Option.some.inj hf
  have hone : ∀ {sent : Bool} {name : Str} {data : Json} {es : List SseEvent},
      name ≠ str "content_block_delta" →
      AnthropicState.sendOnce float sent name data = some es →
      es.flatMap SseEvent.textDelta = [] := by
    intro sent name data es hname hes
    unfold AnthropicState.sendOnce at hes
    split_ifs at hes
    · obtain rfl := Option.some.inj hes
      rfl
    · obtain ⟨e, he, rfl⟩ := Option.map_eq_some_iff.mp hes
      simp [textDelta_sse he hname]
  rw [List.flatMap_append, List.flatMap_append, hone (by decide) hmessage, hone (by decide) hblock]
  simp [textDelta_sse hstop (by decide), textDelta_sse hdelta (by decide),
    textDelta_sse hlast (by decide)]

theorem fit_init (model : UnicodeText) (messageId : Label) :
    (AnthropicStream.init model.text messageId.text).state.Fit :=
  ⟨model.isText, messageId.ascii,
    ⟨0, 0, rfl, natAbs_small (by decide), natAbs_small (by decide)⟩,
    (by decide : ∀ c ∈ str "end_turn", c < 128)⟩

/-- What the converter does with the pieces of a stream. -/
theorem openaiSseToAnthropicSse_eq {model messageId : Str} {pieces : List Bytes}
    (htext : (pieces.map decode).flatten = chatStream style chunks done) :
    openaiSseToAnthropicSse float model messageId pieces =
      (collect (AnthropicState.feedPart float) (AnthropicStream.init model messageId).state
        (chunks.map fun chunk => str "data: " ++ dumps style chunk.json)).bind fun r =>
          (r.2.finish float).map fun f => (r.1 ++ f.1, ⟨[], f.2⟩) := by
  have hfeed := @collect_feed float (AnthropicStream.init model messageId) pieces rfl
  have hbuffer : (AnthropicStream.init model messageId).buffer = [] := rfl
  rw [htext, hbuffer, List.nil_append, splitBlank_chatStream, collect_blocks] at hfeed
  rw [openaiSseToAnthropicSse, hfeed]
  cases collect (AnthropicState.feedPart float) (AnthropicStream.init model messageId).state
      (chunks.map fun chunk => str "data: " ++ dumps style chunk.json) with
  | none => rfl
  | some r =>
      simp only [Option.map_some, Option.bind_eq_bind, Option.bind_some]
      cases r.2.finish float <;> rfl

end Stream

/-- **When the converter is lossless**: the provider escapes the contents, or each cut is
between two characters and no content has a character that ends a line for `splitlines`. -/
theorem lossless_iff {float : Bool → ℕ → ℤ → Str} {model : UnicodeText} {messageId : Label}
    {chunks : List ChatChunk} {done : Bool} {pieces : List Bytes}
    (hpieces : pieces.flatten = encode (chatStream style chunks done)) :
    Lossless float model.text messageId.text chunks pieces ↔
      style.ensureAscii = true ∨
        CutsBetween pieces (chatStream style chunks done) ∧
          ∀ chunk ∈ chunks, ∀ c ∈ chunk.content, ¬ IsUnicodeBreak c := by
  have hfit := fit_init model messageId
  obtain ⟨text, rest, hdecode, hthins, hnil, hcut⟩ :=
    @decode_pieces_append pieces (chatStream style chunks done) []
      (by rw [List.append_nil]; exact hpieces) (by rw [List.append_nil]; exact isText_chatStream _ _)
  cases hnil
  rw [List.append_nil] at hdecode
  constructor
  · rintro ⟨events, s, hconvert, htext, -, -⟩
    obtain ⟨chunks', hthinned, rfl⟩ := thins_chatStream hthins
    rw [openaiSseToAnthropicSse_eq hdecode] at hconvert
    obtain ⟨r, hr, hconvert⟩ := Option.bind_eq_some_iff.mp hconvert
    obtain ⟨f, hf, hconvert⟩ := Option.map_eq_some_iff.mp hconvert
    obtain ⟨rfl, rfl⟩ := Prod.mk.inj hconvert
    rw [List.flatMap_append, textDelta_finish hf, List.append_nil] at htext
    -- no characters are lost: neither at a cut nor with a chunk
    obtain ⟨hsent, hall⟩ := collect_length hfit hr
    have hkept := hthinned.length_contents
    rw [htext] at hsent hall
    obtain rfl := hthinned.eq_of_length (by omega)
    cases hstyle : style.ensureAscii with
    | true => exact Or.inl rfl
    | false =>
        refine Or.inr ⟨hcut.mp rfl, fun chunk hchunk c hc hbreak => ?_⟩
        exact hall rfl chunk hchunk c (mem_dumps_of_content hstyle hc hbreak) hbreak
  · intro hcond
    have hwhole : text = chatStream style chunks done ∧
        ∀ chunk ∈ chunks, ∀ c ∈ dumps style chunk.json, ¬ IsUnicodeBreak c := by
      rcases hcond with hascii | ⟨hcuts, hbreaks⟩
      · have hsmall : ∀ chunk : ChatChunk, ∀ c ∈ dumps style chunk.json, 32 ≤ c ∧ c < 128 :=
          fun chunk c hc => (chunk.written hc).resolve_right fun h => by
            rw [hascii] at h
            exact Bool.noConfusion h.1
        refine ⟨hthins.eq_of_ascii (chatStream_ascii fun chunk _ c hc => (hsmall chunk c hc).2),
          fun chunk _ c hc hbreak => ?_⟩
        have := hsmall chunk c hc
        unfold IsUnicodeBreak at hbreak
        omega
      · refine ⟨hcut.mpr hcuts, fun chunk hchunk c hc hbreak => ?_⟩
        rcases chunk.written hc with h | ⟨-, -, hcontent, -⟩
        · unfold IsUnicodeBreak at hbreak
          omega
        · exact hbreaks chunk hchunk c hcontent hbreak
    obtain ⟨rfl, hline⟩ := hwhole
    obtain ⟨events, s, hcollect, hfit', htext, hcounts, hstop⟩ :=
      @collect_whole style float _ _ hfit hline
    obtain ⟨last, hlast, hnone⟩ := @AnthropicState.finish_eq float _ hfit'
    refine ⟨events ++ last, ⟨[], { s with started := true, contentStarted := true }⟩, ?_, ?_,
      hcounts, hstop⟩
    · rw [openaiSseToAnthropicSse_eq hdecode, hcollect, Option.bind_some, hlast]
      rfl
    · rw [List.flatMap_append, htext, hnone, List.append_nil]

/-- The letter é. -/
def eAcute : ChatChunk := textChunk ⟨[0xE9], by decide⟩

/-- The stream of one chunk, cut at byte 116. -/
def cutStream (style : DumpStyle) (chunk : ChatChunk) : List Bytes :=
  [(encode (chatStream style [chunk] false)).take 116,
    (encode (chatStream style [chunk] false)).drop 116]

theorem flatten_cutStream (style : DumpStyle) (chunk : ChatChunk) :
    (cutStream style chunk).flatten = encode (chatStream style [chunk] false) := by
  simp [cutStream]

theorem lossless_escaped :
    Lossless noFloats (str "m") (str "i") [eAcute] (cutStream (.compact noFloats) eAcute) :=
  (@lossless_iff _ _ ⟨str "m", by decide⟩ ⟨str "i", by decide⟩ _ _ _
    (flatten_cutStream (.compact noFloats) eAcute)).mpr (Or.inl rfl)

/-- A letter of two bytes is lost between two chunks, and a text with a line separator is
lost in one. -/
theorem raw_not_lossless :
    (¬ Lossless noFloats (str "m") (str "i") [eAcute] (cutStream (.raw noFloats) eAcute)) ∧
      ¬ Lossless noFloats (str "m") (str "i") [textChunk ⟨[0x61, 0x2028], by decide⟩]
        [encode (chatStream (.raw noFloats) [textChunk ⟨[0x61, 0x2028], by decide⟩] false)] := by
  have hcut : (openaiSseToAnthropicSse noFloats (str "m") (str "i")
      (cutStream (.raw noFloats) eAcute)).map (fun r => r.1.flatMap SseEvent.textDelta) =
        some [] := by decide +kernel
  have hbreak : (openaiSseToAnthropicSse noFloats (str "m") (str "i")
      [encode (chatStream (.raw noFloats) [textChunk ⟨[0x61, 0x2028], by decide⟩] false)]).map
        (fun r => r.1.flatMap SseEvent.textDelta) = some [] := by decide +kernel
  constructor
  · rintro ⟨events, s, hconvert, htext, -⟩
    rw [hconvert, Option.map_some, htext] at hcut
    exact absurd hcut (by decide)
  · rintro ⟨events, s, hconvert, htext, -⟩
    rw [hconvert, Option.map_some, htext] at hbreak
    exact absurd hbreak (by decide)

end Llmxy
