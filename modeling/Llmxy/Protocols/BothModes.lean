import Llmxy.Protocols.AnthropicCalls
import Llmxy.Protocols.ResponsesEvents
import Llmxy.Providers.AnthropicDetour

/-!
# A reply, whole and in pieces

The endpoints for messages and for responses convert a chat reply in two ways: at once, or event
by event when the client asked for a stream.  Either way the client ends up with a message: from
a responses stream it takes the response of the last event, and an Anthropic stream it puts
together itself.

## Main definitions

* `openaiChatToResponsesResponse` — the whole reply of the responses endpoint.
* `ClientMessage`, `messageOf` — what a client makes of the events of an Anthropic stream.
* `IsReply` — what a chat completion says.
* `responses_modes_agree_iff`, `messages_modes_agree_iff` — when both ways give the same message.
-/

namespace Llmxy

/-! ### Whole replies -/

/-- The usage of a response. -/
def responseUsage (prompt completion total : ℤ) : List (Str × Json) :=
  [(str "input_tokens", .int prompt), (str "output_tokens", .int completion),
    (str "total_tokens", .int total)]

/-- The fields of a completed response. -/
def ResponseHead.response (head : ResponseHead) (text : Str) (prompt completion total : ℤ) :
    List (Str × Json) :=
  head.stub head.completedAt (str "completed")
      [head.item (str "completed") [ResponseHead.part text]] ++
    [(str "output_text", .str text), (str "usage", .obj (responseUsage prompt completion total))]

/-- `int(usage.get(key) or default)`. -/
def countOr (key : Str) (default : ℤ) (usage : List (Str × Json)) : Option ℤ :=
  ((getTruthy key usage).getD (.int default)).toInt?

/-- `openai_chat_to_responses_response`.  `none` when it raises. -/
def openaiChatToResponsesResponse (repr : Json → Str) (head : ResponseHead) (body : Json) :
    Option Json := do
  let fields ← body.fields?
  let choice ← (bodyChoice fields).fields?
  let message ← ((getTruthy (str "message") choice).getD (.obj [])).fields?
  let text ← contentToText repr ((Json.lookup (str "content") message).getD .null)
  let usage ← ((getTruthy (str "usage") fields).getD (.obj [])).fields?
  let promptTokens ← countOr (str "prompt_tokens") 0 usage
  let completionTokens ← countOr (str "completion_tokens") 0 usage
  let totalTokens ← countOr (str "total_tokens") (promptTokens + completionTokens) usage
  some (.obj (head.response text promptTokens completionTokens totalTokens))

/-- What a chat completion says: the text and the finish reason of its choice, and its usage. -/
structure IsReply (fields : List (Str × Json)) (text : Str) (reason : Json)
    (prompt completion : ℤ) (total : Option Json) : Prop where
  choice : ∃ choice message, bodyChoice fields = .obj choice ∧
    Json.lookup (str "message") choice = some (.obj message) ∧
    Json.lookup (str "content") message = some (.str text) ∧
    (Json.lookup (str "finish_reason") choice).getD .null = reason
  usage : ∃ usage, Json.lookup (str "usage") fields = some (.obj usage) ∧
    Json.lookup (str "prompt_tokens") usage = some (.int prompt) ∧
    Json.lookup (str "completion_tokens") usage = some (.int completion) ∧
    getTruthy (str "total_tokens") usage = total

/-! ### What a client makes of an Anthropic stream -/

/-- A message as far as a client knows it. -/
structure ClientMessage where
  id : Json
  model : Str
  blocks : List Str
  stopReason : Str
  inputTokens : Json
  outputTokens : Json

/-- The message as a whole reply has it. -/
def ClientMessage.json (msg : ClientMessage) : Json :=
  anthropicMessage msg.id msg.model (msg.blocks.map fun t => textBlock (.str t)) msg.stopReason
    msg.inputTokens msg.outputTokens

/-- The message that `message_start` opens. -/
def openedMessage (data : Json) : ClientMessage :=
  let message := fieldOf (str "message") data
  { id := fieldOf (str "id") message
    model := (fieldOf (str "model") message).str?.getD []
    blocks := []
    stopReason := []
    inputTokens := fieldOf (str "input_tokens") (fieldOf (str "usage") message)
    outputTokens := fieldOf (str "output_tokens") (fieldOf (str "usage") message) }

/-- A text goes on in the block of an event. -/
def ClientMessage.append (msg : ClientMessage) (index : Json) (text : Str) : ClientMessage :=
  { msg with blocks := msg.blocks.modify (index.toInt?.getD 0).toNat fun t => t ++ text }

/-- What a client does with an event. -/
def ClientMessage.receive (msg : Option ClientMessage) (e : SseEvent) : Option ClientMessage :=
  if e.name = str "message_start" then some (openedMessage e.data)
  else if e.name = str "content_block_start" then
    msg.map fun m => { m with blocks := m.blocks ++ [[]] }
  else if e.name = str "content_block_delta" then
    msg.map fun m => m.append (fieldOf (str "index") e.data)
      ((pieceText (fieldOf (str "delta") e.data)).getD [])
  else if e.name = str "message_delta" then
    msg.map fun m => { m with
      stopReason := (fieldOf (str "stop_reason") (fieldOf (str "delta") e.data)).str?.getD []
      outputTokens := fieldOf (str "output_tokens") (fieldOf (str "usage") e.data) }
  else msg

/-- The message of a stream. -/
def messageOf (events : List SseEvent) : Option ClientMessage :=
  events.foldl ClientMessage.receive none

section
variable {float : Bool → ℕ → ℤ → Str} {repr : Json → Str} {head : ResponseHead}
  {fields : List (Str × Json)} {text : Str} {reason : Json} {prompt completion : ℤ}
  {total : Option Json}

/-! ### What a whole reply becomes -/

theorem getTruthy_obj {key : Str} {fs xs : List (Str × Json)} {x : Str × Json}
    (h : Json.lookup key fs = some (.obj (x :: xs))) :
    getTruthy key fs = some (.obj (x :: xs)) := by
  rw [getTruthy, h]
  rfl

theorem ne_nil_of_lookup {key : Str} {fs : List (Str × Json)} {v : Json}
    (h : Json.lookup key fs = some v) : ∃ x xs, fs = x :: xs := by
  cases fs with
  | nil => cases h
  | cons x xs => exact ⟨x, xs, rfl⟩

/-- The message of the choice of a reply. -/
theorem IsReply.message (h : IsReply fields text reason prompt completion total) :
    ∃ choice message, bodyChoice fields = .obj choice ∧
      (getTruthy (str "message") choice).getD (.obj []) = .obj message ∧
      Json.lookup (str "content") message = some (.str text) ∧
      (Json.lookup (str "finish_reason") choice).getD .null = reason := by
  obtain ⟨choice, message, hchoice, hmessage, hcontent, hreason⟩ := h.choice
  obtain ⟨x, xs, rfl⟩ := ne_nil_of_lookup hcontent
  exact ⟨choice, _, hchoice, by rw [getTruthy_obj hmessage]; rfl, hcontent, hreason⟩

/-- The usage of a reply. -/
theorem IsReply.counts (h : IsReply fields text reason prompt completion total) :
    ∃ usage, (getTruthy (str "usage") fields).getD (.obj []) = .obj usage ∧
      Json.lookup (str "prompt_tokens") usage = some (.int prompt) ∧
      Json.lookup (str "completion_tokens") usage = some (.int completion) ∧
      getTruthy (str "total_tokens") usage = total := by
  obtain ⟨usage, husage, hprompt, hcompletion, htotal⟩ := h.usage
  obtain ⟨x, xs, rfl⟩ := ne_nil_of_lookup hprompt
  exact ⟨_, by rw [getTruthy_obj husage]; rfl, hprompt, hcompletion, htotal⟩

/-- A count is read as it is. -/
theorem countOr_zero {key : Str} {usage : List (Str × Json)} {n : ℤ}
    (h : Json.lookup key usage = some (.int n)) : countOr key 0 usage = some n := by
  rw [countOr, getTruthy, h]
  by_cases hn : n = 0
  · simp [Option.filter, Json.truthy, hn, Json.toInt?]
  · simp [Option.filter, Json.truthy, hn, Json.toInt?]

/-- The response that a chat completion becomes, if its total is a number. -/
theorem openaiChatToResponsesResponse_eq
    (h : IsReply fields text reason prompt completion total) :
    openaiChatToResponsesResponse repr head (.obj fields) =
      (total.getD (.int (prompt + completion))).toInt?.map fun n =>
        .obj (head.response text prompt completion n) := by
  obtain ⟨choice, message, hchoice, hmessage, hcontent, -⟩ := h.message
  obtain ⟨usage, husage, hprompt, hcompletion, htotal⟩ := h.counts
  have htotalOr : countOr (str "total_tokens") (prompt + completion) usage =
      (total.getD (.int (prompt + completion))).toInt? := by rw [countOr, htotal]
  simp only [openaiChatToResponsesResponse, Json.fields?, hchoice, hmessage, hcontent, husage,
    countOr_zero hprompt, countOr_zero hcompletion, htotalOr, Option.getD_some, contentToText,
    Option.bind_eq_bind, Option.bind_some]
  cases (total.getD (.int (prompt + completion))).toInt? <;> rfl

/-- The Anthropic message that a chat completion becomes. -/
theorem openaiToAnthropicResponse_of_isReply (freshId model : Str)
    (h : IsReply fields text reason prompt completion total) :
    openaiToAnthropicResponse freshId (.obj fields) model =
      some (anthropicMessage ((getTruthy (str "id") fields).getD (.str freshId)) model
        [textBlock (.str text)] (finishReasonToAnthropic reason) (.int prompt)
        (.int completion)) := by
  obtain ⟨choice, message, hchoice, hmessage, hcontent, hreason⟩ := h.message
  obtain ⟨usage, husage, hprompt, hcompletion, -⟩ := h.counts
  have htext : (getTruthy (str "content") message).getD (.str []) = .str text := by
    rw [getTruthy, hcontent]
    cases text <;> rfl
  simp only [openaiToAnthropicResponse, Json.fields?, hchoice, hmessage, husage, hprompt,
    hcompletion, intOr_int, htext, hreason, Option.bind_eq_bind, Option.bind_some]
  rfl

/-! ### Responses -/

/-- The response that a client takes from a stream. -/
def completedResponse (events : List SseEvent) : Option Json :=
  events.getLast?.bind fun e => e.data.get? (str "response")

/-- The count that a stream reports: the last one that its chunks set. -/
def reportedCount (key : Str) (chunks : List DecodedChunk) : ℤ :=
  (countsOf key chunks).getLast?.getD 0

/-- What is sent for chunks, when nothing raises. -/
theorem events_of_chunks {chunks : List DecodedChunk} {pieces : List Bytes}
    {events : List SseEvent} (hchunks : iterSseEvents [] pieces = chunks.map DecodedChunk.obj)
    (hsent : openaiChatSseToResponsesSse repr float head pieces = some events) :
    events = responsesEvents head (chunks.filterMap DecodedChunk.text?)
      (reportedCount (str "prompt_tokens") chunks)
      (reportedCount (str "completion_tokens") chunks) := by
  rw [openaiChatSseToResponsesSse, hchunks] at hsent
  obtain ⟨received, hreceived, hsent⟩ := Option.bind_eq_some_iff.mp hsent
  obtain ⟨finished, hfinished, hsent⟩ := Option.bind_eq_some_iff.mp hsent
  obtain ⟨rfl, htexts⟩ := collect_some hreceived
  have hflat : IsText (chunks.filterMap DecodedChunk.text?).flatten := by
    intro c hc
    obtain ⟨t, ht, hc⟩ := List.mem_flatten.mp hc
    exact htexts t ht c hc
  rw [List.nil_append, finish_eq hflat] at hfinished
  obtain ⟨-, hfinished⟩ := Option.ite_none_right_eq_some.mp hfinished
  obtain rfl := Option.some.inj hfinished
  rw [← Option.some.inj hsent]
  exact textEvents_finish _ _ _

/-- **When a streamed response is the whole one.**  The last event of a stream carries the
response that the same reply is converted to at once exactly when the total that the whole reply
reports, if it reports one, is the sum of its counts. -/
theorem responses_modes_agree_iff {chunks : List DecodedChunk} {pieces : List Bytes}
    {events : List SseEvent} (hchunks : iterSseEvents [] pieces = chunks.map DecodedChunk.obj)
    (hsent : openaiChatSseToResponsesSse repr float head pieces = some events)
    (hreply : IsReply fields (chunks.filterMap DecodedChunk.text?).flatten reason
      (reportedCount (str "prompt_tokens") chunks) (reportedCount (str "completion_tokens") chunks)
      total) :
    completedResponse events = openaiChatToResponsesResponse repr head (.obj fields) ↔
      ∀ t ∈ total, t.toInt? = some (reportedCount (str "prompt_tokens") chunks +
        reportedCount (str "completion_tokens") chunks) := by
  rw [events_of_chunks hchunks hsent, openaiChatToResponsesResponse_eq hreply]
  have hlast : ∀ texts p c, completedResponse (responsesEvents head texts p c) =
      some (.obj (head.response texts.flatten p c (p + c))) := by
    intro texts p c
    rw [completedResponse, responsesEvents, List.getLast?_concat]
    rfl
  rw [hlast]
  cases total with
  | none => exact iff_of_true rfl fun t ht => by cases ht
  | some t =>
      rw [Option.getD_some]
      constructor
      · intro heq t' ht'
        obtain rfl := Option.some.inj ht'
        obtain ⟨n, hn, hresponse⟩ := Option.map_eq_some_iff.mp heq.symm
        rw [hn]
        simp only [ResponseHead.response, responseUsage, Json.obj.injEq, List.append_cancel_left_eq,
          List.cons.injEq, Prod.mk.injEq, Json.int.injEq] at hresponse
        simp_all
      · intro h
        rw [h t rfl]
        rfl

/-! ### What the converter has been given -/

/-- The content of an object, if it counts as true. -/
def ConverterInput.content? : ConverterInput → Option Json
  | .object obj => obj.fields?.bind readContent
  | .usage _ => none

/-- The prompt tokens that an input sets. -/
def ConverterInput.prompt? : ConverterInput → Option ℤ
  | .object obj => obj.fields?.bind (chunkCount (str "prompt_tokens"))
  | .usage u => countOf (str "prompt_tokens") u

/-- The finish reason that an input sets. -/
def ConverterInput.finishReason? : ConverterInput → Option Json
  | .object obj => do
      let fields ← obj.fields?
      let choice ← (← firstChoice fields).fields?
      getTruthy (str "finish_reason") choice
  | .usage _ => none

/-- The contents of the inputs. -/
def contentsOf (items : List ConverterInput) : List Json := items.filterMap ConverterInput.content?

/-- The prompt tokens set last. -/
def lastPrompt (items : List ConverterInput) : ℤ :=
  (items.filterMap ConverterInput.prompt?).getLast?.getD 0

/-- The finish reason set last. -/
def lastReason (items : List ConverterInput) : Json :=
  (items.filterMap ConverterInput.finishReason?).getLast?.getD .null

/-- The prompt tokens that were known when the first content came, or at the end if none did. -/
def openingPrompt (items : List ConverterInput) : ℤ :=
  lastPrompt (items.take (items.findIdx (fun item => item.content?.isSome) + 1))

theorem finishReasonToAnthropic_lastReason (items : List ConverterInput) :
    finishReasonToAnthropic (lastReason items) = lastStopReason items := by
  have hstop : ConverterInput.stopReason? = fun item : ConverterInput =>
      item.finishReason?.map finishReasonToAnthropic := by
    funext item
    cases item with
    | usage u => rfl
    | object obj =>
        simp only [ConverterInput.stopReason?, ConverterInput.finishReason?, Option.bind_eq_bind,
          Option.map_bind, Function.comp_def]
  rw [lastReason, lastStopReason, hstop, ← List.map_filterMap, List.getLast?_map]
  cases (items.filterMap ConverterInput.finishReason?).getLast? <;> rfl

theorem findIdx_content {items : List ConverterInput} :
    items.findIdx (fun item => item.content?.isSome) < items.length ↔ contentsOf items ≠ [] := by
  rw [List.findIdx_lt_length, contentsOf, Ne, List.filterMap_eq_nil_iff]
  simp [Option.ne_none_iff_isSome]

/-- Nothing is opened any more. -/
theorem openingPrompt_concat {items : List ConverterInput} (h : contentsOf items ≠ [])
    (item : ConverterInput) : openingPrompt (items ++ [item]) = openingPrompt items := by
  have hlt := findIdx_content.mpr h
  rw [openingPrompt, openingPrompt, List.findIdx_append, if_pos hlt,
    List.take_append_of_le_length (by omega)]

/-- Before the first content, all inputs count. -/
theorem openingPrompt_eq {items : List ConverterInput} (h : contentsOf items = []) :
    openingPrompt items = lastPrompt items := by
  have hle := not_lt.mp (mt findIdx_content.mp (not_not.mpr h))
  rw [openingPrompt, List.take_of_length_le (by omega)]

/-- And so they do with the first content. -/
theorem openingPrompt_first {items : List ConverterInput} (h : contentsOf items = [])
    (item : ConverterInput) : openingPrompt (items ++ [item]) = lastPrompt (items ++ [item]) := by
  have hle := not_lt.mp (mt findIdx_content.mp (not_not.mpr h))
  rw [openingPrompt, List.findIdx_append, if_neg (not_lt.mpr hle), List.take_of_length_le]
  simp only [List.length_append, List.length_cons, List.length_nil]
  omega

theorem contentsOf_concat (items : List ConverterInput) (item : ConverterInput) :
    contentsOf (items ++ [item]) = contentsOf items ++ item.content?.toList := by
  rw [contentsOf, contentsOf, List.filterMap_append]
  cases hitem : item.content? with
  | none => rw [List.filterMap_cons_none hitem]; rfl
  | some c => rw [List.filterMap_cons_some hitem]; rfl

/-- What was sent carries what was read. -/
structure Carrying (model messageId : Str) (items : List ConverterInput) (s : AnthropicState)
    (events : List SseEvent) : Prop extends Converting model messageId items s events where
  prompt : s.counts.1 = .int (lastPrompt items)
  events_eq : events = if contentsOf items = [] then []
    else anthropicOpened model messageId (openingPrompt items) (contentsOf items)

section
variable {model messageId : Str} {items : List ConverterInput} {s : AnthropicState}
  {events : List SseEvent}

theorem Carrying.init (model messageId : Str) :
    Carrying model messageId [] (AnthropicStream.init model messageId).state [] :=
  ⟨.init model messageId, rfl, rfl⟩

/-- Nothing is sent for an input without a content. -/
theorem Carrying.quiet (h : Carrying model messageId items s events) {item : ConverterInput}
    {t : AnthropicState} (hconverting : Converting model messageId (items ++ [item]) t events)
    (hprompt : t.counts.1 = .int (lastPrompt (items ++ [item]))) (hitem : item.content? = none) :
    Carrying model messageId (items ++ [item]) t events := by
  refine ⟨hconverting, hprompt, ?_⟩
  have hcontents : contentsOf (items ++ [item]) = contentsOf items := by
    rw [contentsOf_concat, hitem]
    exact List.append_nil _
  rw [hcontents]
  refine h.events_eq.trans ?_
  by_cases hnil : contentsOf items = []
  · rw [if_pos hnil, if_pos hnil]
  · rw [if_neg hnil, if_neg hnil, openingPrompt_concat hnil]

/-- With what opens the message, if it was not opened, the texts so far are a message. -/
theorem Carrying.opened (h : Carrying model messageId items s events) {counts : Counts}
    {stopReason : Str} {p : ℤ} (hp : counts.1 = .int p) :
    events ++ AnthropicState.opening { s with counts, stopReason } =
      anthropicOpened model messageId (if contentsOf items = [] then p else openingPrompt items)
        (contentsOf items) := by
  have hevents := h.events_eq
  obtain ⟨hstarted, hcontent, rfl⟩ | ⟨hstarted, hcontent, prompt, contents, hopened⟩ := h.begun
  · have hnil : contentsOf items = [] := by
      by_contra hne
      rw [if_neg hne] at hevents
      cases hevents
    rw [AnthropicState.opening, hstarted, hcontent, hnil, if_pos rfl, AnthropicState.messageStart,
      h.model_eq, h.messageId_eq, hp]
    rfl
  · have hne : contentsOf items ≠ [] := by
      intro hnil
      rw [if_pos hnil] at hevents
      cases hevents.symm.trans hopened
    rw [AnthropicState.opening, hstarted, hcontent, if_neg hne, hevents, if_neg hne]
    exact List.append_nil _

/-- One input. -/
theorem Carrying.receive (h : Carrying model messageId items s events) (hm : IsText model)
    (hid : IsText messageId) {item : ConverterInput} {r : List SseEvent × AnthropicState}
    (hr : s.receive float item = some r) :
    Carrying model messageId (items ++ [item]) r.2 (events ++ r.1) := by
  have hconverting := h.toConverting.receive hm hid hr
  obtain ⟨p, hcounts⟩ := h.counts
  obtain rfl : p = lastPrompt items := by
    have hprompt := h.prompt
    rw [hcounts] at hprompt
    exact Json.int.inj hprompt
  have hlast : lastPrompt (items ++ [item]) = item.prompt?.getD (lastPrompt items) :=
    getLast?_filterMap_concat _ _ _ _
  cases item with
  | usage u =>
      obtain ⟨counts, hread, rfl⟩ := Option.map_eq_some_iff.mp hr
      rw [hcounts] at hread
      rw [List.append_nil] at hconverting ⊢
      refine h.quiet hconverting ?_ rfl
      rw [hlast, translatedCounts_some hread]
      rfl
  | object obj =>
      obtain ⟨fields, counts, first, choice, delta, hfields, hread, hfirst, hchoice, hdelta,
        hsend⟩ := feedObject_some hr
      rw [hcounts] at hread
      have hprompt : counts.1 = .int (lastPrompt (items ++ [.object obj])) := by
        rw [hlast, readCounts_some hread, ConverterInput.prompt?, hfields, Option.bind_some]
      have hitem : (ConverterInput.object obj).content? = getTruthy (str "content") delta := by
        rw [ConverterInput.content?, hfields, Option.bind_some,
          readContent_eq hfirst hchoice hdelta]
      rw [AnthropicState.sendContent] at hsend
      cases hcontent : getTruthy (str "content") delta with
      | none =>
          rw [hcontent] at hsend
          obtain rfl := Option.some.inj hsend
          rw [List.append_nil] at hconverting ⊢
          exact h.quiet hconverting hprompt (hitem.trans hcontent)
      | some content =>
          have hsendable : AnthropicState.Sendable { s with
              counts, stopReason := AnthropicState.readStopReason choice s.stopReason } := by
            refine ⟨h.model_eq ▸ hm, h.messageId_eq ▸ hid, ⟨_, _, readCounts_some hread⟩, ?_⟩
            show IsText (AnthropicState.readStopReason choice s.stopReason)
            rw [readStopReason_eq]
            cases getTruthy (str "finish_reason") choice with
            | none => exact h.stopText
            | some reason => exact isText_finishReasonToAnthropic reason
          rw [hcontent] at hsend
          simp only [AnthropicState.ensureStarted_sendable hsendable, Option.bind_eq_bind,
            Option.bind_some, Option.bind_eq_some_iff, Option.some.injEq] at hsend
          obtain ⟨event, hevent, rfl⟩ := hsend
          rw [sse_eq (by decide)] at hevent
          split_ifs at hevent
          obtain rfl := Option.some.inj hevent
          refine ⟨hconverting, hprompt, ?_⟩
          have hcontents : contentsOf (items ++ [.object obj]) = contentsOf items ++ [content] := by
            rw [contentsOf_concat, hitem, hcontent]
            rfl
          have hopening : (if contentsOf items = [] then lastPrompt (items ++ [.object obj])
              else openingPrompt items) = openingPrompt (items ++ [.object obj]) := by
            split_ifs with hnil
            · exact (openingPrompt_first hnil _).symm
            · exact (openingPrompt_concat hnil _).symm
          have hne : contentsOf items ++ [content] ≠ [] :=
            List.append_ne_nil_of_right_ne_nil _ (List.cons_ne_nil content [])
          rw [hcontents, if_neg hne, ← List.append_assoc, h.opened hprompt, hopening,
            anthropicOpened_concat]

/-- Any inputs. -/
theorem Carrying.collect (h : Carrying model messageId items s events) (hm : IsText model)
    (hid : IsText messageId) {more : List ConverterInput} {r : List SseEvent × AnthropicState}
    (hr : collect (AnthropicState.receive float) s more = some r) :
    Carrying model messageId (items ++ more) r.2 (events ++ r.1) := by
  induction more generalizing items s events r with
  | nil =>
      obtain rfl := Option.some.inj hr
      rw [List.append_nil, List.append_nil]
      exact h
  | cons item more ih =>
      obtain ⟨r₁, r₂, hr₁, hr₂, rfl⟩ := collect_cons_eq_some.mp hr
      have hrest := ih (h.receive hm hid hr₁) hr₂
      rw [List.append_assoc] at hrest
      rw [← List.append_assoc]
      exact hrest

end

/-! ### Messages -/

/-- What any calls send, when nothing raises. -/
theorem events_carry {model : UnicodeText} {messageId : Label} {calls : List ConverterCall}
    {events : List SseEvent} {s : AnthropicStream} {last : List SseEvent × AnthropicState}
    (h : collect (AnthropicStream.call float) (.init model.text messageId.text) calls =
      some (events, s))
    (hlast : s.state.finish float = some last) :
    events ++ last.1 = anthropicEvents model.text messageId.text
      (openingPrompt (inputs [] calls)) (contentsOf (inputs [] calls))
      (lastStopReason (inputs [] calls)) (lastCompletion (inputs [] calls)) := by
  have hm := model.isText
  have hid := isText_of_ascii messageId.ascii
  have hread : some (events, s.state) = collect (AnthropicState.receive float)
      (AnthropicStream.init model.text messageId.text).state (inputs [] calls) := by
    have hcalls := @collect_call float (.init model.text messageId.text) calls
    rw [h] at hcalls
    exact hcalls
  have hall : Carrying model.text messageId.text (inputs [] calls) s.state events :=
    (Carrying.init model.text messageId.text).collect hm hid hread.symm
  have hopened : events ++ s.state.opening = anthropicOpened model.text messageId.text
      (if contentsOf (inputs [] calls) = [] then lastPrompt (inputs [] calls)
        else openingPrompt (inputs [] calls)) (contentsOf (inputs [] calls)) :=
    hall.opened hall.prompt
  have hprompt : (if contentsOf (inputs [] calls) = [] then lastPrompt (inputs [] calls)
      else openingPrompt (inputs [] calls)) = openingPrompt (inputs [] calls) := by
    split_ifs with hnil
    · exact (openingPrompt_eq hnil).symm
    · rfl
  obtain ⟨p, hcounts⟩ := hall.counts
  rw [AnthropicState.finish_sendable (hall.toConverting.sendable hm hid)] at hlast
  obtain rfl := Option.some.inj hlast
  rw [← List.append_assoc, hopened, hprompt, AnthropicState.closing, hcounts, hall.stopReason]
  rfl

/-- The texts of a message end up in its block. -/
theorem foldl_deltas {msg : ClientMessage} {t : Str} (h : msg.blocks = [t]) (texts : List Str) :
    ((texts.map Json.str).map fun c =>
        (⟨str "content_block_delta", AnthropicState.contentBlockDelta c⟩ : SseEvent)).foldl
      ClientMessage.receive (some msg) = some { msg with blocks := [t ++ texts.flatten] } := by
  induction texts generalizing msg t with
  | nil =>
      rw [List.flatten_nil, List.append_nil, ← h]
      rfl
  | cons text texts ih =>
      have hnext : ClientMessage.receive (some msg)
          ⟨str "content_block_delta", AnthropicState.contentBlockDelta (.str text)⟩ =
            some { msg with blocks := [t ++ text] } := by
        show some { msg with blocks := msg.blocks.modify 0 fun t => t ++ text } = _
        rw [h]
        rfl
      rw [List.map_cons, List.map_cons, List.foldl_cons, hnext, ih rfl, List.flatten_cons,
        List.append_assoc]

/-- The message of a stream. -/
theorem messageOf_anthropicEvents (model messageId : Str) (prompt : ℤ) (texts : List Str)
    (stopReason : Str) (completion : ℤ) :
    messageOf (anthropicEvents model messageId prompt (texts.map .str) stopReason completion) =
      some ⟨.str messageId, model, [texts.flatten], stopReason, .int prompt, .int completion⟩ := by
  have hstart : ∀ events, List.foldl ClientMessage.receive none
      (anthropicOpened model messageId prompt [] ++ events) =
        events.foldl ClientMessage.receive
          (some ⟨.str messageId, model, [[]], [], .int prompt, .int 0⟩) := fun _ => rfl
  rw [messageOf, anthropicEvents, anthropicOpened, List.append_assoc]
  refine (hstart _).trans ?_
  rw [List.foldl_append, foldl_deltas rfl]
  rfl

/-- **When a streamed message is the whole one.**  Whatever a converter is given in which order,
the message that a client puts together is the one that the same reply is converted to at once,
but for its id, exactly when the prompt tokens had been set before the first text was sent. -/
theorem messages_modes_agree_iff {model : UnicodeText} {messageId : Label}
    {calls : List ConverterCall} {events : List SseEvent} {s : AnthropicStream}
    {last : List SseEvent × AnthropicState}
    (h : collect (AnthropicStream.call float) (.init model.text messageId.text) calls =
      some (events, s))
    (hlast : s.state.finish float = some last) {texts : List Str}
    (htexts : contentsOf (inputs [] calls) = texts.map .str)
    (hreply : IsReply fields texts.flatten (lastReason (inputs [] calls))
      (lastPrompt (inputs [] calls)) (lastCompletion (inputs [] calls)) total) (freshId : Str) :
    ∃ msg, messageOf (events ++ last.1) = some msg ∧
      ((∃ id, openaiToAnthropicResponse freshId (.obj fields) model.text =
          some { msg with id }.json) ↔
        openingPrompt (inputs [] calls) = lastPrompt (inputs [] calls)) := by
  rw [events_carry h hlast, htexts, messageOf_anthropicEvents]
  refine ⟨_, rfl, ?_⟩
  rw [openaiToAnthropicResponse_of_isReply _ _ hreply, finishReasonToAnthropic_lastReason]
  constructor
  · rintro ⟨id, hid⟩
    simp only [ClientMessage.json, anthropicMessage, Option.some.injEq, Json.obj.injEq,
      List.cons.injEq, Prod.mk.injEq, Json.int.injEq] at hid
    simp_all
  · intro heq
    rw [heq]
    exact ⟨_, rfl⟩

/-- A chat completion with one letter. -/
def letterReply (reason : Json) (completion : ℤ) : List (Str × Json) :=
  [(str "id", .str (str "chatcmpl-1")),
    (str "choices", .arr [.obj [(str "message", chatMessage (.str (str "assistant"))
      (.str (str "a"))), (str "finish_reason", reason)]]),
    (str "usage", .obj [(str "prompt_tokens", .int 0), (str "completion_tokens", .int completion)])]

theorem isReply_letter (reason : Json) (completion : ℤ) :
    IsReply (letterReply reason completion) (str "a") reason 0 completion none :=
  ⟨⟨_, _, rfl, rfl, rfl, rfl⟩, _, rfl, rfl, rfl, rfl⟩

/-- The same letter in a stream. -/
def letterChunk : DecodedChunk where
  event := none
  fields := [(str "choices", .arr [.obj [(str "delta", .obj [(str "content", .str (str "a"))])]])]
  isStr := fun _ h => ⟨str "a", (Option.some.inj h).symm⟩

/-- Its bytes. -/
def letterPiece : Bytes :=
  encode (str "data: \x7b\"choices\":[\x7b\"delta\":\x7b\"content\":\"a\"\x7d\x7d]\x7d\n\n")

theorem responses_modes_agree_letter :
    ∃ events, openaiChatSseToResponsesSse (fun _ => []) noFloats plainHead [letterPiece] =
        some events ∧
      completedResponse events =
        openaiChatToResponsesResponse (fun _ => []) plainHead (.obj (letterReply .null 0)) := by
  have hsome : (openaiChatSseToResponsesSse (fun _ => []) noFloats plainHead
      [letterPiece]).isSome = true := by decide +kernel
  have hchunks : iterSseEvents [] [letterPiece] = [letterChunk].map DecodedChunk.obj := by
    decide +kernel
  obtain ⟨events, hsent⟩ := Option.isSome_iff_exists.mp hsome
  exact ⟨events, hsent,
    (responses_modes_agree_iff hchunks hsent (isReply_letter .null 0)).mpr fun _ h => by cases h⟩

theorem messages_modes_agree_hello :
    ∃ events s last msg, collect (AnthropicStream.call noFloats) (.init (str "m") (str "i"))
        helloCalls = some (events, s) ∧
      s.state.finish noFloats = some last ∧ messageOf (events ++ last.1) = some msg ∧
      ∃ id, openaiToAnthropicResponse (str "msg_1") (.obj (letterReply .null 3)) (str "m") =
        some { msg with id }.json := by
  have hsome : ((collect (AnthropicStream.call noFloats) (.init (str "m") (str "i"))
      helloCalls).bind fun r => r.2.state.finish noFloats).isSome = true := by decide +kernel
  obtain ⟨last, hfinish⟩ := Option.isSome_iff_exists.mp hsome
  obtain ⟨⟨events, s⟩, h, hlast⟩ := Option.bind_eq_some_iff.mp hfinish
  have htexts : contentsOf (inputs [] helloCalls) = [str "a"].map .str := by decide +kernel
  have hreason : lastReason (inputs [] helloCalls) = .null := by decide +kernel
  have hprompt : lastPrompt (inputs [] helloCalls) = 0 := by decide +kernel
  have hcompletion : lastCompletion (inputs [] helloCalls) = 3 := by decide +kernel
  have hopening : openingPrompt (inputs [] helloCalls) = 0 := by decide +kernel
  obtain ⟨msg, hmsg, hagree⟩ := @messages_modes_agree_iff noFloats (letterReply .null 3) none
    ⟨str "m", by decide⟩ ⟨str "i", by decide⟩ helloCalls events s last h hlast [str "a"] htexts
    (by rw [hreason, hprompt, hcompletion]; exact isReply_letter .null 3) (str "msg_1")
  exact ⟨events, s, last, msg, h, hlast, hmsg, hagree.mpr (hopening.trans hprompt.symm)⟩

end

end Llmxy
