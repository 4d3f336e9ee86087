import Llmxy.Lib.Loops
import Llmxy.Protocols.EventBlock

/-!
# The stream converters of the responses endpoint

`openai_chat_sse_to_responses_sse` turns a chat stream into the events of a responses
stream, which it writes with all characters as they are; `responses_sse_to_openai_chat_sse`
turns them back.  Both read their input with `_iter_sse_events`.

## Main definitions

* `openaiChatSseToResponsesSse`, `responsesSseToOpenaiChatSse` — the converters.
* `RoundTrips` — the second gives back the texts and the tokens of the first's input.
* `roundTrips_iff` — when it does.
-/

namespace Llmxy

/-! ### From chat to responses -/

/-- What the first converter writes besides its input. -/
structure ResponseHead where
  responseId : Label
  itemId : Label
  model : UnicodeText
  /-- The time of the first event, and of the last. -/
  createdAt : {n : ℤ // n.natAbs < 10 ^ maxIntDigits}
  completedAt : {n : ℤ // n.natAbs < 10 ^ maxIntDigits}

namespace ResponseHead
variable (head : ResponseHead)

/-- `_response_stub`, with the output. -/
def stub (createdAt : ℤ) (status : Str) (output : List Json) : List (Str × Json) :=
  [(str "id", .str head.responseId.text), (str "object", .str (str "response")),
    (str "created_at", .int createdAt), (str "status", .str status),
    (str "model", .str head.model.text), (str "output", .arr output)]

/-- The fields that say where a text stands. -/
def place : List (Str × Json) :=
  [(str "item_id", .str head.itemId.text), (str "output_index", .int 0),
    (str "content_index", .int 0)]

def part (text : Str) : Json :=
  .obj [(str "type", .str (str "output_text")), (str "text", .str text),
    (str "annotations", .arr [])]

def item (status : Str) (content : List Json) : Json :=
  .obj [(str "id", .str head.itemId.text), (str "type", .str (str "message")),
    (str "status", .str status), (str "role", .str (str "assistant")),
    (str "content", .arr content)]

/-- An event has its name as its type. -/
def event (name : Str) (fields : List (Str × Json)) : SseEvent :=
  ⟨name, .obj ((str "type", .str name) :: fields)⟩

def created : SseEvent :=
  event (str "response.created")
    [(str "response", .obj (head.stub head.createdAt (str "in_progress") []))]

def itemAdded : SseEvent :=
  event (str "response.output_item.added")
    [(str "output_index", .int 0), (str "item", head.item (str "in_progress") [])]

def partAdded : SseEvent :=
  event (str "response.content_part.added") (head.place ++ [(str "part", part [])])

def textDelta (text : Json) : SseEvent :=
  event (str "response.output_text.delta") (head.place ++ [(str "delta", text)])

def textDone (text : Str) : SseEvent :=
  event (str "response.output_text.done") (head.place ++ [(str "text", .str text)])

def partDone (text : Str) : SseEvent :=
  event (str "response.content_part.done") (head.place ++ [(str "part", part text)])

def itemDone (text : Str) : SseEvent :=
  event (str "response.output_item.done")
    [(str "output_index", .int 0), (str "item", head.item (str "completed") [part text])]

def completed (text : Str) (prompt completion : ℤ) : SseEvent :=
  event (str "response.completed")
    [(str "response", .obj (head.stub head.completedAt (str "completed")
        [head.item (str "completed") [part text]] ++
      [(str "output_text", .str text),
        (str "usage", .obj [(str "input_tokens", .int prompt), (str "output_tokens", .int completion),
          (str "total_tokens", .int (prompt + completion))])]))]

/-- The events before the first text. -/
def starting : List SseEvent := [head.created, head.itemAdded, head.partAdded]

/-- The events after the last text, but for the last one. -/
def ending (text : Str) : List SseEvent := [head.textDone text, head.partDone text, head.itemDone text]

end ResponseHead

/-- What the first converter knows of the stream it has read. -/
structure ResponsesState where
  counts : Counts
  started : Bool
  /-- `text_parts`. -/
  textParts : List Str

section Converters
variable (repr : Json → Str) (float : Bool → ℕ → ℤ → Str) (head : ResponseHead)

/-- `_sse` of each event. -/
def sendAll (events : List SseEvent) : Option (List SseEvent) :=
  events.mapM fun e => sse float e.name e.data

/-- An object: the events that it is turned into.  Anything but dictionaries where the
converter looks for keys raises. -/
def ResponsesState.receive (s : ResponsesState) (obj : Option Str × List (Str × Json)) :
    Option (List SseEvent × ResponsesState) := do
  let counts ← readCounts obj.2 s.counts
  let choice ← (← firstChoice obj.2).fields?
  let delta ← ((getTruthy (str "delta") choice).getD (.obj [])).fields?
  match getTruthy (str "content") delta with
  | none => some ([], { s with counts := counts })
  | some text => do
      let events ← sendAll float ((if s.started then [] else head.starting) ++ [head.textDelta text])
      some (events, ⟨counts, true, s.textParts ++ [text.toStr repr]⟩)

/-- Counts that can be written with their sum. -/
def PrintableCounts (prompt completion : ℤ) : Prop :=
  ∀ n ∈ [prompt, completion, prompt + completion], IsPrintable n

instance (prompt completion : ℤ) : Decidable (PrintableCounts prompt completion) :=
  inferInstanceAs (Decidable (∀ _ ∈ _, _))

/-- What is sent after the loop. -/
def ResponsesState.finish (s : ResponsesState) : Option (List SseEvent) :=
  match s.counts with
  | (.int prompt, .int completion) =>
      if PrintableCounts prompt completion then
        sendAll float ((if s.started then [] else head.starting) ++
          head.ending s.textParts.flatten ++
          [head.completed s.textParts.flatten prompt completion])
      else none
  | _ => none

/-- What the objects of a chat stream are turned into. -/
def responsesOfObjects (objs : List (Option Str × List (Str × Json))) : Option (List SseEvent) := do
  let received ← collect (ResponsesState.receive repr float head) ⟨zeroCounts, false, []⟩ objs
  let finished ← received.2.finish float head
  some (received.1 ++ finished)

/-- `openai_chat_sse_to_responses_sse`: its events, before the line that ends the stream.
`none` when it raises. -/
def openaiChatSseToResponsesSse (chunks : List Bytes) : Option (List SseEvent) :=
  responsesOfObjects repr float head (iterSseEvents [] chunks)

/-- The text of the stream that it sends. -/
def responsesText (events : List SseEvent) : Str :=
  eventsText float events ++ sseData (str "[DONE]")

end Converters

/-! ### From responses to chat -/

/-- What the second converter writes besides its input. -/
structure ChatHead where
  chatId : Label
  created : {n : ℤ // n.natAbs < 10 ^ maxIntDigits}
  model : UnicodeText

namespace ChatHead
variable (head : ChatHead)

def fields (choice : Json) : List (Str × Json) :=
  [(str "id", .str head.chatId.text), (str "object", .str (str "chat.completion.chunk")),
    (str "created", .int head.created), (str "model", .str head.model.text),
    (str "choices", .arr [choice])]

/-- A chunk with a text. -/
def delta (content : Json) : Json :=
  .obj (head.fields (.obj [(str "index", .int 0), (str "delta", .obj [(str "content", content)]),
    (str "finish_reason", .null)]))

/-- The last chunk. -/
def final (prompt completion : ℤ) : Json :=
  .obj (head.fields (.obj [(str "index", .int 0), (str "delta", .obj []),
      (str "finish_reason", .str (str "stop"))]) ++
    [(str "usage", .obj [(str "prompt_tokens", .int prompt),
      (str "completion_tokens", .int completion), (str "total_tokens", .int (prompt + completion))])])

/-- `obj.get("type") or event`. -/
def eventType (obj : Option Str × List (Str × Json)) : Option Json :=
  (getTruthy (str "type") obj.2).or (obj.1.map .str)

/-- The counts after `response.completed`. -/
def completedCounts (fields : List (Str × Json)) (counts : Counts) : Option Counts := do
  let response ← ((getTruthy (str "response") fields).getD (.obj [])).fields?
  let usage ← ((getTruthy (str "usage") response).getD (.obj [])).fields?
  some (← intOr (Json.lookup (str "input_tokens") usage) counts.1,
    ← intOr (Json.lookup (str "output_tokens") usage) counts.2)

/-- An object: the chunk that it is turned into, and the counts after it. -/
def receive (counts : Counts) (obj : Option Str × List (Str × Json)) :
    Option (List Json × Counts) :=
  if eventType obj = some (.str (str "response.output_text.delta")) then
    some ([head.delta ((getTruthy (str "delta") obj.2).getD (.str []))], counts)
  else if eventType obj = some (.str (str "response.completed")) then
    (completedCounts obj.2 counts).map fun counts => ([], counts)
  else some ([], counts)

end ChatHead

/-- `responses_sse_to_openai_chat_sse`: its chunks, before the line that ends the stream.
`none` when it raises. -/
def responsesSseToOpenaiChatSse (head : ChatHead) (pieces : List Bytes) : Option (List Json) := do
  let received ← collect head.receive zeroCounts (iterSseEvents [] pieces)
  match received.2 with
  | (.int prompt, .int completion) => some (received.1 ++ [head.final prompt completion])
  | _ => none

/-! ### The round trip -/

/-- The content of a chunk. -/
def chunkContent (chunk : Json) : Str :=
  match (((chunk.fields?.bind firstChoice).bind (Json.get? (str "delta"))).bind
      (Json.get? (str "content"))) with
  | some (.str t) => t
  | _ => []

/-- The tokens of a chunk. -/
def chunkUsage (chunk : Json) : Option (Option Json × Option Json) :=
  (chunk.get? (str "usage")).map fun u =>
    (u.get? (str "prompt_tokens"), u.get? (str "completion_tokens"))

/-- The chunks of a chat stream, one whole event each. -/
def chatEvents (style : DumpStyle) (chunks : List ChatChunk) (done : Bool) : List Bytes :=
  (chunks.map fun chunk => encode (sseData (dumps style chunk.json))) ++
    if done then [encode (sseData (str "[DONE]"))] else []

/-- A chat stream with its usage in the last chunk. -/
structure ChatReply where
  before : List ChatChunk
  last : ChatChunk
  usage : TokenUsage
  before_usage : ∀ chunk ∈ before, chunk.usage = none
  last_usage : last.usage = some usage

def ChatReply.chunks (reply : ChatReply) : List ChatChunk := reply.before ++ [reply.last]

/-- **The second converter gives back** the texts and the tokens of a chat stream, from
the pieces of what the first one made of it. -/
def RoundTrips (head : ChatHead) (reply : ChatReply) (pieces : List Bytes) : Prop :=
  ∃ out last, responsesSseToOpenaiChatSse head pieces = some (out ++ [last]) ∧
    (out ++ [last]).flatMap chunkContent = contents reply.chunks ∧
    chunkUsage last = some (some (.int reply.usage.prompt), some (.int reply.usage.completion))

/-- The texts of a stream. -/
def textsOf (chunks : List ChatChunk) : List Str := (chunks.map ChatChunk.content).filter (· ≠ [])

/-- The events that carry texts. -/
def ResponseHead.deltas (head : ResponseHead) (texts : List Str) : List SseEvent :=
  texts.map fun t => head.textDelta (.str t)

/-- What a stream needs to come back: no text has a line break of `splitlines`, no cut is
within a character of a text, and if there are tokens, the last event has no such line
break in the model's name either, unless a cut takes it away. -/
structure Intact (float : Bool → ℕ → ℤ → Str) (head : ResponseHead) (reply : ChatReply)
    (pieces : List Bytes) : Prop where
  oneLine : ∀ c ∈ contents reply.chunks, ¬ IsUnicodeBreak c
  cuts : CutsWithin pieces (encode (eventsText float head.starting)).length
    (eventsText float (head.deltas (textsOf reply.chunks)))
  usage : (reply.usage.prompt = 0 ∧ reply.usage.completion = 0) ∨
    ∀ c ∈ uncut (cutPositions pieces)
        (encode (eventsText float (head.starting ++ head.deltas (textsOf reply.chunks) ++
          head.ending (contents reply.chunks)))).length
        ((head.completed (contents reply.chunks) reply.usage.prompt reply.usage.completion).text
          float),
      ¬ IsUnicodeBreak c

/-! ### The events of the first converter -/

namespace ResponseHead
variable {head : ResponseHead} {own : Str}

theorem fit_event {name : Str} {fields : List (Str × Json)} (keys : List Str)
    (hname : GoodName name) (hkeys : GoodKeys (str "type" :: keys))
    (hfields : fields.map Prod.fst = keys) (h : fields.Forall fun f => Clean own f.2) :
    (event name fields).Fit own :=
  ⟨hname, ⟨fields, rfl⟩, clean_obj (by rw [List.map_cons, hfields]; exact hkeys)
    ((List.forall_cons _ _ _).mpr ⟨clean_ascii fun c hc => (hname.2.2 c hc).2, h⟩)⟩

theorem clean_zero : Clean own (.int 0) := clean_int (natAbs_small (by decide))

theorem clean_part (ht : Clean own (.str t)) : Clean own (part t) :=
  clean_obj (by simp only [List.map_cons, List.map_nil]; decide)
    ⟨clean_ascii (by decide), ht, clean_arr trivial⟩

theorem clean_item {status : Str} {content : List Json} (hstatus : ∀ c ∈ status, c < 128)
    (h : content.Forall (Clean own)) : Clean own (head.item status content) :=
  clean_obj (by simp only [List.map_cons, List.map_nil]; decide)
    ⟨clean_ascii head.itemId.ascii, clean_ascii (by decide), clean_ascii hstatus,
      clean_ascii (by decide), clean_arr h⟩

theorem fit_place {name key : Str} {x : Json} (hname : GoodName name)
    (hkey : GoodKeys [str "type", str "item_id", str "output_index", str "content_index", key])
    (h : Clean own x) : (event name (head.place ++ [(key, x)])).Fit own :=
  fit_event _ hname hkey rfl ⟨clean_ascii head.itemId.ascii, clean_zero, clean_zero, h⟩

theorem fit_created : head.created.Fit head.model.text := by
  have hstub : Clean head.model.text
      (.obj (head.stub head.createdAt (str "in_progress") [])) :=
    clean_obj (by simp only [stub, List.map_cons, List.map_nil]; decide)
      ⟨clean_ascii head.responseId.ascii, clean_ascii (by decide), clean_int head.createdAt.2,
        clean_ascii (by decide), clean_own head.model.isText, clean_arr trivial⟩
  exact fit_event [str "response"] (by decide) (by decide) rfl hstub

theorem fit_starting : ∀ e ∈ head.starting, ∃ own, e.Fit own := by
  have hitem : head.itemAdded.Fit [] :=
    fit_event [str "output_index", str "item"] (by decide) (by decide) rfl
      ⟨clean_zero, clean_item (by decide) trivial⟩
  have hpart : head.partAdded.Fit [] :=
    fit_place (by decide) (by decide) (clean_part (clean_ascii (by decide)))
  simp only [starting, List.forall_mem_cons]
  exact ⟨⟨_, fit_created⟩, ⟨_, hitem⟩, ⟨_, hpart⟩, fun e he => by cases he⟩

theorem fit_textDelta {t : Str} (ht : IsText t) : (head.textDelta (.str t)).Fit t :=
  fit_place (by decide) (by decide) (clean_own ht)

theorem fit_deltas {texts : List Str} (h : ∀ t ∈ texts, IsText t) :
    ∀ e ∈ head.deltas texts, ∃ own, e.Fit own := by
  intro e he
  obtain ⟨t, ht, rfl⟩ := List.mem_map.mp he
  exact ⟨t, fit_textDelta (h t ht)⟩

theorem fit_ending {t : Str} (ht : IsText t) : ∀ e ∈ head.ending t, ∃ own, e.Fit own := by
  have hpart := clean_part (clean_own ht)
  have htext : (head.textDone t).Fit t := fit_place (by decide) (by decide) (clean_own ht)
  have hpartDone : (head.partDone t).Fit t := fit_place (by decide) (by decide) hpart
  have hitem : (head.itemDone t).Fit t :=
    fit_event [str "output_index", str "item"] (by decide) (by decide) rfl
      ⟨clean_zero, clean_item (by decide) hpart⟩
  simp only [ending, List.forall_mem_cons]
  exact ⟨⟨_, htext⟩, ⟨_, hpartDone⟩, ⟨_, hitem⟩, fun e he => by cases he⟩

theorem fit_completed {t : Str} (ht : IsText t) (u : TokenUsage) :
    (head.completed t u.prompt u.completion).Fit (head.model.text ++ t) := by
  have hbound := u.printable
  have htext : Clean (head.model.text ++ t) (.str t) :=
    ⟨ht, trivial, fun c hc => Or.inr (List.mem_append_right _ hc)⟩
  have hmodel : Clean (head.model.text ++ t) (.str head.model.text) :=
    ⟨head.model.isText, trivial, fun c hc => Or.inr (List.mem_append_left _ hc)⟩
  have husage : Clean (head.model.text ++ t) (.obj [(str "input_tokens", .int u.prompt),
      (str "output_tokens", .int u.completion), (str "total_tokens", .int (u.prompt + u.completion))]) :=
    clean_obj (by simp only [List.map_cons, List.map_nil]; decide)
      ⟨clean_int (by rw [Int.natAbs_natCast]; omega), clean_int (by rw [Int.natAbs_natCast]; omega),
        clean_int (by rw [← Int.natCast_add, Int.natAbs_natCast]; exact hbound)⟩
  have hresponse : Clean (head.model.text ++ t) (.obj (head.stub head.completedAt (str "completed")
      [head.item (str "completed") [part t]] ++
        [(str "output_text", .str t), (str "usage", .obj [(str "input_tokens", .int u.prompt),
          (str "output_tokens", .int u.completion),
          (str "total_tokens", .int (u.prompt + u.completion))])])) :=
    clean_obj (by simp only [stub, List.cons_append, List.nil_append, List.map_cons, List.map_nil]; decide)
      ⟨clean_ascii head.responseId.ascii, clean_ascii (by decide), clean_int head.completedAt.2,
        clean_ascii (by decide), hmodel, clean_arr (clean_item (by decide) (clean_part htext)),
        htext, husage⟩
  exact fit_event [str "response"] (by decide) (by decide) rfl hresponse

end ResponseHead

/-! ### The first converter -/

theorem TokenUsage.printableCounts (u : TokenUsage) : PrintableCounts u.prompt u.completion := by
  have hbound := u.printable
  simp only [PrintableCounts, IsPrintable, List.forall_mem_cons, List.not_mem_nil, false_implies,
    implies_true, and_true]
  omega

section First
variable {style : DumpStyle} {repr : Json → Str} {float : Bool → ℕ → ℤ → Str} {head : ResponseHead}
  {chunks : List ChatChunk} {done : Bool}

theorem sendAll_of_fit {events : List SseEvent} (h : ∀ e ∈ events, ∃ own, e.Fit own) :
    sendAll float events = some events := by
  have hsend : ∀ e ∈ events, sse float e.name e.data = some (id e) := by
    intro e he
    obtain ⟨own, hfit⟩ := h e he
    exact sse_of_plain (fun c hc => (hfit.name.2.2 c hc).2) hfit.clean.plain
  rw [sendAll, mapM_eq_some_map hsend, List.map_id]

/-- A chunk whose text `splitlines` does not break. -/
def WholeChunk (style : DumpStyle) (chunk : ChatChunk) : Prop :=
  ∀ c ∈ dumps style chunk.json, ¬ IsUnicodeBreak c

instance (style : DumpStyle) : DecidablePred (WholeChunk style) := fun chunk => by
  unfold WholeChunk
  infer_instance

theorem flatten_chatEvents :
    ((chatEvents style chunks done).map decode).flatten = chatStream style chunks done := by
  have hchunk : ∀ chunk : ChatChunk, IsText (sseData (dumps style chunk.json)) := fun chunk => by
    have h := @isText_chatStream style [chunk] false
    rw [chatStream, List.flatMap_singleton, if_neg Bool.false_ne_true, List.append_nil] at h
    exact h
  have hdone : decode (encode (sseData (str "[DONE]"))) = sseData (str "[DONE]") :=
    decode_encode (isText_of_ascii (sseData_ascii (by decide)))
  rw [chatEvents, chatStream, List.map_append, List.flatten_append, List.map_map, List.flatMap]
  refine congrArg₂ (· ++ ·) (congrArg List.flatten (List.map_congr_left fun chunk _ => ?_)) ?_
  · exact decode_encode (hchunk chunk)
  · cases done with
    | true => simpa using hdone
    | false => rfl

/-- What is read off the chat stream. -/
theorem iterSseEvents_chatEvents : iterSseEvents [] (chatEvents style chunks done) =
    (chunks.filter (WholeChunk style)).map fun chunk => (none, chunk.fields) := by
  have hdone : (if done then [str "data: [DONE]"] else []).filterMap readBlock = [] := by
    cases done <;> decide
  rw [iterSseEvents_eq [] rfl, flatten_chatEvents, List.nil_append, splitBlank_chatStream, chatBlocks,
    List.filterMap_append, hdone, List.append_nil, List.filterMap_map]
  induction chunks with
  | nil => rfl
  | cons chunk chunks ih =>
      have hjson : chunk.json = .obj ((str "id", .str chunk.id.text) :: chunk.fields.tail) := rfl
      have hread := @readBlock_data style _ _ _ (hjson ▸ chunk.clean)
      rw [← hjson] at hread
      rw [List.filterMap_cons, List.filter_cons, Function.comp_apply, ih]
      by_cases hwhole : WholeChunk style chunk
      · rw [hread.trans (if_pos hwhole), if_pos (by simpa using hwhole)]
        rfl
      · rw [hread.trans (if_neg hwhole), if_neg (by simpa using hwhole)]

/-- The events for a text. -/
def textEvents (head : ResponseHead) (started : Bool) (texts : List Str) : List SseEvent :=
  (if started || texts.isEmpty then [] else head.starting) ++ head.deltas texts

/-- The text of a chunk, if it has one. -/
def ChatChunk.text? (chunk : ChatChunk) : List Str := if chunk.content = [] then [] else [chunk.content]

theorem textsOf_cons (chunk : ChatChunk) (chunks : List ChatChunk) :
    textsOf (chunk :: chunks) = chunk.text? ++ textsOf chunks := by
  unfold textsOf ChatChunk.text?
  by_cases h : chunk.content = [] <;> simp [h]

theorem flatten_textsOf (chunks : List ChatChunk) : (textsOf chunks).flatten = contents chunks := by
  induction chunks with
  | nil => rfl
  | cons chunk chunks ih =>
      rw [textsOf_cons, List.flatten_append, ih, contents, contents, List.flatMap_cons,
        ChatChunk.text?]
      by_cases h : chunk.content = [] <;> simp [h]

theorem ChatChunk.isText_content (chunk : ChatChunk) : IsText chunk.content := by
  rcases chunk.cases_content with ⟨c, t, -, -, hcontent, -⟩ | ⟨hcontent, -⟩
  · rw [hcontent]
    exact t.isText
  · rw [hcontent]
    exact fun c hc => by cases hc

theorem isText_textsOf (chunks : List ChatChunk) : ∀ t ∈ textsOf chunks, IsText t := by
  intro t ht
  obtain ⟨chunk, -, rfl⟩ := List.mem_map.mp (List.mem_of_mem_filter ht)
  exact chunk.isText_content

theorem isText_contents (chunks : List ChatChunk) : IsText (contents chunks) := by
  intro c hc
  obtain ⟨chunk, -, hc⟩ := List.mem_flatMap.mp hc
  exact chunk.isText_content c hc

/-- The content of a chunk. -/
theorem ChatChunk.deltaContent (chunk : ChatChunk) : ∃ choice delta,
    ((firstChoice chunk.fields).bind Json.fields?) = some choice ∧
      ((getTruthy (str "delta") choice).getD (.obj [])).fields? = some delta ∧
      getTruthy (str "content") delta = chunk.text?.head?.map .str := by
  rw [chunk.firstChoice_fields]
  cases hc : chunk.choice with
  | none =>
      have hcontent : chunk.text? = [] := by simp [ChatChunk.text?, ChatChunk.content, hc]
      exact ⟨[], [], rfl, rfl, by rw [hcontent]; rfl⟩
  | some c =>
      refine ⟨c.fields, c.deltaFields, rfl, c.delta_fields, ?_⟩
      rw [c.getTruthy_content]
      cases ht : c.content with
      | none =>
          have hcontent : chunk.text? = [] := by simp [ChatChunk.text?, ChatChunk.content, hc, ht]
          rw [hcontent]
          rfl
      | some t =>
          have hcontent : chunk.content = t.text := by simp [ChatChunk.content, hc, ht]
          rw [ChatChunk.text?, hcontent]
          by_cases hnil : t.text = [] <;> simp [Option.filter, hnil]

/-- What the first converter does with a chunk. -/
theorem receive_chunk (chunk : ChatChunk) (p c : ℤ) (started : Bool) (parts : List Str) :
    ResponsesState.receive repr float head ⟨(.int p, .int c), started, parts⟩ (none, chunk.fields) =
      some (textEvents head started chunk.text?,
        ⟨chunk.countsAfter (.int p, .int c), started || !chunk.text?.isEmpty,
          parts ++ chunk.text?⟩) := by
  obtain ⟨choice, delta, hchoice, hdelta, hcontent⟩ := chunk.deltaContent
  obtain ⟨first, hfirst, hchoice⟩ := Option.bind_eq_some_iff.mp hchoice
  simp only [ResponsesState.receive, readCounts_chunk, hfirst, hchoice, hdelta, hcontent,
    Option.bind_eq_bind, Option.bind_some]
  unfold ChatChunk.text?
  by_cases h : chunk.content = []
  · simp [h, textEvents, ResponseHead.deltas]
  · have hfit : ∀ e ∈ textEvents head started [chunk.content], ∃ own, e.Fit own := by
      intro e he
      rcases List.mem_append.mp he with he | he
      · cases started with
        | true => cases he
        | false => exact ResponseHead.fit_starting e he
      · exact ResponseHead.fit_deltas (by simpa using chunk.isText_content) e he
    have hsend := @sendAll_of_fit float _ hfit
    simp only [textEvents, List.isEmpty_cons, Bool.or_false, ResponseHead.deltas, List.map_cons,
      List.map_nil] at hsend
    simp only [if_neg h, List.head?_cons, Option.map_some, hsend, Option.bind_some, textEvents,
      List.isEmpty_cons, Bool.or_false, ResponseHead.deltas, List.map_cons, List.map_nil, Json.toStr]
    cases started <;> rfl

theorem textEvents_append (started : Bool) (a b : List Str) :
    textEvents head started (a ++ b) =
      textEvents head started a ++ textEvents head (started || !a.isEmpty) b := by
  unfold textEvents ResponseHead.deltas
  cases started <;> cases a <;> simp

theorem ChatChunk.countsAfter_ints (chunk : ChatChunk) (p c : ℤ) :
    ∃ p' c' : ℤ, chunk.countsAfter (.int p, .int c) = (.int p', .int c') := by
  unfold countsAfter
  cases chunk.usage with
  | none => exact ⟨p, c, rfl⟩
  | some u =>
      refine ⟨if u.prompt = 0 then p else u.prompt, if u.completion = 0 then c else u.completion, ?_⟩
      dsimp only
      split_ifs <;> rfl

/-- What the first converter does with the chunks that it reads. -/
theorem collect_chunks (chunks : List ChatChunk) (p c : ℤ) (started : Bool) (parts : List Str) :
    collect (ResponsesState.receive repr float head) ⟨(.int p, .int c), started, parts⟩
        (chunks.map fun chunk => (none, chunk.fields)) =
      some (textEvents head started (textsOf chunks),
        ⟨chunks.foldl ChatChunk.countsAfter (.int p, .int c), started || !(textsOf chunks).isEmpty,
          parts ++ textsOf chunks⟩) := by
  induction chunks generalizing p c started parts with
  | nil => simp [collect, textEvents, textsOf, ResponseHead.deltas]
  | cons chunk chunks ih =>
      obtain ⟨p', c', hcounts⟩ := chunk.countsAfter_ints p c
      have hstarted : (started || !(chunk.text? ++ textsOf chunks).isEmpty) =
          (started || !chunk.text?.isEmpty || !(textsOf chunks).isEmpty) := by
        cases started <;> cases chunk.text? <;> rfl
      rw [textsOf_cons, textEvents_append, List.foldl_cons, hcounts, hstarted, ← List.append_assoc]
      simp only [List.map_cons, collect, receive_chunk, hcounts, ih, Option.bind_eq_bind,
        Option.bind_some]

/-- No tokens. -/
def TokenUsage.zero : TokenUsage := ⟨0, 0, zero_lt_pow_maxIntDigits⟩

/-- The events for texts and tokens. -/
def ResponseHead.events (head : ResponseHead) (texts : List Str) (u : TokenUsage) : List SseEvent :=
  head.starting ++ head.deltas texts ++ head.ending texts.flatten ++
    [head.completed texts.flatten u.prompt u.completion]

/-- The tokens that are read: those of the last chunk, if `splitlines` does not break it. -/
def ChatReply.readUsage (style : DumpStyle) (reply : ChatReply) : TokenUsage :=
  if WholeChunk style reply.last then reply.usage else .zero

theorem countsAfter_before {chunks : List ChatChunk} (h : ∀ chunk ∈ chunks, chunk.usage = none)
    (counts : Counts) : chunks.foldl ChatChunk.countsAfter counts = counts := by
  induction chunks generalizing counts with
  | nil => rfl
  | cons chunk chunks ih =>
      have hchunk : chunk.countsAfter counts = counts := by
        rw [ChatChunk.countsAfter, h chunk List.mem_cons_self]
      rw [List.foldl_cons, hchunk]
      exact ih (fun c hc => h c (List.mem_cons_of_mem _ hc)) counts

theorem ChatReply.counts_read (reply : ChatReply) :
    (reply.chunks.filter (WholeChunk style)).foldl ChatChunk.countsAfter zeroCounts =
      (.int (reply.readUsage style).prompt, .int (reply.readUsage style).completion) := by
  have hlast : reply.last.countsAfter zeroCounts =
      (.int reply.usage.prompt, .int reply.usage.completion) := by
    rw [ChatChunk.countsAfter, reply.last_usage]
    by_cases hp : reply.usage.prompt = 0 <;> by_cases hc : reply.usage.completion = 0 <;>
      simp [hp, hc, zeroCounts]
  rw [ChatReply.chunks, List.filter_append, List.foldl_append,
    countsAfter_before fun chunk hchunk => reply.before_usage chunk (List.mem_of_mem_filter hchunk),
    List.filter_singleton, readUsage]
  by_cases hwhole : WholeChunk style reply.last
  · simp [hwhole, hlast]
  · simp [hwhole, TokenUsage.zero, zeroCounts]

/-- **What the first converter makes of a chat stream**: the texts and the tokens of the
chunks that `splitlines` does not break. -/
theorem openaiChatSseToResponsesSse_eq (reply : ChatReply) (done : Bool) :
    openaiChatSseToResponsesSse repr float head (chatEvents style reply.chunks done) =
      some (head.events (textsOf (reply.chunks.filter (WholeChunk style))) (reply.readUsage style)) := by
  have hcollect := @collect_chunks repr float head (reply.chunks.filter (WholeChunk style)) 0 0 false []
  rw [← zeroCounts, reply.counts_read] at hcollect
  have htext := isText_contents (reply.chunks.filter (WholeChunk style))
  rw [← flatten_textsOf] at htext
  have hfit : ∀ e ∈ (if false || !(textsOf (reply.chunks.filter (WholeChunk style))).isEmpty then []
      else head.starting) ++ head.ending (textsOf (reply.chunks.filter (WholeChunk style))).flatten ++
        [head.completed (textsOf (reply.chunks.filter (WholeChunk style))).flatten
          (reply.readUsage style).prompt (reply.readUsage style).completion], ∃ own, e.Fit own := by
    intro e he
    rcases List.mem_append.mp he with he | he
    · rcases List.mem_append.mp he with he | he
      · split_ifs at he
        · cases he
        · exact ResponseHead.fit_starting e he
      · exact ResponseHead.fit_ending htext e he
    · rw [List.mem_singleton.mp he]
      exact ⟨_, ResponseHead.fit_completed htext _⟩
  have hfinish := @sendAll_of_fit float _ hfit
  have hprintable := (reply.readUsage style).printableCounts
  rw [openaiChatSseToResponsesSse, responsesOfObjects, iterSseEvents_chatEvents, hcollect]
  simp only [Option.bind_eq_bind, Option.bind_some, ResponsesState.finish, List.nil_append,
    if_pos hprintable, hfinish, textEvents, ResponseHead.events, Option.some.injEq]
  cases textsOf (reply.chunks.filter (WholeChunk style)) <;> simp [ResponseHead.deltas]

end First

/-! ### The second converter -/

section Second
variable {float : Bool → ℕ → ℤ → Str} {head : ResponseHead} {chat : ChatHead}

theorem eventType_of_type {name : Option Str} {t : Str} {fields : List (Str × Json)} (ht : t ≠ []) :
    ChatHead.eventType (name, (str "type", .str t) :: fields) = some (.str t) := by
  have hget : getTruthy (str "type") ((str "type", .str t) :: fields) = some (.str t) := by
    have hlookup : Json.lookup (str "type") ((str "type", .str t) :: fields) = some (.str t) := by
      simp [Json.lookup]
    rw [getTruthy, hlookup]
    simp [Option.filter, Json.truthy, ht]
  rw [ChatHead.eventType, hget]
  rfl

/-- An event that the second converter does not look at. -/
def Quiet (e : SseEvent) : Prop :=
  e.name ≠ [] ∧ e.name ≠ str "response.output_text.delta" ∧ e.name ≠ str "response.completed"

theorem receive_quiet {name : Option Str} {t : Str} {fields : List (Str × Json)} {counts : Counts}
    (hne : t ≠ []) (hdelta : t ≠ str "response.output_text.delta")
    (hcompleted : t ≠ str "response.completed") :
    chat.receive counts (name, (str "type", .str t) :: fields) = some ([], counts) := by
  simp only [ChatHead.receive, eventType_of_type hne, Option.some.injEq, Json.str.injEq,
    if_neg hdelta, if_neg hcompleted]

/-- Events that the second converter does not look at, whatever they have lost. -/
theorem collect_quiet {events events' : List SseEvent} (hfit : ∀ e ∈ events, ∃ own, e.Fit own)
    (hquiet : ∀ e ∈ events, Quiet e) (h : events.Forall₂ SseEvent.Thinned events') (counts : Counts) :
    collect chat.receive counts (events'.filterMap (SseEvent.read float)) = some ([], counts) := by
  induction h with
  | nil => rfl
  | @cons e e' events events' he _ ih =>
      obtain ⟨own, hfite⟩ := hfit e List.mem_cons_self
      have hrest := ih (fun e he => hfit e (List.mem_cons_of_mem _ he))
        fun e he => hquiet e (List.mem_cons_of_mem _ he)
      obtain ⟨fields, hdata⟩ := (he.fit hfite).data
      obtain ⟨hne, hdelta, hcompleted⟩ := hquiet e List.mem_cons_self
      rw [List.filterMap_cons, SseEvent.read, hdata]
      by_cases hwhole : e'.Whole float
      · have hreceive := @receive_quiet chat (some e.name) e.name fields counts hne hdelta hcompleted
        rw [if_pos hwhole, he.1]
        simp only [Json.fields?, Option.map_some, collect, hreceive, Option.bind_eq_bind,
          Option.bind_some, hrest, List.append_nil]
      · rw [if_neg hwhole]
        exact hrest

/-- The names of the other events. -/
theorem quiet_of_name {e : SseEvent} (h : e.name ∈ [str "response.created",
    str "response.output_item.added", str "response.content_part.added",
    str "response.output_text.done", str "response.content_part.done",
    str "response.output_item.done"]) : Quiet e := by
  have hquiet : ∀ n ∈ [str "response.created", str "response.output_item.added",
      str "response.content_part.added", str "response.output_text.done",
      str "response.content_part.done", str "response.output_item.done"],
      n ≠ [] ∧ n ≠ str "response.output_text.delta" ∧ n ≠ str "response.completed" := by decide
  exact hquiet e.name h

theorem quiet_starting : ∀ e ∈ head.starting, Quiet e := by
  simp only [ResponseHead.starting, List.forall_mem_cons]
  exact ⟨quiet_of_name (by simp [ResponseHead.created, ResponseHead.event]),
    quiet_of_name (by simp [ResponseHead.itemAdded, ResponseHead.event]),
    quiet_of_name (by simp [ResponseHead.partAdded, ResponseHead.event]), fun e he => by cases he⟩

theorem quiet_ending (t : Str) : ∀ e ∈ head.ending t, Quiet e := by
  simp only [ResponseHead.ending, List.forall_mem_cons]
  exact ⟨quiet_of_name (by simp [ResponseHead.textDone, ResponseHead.event]),
    quiet_of_name (by simp [ResponseHead.partDone, ResponseHead.event]),
    quiet_of_name (by simp [ResponseHead.itemDone, ResponseHead.event]), fun e he => by cases he⟩

/-- Texts that `splitlines` does not break. -/
def oneLine (texts : List Str) : List Str := texts.filter fun t => ∀ c ∈ t, ¬ IsUnicodeBreak c

theorem whole_textDelta {t : Str} (ht : IsText t) :
    (head.textDelta (.str t)).Whole float ↔ ∀ c ∈ t, ¬ IsUnicodeBreak c := by
  rw [SseEvent.whole_iff (ResponseHead.fit_textDelta ht)]
  constructor
  · intro h c hc
    refine h c ?_
    simp [ResponseHead.textDelta, ResponseHead.event, ResponseHead.place, Json.chars, charsFields, hc]
  · intro h c hc hbreak
    rcases (@ResponseHead.fit_textDelta head _ ht).clean.chars c hc with hascii | hown
    · unfold IsUnicodeBreak at hbreak
      omega
    · exact h c hown hbreak

/-- What the second converter makes of the events that carry texts. -/
theorem collect_deltas {texts : List Str} (htexts : ∀ t ∈ texts, IsText t) (counts : Counts) :
    collect chat.receive counts ((head.deltas texts).filterMap (SseEvent.read float)) =
      some ((oneLine texts).map fun t => chat.delta (.str t), counts) := by
  induction texts with
  | nil => rfl
  | cons t texts ih =>
      have hrest := ih fun t ht => htexts t (List.mem_cons_of_mem _ ht)
      have hcons : head.deltas (t :: texts) = head.textDelta (.str t) :: head.deltas texts := rfl
      rw [hcons, List.filterMap_cons, SseEvent.read, oneLine, List.filter_cons, ← oneLine]
      by_cases hwhole : (head.textDelta (.str t)).Whole float
      · have hline := (whole_textDelta (htexts t List.mem_cons_self)).mp hwhole
        have hreceive : chat.receive counts (some (head.textDelta (.str t)).name,
            (str "type", .str (str "response.output_text.delta")) ::
              (head.place ++ [(str "delta", .str t)])) = some ([chat.delta (.str t)], counts) := by
          have hget : (getTruthy (str "delta")
              ((str "type", .str (str "response.output_text.delta")) ::
                (head.place ++ [(str "delta", .str t)]))).getD (.str []) = .str t := by
            have hlookup : Json.lookup (str "delta")
                ((str "type", .str (str "response.output_text.delta")) ::
                  (head.place ++ [(str "delta", .str t)])) = some (.str t) := rfl
            rw [getTruthy, hlookup]
            cases t <;> rfl
          rw [ChatHead.receive, eventType_of_type (by decide), if_pos rfl, hget]
        have hfields : (head.textDelta (.str t)).data.fields? =
            some ((str "type", .str (str "response.output_text.delta")) ::
              (head.place ++ [(str "delta", .str t)])) := rfl
        rw [if_pos hwhole, if_pos (by simpa using hline), hfields]
        simp only [Option.map_some, collect, hreceive, hrest, Option.bind_eq_bind, Option.bind_some]
        rfl
      · have hline := mt (whole_textDelta (htexts t List.mem_cons_self)).mpr hwhole
        rw [if_neg hwhole, if_neg (by simpa using hline)]
        exact hrest

/-- A text event that has lost characters carries what is left of its text. -/
theorem thinned_textDelta {t : Str} {e : SseEvent} (h : (head.textDelta (.str t)).Thinned e) :
    ∃ t', e = head.textDelta (.str t') ∧ Thins t t' := by
  obtain ⟨name, data⟩ := e
  obtain ⟨hname, hdata⟩ := h
  simp only [ResponseHead.textDelta, ResponseHead.event, ResponseHead.place, List.cons_append,
    List.nil_append, Json.Thinned, ThinnedFields] at hname hdata
  obtain ⟨_, rfl, _, _, rfl, ⟨n, rfl, hn⟩, _, _, rfl, ⟨i, rfl, hi⟩, _, _, rfl, rfl, _, _, rfl, rfl, _, _,
    rfl, ⟨t', rfl, ht'⟩, rfl⟩ := hdata
  refine ⟨t', ?_, ht'⟩
  rw [hname, hn.eq_of_ascii (by decide), hi.eq_of_ascii head.itemId.ascii]
  rfl

theorem thinned_deltas {texts : List Str} {events : List SseEvent}
    (h : (head.deltas texts).Forall₂ SseEvent.Thinned events) :
    ∃ texts', events = head.deltas texts' ∧ texts.Forall₂ Thins texts' := by
  induction texts generalizing events with
  | nil =>
      cases h
      exact ⟨[], rfl, .nil⟩
  | cons t texts ih =>
      obtain ⟨e, es, he, hes, rfl⟩ := List.forall₂_cons_left_iff.mp h
      obtain ⟨t', rfl, ht'⟩ := thinned_textDelta he
      obtain ⟨texts', rfl, htexts'⟩ := ih hes
      exact ⟨t' :: texts', rfl, .cons ht' htexts'⟩

/-- What the second converter reads off the last event, whatever that has lost. -/
theorem completedCounts_thinned {t : Str} {u : TokenUsage} {fields fields' : List (Str × Json)}
    (hfields : (head.completed t u.prompt u.completion).data = .obj fields)
    (h : ThinnedFields fields fields') :
    ChatHead.completedCounts fields' zeroCounts = some (.int u.prompt, .int u.completion) := by
  obtain rfl := Json.obj.inj hfields
  obtain ⟨response, hresponse, hthinned⟩ := @ThinnedFields.lookup _ _ (str "response") _ h rfl
  obtain ⟨inner, rfl, hinner⟩ := hthinned
  obtain ⟨usage, husage, hsame⟩ := @ThinnedFields.lookup _ _ (str "usage") _ hinner rfl
  simp only [Json.Thinned, ThinnedFields] at hsame
  obtain ⟨_, rfl, _, _, rfl, rfl, _, _, rfl, rfl, _, _, rfl, rfl, rfl⟩ := hsame
  have hobj : getTruthy (str "response") fields' = some (.obj inner) := by
    rw [getTruthy, hresponse]
    cases inner with
    | nil => cases husage
    | cons f fs => rfl
  have hget : getTruthy (str "usage") inner = some (.obj [(str "input_tokens", .int u.prompt),
      (str "output_tokens", .int u.completion),
      (str "total_tokens", .int (u.prompt + u.completion))]) := by
    rw [getTruthy, husage]
    rfl
  have hinput : Json.lookup (str "input_tokens") [(str "input_tokens", .int u.prompt),
      (str "output_tokens", .int u.completion),
      (str "total_tokens", .int (u.prompt + u.completion))] = some (.int u.prompt) := rfl
  have houtput : Json.lookup (str "output_tokens") [(str "input_tokens", .int u.prompt),
      (str "output_tokens", .int u.completion),
      (str "total_tokens", .int (u.prompt + u.completion))] = some (.int u.completion) := rfl
  have hzero : ∀ n : ℕ, (if n = 0 then Json.int 0 else .int n) = .int n := fun n => by
    split_ifs with h
    · rw [h]
      rfl
    · rfl
  simp only [ChatHead.completedCounts, hobj, hget, Option.getD_some, Json.fields?,
    Option.bind_eq_bind, Option.bind_some, hinput, houtput, zeroCounts, intOr_nat, hzero]

/-- The tokens that come back: those of the last event, if `splitlines` does not break it. -/
theorem collect_completed {own : Str} {t : Str} {u : TokenUsage} {e : SseEvent}
    (hfit : (head.completed t u.prompt u.completion).Fit own)
    (h : (head.completed t u.prompt u.completion).Thinned e) :
    collect chat.receive zeroCounts ([e].filterMap (SseEvent.read float)) =
      some ([], if e.Whole float then (.int u.prompt, .int u.completion) else zeroCounts) := by
  have hname : (head.completed t u.prompt u.completion).name = str "response.completed" := rfl
  obtain ⟨fields, hfields⟩ := hfit.data
  obtain ⟨fields', hfields'⟩ := (h.fit hfit).data
  obtain ⟨hsame, hthinned⟩ := h
  rw [hname] at hsame hfields
  rw [hsame] at hfields'
  rw [hfields, hfields', Json.Thinned] at hthinned
  obtain ⟨gs, hgs, hthinned⟩ := hthinned
  obtain rfl := Json.obj.inj hgs
  have hcounts := completedCounts_thinned hfields hthinned
  have htype : ChatHead.eventType (some e.name, (str "type", .str (str "response.completed")) :: fields') =
      some (.str (str "response.completed")) := eventType_of_type (by decide)
  rw [List.filterMap_cons, List.filterMap_nil, SseEvent.read, hfields']
  by_cases hwhole : e.Whole float
  · have hreceive : chat.receive zeroCounts (some e.name,
        (str "type", .str (str "response.completed")) :: fields') =
          some ([], (.int u.prompt, .int u.completion)) := by
      rw [ChatHead.receive, htype, if_neg (by decide), if_pos rfl, hcounts]
      rfl
    simp only [if_pos hwhole, Json.fields?, Option.map_some, collect, hreceive,
      Option.bind_eq_bind, Option.bind_some, List.append_nil]
  · simp only [if_neg hwhole, collect]

theorem chunkContent_delta (t : Str) : chunkContent (chat.delta (.str t)) = t := rfl

/-- What the second converter makes of events that have lost characters. -/
theorem responsesSseToOpenaiChatSse_eq {texts texts' : List Str} {u : TokenUsage}
    {starting ending : List SseEvent} {completed : SseEvent} {pieces : List Bytes}
    (htexts : ∀ t ∈ texts', IsText t) (hcontents : IsText texts.flatten)
    (hstarting : head.starting.Forall₂ SseEvent.Thinned starting)
    (hending : (head.ending texts.flatten).Forall₂ SseEvent.Thinned ending)
    (hcompleted : (head.completed texts.flatten u.prompt u.completion).Thinned completed)
    (hpieces : (pieces.map decode).flatten =
      eventsText float (starting ++ head.deltas texts' ++ ending ++ [completed]) ++
        sseData (str "[DONE]")) :
    responsesSseToOpenaiChatSse chat pieces =
      some (((oneLine texts').map fun t => chat.delta (.str t)) ++
        if completed.Whole float then [chat.final u.prompt u.completion] else [chat.final 0 0]) := by
  have hfit := @ResponseHead.fit_completed head _ hcontents u
  have hquiet₁ := @collect_quiet float chat _ _ ResponseHead.fit_starting quiet_starting hstarting
    zeroCounts
  have hdeltas := @collect_deltas float head chat _ htexts zeroCounts
  have hquiet₂ := @collect_quiet float chat _ _ (ResponseHead.fit_ending hcontents)
    (quiet_ending _) hending zeroCounts
  have hlast := @collect_completed float head chat _ _ _ _ hfit hcompleted
  have hall : ∀ e ∈ starting ++ head.deltas texts' ++ ending ++ [completed], ∃ own, e.Fit own := by
    simp only [List.forall_mem_append, List.forall_mem_singleton]
    exact ⟨⟨⟨fit_of_thinned ResponseHead.fit_starting hstarting, ResponseHead.fit_deltas htexts⟩,
      fit_of_thinned (ResponseHead.fit_ending hcontents) hending⟩, _, hcompleted.fit hfit⟩
  have hread : iterSseEvents [] pieces =
      (starting ++ head.deltas texts' ++ ending ++ [completed]).filterMap (SseEvent.read float) := by
    rw [iterSseEvents_eq [] rfl, hpieces, List.nil_append, readBlocks_eventsText hall]
  have hcollect : collect chat.receive zeroCounts (iterSseEvents [] pieces) =
      some ((oneLine texts').map fun t => chat.delta (.str t),
        if completed.Whole float then (.int u.prompt, .int u.completion) else zeroCounts) := by
    rw [hread, List.filterMap_append, List.filterMap_append, List.filterMap_append, collect_append,
      collect_append, collect_append, hquiet₁, Option.bind_some, hdeltas, Option.map_some,
      Option.bind_some, hquiet₂, Option.map_some, Option.bind_some, hlast, Option.map_some]
    simp
  rw [responsesSseToOpenaiChatSse, hcollect]
  split_ifs <;> rfl

end Second

/-! ### The round trip -/

section RoundTrip
variable {style : DumpStyle} {repr : Json → Str} {float : Bool → ℕ → ℤ → Str} {head : ResponseHead}
  {chat : ChatHead} {texts texts' : List Str}

/-- Of texts that have lost characters no more comes back than there was, and as much only
if they have lost none and `splitlines` breaks none of them. -/
theorem length_oneLine (h : texts.Forall₂ Thins texts') :
    (oneLine texts').flatten.length ≤ texts.flatten.length ∧
      ((oneLine texts').flatten.length = texts.flatten.length →
        texts' = texts ∧ ∀ t ∈ texts, ∀ c ∈ t, ¬ IsUnicodeBreak c) := by
  induction h with
  | nil => exact ⟨le_rfl, fun _ => ⟨rfl, fun t ht => by cases ht⟩⟩
  | @cons t t' texts texts' ht _ ih =>
      obtain ⟨hle, heq⟩ := ih
      have hshort := ht.sublist.length_le
      rw [oneLine, List.filter_cons, ← oneLine, List.flatten_cons, List.length_append]
      by_cases hline : ∀ c ∈ t', ¬ IsUnicodeBreak c
      · rw [if_pos (by simpa using hline), List.flatten_cons, List.length_append]
        refine ⟨by omega, fun hlen => ?_⟩
        obtain rfl := ht.eq_of_length_le (by omega)
        obtain ⟨rfl, hrest⟩ := heq (by omega)
        exact ⟨rfl, List.forall_mem_cons.mpr ⟨hline, hrest⟩⟩
      · -- a text that is broken is lost
        rw [if_neg (by simpa using hline)]
        push Not at hline
        obtain ⟨c, hc, -⟩ := hline
        have hpos := List.length_pos_of_mem hc
        exact ⟨by omega, fun hlen => by omega⟩

/-- Of a chat stream no more is read than there is, and as much only if `splitlines` breaks
no chunk. -/
theorem length_contents_filter (chunks : List ChatChunk) :
    (contents (chunks.filter (WholeChunk style))).length ≤ (contents chunks).length ∧
      ((contents (chunks.filter (WholeChunk style))).length = (contents chunks).length →
        chunks.filter (WholeChunk style) = chunks) := by
  induction chunks with
  | nil => exact ⟨le_rfl, fun _ => rfl⟩
  | cons chunk chunks ih =>
      obtain ⟨hle, heq⟩ := ih
      have hcons : ∀ cs, (contents (chunk :: cs)).length = chunk.content.length + (contents cs).length :=
        fun cs => by rw [contents, List.flatMap_cons, List.length_append]; rfl
      rw [List.filter_cons, hcons]
      by_cases hwhole : WholeChunk style chunk
      · rw [if_pos (by simpa using hwhole), hcons]
        exact ⟨by omega, fun hlen => by rw [heq (by omega)]⟩
      · -- such a chunk has a content
        rw [if_neg (by simpa using hwhole)]
        unfold WholeChunk at hwhole
        push Not at hwhole
        obtain ⟨c, hc, hbreak⟩ := hwhole
        rcases chunk.written hc with hascii | ⟨-, -, hcontent, -⟩
        · unfold IsUnicodeBreak at hbreak
          omega
        · have hpos := List.length_pos_of_mem hcontent
          exact ⟨by omega, fun hlen => by omega⟩

theorem wholeChunk_of_content {chunk : ChatChunk} (h : ∀ c ∈ chunk.content, ¬ IsUnicodeBreak c) :
    WholeChunk style chunk := by
  intro c hc hbreak
  rcases chunk.written hc with hascii | ⟨-, -, hcontent, -⟩
  · unfold IsUnicodeBreak at hbreak
    omega
  · exact h c hcontent hbreak

theorem fit_events (htexts : ∀ t ∈ texts, IsText t) (u : TokenUsage) :
    ∀ e ∈ head.events texts u, ∃ own, e.Fit own := by
  have hcontents : IsText texts.flatten := fun c hc => by
    obtain ⟨t, ht, hc⟩ := List.mem_flatten.mp hc
    exact htexts t ht c hc
  simp only [ResponseHead.events, List.forall_mem_append, List.forall_mem_singleton]
  exact ⟨⟨⟨ResponseHead.fit_starting, ResponseHead.fit_deltas htexts⟩,
    ResponseHead.fit_ending hcontents⟩, _, ResponseHead.fit_completed hcontents u⟩

/-- What is left of the characters that start at byte `i` of the pieces. -/
def Left (pieces : List Bytes) (before s : Str) : Str :=
  uncut (cutPositions pieces) (encode before).length s

theorem encode_length_append (a b : Str) :
    (encode (a ++ b)).length = (encode a).length + (encode b).length := by
  rw [encode_append, List.length_append]

/-- **What the pieces of a responses stream decode to.** -/
theorem decode_events (htexts : ∀ t ∈ texts, IsText t) {u : TokenUsage} {pieces : List Bytes}
    (h : pieces.flatten = encode (responsesText float (head.events texts u))) :
    (pieces.map decode).flatten =
      Left pieces [] (eventsText float head.starting) ++
        Left pieces (eventsText float head.starting) (eventsText float (head.deltas texts)) ++
        Left pieces (eventsText float (head.starting ++ head.deltas texts))
          (eventsText float (head.ending texts.flatten)) ++
        Left pieces (eventsText float (head.starting ++ head.deltas texts ++ head.ending texts.flatten))
          ((head.completed texts.flatten u.prompt u.completion).text float) ++
        sseData (str "[DONE]") := by
  have hdone : ∀ c ∈ sseData (str "[DONE]"), c < 128 := sseData_ascii (by decide)
  have htext : IsText (responsesText float (head.events texts u)) := by
    intro c hc
    rcases List.mem_append.mp hc with hc | hc
    · exact isText_eventsText (fit_events htexts u) c hc
    · exact isText_of_ascii hdone c hc
  have hone : ∀ e : SseEvent, eventsText float [e] = e.text float := fun e => by simp [eventsText]
  have hnil : (encode []).length = 0 := rfl
  rw [decode_pieces h htext, responsesText, ResponseHead.events]
  simp only [Left, eventsText_append, hone, uncut_append, encode_length_append, hnil, Nat.zero_add]
  rw [(thins_uncut _ _ (sseData (str "[DONE]"))).eq_of_ascii hdone]

theorem isText_of_thinned (htexts : ∀ t ∈ texts, IsText t) (h : texts.Forall₂ Thins texts') :
    ∀ t ∈ texts', IsText t := by
  induction h with
  | nil => exact htexts
  | @cons t t' texts texts' ht _ ih =>
      rw [List.forall_mem_cons] at htexts ⊢
      exact ⟨ht.isText htexts.1, ih htexts.2⟩

/-- The texts that are left of those that were sent. -/
theorem left_deltas (htexts : ∀ t ∈ texts, IsText t) (pieces : List Bytes) (before : Str) :
    ∃ texts', Left pieces before (eventsText float (head.deltas texts)) =
        eventsText float (head.deltas texts') ∧ texts.Forall₂ Thins texts' ∧
      (CutsWithin pieces (encode before).length (eventsText float (head.deltas texts)) ↔
        texts' = texts) := by
  have hthins := thins_uncut (cutPositions pieces) (encode before).length
    (eventsText float (head.deltas texts))
  have hcuts := @uncut_eq_self_iff (cutPositions pieces) (encode before).length
    (eventsText float (head.deltas texts))
  obtain ⟨deltas', hleft, hdeltas'⟩ := thins_eventsText (ResponseHead.fit_deltas htexts) hthins
  obtain ⟨texts', rfl, htexts'⟩ := thinned_deltas hdeltas'
  by_cases hself : Left pieces before (eventsText float (head.deltas texts)) =
      eventsText float (head.deltas texts)
  · have hrefl : texts.Forall₂ Thins texts := by
      exact List.forall₂_same.mpr fun t _ => .refl t
    exact ⟨texts, hself, hrefl, iff_of_true (hcuts.mp hself) rfl⟩
  · refine ⟨texts', hleft, htexts', iff_of_false (fun h => hself (hcuts.mpr h)) fun heq => hself ?_⟩
    rw [heq] at hleft
    exact hleft

/-- What comes back: texts and tokens. -/
theorem roundTrips_of_output {reply : ChatReply} {pieces : List Bytes} {p c : ℤ}
    (h : responsesSseToOpenaiChatSse chat pieces =
      some ((texts.map fun t => chat.delta (.str t)) ++ [chat.final p c])) :
    RoundTrips chat reply pieces ↔ texts.flatten = contents reply.chunks ∧
      p = reply.usage.prompt ∧ c = reply.usage.completion := by
  have hcontent : ((texts.map fun t => chat.delta (.str t)) ++ [chat.final p c]).flatMap chunkContent =
      texts.flatten := by
    rw [List.flatMap_append, List.flatMap_map, List.flatMap_singleton]
    have hlast : chunkContent (chat.final p c) = [] := rfl
    rw [hlast, List.append_nil]
    simp only [chunkContent_delta]
    rw [List.flatMap_id']
  have husage : chunkUsage (chat.final p c) = some (some (.int p), some (.int c)) := rfl
  unfold RoundTrips
  rw [h]
  constructor
  · rintro ⟨out, last, hout, htext, hcounts⟩
    have hout' := Option.some.inj hout
    obtain ⟨-, hlast⟩ := List.append_inj' hout' rfl
    obtain rfl := List.singleton_inj.mp hlast
    rw [← hout', hcontent] at htext
    simp only [husage, Option.some.injEq, Prod.mk.injEq, Json.int.injEq] at hcounts
    exact ⟨htext, hcounts⟩
  · rintro ⟨htext, rfl, rfl⟩
    exact ⟨_, _, rfl, hcontent.trans htext, husage⟩

/-- What the second converter makes of the pieces. -/
theorem output_events (htexts : ∀ t ∈ texts, IsText t) {u : TokenUsage} {pieces : List Bytes}
    (h : pieces.flatten = encode (responsesText float (head.events texts u))) :
    ∃ texts', texts.Forall₂ Thins texts' ∧
      (CutsWithin pieces (encode (eventsText float head.starting)).length
        (eventsText float (head.deltas texts)) ↔ texts' = texts) ∧
      responsesSseToOpenaiChatSse chat pieces =
        some (((oneLine texts').map fun t => chat.delta (.str t)) ++
          if ∀ c ∈ Left pieces (eventsText float (head.starting ++ head.deltas texts ++
              head.ending texts.flatten)) ((head.completed texts.flatten u.prompt u.completion).text
                float), ¬ IsUnicodeBreak c then
            [chat.final u.prompt u.completion] else [chat.final 0 0]) := by
  have hcontents : IsText texts.flatten := fun c hc => by
    obtain ⟨t, ht, hc⟩ := List.mem_flatten.mp hc
    exact htexts t ht c hc
  have hfit := @ResponseHead.fit_completed head _ hcontents u
  -- what is left of each part of the stream
  obtain ⟨starting, hstarting, hthinned₁⟩ := @thins_eventsText float _ _
    (@ResponseHead.fit_starting head) (thins_uncut (cutPositions pieces) (encode []).length _)
  obtain ⟨texts', hdeltas, hthinned₂, hcuts⟩ := @left_deltas float head _ htexts pieces
    (eventsText float head.starting)
  obtain ⟨ending, hending, hthinned₃⟩ := @thins_eventsText float _ _
    (@ResponseHead.fit_ending head _ hcontents) (thins_uncut (cutPositions pieces)
      (encode (eventsText float (head.starting ++ head.deltas texts))).length _)
  obtain ⟨completed, hcompleted, hthinned₄⟩ := @SseEvent.thins_text _ float _ _ hfit
    (thins_uncut (cutPositions pieces) (encode (eventsText float (head.starting ++ head.deltas texts ++
      head.ending texts.flatten))).length _)
  have hwhole := @SseEvent.whole_iff_text _ float _ (hthinned₄.fit hfit)
  have htexts' := isText_of_thinned htexts hthinned₂
  have hone : completed.text float = eventsText float [completed] := by simp [eventsText]
  have hdecode := decode_events htexts h
  rw [hdeltas, Left, Left, Left, hstarting, hending, hcompleted, hone, ← eventsText_append,
    ← eventsText_append, ← eventsText_append] at hdecode
  have hout := @responsesSseToOpenaiChatSse_eq float head chat _ _ _ _ _ _ _ htexts' hcontents
    hthinned₁ hthinned₃ hthinned₄ hdecode
  refine ⟨texts', hthinned₂, hcuts, ?_⟩
  rw [hout, Left, hcompleted]
  simp only [hwhole]

/-- **When a stream comes back**: exactly when no text has a character that ends a line for
`splitlines` only, no cut is within a character of a text, and the last event is read if
there are tokens. -/
theorem roundTrips_iff {reply : ChatReply} {done : Bool} {events : List SseEvent}
    {pieces : List Bytes}
    (hsent : openaiChatSseToResponsesSse repr float head (chatEvents style reply.chunks done) =
      some events)
    (hpieces : pieces.flatten = encode (responsesText float events)) :
    RoundTrips chat reply pieces ↔ Intact float head reply pieces := by
  rw [openaiChatSseToResponsesSse_eq] at hsent
  obtain rfl := Option.some.inj hsent
  have hkept := @length_contents_filter style reply.chunks
  obtain ⟨texts', hthinned, hcuts, hout⟩ := @output_events float head chat _
    (isText_textsOf (reply.chunks.filter (WholeChunk style))) _ _ hpieces
  have hlen := length_oneLine hthinned
  rw [flatten_textsOf] at hlen hout
  have hfinal : ∀ {P : Prop} [Decidable P] (u : TokenUsage),
      (if P then [chat.final u.prompt u.completion] else [chat.final 0 0]) =
        [chat.final (if P then u.prompt else 0) (if P then u.completion else 0)] := by
    intro P _ u
    split_ifs <;> rfl
  rw [hfinal] at hout
  rw [roundTrips_of_output hout]
  constructor
  · rintro ⟨htext, hprompt, hcompletion⟩
    -- nothing is lost: no chunk, no text and no character
    have hall := congrArg List.length htext
    have hchunks := hkept.2 (by omega)
    obtain ⟨hsame, hlines⟩ := hlen.2 (by rw [hchunks]; exact hall)
    have husage : reply.readUsage style = reply.usage := by
      have hmem : reply.last ∈ reply.chunks.filter (WholeChunk style) := by
        rw [hchunks]
        exact List.mem_append_right _ (List.mem_singleton_self _)
      exact if_pos (by simpa using (List.mem_filter.mp hmem).2)
    rw [hchunks] at hcuts hsame hlines hprompt hcompletion
    rw [husage] at hprompt hcompletion
    refine ⟨fun c hc => ?_, hcuts.mpr hsame, ?_⟩
    · rw [← flatten_textsOf] at hc
      obtain ⟨t, ht, hc⟩ := List.mem_flatten.mp hc
      exact hlines t ht c hc
    · split_ifs at hprompt hcompletion with hread
      · exact Or.inr hread
      · exact Or.inl ⟨by omega, by omega⟩
  · rintro ⟨hline, hcut, husage⟩
    have hchunks : reply.chunks.filter (WholeChunk style) = reply.chunks := by
      refine List.filter_eq_self.mpr fun chunk hchunk => ?_
      have hwhole : WholeChunk style chunk :=
        wholeChunk_of_content fun c hc => hline c (List.mem_flatMap.mpr ⟨chunk, hchunk, hc⟩)
      simpa using hwhole
    have hread : reply.readUsage style = reply.usage := by
      refine if_pos ?_
      have hlast : reply.last ∈ reply.chunks := List.mem_append_right _ (List.mem_singleton_self _)
      exact wholeChunk_of_content fun c hc => hline c (List.mem_flatMap.mpr ⟨_, hlast, hc⟩)
    rw [hchunks, hread]
    rw [hchunks] at hcuts
    obtain rfl := hcuts.mp hcut
    have hlines : oneLine (textsOf reply.chunks) = textsOf reply.chunks := by
      refine List.filter_eq_self.mpr fun t ht => ?_
      have hone : ∀ c ∈ t, ¬ IsUnicodeBreak c := fun c hc => hline c (by
        rw [← flatten_textsOf]
        exact List.mem_flatten.mpr ⟨t, ht, hc⟩)
      simpa using hone
    refine ⟨by rw [hlines, flatten_textsOf], ?_⟩
    rcases husage with ⟨hp, hc⟩ | hlast
    · rw [hp, hc]
      exact ⟨ite_self _, ite_self _⟩
    · exact ⟨if_pos hlast, if_pos hlast⟩

end RoundTrip

/-- A reply of one text. -/
def textReply (t : UnicodeText) : ChatReply where
  before := [textChunk t]
  last := { textChunk t with choice := none, usage := some .zero }
  usage := .zero
  before_usage := fun _ h => by rw [List.mem_singleton.mp h]; rfl
  last_usage := rfl

def plainHead : ResponseHead where
  responseId := ⟨str "r", by decide⟩
  itemId := ⟨str "i", by decide⟩
  model := ⟨str "m", by decide⟩
  createdAt := ⟨0, zero_small⟩
  completedAt := ⟨0, zero_small⟩

def plainChat : ChatHead where
  chatId := ⟨str "c", ascii_c⟩
  created := ⟨0, zero_small⟩
  model := ⟨str "m", by decide⟩

/-- The stream of a text, cut at byte 672. -/
def cutText (t : UnicodeText) : List Bytes :=
  [(encode (responsesText noFloats (plainHead.events [t.text] .zero))).take 672,
    (encode (responsesText noFloats (plainHead.events [t.text] .zero))).drop 672]

/-- What the first converter makes of an escaped text. -/
theorem sent_textReply {t : UnicodeText} (ht : t.text ≠ []) :
    openaiChatSseToResponsesSse (fun _ => []) noFloats plainHead
        (chatEvents (.compact noFloats) (textReply t).chunks true) =
      some (plainHead.events [t.text] .zero) := by
  have hwhole : ∀ chunk : ChatChunk, WholeChunk (.compact noFloats) chunk := by
    intro chunk c hc hbreak
    rcases chunk.written hc with hascii | ⟨hraw, -⟩
    · unfold IsUnicodeBreak at hbreak
      omega
    · cases hraw
  have hfilter : (textReply t).chunks.filter (WholeChunk (.compact noFloats)) = (textReply t).chunks :=
    List.filter_eq_self.mpr fun chunk _ => by simpa using hwhole chunk
  have htexts : textsOf (textReply t).chunks = [t.text] := by
    simp [textsOf, ChatReply.chunks, textReply, textChunk, ChatChunk.content, ht]
  have husage : (textReply t).readUsage (.compact noFloats) = .zero := if_pos (hwhole _)
  rw [openaiChatSseToResponsesSse_eq, hfilter, htexts, husage]

theorem flatten_cutText (t : UnicodeText) : (cutText t).flatten =
    encode (responsesText noFloats (plainHead.events [t.text] .zero)) := by
  simp [cutText]

theorem roundTrips_letter :
    RoundTrips plainChat (textReply ⟨str "e", by decide⟩) (cutText ⟨str "e", by decide⟩) := by
  refine (roundTrips_iff (sent_textReply (by decide)) (flatten_cutText _)).mpr
    ⟨by decide, ?_, Or.inl ⟨rfl, rfl⟩⟩
  -- each cut of an ASCII text is between two characters
  refine uncut_eq_self_iff.mp ((thins_uncut _ _ _).eq_of_ascii ?_)
  decide +kernel

/-- A letter of two bytes is lost between two pieces, and a text with a line separator is
lost in one. -/
theorem not_roundTrips :
    (openaiChatSseToResponsesSse (fun _ => []) noFloats plainHead
        (chatEvents (.compact noFloats) (textReply ⟨[0xE9], by decide⟩).chunks true) =
          some (plainHead.events [[0xE9]] .zero) ∧
      ¬ RoundTrips plainChat (textReply ⟨[0xE9], by decide⟩) (cutText ⟨[0xE9], by decide⟩)) ∧
    openaiChatSseToResponsesSse (fun _ => []) noFloats plainHead
        (chatEvents (.compact noFloats) (textReply ⟨[0x61, 0x2028], by decide⟩).chunks true) =
          some (plainHead.events [[0x61, 0x2028]] .zero) ∧
      ¬ RoundTrips plainChat (textReply ⟨[0x61, 0x2028], by decide⟩)
        [encode (responsesText noFloats (plainHead.events [[0x61, 0x2028]] .zero))] := by
  have hcut : (responsesSseToOpenaiChatSse plainChat (cutText ⟨[0xE9], by decide⟩)).map
      (List.flatMap chunkContent) = some [] := by decide +kernel
  have hbreak : (responsesSseToOpenaiChatSse plainChat
      [encode (responsesText noFloats (plainHead.events [[0x61, 0x2028]] .zero))]).map
        (List.flatMap chunkContent) = some [] := by decide +kernel
  refine ⟨⟨sent_textReply (by decide), ?_⟩, sent_textReply (by decide), ?_⟩
  · rintro ⟨out, last, hconvert, htext, -⟩
    rw [hconvert, Option.map_some, htext] at hcut
    exact absurd hcut (by decide)
  · rintro ⟨out, last, hconvert, htext, -⟩
    rw [hconvert, Option.map_some, htext] at hbreak
    exact absurd hbreak (by decide)

end Llmxy
