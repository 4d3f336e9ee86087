import Llmxy.Lib.Loops
import Llmxy.Protocols.ChatBody

/-!
# Responses by way of a chat completion

A request of the responses endpoint that is routed to a Responses upstream becomes a chat
payload and then a Responses payload again.

A payload is read as its turns: who speaks, the text of the turn, and its images.

## Main definitions

* `openaiChatToResponsesPayload` — the way back.
* `Turn`, `turnsOf` — the turns of a payload.
* `ResponsesRequest`, `MeaningKept` — a request, and what is to be the same.
* `meaning_kept_iff` — when it is: without images, for one.
-/

namespace Llmxy

/-! ### The way back -/

/-- `{"type": "input_text", "text": text}`. -/
def inputText (text : Json) : Json :=
  .obj [(str "type", .str (str "input_text")), (str "text", text)]

/-- What a block of chat content becomes. -/
def chatBlockToResponses (block : Json) : List Json :=
  if !block.isObj then []
  else if fieldOf (str "type") block = .str (str "text") then
    [inputText ((fieldOf (str "text") block).orElse (.str []))]
  else if fieldOf (str "type") block = .str (str "image_url") then
    match imageUrl block with
    | .str url => [.obj [(str "type", .str (str "input_image")), (str "image_url", .str url)]]
    | _ => []
  else []

section
variable (repr : Json → Str)

/-- `_chat_content_to_responses_content`.  `none` when it raises. -/
def chatContentToResponsesContent : Json → Option (List Json)
  | .arr blocks =>
      let blocks := blocks.flatMap chatBlockToResponses
      some (if blocks.isEmpty then [inputText (.str [])] else blocks)
  | content => (contentToText repr content).map fun text => [inputText (.str text)]

/-- What a message adds to the instructions and to the input. -/
def chatMessageToResponses (msg : Json) : Option (List Str × List Json) :=
  match msg with
  | .obj _ =>
      let role := (fieldOf (str "role") msg).orElse (.str (str "user"))
      let content := fieldOf (str "content") msg
      if role = .str (str "system") then
        (contentToText repr content).map fun text => (if text.isEmpty then [] else [text], [])
      else
        let role := if role = .str (str "assistant") then str "assistant" else str "user"
        (chatContentToResponsesContent repr content).map fun content =>
          ([], [chatMessage (.str role) (.arr content)])
  | _ => some ([], [])

/-- `openai_chat_to_responses_payload`. -/
def openaiChatToResponsesPayload (payload : Json) : Option Json := do
  let visited ← ((fieldOf (str "messages") payload).orElse (.arr [])).iter?
  let messages ← visited.mapM (chatMessageToResponses repr)
  let instructions := messages.flatMap Prod.fst
  let inputItems := messages.flatMap Prod.snd
  let maxTokens := openaiChatTokenLimit payload .null
  return .obj ([(str "model", fieldOf (str "model") payload),
      (str "input", .arr (if inputItems.isEmpty then
        [chatMessage (.str (str "user")) (.arr [inputText (.str [])])] else inputItems))] ++
    (if instructions.isEmpty then []
      else [(str "instructions", .str (join (str "\n\n") instructions))]) ++
    (if maxTokens = .null then [] else [(str "max_output_tokens", maxTokens)]) ++
    [str "temperature", str "top_p", str "stream"].flatMap (fun key => copied key key payload) ++
    copied (str "stop") (str "stop") payload)

end

/-! ### What a payload means -/

/-- Who speaks, the text, and the images. -/
structure Turn where
  role : Json
  text : Str
  images : List Json
  deriving DecidableEq

/-- The text of a part of a message. -/
def partText (part : Json) : Str :=
  if fieldOf (str "type") part = .str (str "input_text") ∨
      fieldOf (str "type") part = .str (str "output_text") then (pieceText part).getD []
  else []

/-- The text of the content of a message. -/
def contentText : Json → Str
  | .str s => s
  | .arr parts => parts.flatMap partText
  | _ => []

/-- The images of the content of a message. -/
def contentImages : Json → List Json
  | .arr parts => parts.filter fun part => fieldOf (str "type") part = .str (str "input_image")
  | _ => []

/-- An item of the input: a string is what the user says. -/
def turnOf : Json → Turn
  | .str s => ⟨.str (str "user"), s, []⟩
  | item => ⟨fieldOf (str "role") item, contentText (fieldOf (str "content") item),
      contentImages (fieldOf (str "content") item)⟩

/-- The turns of a payload. -/
def turnsOf (payload : Json) : List Turn :=
  match fieldOf (str "input") payload with
  | .str s => [turnOf (.str s)]
  | .arr items => items.map turnOf
  | _ => []

/-- The limit of a payload, under either of its names. -/
def outputTokenLimit (payload : Json) : Json :=
  (((payload.get? (str "max_output_tokens")).or (payload.get? (str "max_tokens"))).getD .null)

/-- A part of a message. -/
def IsPart (part : Json) : Prop :=
  (part.get? (str "type") = some (.str (str "input_text")) ∨
      part.get? (str "type") = some (.str (str "output_text"))) ∧ (pieceText part).isSome ∨
    part.get? (str "type") = some (.str (str "input_image"))

/-- The content of a message: a string, or a list of parts. -/
def IsPartContent : Json → Prop
  | .str _ => True
  | .arr parts => ∀ part ∈ parts, IsPart part
  | _ => False

/-- An item of an input list: a string, or a message of the user or the assistant. -/
def IsInputItem : Json → Prop
  | .str _ => True
  | .obj fields =>
      (Json.lookup (str "role") fields = some (.str (str "user")) ∨
        Json.lookup (str "role") fields = some (.str (str "assistant"))) ∧
      ∃ content, Json.lookup (str "content") fields = some content ∧ IsPartContent content
  | _ => False

/-- An input: a string, or a list of items. -/
def IsInput : Json → Prop
  | .str _ => True
  | .arr items => ∀ item ∈ items, IsInputItem item
  | _ => False

/-- A request of the responses endpoint. -/
structure ResponsesRequest where
  payload : Json
  input : Json
  payload_input : payload.get? (str "input") = some input
  isInput : IsInput input

/-- **A request keeps its meaning** on the way to its upstream. -/
def MeaningKept (repr : Json → Str) (r : ResponsesRequest) : Prop :=
  ∃ out, (responsesToOpenaiChatPayload repr r.payload).bind (openaiChatToResponsesPayload repr) =
      some out ∧
    (fieldOf (str "instructions") out).orElse .null =
      (fieldOf (str "instructions") r.payload).orElse .null ∧
    turnsOf out = turnsOf r.payload ∧
    outputTokenLimit out = outputTokenLimit r.payload ∧
    ∀ key ∈ [str "temperature", str "top_p", str "stream", str "stop"],
      out.get? key = r.payload.get? key

/-- **What the way keeps.**  The instructions are a string that is not blank, if they count
as true at all; the input is no empty list; and there is no image in it. -/
structure PlainRequest (r : ResponsesRequest) : Prop where
  instructions : (fieldOf (str "instructions") r.payload).truthy = true →
    (instructionsOf r.payload).isSome
  input : r.input ≠ .arr []
  images : ∀ turn ∈ turnsOf r.payload, turn.images = []

/-! ### From turns to messages -/

section
variable {repr : Json → Str}

theorem pieceText_eq_some {part : Json} {text : Str} (h : pieceText part = some text) :
    fieldOf (str "text") part = .str text := by
  obtain ⟨v, hv, hstr⟩ := Option.bind_eq_some_iff.mp h
  obtain ⟨fields, rfl⟩ := Json.eq_obj_of_get? hv
  rw [Json.get?_obj] at hv
  rw [fieldOf, hv, Option.getD_some]
  cases v with
  | str s => exact congrArg Json.str (Option.some.inj hstr)
  | _ => cases hstr

theorem blockText_eq {part : Json} (h : IsPart part) : blockText repr part = some (partText part) := by
  have htypes : ∀ t ∈ [str "input_text", str "output_text"],
      (Json.str t).hashable = true ∧
        Json.str t ∈ [.str (str "text"), .str (str "input_text"), .str (str "output_text")] := by
    decide
  rcases h with ⟨htype, htext⟩ | htype
  · obtain ⟨text, htext⟩ := Option.isSome_iff_exists.mp htext
    have hfield := pieceText_eq_some htext
    obtain ⟨t, ht, htype⟩ : ∃ t ∈ [str "input_text", str "output_text"],
        part.get? (str "type") = some (.str t) := by
      rcases htype with htype | htype
      · exact ⟨_, by simp, htype⟩
      · exact ⟨_, by simp, htype⟩
    obtain ⟨fields, rfl⟩ := Json.eq_obj_of_get? htype
    rw [Json.get?_obj] at htype
    have hkind : fieldOf (str "type") (.obj fields) = .str t := by
      rw [fieldOf, htype, Option.getD_some]
    have horElse : ((Json.str text).orElse (.str [])).toStr repr = text := by cases text <;> rfl
    have hor : Json.str t = .str (str "input_text") ∨ Json.str t = .str (str "output_text") := by
      simpa using ht
    simp only [blockText, partText, hkind, (htypes t ht).1, (htypes t ht).2, hfield, horElse, hor,
      htext, Bool.not_true, Bool.false_eq_true, if_false, if_true, Option.getD_some]
  · obtain ⟨fields, rfl⟩ := Json.eq_obj_of_get? htype
    rw [Json.get?_obj] at htype
    have hkind : fieldOf (str "type") (.obj fields) = .str (str "input_image") := by
      rw [fieldOf, htype, Option.getD_some]
    rw [blockText, partText, hkind]
    rfl

theorem contentToText_eq {content : Json} (h : IsPartContent content) :
    contentToText repr content = some (contentText content) := by
  cases content with
  | str s => rfl
  | arr parts =>
      have hparts : parts.mapM (blockText repr) = some (parts.map partText) :=
        mapM_eq_some_map fun part hpart => blockText_eq (h part hpart)
      rw [contentToText, hparts, Option.map_some, contentText, List.flatMap_def]
  | _ => exact h.elim

/-- The chat message of a turn. -/
def Turn.chat (turn : Turn) : Json := chatMessage turn.role (.str turn.text)

/-- One of the two who speak in a chat. -/
def Turn.HasRole (turn : Turn) : Prop :=
  turn.role = .str (str "user") ∨ turn.role = .str (str "assistant")

/-- **An item of the input** becomes the message of its turn. -/
theorem item_to_chat {item : Json} (h : IsInputItem item) :
    responsesInputItemToChatMessage repr item = some (some (turnOf item).chat) ∧
      (turnOf item).HasRole := by
  cases item with
  | str s => exact ⟨rfl, Or.inl rfl⟩
  | obj fields =>
      obtain ⟨hrole, content, hcontent, hshape⟩ := h
      have hfield : fieldOf (str "content") (.obj fields) = content := by
        rw [fieldOf, hcontent, Option.getD_some]
      have hturn : turnOf (.obj fields) = ⟨fieldOf (str "role") (.obj fields), contentText content,
          contentImages content⟩ := by
        rw [← hfield]
        rfl
      rw [responsesInputItemToChatMessage, hturn, Turn.chat, Turn.HasRole, hfield,
        contentToText_eq hshape]
      dsimp only
      rcases hrole with hrole | hrole
      · rw [fieldOf, hrole, Option.getD_some]
        exact ⟨rfl, Or.inl rfl⟩
      · rw [fieldOf, hrole, Option.getD_some]
        exact ⟨rfl, Or.inr rfl⟩
  | _ => exact h.elim

theorem fieldOf_of_get? {key : Str} {v x : Json} (h : v.get? key = some x) : fieldOf key v = x := by
  obtain ⟨fields, rfl⟩ := Json.eq_obj_of_get? h
  rw [Json.get?_obj] at h
  rw [fieldOf, h, Option.getD_some]

/-- **The input** becomes the messages of its turns. -/
theorem input_to_chat (r : ResponsesRequest) :
    inputMessages repr r.payload = some ((turnsOf r.payload).map Turn.chat) ∧
      ∀ turn ∈ turnsOf r.payload, turn.HasRole := by
  have hinput := fieldOf_of_get? r.payload_input
  have hshape := r.isInput
  rw [inputMessages, turnsOf, hinput]
  cases hcase : r.input with
  | str s =>
      refine ⟨rfl, fun turn hturn => ?_⟩
      obtain rfl := List.mem_singleton.mp hturn
      exact Or.inl rfl
  | arr items =>
      rw [hcase] at hshape
      have hitems : items.mapM (responsesInputItemToChatMessage repr) =
          some (items.map fun item => some (turnOf item).chat) :=
        mapM_eq_some_map fun item hitem => (item_to_chat (hshape item hitem)).1
      dsimp only
      rw [hitems, Option.map_some, List.reduceOption, List.filterMap_map, List.map_map]
      refine ⟨congrArg some (congrFun (List.filterMap_eq_map (f := Turn.chat ∘ turnOf)) items),
        fun turn hturn => ?_⟩
      obtain ⟨item, hitem, rfl⟩ := List.mem_map.mp hturn
      exact (@item_to_chat repr _ (hshape item hitem)).2
  | _ => rw [hcase] at hshape; exact hshape.elim

/-! ### The two payloads -/

/-- The messages of the chat payload between the two. -/
def chatMessages (payload : Json) : List Json :=
  let messages := (instructionsOf payload).toList.map
    (fun s => chatMessage (.str (str "system")) (.str s)) ++ (turnsOf payload).map Turn.chat
  if messages.isEmpty then [chatMessage (.str (str "user")) (.str [])] else messages

/-- What the chat payload holds. -/
theorem responsesToOpenaiChatPayload_fields (r : ResponsesRequest) :
    ∃ fields, responsesToOpenaiChatPayload repr r.payload = some (.obj fields) ∧
      Json.lookup (str "messages") fields = some (.arr (chatMessages r.payload)) ∧
      Json.lookup (str "max_tokens") fields =
        (r.payload.get? (str "max_output_tokens")).or (r.payload.get? (str "max_tokens")) ∧
      Json.lookup (str "max_completion_tokens") fields = none ∧
      ∀ key ∈ [str "temperature", str "top_p", str "stream", str "stop"],
        Json.lookup key fields = r.payload.get? key := by
  have hlimit : ∀ key, Json.lookup key (if (r.payload.get? (str "max_output_tokens")).isSome then
      copied (str "max_tokens") (str "max_output_tokens") r.payload
    else copied (str "max_tokens") (str "max_tokens") r.payload) =
      if str "max_tokens" = key then
        (r.payload.get? (str "max_output_tokens")).or (r.payload.get? (str "max_tokens"))
      else none := fun key => by
    cases h : r.payload.get? (str "max_output_tokens") with
    | none => rw [if_neg (by simp), lookup_copied, Option.none_or]
    | some v => rw [if_pos (by rfl), lookup_copied, h, Option.some_or]
  rw [responsesToOpenaiChatPayload, (input_to_chat r).1, Option.map_some]
  refine ⟨_, rfl, ?_, ?_, ?_, fun key hkey => ?_⟩
  · simp +decide only [Json.lookup_append, Json.lookup_cons, Json.lookup_nil, if_false, if_true,
      Option.some_or]
    rfl
  · simp +decide only [Json.lookup_append, Json.lookup_cons, Json.lookup_nil, hlimit,
      lookup_copied_all, lookup_streamOptions, if_false, if_true, Option.none_or, Option.or_none]
  · simp +decide only [Json.lookup_append, Json.lookup_cons, Json.lookup_nil, hlimit,
      lookup_copied_all, lookup_streamOptions, if_false, Option.or_none]
  · have hne : key ≠ str "model" ∧ key ≠ str "messages" ∧ key ≠ str "max_tokens" ∧
        key ≠ str "stream_options" := by
      revert key
      decide
    rw [Json.lookup_append, Json.lookup_append, Json.lookup_append, Json.lookup_cons,
      Json.lookup_cons, Json.lookup_nil, if_neg hne.1.symm, if_neg hne.2.1.symm, hlimit,
      if_neg hne.2.2.1.symm, lookup_copied_all, if_pos hkey, lookup_streamOptions hne.2.2.2]
    simp only [Option.none_or, Option.or_none]

/-- What a turn is sent as. -/
def Turn.sent (turn : Turn) : Json := chatMessage turn.role (.arr [inputText (.str turn.text)])

theorem chat_to_responses {turn : Turn} (h : turn.HasRole) :
    chatMessageToResponses repr turn.chat = some ([], [turn.sent]) := by
  obtain ⟨role, text, images⟩ := turn
  rcases h with rfl | rfl <;> rfl

/-- What comes back is the turn without its images. -/
theorem turnOf_sent (turn : Turn) : turnOf turn.sent = ⟨turn.role, turn.text, []⟩ := by
  obtain ⟨role, text, images⟩ := turn
  show Turn.mk role (text ++ []) [] = _
  rw [List.append_nil]

/-- The turn that stands for an empty input. -/
def emptyTurn : Turn := ⟨.str (str "user"), [], []⟩

/-- The turns that are sent upstream. -/
def sentTurns (turns : List Turn) : List Turn := if turns.isEmpty then [emptyTurn] else turns

/-- A blank text is no instruction. -/
theorem ne_nil_of_instructionsOf {payload : Json} {s : Str} (h : instructionsOf payload = some s) :
    s ≠ [] ∧ fieldOf (str "instructions") payload = .str s := by
  rw [instructionsOf, Option.filter_eq_some_iff] at h
  obtain ⟨hstr, hblank⟩ := h
  refine ⟨?_, ?_⟩
  · rintro rfl
    exact absurd hblank (by decide)
  · cases hfield : fieldOf (str "instructions") payload with
    | str t =>
        rw [hfield] at hstr
        exact congrArg Json.str (Option.some.inj hstr)
    | _ => rw [hfield] at hstr; cases hstr

/-- **The messages** become the instructions and the turns again. -/
theorem chatMessages_to_responses (r : ResponsesRequest) :
    ∃ entries, (chatMessages r.payload).mapM (chatMessageToResponses repr) = some entries ∧
      entries.flatMap Prod.fst = (instructionsOf r.payload).toList ∧
      (if (entries.flatMap Prod.snd).isEmpty then
        [chatMessage (.str (str "user")) (.arr [inputText (.str [])])]
      else entries.flatMap Prod.snd) = (sentTurns (turnsOf r.payload)).map Turn.sent := by
  have hturns : ((turnsOf r.payload).map Turn.chat).mapM (chatMessageToResponses repr) =
      some ((turnsOf r.payload).map fun turn => ([], [turn.sent])) := by
    rw [List.mapM_map]
    exact mapM_eq_some_map fun turn hturn =>
      chat_to_responses ((@input_to_chat repr r).2 turn hturn)
  have hfst : ((turnsOf r.payload).map fun turn => (([] : List Str), [turn.sent])).flatMap Prod.fst =
      [] := by
    rw [List.flatMap_map]
    simp
  have hsnd : ((turnsOf r.payload).map fun turn => (([] : List Str), [turn.sent])).flatMap Prod.snd =
      (turnsOf r.payload).map Turn.sent := by
    rw [List.flatMap_map]
    exact List.flatMap_pure_eq_map Turn.sent _
  rw [chatMessages, sentTurns]
  cases hinstructions : instructionsOf r.payload with
  | none =>
      rw [Option.toList_none, List.map_nil, List.nil_append]
      cases hcase : turnsOf r.payload with
      | nil => exact ⟨[([], [emptyTurn.sent])], rfl, rfl, rfl⟩
      | cons turn turns =>
          rw [hcase] at hturns hfst hsnd
          exact ⟨_, hturns, hfst, by rw [hsnd]; rfl⟩
  | some s =>
      have hne := (ne_nil_of_instructionsOf hinstructions).1
      have hsystem : chatMessageToResponses repr (chatMessage (.str (str "system")) (.str s)) =
          some ([s], []) := by
        cases s with
        | nil => exact absurd rfl hne
        | cons c s => rfl
      refine ⟨([s], []) :: (turnsOf r.payload).map fun turn => ([], [turn.sent]), ?_, ?_, ?_⟩
      · show ((chatMessage (.str (str "system")) (.str s)) ::
          (turnsOf r.payload).map Turn.chat).mapM (chatMessageToResponses repr) = _
        rw [List.mapM_cons, hsystem, hturns]
        rfl
      · rw [List.flatMap_cons, hfst]
        rfl
      · rw [List.flatMap_cons, hsnd, List.nil_append]
        cases turnsOf r.payload <;> rfl

/-- What the payload that is sent upstream holds. -/
theorem openaiChatToResponsesPayload_fields {fields : List (Str × Json)} {messages : List Json}
    {entries : List (List Str × List Json)}
    (hmessages : Json.lookup (str "messages") fields = some (.arr messages))
    (hentries : messages.mapM (chatMessageToResponses repr) = some entries) :
    ∃ out, openaiChatToResponsesPayload repr (.obj fields) = some (.obj out) ∧
      Json.lookup (str "input") out = some (.arr (if (entries.flatMap Prod.snd).isEmpty then
        [chatMessage (.str (str "user")) (.arr [inputText (.str [])])]
      else entries.flatMap Prod.snd)) ∧
      Json.lookup (str "instructions") out = (if (entries.flatMap Prod.fst).isEmpty then none
        else some (.str (join (str "\n\n") (entries.flatMap Prod.fst)))) ∧
      Json.lookup (str "max_output_tokens") out =
        (if openaiChatTokenLimit (.obj fields) .null = .null then none
          else some (openaiChatTokenLimit (.obj fields) .null)) ∧
      Json.lookup (str "max_tokens") out = none ∧
      ∀ key ∈ [str "temperature", str "top_p", str "stream", str "stop"],
        Json.lookup key out = Json.lookup key fields := by
  have hvisited : ((fieldOf (str "messages") (.obj fields)).orElse (.arr [])).iter? =
      some messages := by
    rw [fieldOf, hmessages, Option.getD_some]
    cases messages <;> rfl
  rw [openaiChatToResponsesPayload, hvisited]
  simp only [Option.bind_eq_bind, Option.bind_some, hentries]
  refine ⟨_, rfl, ?_, ?_, ?_, ?_, fun key hkey => ?_⟩
  · simp +decide only [Json.lookup_append, Json.lookup_cons, Json.lookup_nil, if_false, if_true,
      Option.some_or]
  · simp +decide only [Json.lookup_append, Json.lookup_cons, Json.lookup_nil, lookup_unless,
      lookup_copied_all, lookup_copied, if_false, if_true, Option.none_or, Option.or_none]
  · simp +decide only [Json.lookup_append, Json.lookup_cons, Json.lookup_nil, lookup_unless,
      lookup_copied_all, lookup_copied, if_false, if_true, Option.none_or, Option.or_none]
  · simp +decide only [Json.lookup_append, Json.lookup_cons, Json.lookup_nil, lookup_unless,
      lookup_copied_all, lookup_copied, if_false, Option.or_none]
  · simp only [List.mem_cons, List.not_mem_nil, or_false] at hkey
    rcases hkey with rfl | rfl | rfl | rfl
    all_goals
      simp +decide only [Json.lookup_append, Json.lookup_cons, Json.lookup_nil, lookup_unless,
        lookup_copied_all, lookup_copied, Json.get?_obj, if_false, if_true, Option.none_or,
        Option.or_none]

/-- **The payload that is sent upstream** for a request. -/
theorem responses_detour (r : ResponsesRequest) :
    ∃ out, (responsesToOpenaiChatPayload repr r.payload).bind (openaiChatToResponsesPayload repr) =
        some out ∧
      fieldOf (str "instructions") out = ((instructionsOf r.payload).map Json.str).getD .null ∧
      turnsOf out = (sentTurns (turnsOf r.payload)).map (fun turn => ⟨turn.role, turn.text, []⟩) ∧
      outputTokenLimit out = outputTokenLimit r.payload ∧
      ∀ key ∈ [str "temperature", str "top_p", str "stream", str "stop"],
        out.get? key = r.payload.get? key := by
  obtain ⟨fields, hfields, hmessages, hlimit, hcompletion, hcopied⟩ :=
    @responsesToOpenaiChatPayload_fields repr r
  obtain ⟨entries, hentries, hinstructions, hitems⟩ := @chatMessages_to_responses repr r
  obtain ⟨out, hout, hinput, hsystem, hmax, hnone, hkeys⟩ :=
    openaiChatToResponsesPayload_fields hmessages hentries
  rw [hitems] at hinput
  rw [hinstructions] at hsystem
  have htokens : openaiChatTokenLimit (.obj fields) .null = outputTokenLimit r.payload := by
    rw [openaiChatTokenLimit, fieldOf, fieldOf, hcompletion, hlimit, outputTokenLimit]
    simp only [Option.getD_none, ne_eq, not_true_eq_false, if_false, ite_not]
    split_ifs with h
    · exact h.symm
    · rfl
  refine ⟨.obj out, by rw [hfields]; exact hout, ?_, ?_, ?_, fun key hkey => ?_⟩
  · rw [fieldOf, hsystem]
    cases instructionsOf r.payload with
    | none => rfl
    | some s =>
        show Json.str (s ++ []) = .str s
        rw [List.append_nil]
  · rw [turnsOf, fieldOf, hinput, Option.getD_some]
    show ((sentTurns (turnsOf r.payload)).map Turn.sent).map turnOf = _
    rw [List.map_map]
    exact List.map_congr_left fun turn _ => turnOf_sent turn
  · rw [outputTokenLimit, Json.get?_obj, Json.get?_obj, hmax, hnone, htokens, Option.or_none]
    split_ifs with h
    · exact h.symm
    · rfl
  · rw [Json.get?_obj, hkeys key hkey, hcopied key hkey]

end

/-- The turns that are sent are those of the input when there are some, and none has an
image. -/
theorem sent_eq_iff (turns : List Turn) :
    (sentTurns turns).map (fun turn => (⟨turn.role, turn.text, []⟩ : Turn)) = turns ↔
      turns ≠ [] ∧ ∀ turn ∈ turns, turn.images = [] := by
  cases turns with
  | nil => exact ⟨nofun, fun h => absurd rfl h.1⟩
  | cons turn turns =>
      have hmap : (sentTurns (turn :: turns)).map (fun turn => (⟨turn.role, turn.text, []⟩ : Turn)) =
          (turn :: turns).map fun turn => ⟨turn.role, turn.text, []⟩ := rfl
      have hself : (turn :: turns).map id = turn :: turns := List.map_id _
      rw [hmap]
      nth_rewrite 2 [← hself]
      rw [List.map_inj_left]
      constructor
      · intro h
        exact ⟨nofun, fun t ht => (congrArg Turn.images (h t ht)).symm⟩
      · intro h t ht
        obtain ⟨role, text, images⟩ := t
        have himages : images = [] := h.2 _ ht
        rw [himages]
        rfl

/-- **When a request keeps its meaning.**  Images are lost, an empty input becomes a turn of
the user, and blank instructions are dropped. -/
theorem meaning_kept_iff (repr : Json → Str) (r : ResponsesRequest) :
    MeaningKept repr r ↔ PlainRequest r := by
  obtain ⟨out, hout, hinstructions, hturns, hlimit, hkeys⟩ := @responses_detour repr r
  have hinstructionsIff : (fieldOf (str "instructions") out).orElse .null =
      (fieldOf (str "instructions") r.payload).orElse .null ↔
        ((fieldOf (str "instructions") r.payload).truthy = true →
          (instructionsOf r.payload).isSome) := by
    rw [hinstructions]
    cases hcase : instructionsOf r.payload with
    | none =>
        show Json.null = _ ↔ (_ → false = true)
        by_cases htruthy : (fieldOf (str "instructions") r.payload).truthy = true
        · rw [Json.orElse, if_pos htruthy]
          refine iff_of_false (fun heq => ?_) fun h => absurd (h htruthy) nofun
          rw [← heq] at htruthy
          cases htruthy
        · rw [Json.orElse, if_neg htruthy]
          exact iff_of_true rfl fun h => absurd h htruthy
    | some s =>
        rw [(ne_nil_of_instructionsOf hcase).2]
        exact iff_of_true rfl fun _ => rfl
  have hturnsIff : turnsOf out = turnsOf r.payload ↔
      r.input ≠ .arr [] ∧ ∀ turn ∈ turnsOf r.payload, turn.images = [] := by
    rw [hturns, sent_eq_iff]
    refine and_congr_left fun _ => not_congr ?_
    rw [turnsOf, fieldOf_of_get? r.payload_input]
    have hshape := r.isInput
    cases hcase : r.input with
    | str s => exact iff_of_false nofun nofun
    | arr items => cases items <;> simp
    | _ => rw [hcase] at hshape; exact hshape.elim
  constructor
  · rintro ⟨out', hout', hsame, hsame', -, -⟩
    obtain rfl : out = out' := Option.some.inj (hout.symm.trans hout')
    have hplain := hturnsIff.mp hsame'
    exact ⟨hinstructionsIff.mp hsame, hplain.1, hplain.2⟩
  · intro h
    exact ⟨out, hout, hinstructionsIff.mpr h.instructions, hturnsIff.mpr ⟨h.input, h.images⟩, hlimit,
      hkeys⟩

/-- A request with an image. -/
def imageRequest : ResponsesRequest where
  payload := .obj [(str "model", .str (str "gpt-4o")),
    (str "input", .arr [chatMessage (.str (str "user")) (.arr [
      .obj [(str "type", .str (str "input_image")), (str "image_url", .str (str "data:image/png;base64,abc"))],
      inputText (.str (str "What is this?"))])])]
  input := .arr [chatMessage (.str (str "user")) (.arr [
    .obj [(str "type", .str (str "input_image")), (str "image_url", .str (str "data:image/png;base64,abc"))],
    inputText (.str (str "What is this?"))])]
  payload_input := rfl
  isInput := fun item hitem => by
    obtain rfl := List.mem_singleton.mp hitem
    refine ⟨Or.inl rfl, _, rfl, fun part hpart => ?_⟩
    rcases List.mem_cons.mp hpart with rfl | hpart
    · exact Or.inr rfl
    · obtain rfl := List.mem_singleton.mp hpart
      exact Or.inl ⟨Or.inl rfl, rfl⟩

/-- Its upstream gets the text without the image. -/
theorem imageRequest_lost :
    ∃ out, (responsesToOpenaiChatPayload (fun _ => []) imageRequest.payload).bind
        (openaiChatToResponsesPayload fun _ => []) = some out ∧
      turnsOf out = [⟨.str (str "user"), str "What is this?", []⟩] ∧
      ¬ MeaningKept (fun _ => []) imageRequest := by
  refine ⟨_, rfl, by decide +kernel, ?_⟩
  rintro ⟨out, hout, -, hturns, -⟩
  cases hout
  exact absurd hturns (by decide +kernel)

end Llmxy
