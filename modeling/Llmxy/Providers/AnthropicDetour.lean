import Llmxy.Lib.JsonKeys
import Llmxy.Lib.Loops
import Llmxy.Providers.Anthropic

/-!
# Anthropic by way of a chat completion

A request of the messages endpoint that is routed to an Anthropic upstream becomes a chat
payload and then an Anthropic one again, and so does its response on the way back.  The two
translators of a direction were written apart.

## Main definitions

* `TextResponse` — a response of text blocks, `ResponseSurvives` — what is to survive.
* `response_detour` — what does, `response_lost` — the finish reason never does.
* `MessagesRequest` — a request of text and image blocks, `RequestSurvives`.
* `request_survives_iff` — when a request survives.
-/

namespace Llmxy

/-! ### Responses -/

/-- The stop reasons of a response of text blocks. -/
inductive StopReason where
  | endTurn | maxTokens | stopSequence | toolUse
  deriving DecidableEq

/-- How a stop reason is written. -/
def StopReason.text : StopReason → Str
  | .endTurn => str "end_turn"
  | .maxTokens => str "max_tokens"
  | .stopSequence => str "stop_sequence"
  | .toolUse => str "tool_use"

/-- The finish reasons of a chat completion. -/
def finishReasons : List Str :=
  [str "stop", str "length", str "tool_calls", str "content_filter", str "function_call"]

/-- A text block, whatever else it holds. -/
def IsTextBlock (block : Json) : Prop :=
  block.get? (str "type") = some (.str (str "text")) ∧ (pieceText block).isSome

/-- The text of text blocks. -/
def textOfBlocks (blocks : List Json) : Str := (blocks.filterMap pieceText).flatten

/-- A response of text blocks. -/
structure TextResponse where
  json : Json
  content : List Json
  stopReason : StopReason
  usage : Json
  inputTokens : ℤ
  outputTokens : ℤ
  json_content : json.get? (str "content") = some (.arr content)
  isTextBlock : ∀ block ∈ content, IsTextBlock block
  json_stopReason : json.get? (str "stop_reason") = some (.str stopReason.text)
  json_usage : json.get? (str "usage") = some usage
  usage_inputTokens : usage.get? (str "input_tokens") = some (.int inputTokens)
  usage_outputTokens : usage.get? (str "output_tokens") = some (.int outputTokens)

/-- The text, the reason and the tokens of a response are those of another, and the chat
completion between them has finish reasons of chat completions only. -/
structure ResponseSurvives (r : TextResponse) (body out : Json) : Prop where
  text : textOfBlocks (elementsOf (str "content") out) = textOfBlocks r.content
  stopReason : out.get? (str "stop_reason") = some (.str r.stopReason.text)
  inputTokens : (out.get? (str "usage")).bind (Json.get? (str "input_tokens")) =
    some (.int r.inputTokens)
  outputTokens : (out.get? (str "usage")).bind (Json.get? (str "output_tokens")) =
    some (.int r.outputTokens)
  finishReason : ∀ choice ∈ elementsOf (str "choices") body, ∃ reason ∈ finishReasons,
    choice.get? (str "finish_reason") = some (.str reason)

/-- What a text block holds. -/
theorem IsTextBlock.fields {block : Json} (h : IsTextBlock block) :
    ∃ fields text, block = .obj fields ∧
      Json.lookup (str "type") fields = some (.str (str "text")) ∧
      Json.lookup (str "text") fields = some (.str text) ∧ pieceText block = some text := by
  obtain ⟨htype, htext⟩ := h
  obtain ⟨text, htext⟩ := Option.isSome_iff_exists.mp htext
  obtain ⟨fields, rfl⟩ := Json.eq_obj_of_get? htype
  obtain ⟨v, hv, hstr⟩ := Option.bind_eq_some_iff.mp htext
  cases v with
  | str s =>
      cases hstr
      exact ⟨fields, _, rfl, htype, hv, htext⟩
  | _ => cases hstr

theorem intOr_int (n : ℤ) : intOr (some (.int n)) (.int 0) = some (.int n) := by
  rw [intOr_eq]
  by_cases h : n = 0
  · subst h
    rfl
  · have htruthy : (some (Json.int n)).filter Json.truthy = some (.int n) := by
      simp [Option.filter, Json.truthy, h]
    rw [htruthy]
    rfl

/-- Whatever the stop reason was, it is none of the finish reasons that are looked for. -/
theorem finishReasonToAnthropic_text (reason : StopReason) :
    finishReasonToAnthropic (.str reason.text) = StopReason.endTurn.text := by
  cases reason <;> rfl

theorem text_notMem_finishReasons (reason : StopReason) : reason.text ∉ finishReasons := by
  cases reason <;> decide

/-- The Anthropic response made of a chat completion. -/
theorem openaiToAnthropicResponse_eq (freshId : Str) (id : Json) (created : ℤ)
    (model text : Str) (reason : Json) (inputTokens outputTokens total : ℤ) (model' : Str) :
    ∃ id', openaiToAnthropicResponse freshId (chatCompletion id created model text reason
      (.int inputTokens) (.int outputTokens) (.int total)) model' =
        some (anthropicMessage id' model' [textBlock (.str text)] (finishReasonToAnthropic reason)
          (.int inputTokens) (.int outputTokens)) := by
  have hcontent : (getTruthy (str "content")
      [(str "role", .str (str "assistant")), (str "content", .str text)]).getD (.str []) =
        .str text := by
    cases text <;> rfl
  have hinput := intOr_int inputTokens
  have houtput := intOr_int outputTokens
  refine ⟨(getTruthy (str "id") [(str "id", id)]).getD (.str freshId), ?_⟩
  show ((intOr (some (.int inputTokens)) (.int 0)).bind fun inputTokens =>
    (intOr (some (.int outputTokens)) (.int 0)).bind fun outputTokens =>
      some (anthropicMessage _ model' (openaiContentToAnthropic ((getTruthy (str "content")
        [(str "role", .str (str "assistant")), (str "content", .str text)]).getD (.str [])))
          (finishReasonToAnthropic reason) inputTokens outputTokens)) = _
  rw [hinput, houtput, hcontent]
  rfl

namespace AnthropicAdapter
variable {plus : Json → Json → Option Json}

theorem blockTextOf_eq {block : Json} (h : IsTextBlock block) :
    ∃ text, blockTextOf block = some text ∧ pieceText block = some text := by
  obtain ⟨fields, text, rfl, htype, htext, hpiece⟩ := h.fields
  refine ⟨text, ?_, hpiece⟩
  show (if Json.lookup (str "type") fields = some (.str (str "text")) then
    ((Json.lookup (str "text") fields).getD (.str [])).str? else some []) = some text
  rw [if_pos htype, htext]
  rfl

theorem mapM_blockTextOf {blocks : List Json} (h : ∀ block ∈ blocks, IsTextBlock block) :
    blocks.mapM blockTextOf = some (blocks.filterMap pieceText) := by
  induction blocks with
  | nil => rfl
  | cons block blocks ih =>
      rw [List.forall_mem_cons] at h
      obtain ⟨text, htext, hpiece⟩ := blockTextOf_eq h.1
      rw [List.mapM_cons, htext, ih h.2, List.filterMap_cons_some hpiece]
      rfl

theorem responseText_eq {fields : List (Str × Json)} {blocks : List Json}
    (hcontent : Json.lookup (str "content") fields = some (.arr blocks))
    (h : ∀ block ∈ blocks, IsTextBlock block) :
    responseText fields = some (textOfBlocks blocks) := by
  have hget : (getTruthy (str "content") fields).getD (.arr []) = .arr blocks := by
    rw [getTruthy, hcontent]
    cases blocks <;> rfl
  rw [responseText, hget]
  show ((blocks.mapM blockTextOf).bind fun texts => some texts.flatten) = _
  rw [mapM_blockTextOf h]
  rfl

/-- The chat completion made of a response of text blocks. -/
theorem anthropicRespToOpenai_eq (freshId : Str) (created : ℤ) (r : TextResponse) (model : Str) :
    ∃ id, anthropicRespToOpenai plus freshId created r.json model =
      some (chatCompletion id created model (textOfBlocks r.content) (.str r.stopReason.text)
        (.int r.inputTokens) (.int r.outputTokens) (.int (r.inputTokens + r.outputTokens))) := by
  obtain ⟨fields, hjson⟩ := Json.eq_obj_of_get? r.json_content
  obtain ⟨counts, hcounts⟩ := Json.eq_obj_of_get? r.usage_inputTokens
  have hcontent := r.json_content
  have hreason := r.json_stopReason
  have husage := r.json_usage
  have hinput := r.usage_inputTokens
  have houtput := r.usage_outputTokens
  rw [hjson, Json.get?_obj] at hcontent hreason husage
  rw [hcounts, Json.get?_obj] at hinput houtput
  have hstop : (getTruthy (str "stop_reason") fields).getD (.str (str "stop")) =
      .str r.stopReason.text := by
    rw [getTruthy, hreason]
    cases r.stopReason <;> rfl
  have hobj : ((getTruthy (str "usage") fields).getD (.obj [])).fields? = some counts := by
    rw [getTruthy, husage, hcounts]
    cases counts with
    | nil => cases hinput
    | cons f fs => rfl
  refine ⟨(getTruthy (str "id") fields).getD (.str freshId), ?_⟩
  have hfields : r.json.fields? = some fields := by rw [hjson, Json.fields?]
  simp only [anthropicRespToOpenai, hfields, responseText_eq hcontent r.isTextBlock, hobj, hinput,
    houtput, hstop, Option.bind_eq_bind, Option.bind_some, Option.getD_some, Json.add]
  rfl

/-- **What survives of a response**: its text and its tokens.  The stop reason is `end_turn`
whatever it was, and the chat completion carries it as its finish reason. -/
theorem response_detour (freshId freshId' : Str) (created : ℤ) (r : TextResponse)
    (model model' : Str) :
    ∃ body out, anthropicRespToOpenai plus freshId created r.json model = some body ∧
      openaiToAnthropicResponse freshId' body model' = some out ∧
      textOfBlocks (elementsOf (str "content") out) = textOfBlocks r.content ∧
      out.get? (str "stop_reason") = some (.str StopReason.endTurn.text) ∧
      (out.get? (str "usage")).bind (Json.get? (str "input_tokens")) = some (.int r.inputTokens) ∧
      (out.get? (str "usage")).bind (Json.get? (str "output_tokens")) =
        some (.int r.outputTokens) ∧
      (elementsOf (str "choices") body).map (Json.get? (str "finish_reason")) =
        [some (.str r.stopReason.text)] := by
  obtain ⟨id, hbody⟩ := @anthropicRespToOpenai_eq plus freshId created r model
  obtain ⟨id', hout⟩ := openaiToAnthropicResponse_eq freshId' id created model
    (textOfBlocks r.content) (.str r.stopReason.text) r.inputTokens r.outputTokens
    (r.inputTokens + r.outputTokens) model'
  rw [finishReasonToAnthropic_text] at hout
  refine ⟨_, _, hbody, hout, ?_, rfl, rfl, rfl, rfl⟩
  show (textOfBlocks r.content ++ []) = _
  rw [List.append_nil]

/-- **No response survives the detour**: the finish reason of the chat completion is the
stop reason of the response, which is none of a chat completion. -/
theorem response_lost (freshId freshId' : Str) (created : ℤ) (r : TextResponse)
    (model model' : Str) :
    ¬ ∃ body out, anthropicRespToOpenai plus freshId created r.json model = some body ∧
      openaiToAnthropicResponse freshId' body model' = some out ∧ ResponseSurvives r body out := by
  rintro ⟨body, out, hbody, -, hsurvives⟩
  obtain ⟨body', out', hbody', -, -, -, -, -, hreasons⟩ :=
    @response_detour plus freshId freshId' created r model model'
  obtain rfl : body' = body := Option.some.inj (hbody'.symm.trans hbody)
  obtain ⟨choice, hchoice, hreason⟩ : ∃ choice ∈ elementsOf (str "choices") body',
      choice.get? (str "finish_reason") = some (.str r.stopReason.text) := by
    rw [← List.mem_map, hreasons]
    exact List.mem_singleton.mpr rfl
  obtain ⟨reason, hmem, heq⟩ := hsurvives.finishReason choice hchoice
  rw [hreason] at heq
  cases heq
  exact text_notMem_finishReasons r.stopReason hmem

/-- A response that stopped at its token limit. -/
def cutShort : TextResponse where
  json := .obj [(str "content", .arr [textBlock (.str (str "Hi"))]),
    (str "stop_reason", .str (str "max_tokens")),
    (str "usage", .obj [(str "input_tokens", .int 9), (str "output_tokens", .int 1)])]
  content := [textBlock (.str (str "Hi"))]
  stopReason := .maxTokens
  usage := .obj [(str "input_tokens", .int 9), (str "output_tokens", .int 1)]
  inputTokens := 9
  outputTokens := 1
  json_content := rfl
  isTextBlock := fun block h => by
    rw [List.mem_singleton.mp h]
    exact ⟨rfl, rfl⟩
  json_stopReason := rfl
  json_usage := rfl
  usage_inputTokens := rfl
  usage_outputTokens := rfl

/-- It comes back as one that has ended, and the chat completion between says
`max_tokens`. -/
theorem cutShort_ends :
    ∃ body out, anthropicRespToOpenai (fun _ _ => none) (str "chatcmpl-1") 0 cutShort.json
        (str "claude") = some body ∧
      openaiToAnthropicResponse (str "msg_1") body (str "claude-route") = some out ∧
      (elementsOf (str "choices") body).map (Json.get? (str "finish_reason")) =
        [some (.str (str "max_tokens"))] ∧
      out.get? (str "stop_reason") = some (.str (str "end_turn")) ∧
      ¬ ResponseSurvives cutShort body out := by
  refine ⟨_, _, rfl, rfl, by decide +kernel, by decide +kernel, fun h => ?_⟩
  have hreason : some (Json.str (str "end_turn")) = some (.str (str "max_tokens")) := h.stopReason
  exact absurd hreason (by decide)

end AnthropicAdapter

/-! ### Requests -/

/-- A block with an image in base64, whatever else it holds. -/
def IsBase64Image (block : Json) : Prop :=
  block.get? (str "type") = some (.str (str "image")) ∧
    ∃ source mediaType data, block.get? (str "source") = some source ∧
      source.get? (str "type") = some (.str (str "base64")) ∧
      source.get? (str "media_type") = some (.str mediaType) ∧
      source.get? (str "data") = some (.str data)

/-- The content of a message: a string, or a list of text and image blocks. -/
def IsContent : Json → Prop
  | .str _ => True
  | .arr blocks => ∀ block ∈ blocks, IsTextBlock block ∨ IsBase64Image block
  | _ => False

/-- A system prompt: a string, or a list of text blocks. -/
def IsSystem : Json → Prop
  | .str _ => True
  | .arr blocks => ∀ block ∈ blocks, IsTextBlock block
  | _ => False

/-- A request of the messages endpoint that is accepted, with text and image blocks. -/
structure MessagesRequest where
  payload : Json
  messages : List Json
  accepted : anthropicMessagesRequestError payload = none
  payload_messages : payload.get? (str "messages") = some (.arr messages)
  isSystem : ∀ system, payload.get? (str "system") = some system → IsSystem system
  isContent : ∀ msg ∈ messages, ∃ content, msg.get? (str "content") = some content ∧
    IsContent content

/-- The text of a system prompt. -/
def systemText (payload : Json) : Str :=
  match fieldOf (str "system") payload with
  | .str s => s
  | .arr blocks => textOfBlocks blocks
  | _ => []

/-- Two messages have the same role and the same content. -/
structure SameMessage (msg msg' : Json) : Prop where
  role : msg.get? (str "role") = msg'.get? (str "role")
  content : Json.Same (fieldOf (str "content") msg) (fieldOf (str "content") msg')

/-- The fields that are to be copied. -/
def copiedFields : List Str :=
  [str "max_tokens", str "temperature", str "top_p", str "top_k", str "stop_sequences"]

/-- **A request survives the detour**: its upstream gets the same system text, the same
messages in their order, and the same limits. -/
def RequestSurvives (repr : Json → Str) (r : MessagesRequest) : Prop :=
  ∃ body, (anthropicToOpenaiPayload repr r.payload).bind AnthropicAdapter.toAnthropic = some body ∧
    systemText body = systemText r.payload ∧
    List.Forall₂ SameMessage r.messages (elementsOf (str "messages") body) ∧
    ∀ key ∈ copiedFields, body.get? key = r.payload.get? key

/-- A text block has nothing but its text.  An image has nothing but a media type and data,
neither of them empty, and there is neither a comma nor a semicolon in the media type. -/
def BlockKept (block : Json) : Prop :=
  if fieldOf (str "type") block = .str (str "text") then
    block.OnlyKeys [str "type", str "text"]
  else
    block.OnlyKeys [str "type", str "source"] ∧
      (fieldOf (str "source") block).OnlyKeys [str "type", str "media_type", str "data"] ∧
      (∀ mediaType, fieldOf (str "media_type") (fieldOf (str "source") block) = .str mediaType →
        mediaType ≠ [] ∧ 44 ∉ mediaType ∧ 59 ∉ mediaType) ∧
      fieldOf (str "data") (fieldOf (str "source") block) ≠ .str []

/-- A list of blocks is not empty, and each of them is kept. -/
def ContentKept : Json → Prop
  | .arr blocks => blocks ≠ [] ∧ ∀ block ∈ blocks, BlockKept block
  | _ => True

/-- **What the detour keeps.**  A system prompt in blocks has no text, each message has the
role `user` or `assistant` and content that is kept, there is no `top_k`, and the stop
sequences are a list. -/
structure RequestKept (r : MessagesRequest) : Prop where
  system : ∀ blocks, r.payload.get? (str "system") = some (.arr blocks) → textOfBlocks blocks = []
  role : ∀ msg ∈ r.messages, msg.get? (str "role") = some (.str (str "user")) ∨
    msg.get? (str "role") = some (.str (str "assistant"))
  content : ∀ msg ∈ r.messages, ContentKept (fieldOf (str "content") msg)
  topK : r.payload.get? (str "top_k") = none
  stop : ∀ v, r.payload.get? (str "stop_sequences") = some v → ∃ stops, v = .arr stops

/-! #### URLs of images -/

namespace AnthropicAdapter

/-- The URL of an image in base64. -/
def dataUrl (mediaType data : Str) : Str :=
  str "data:" ++ mediaType ++ str ";base64," ++ data

theorem takeWhile_append_notMem {c : ℕ} {s : Str} (h : c ∉ s) (t : Str) :
    (s ++ c :: t).takeWhile (· ≠ c) = s := by
  have hall : ∀ d ∈ s, decide (d ≠ c) = true := fun d hd =>
    decide_eq_true fun heq : d = c => h (heq ▸ hd)
  rw [List.takeWhile_append_of_pos hall]
  simp

theorem notMem_takeWhile (c : ℕ) (s : Str) : c ∉ s.takeWhile (· ≠ c) := fun h => by
  simpa using List.mem_takeWhile_imp h

theorem dataUrl_eq (mediaType data : Str) :
    dataUrl mediaType data = (str "data:" ++ mediaType ++ str ";base64") ++ 44 :: data := by
  have hend : str ";base64," = str ";base64" ++ [44] := by decide
  simp [dataUrl, hend]

/-- What is left of the URL when its parts are found. -/
theorem base64Source_eq_some {mediaType data mediaType' data' : Str} :
    base64Source (dataUrl mediaType data) = some (mediaType', data') ↔
      (((dataUrl mediaType data).takeWhile (· ≠ 44)).drop 5).takeWhile (· ≠ 59) = mediaType' ∧
        ((dataUrl mediaType data).dropWhile (· ≠ 44)).drop 1 = data' ∧
        mediaType' ≠ [] ∧ data' ≠ [] := by
  have hguard : startsWith (str "data:") (dataUrl mediaType data) ∧
      str ";base64," <:+: dataUrl mediaType data := by
    refine ⟨?_, str "data:" ++ mediaType, data, rfl⟩
    rw [startsWith, List.isPrefixOf_iff_prefix, dataUrl, List.append_assoc, List.append_assoc]
    exact List.prefix_append _ _
  rw [base64Source, if_pos hguard]
  dsimp only
  constructor
  · intro h
    split_ifs at h with hne
    cases h
    exact ⟨rfl, rfl, hne⟩
  · rintro ⟨rfl, rfl, hne⟩
    exact if_pos hne

/-- **An image comes back** when its media type has neither a comma nor a semicolon. -/
theorem base64Source_dataUrl {mediaType data : Str} :
    base64Source (dataUrl mediaType data) = some (mediaType, data) ↔
      mediaType ≠ [] ∧ data ≠ [] ∧ 44 ∉ mediaType ∧ 59 ∉ mediaType := by
  have hheader : 44 ∉ str "data:" ∧ 44 ∉ str ";base64" := by decide
  have hsemicolon : str ";base64" = 59 :: str "base64" := by decide
  have hdrop : ∀ s : Str, (str "data:" ++ s).drop 5 = s := fun s => rfl
  rw [base64Source_eq_some]
  constructor
  · rintro ⟨htype, hdata, hmediaType, hne⟩
    -- the first comma is the one before the data, as what follows it is as long
    have hsplit : (dataUrl mediaType data).takeWhile (· ≠ 44) ++
        (dataUrl mediaType data).dropWhile (· ≠ 44) =
          (str "data:" ++ mediaType ++ str ";base64") ++ 44 :: data := by
      rw [List.takeWhile_append_dropWhile, dataUrl_eq]
    have hlength : ((dataUrl mediaType data).dropWhile (· ≠ 44)).length = (44 :: data).length := by
      have hdrop := congrArg List.length hdata
      have hpos := List.length_pos_of_ne_nil hne
      rw [List.length_drop] at hdrop
      rw [List.length_cons]
      omega
    have htake := List.append_inj_left' hsplit hlength
    have hcomma := notMem_takeWhile 44 (dataUrl mediaType data)
    rw [htake] at hcomma
    rw [htake, List.append_assoc, hdrop] at htype
    have hsemi := notMem_takeWhile 59 (mediaType ++ str ";base64")
    rw [htype] at hsemi
    simp only [List.mem_append, not_or] at hcomma
    exact ⟨hmediaType, hne, hcomma.1.2, hsemi⟩
  · rintro ⟨hmediaType, hne, hcomma, hsemi⟩
    have hnot : 44 ∉ str "data:" ++ mediaType ++ str ";base64" := by
      simp only [List.mem_append, not_or]
      exact ⟨⟨hheader.1, hcomma⟩, hheader.2⟩
    have htake : (dataUrl mediaType data).takeWhile (· ≠ 44) =
        str "data:" ++ mediaType ++ str ";base64" := by
      rw [dataUrl_eq, takeWhile_append_notMem hnot]
    have hsplit : (dataUrl mediaType data).takeWhile (· ≠ 44) ++
        (dataUrl mediaType data).dropWhile (· ≠ 44) =
          (dataUrl mediaType data).takeWhile (· ≠ 44) ++ 44 :: data := by
      rw [List.takeWhile_append_dropWhile, htake, dataUrl_eq]
    have hrest := List.append_cancel_left hsplit
    rw [htake, hrest, List.append_assoc, hdrop, hsemicolon, takeWhile_append_notMem hsemi]
    exact ⟨rfl, rfl, hmediaType, hne⟩

/-! #### Blocks -/

/-- What is left of a block. -/
def keptBlock (repr : Json → Str) (block : Json) : List Json :=
  ((anthropicBlockToOpenai repr block).getD []).flatMap openaiBlockToAnthropic

section
variable {repr : Json → Str} {block : Json}

/-- **A text block** is the same after the detour when it has nothing but its text. -/
theorem keptBlock_text (h : IsTextBlock block) :
    (anthropicBlockToOpenai repr block).isSome ∧
      ∃ kept, keptBlock repr block = [kept] ∧ (Json.Same block kept ↔ BlockKept block) := by
  obtain ⟨fields, text, rfl, htype, htext, -⟩ := h.fields
  have horElse : (Json.str text).orElse (.str []) = .str text := by cases text <;> rfl
  have hblock : anthropicBlockToOpenai repr (.obj fields) = some [textBlock (.str text)] := by
    simp only [anthropicBlockToOpenai, fieldOf, htype, htext, Option.getD_some, horElse, if_true]
    rfl
  have hback : openaiBlockToAnthropic (textBlock (.str text)) =
      [textBlock ((Json.str text).orElse (.str []))] := rfl
  have hfield : fieldOf (str "type") (.obj fields) = .str (str "text") := by
    rw [fieldOf, htype, Option.getD_some]
  have hnew : [str "type", str "text"].Nodup := by decide
  refine ⟨by rw [hblock]; rfl, textBlock (.str text), ?_, ?_⟩
  · rw [keptBlock, hblock, Option.getD_some, List.flatMap_singleton, hback, horElse]
  · rw [BlockKept, if_pos hfield, textBlock, Json.same_written_iff (by exact hnew)]
    refine ⟨And.right, fun honly => ⟨fun g hg => ?_, honly⟩⟩
    rw [List.mem_cons, List.mem_singleton] at hg
    rcases hg with rfl | rfl
    · exact ⟨_, htype, .refl _⟩
    · exact ⟨_, htext, .refl _⟩

/-- A chat block with the URL of an image. -/
def imageUrlBlock (url : Str) : Json :=
  .obj [(str "type", .str (str "image_url")), (str "image_url", .obj [(str "url", .str url)])]

/-- The source made of the URL of an image is the one the URL was made of when its parts
are found again. -/
theorem same_source_iff {inner : List (Str × Json)} {mediaType data : Str}
    (hbase64 : Json.lookup (str "type") inner = some (.str (str "base64")))
    (hmediaType : Json.lookup (str "media_type") inner = some (.str mediaType))
    (hdata : Json.lookup (str "data") inner = some (.str data)) :
    ∃ source, imageUrlSource (.str (dataUrl mediaType data)) = some source ∧
      (Json.Same (.obj inner) source ↔
        (Json.obj inner).OnlyKeys [str "type", str "media_type", str "data"] ∧
          base64Source (dataUrl mediaType data) = some (mediaType, data)) := by
  have hne : (dataUrl mediaType data).isEmpty = false := rfl
  have hnew : [str "type", str "media_type", str "data"].Nodup := by decide
  have hnew' : [str "type", str "url"].Nodup := by decide
  cases hparts : base64Source (dataUrl mediaType data) with
  | none =>
      refine ⟨.obj [(str "type", .str (str "url")), (str "url", .str (dataUrl mediaType data))],
        ?_, ?_⟩
      · simp only [imageUrlSource, hne, hparts, Bool.false_eq_true, if_false]
      · rw [Json.same_written_iff (by exact hnew')]
        refine ⟨fun h => ?_, fun h => absurd h.2 nofun⟩
        obtain ⟨x, hx, hsame⟩ := h.1 _ List.mem_cons_self
        rw [hbase64, Option.some.injEq] at hx
        rw [← hx, Json.same_str_iff] at hsame
        exact absurd hsame (by decide)
  | some parts =>
      obtain ⟨mediaType', data'⟩ := parts
      refine ⟨.obj [(str "type", .str (str "base64")), (str "media_type", .str mediaType'),
        (str "data", .str data')], ?_, ?_⟩
      · simp only [imageUrlSource, hne, hparts, Bool.false_eq_true, if_false]
      · rw [Json.same_written_iff (by exact hnew)]
        constructor
        · rintro ⟨h, honly⟩
          obtain ⟨x, hx, hsame⟩ := h (str "media_type", .str mediaType') (by simp)
          obtain ⟨y, hy, hsame'⟩ := h (str "data", .str data') (by simp)
          rw [hmediaType, Option.some.injEq] at hx
          rw [hdata, Option.some.injEq] at hy
          rw [← hx, Json.same_str_iff, Json.str.injEq] at hsame
          rw [← hy, Json.same_str_iff, Json.str.injEq] at hsame'
          exact ⟨honly, by rw [hsame, hsame']⟩
        · rintro ⟨honly, heq⟩
          cases heq
          refine ⟨fun g hg => ?_, honly⟩
          simp only [List.mem_cons, List.not_mem_nil, or_false] at hg
          rcases hg with rfl | rfl | rfl
          · exact ⟨_, hbase64, .refl _⟩
          · exact ⟨_, hmediaType, .refl _⟩
          · exact ⟨_, hdata, .refl _⟩

/-- **An image** is the same after the detour when its media type is neither empty nor has a
comma or a semicolon, there are data, and nothing else. -/
theorem keptBlock_image (h : IsBase64Image block) :
    (anthropicBlockToOpenai repr block).isSome ∧ (keptBlock repr block).length ≤ 1 ∧
      ((∃ kept, keptBlock repr block = [kept] ∧ Json.Same block kept) ↔ BlockKept block) := by
  obtain ⟨htype, source, mediaType, data, hsource, hbase64, hmediaType, hdata⟩ := h
  obtain ⟨fields, rfl⟩ := Json.eq_obj_of_get? htype
  obtain ⟨inner, rfl⟩ := Json.eq_obj_of_get? hbase64
  rw [Json.get?_obj] at htype hsource hbase64 hmediaType hdata
  have hfield : fieldOf (str "type") (.obj fields) = .str (str "image") := by
    rw [fieldOf, htype, Option.getD_some]
  have hinner : fieldOf (str "source") (.obj fields) = .obj inner := by
    rw [fieldOf, hsource, Option.getD_some]
  have horElse : (Json.obj inner).orElse (.obj []) = .obj inner := by cases inner <;> rfl
  have hblock : anthropicBlockToOpenai repr (.obj fields) =
      some (if mediaType ≠ [] ∧ data ≠ [] then [imageUrlBlock (dataUrl mediaType data)] else []) := by
    have hnot : Json.str (str "image") ≠ .str (str "text") := by decide
    have htruthy : ((Json.str mediaType).truthy && (Json.str data).truthy) = true ↔
        mediaType ≠ [] ∧ data ≠ [] := by
      cases mediaType <;> cases data <;> simp [Json.truthy]
    simp only [anthropicBlockToOpenai, hfield, hinner, horElse, if_neg hnot, if_true]
    simp only [fieldOf, hbase64, hmediaType, hdata, Option.getD_some, decide_true, Bool.true_and,
      htruthy]
    split_ifs <;> rfl
  have hkept : BlockKept (.obj fields) ↔ (Json.obj fields).OnlyKeys [str "type", str "source"] ∧
      (Json.obj inner).OnlyKeys [str "type", str "media_type", str "data"] ∧
        base64Source (dataUrl mediaType data) = some (mediaType, data) := by
    have hnot : Json.str (str "image") ≠ .str (str "text") := by decide
    rw [BlockKept, hfield, if_neg hnot, hinner, base64Source_dataUrl]
    simp only [fieldOf, hmediaType, hdata, Option.getD_some, Json.str.injEq, forall_eq', ne_eq]
    tauto
  refine ⟨by rw [hblock]; rfl, ?_⟩
  obtain ⟨source, hurl, hsame⟩ := same_source_iff hbase64 hmediaType hdata
  have hback : openaiBlockToAnthropic (imageUrlBlock (dataUrl mediaType data)) =
      ((imageUrlSource (.str (dataUrl mediaType data))).map imageBlock).toList := rfl
  rw [keptBlock, hblock, Option.getD_some, hkept]
  by_cases hne : mediaType ≠ [] ∧ data ≠ []
  · rw [if_pos hne, List.flatMap_singleton, hback, hurl]
    have hnew : [str "type", str "source"].Nodup := by decide
    refine ⟨Nat.le_refl 1, ?_⟩
    have hiff : Json.Same (.obj fields) (imageBlock source) ↔
        (Json.obj fields).OnlyKeys [str "type", str "source"] ∧
          Json.Same (.obj inner) source := by
      rw [imageBlock, Json.same_written_iff (by exact hnew)]
      constructor
      · rintro ⟨h, honly⟩
        obtain ⟨x, hx, hsame⟩ := h (str "source", source) (by simp)
        rw [hsource, Option.some.injEq] at hx
        exact ⟨honly, hx ▸ hsame⟩
      · rintro ⟨honly, h⟩
        refine ⟨fun g hg => ?_, honly⟩
        rw [List.mem_cons, List.mem_singleton] at hg
        rcases hg with rfl | rfl
        · exact ⟨_, htype, .refl _⟩
        · exact ⟨_, hsource, h⟩
    rw [← hsame, ← hiff]
    constructor
    · rintro ⟨kept, heq, hkept⟩
      cases heq
      exact hkept
    · exact fun h => ⟨_, rfl, h⟩
  · rw [if_neg hne]
    refine ⟨Nat.zero_le 1, ?_⟩
    rw [base64Source_dataUrl]
    constructor
    · rintro ⟨kept, heq, -⟩
      cases heq
    · exact fun h => absurd ⟨h.2.2.1, h.2.2.2.1⟩ hne

theorem keptBlock_spec (h : IsTextBlock block ∨ IsBase64Image block) :
    (anthropicBlockToOpenai repr block).isSome ∧ (keptBlock repr block).length ≤ 1 ∧
      ((∃ kept, keptBlock repr block = [kept] ∧ Json.Same block kept) ↔ BlockKept block) := by
  rcases h with h | h
  · obtain ⟨hsome, kept, hkept, hiff⟩ := @keptBlock_text repr _ h
    refine ⟨hsome, by rw [hkept]; exact Nat.le_refl 1, ?_⟩
    rw [hkept, ← hiff]
    constructor
    · rintro ⟨kept', heq, hsame⟩
      cases heq
      exact hsame
    · exact fun hsame => ⟨_, rfl, hsame⟩
  · exact keptBlock_image h

/-! #### Messages -/

/-- What is left of the content of a message. -/
def keptContent (repr : Json → Str) (content : Json) : Json :=
  openaiContentToAnthropic ((anthropicContentToOpenai repr content).getD .null)

theorem keptContent_arr {blocks : List Json}
    (h : ∀ block ∈ blocks, IsTextBlock block ∨ IsBase64Image block) :
    (anthropicContentToOpenai repr (.arr blocks)).isSome ∧ keptContent repr (.arr blocks) =
      if (blocks.flatMap (keptBlock repr)).isEmpty then .str []
      else .arr (blocks.flatMap (keptBlock repr)) := by
  have hblocks : blocks.mapM (anthropicBlockToOpenai repr) =
      some (blocks.map fun block => (anthropicBlockToOpenai repr block).getD []) := by
    refine mapM_eq_some_map fun block hblock => ?_
    obtain ⟨kept, hkept⟩ := Option.isSome_iff_exists.mp (keptBlock_spec (h block hblock)).1
    rw [hkept, Option.getD_some]
  rw [keptContent, anthropicContentToOpenai, hblocks, Option.map_some, Option.getD_some]
  refine ⟨rfl, ?_⟩
  rw [openaiContentToAnthropic, ← List.flatMap_def, List.flatMap_assoc]
  rfl

/-- **The content of a message** is the same after the detour when it is a string, or blocks
that each are. -/
theorem keptContent_spec {content : Json} (h : IsContent content) :
    (anthropicContentToOpenai repr content).isSome ∧
      (Json.Same content (keptContent repr content) ↔ ContentKept content) := by
  cases content with
  | str s => exact ⟨rfl, fun _ => trivial, fun _ => .refl _⟩
  | arr blocks =>
      have hspec := fun block hblock => @keptBlock_spec repr _ (h block hblock)
      obtain ⟨hsome, hkept⟩ := @keptContent_arr repr _ h
      refine ⟨hsome, ?_⟩
      have hall := forall₂_flatMap (R := Json.Same) fun block hblock => (hspec block hblock).2.1
      rw [hkept]
      constructor
      · intro hsame
        split_ifs at hsame with hempty
        · cases hsame
        · rw [Json.same_arr_iff, hall] at hsame
          refine ⟨fun hnil => hempty (by rw [hnil]; rfl), fun block hblock => ?_⟩
          exact (hspec block hblock).2.2.mp (hsame block hblock)
      · rintro ⟨hne, hblocks⟩
        have hsame : List.Forall₂ Json.Same blocks (blocks.flatMap (keptBlock repr)) :=
          hall.mpr fun block hblock => (hspec block hblock).2.2.mpr (hblocks block hblock)
        have hempty : (blocks.flatMap (keptBlock repr)).isEmpty = false := by
          rw [List.isEmpty_eq_false_iff_exists_mem, ← List.length_pos_iff_exists_mem,
            ← hsame.length_eq]
          exact List.length_pos_of_ne_nil hne
        rw [hempty]
        exact .arr hsame
  | _ => exact h.elim

/-- What is left of a message. -/
def keptMessage (repr : Json → Str) (msg : Json) : Json :=
  chatMessage (.str (if fieldOf (str "role") msg = .str (str "assistant") then str "assistant"
    else str "user")) (keptContent repr (fieldOf (str "content") msg))

/-- The chat message between the two. -/
def chatOf (repr : Json → Str) (msg : Json) : Json :=
  chatMessage (.str (if fieldOf (str "role") msg = .str (str "assistant") then str "assistant"
    else str "user")) ((anthropicContentToOpenai repr (fieldOf (str "content") msg)).getD .null)

/-- **A message** makes the trip alone. -/
theorem message_detour {msg : Json} (h : ∃ content, msg.get? (str "content") = some content ∧
    IsContent content) :
    anthropicMessageToOpenai repr msg = some [chatOf repr msg] ∧
      openaiMessageToAnthropic (chatOf repr msg) = some ([], [keptMessage repr msg]) := by
  obtain ⟨content, hcontent, hshape⟩ := h
  obtain ⟨fields, rfl⟩ := Json.eq_obj_of_get? hcontent
  rw [Json.get?_obj] at hcontent
  obtain ⟨kept, hkept⟩ := Option.isSome_iff_exists.mp (@keptContent_spec repr _ hshape).1
  have hfield : fieldOf (str "content") (.obj fields) = content := by
    rw [fieldOf, hcontent, Option.getD_some]
  rw [anthropicMessageToOpenai, chatOf, hfield, hkept, keptMessage, hfield, keptContent, hkept]
  refine ⟨rfl, ?_⟩
  by_cases hrole : fieldOf (str "role") (.obj fields) = .str (str "assistant")
  · rw [if_pos hrole]
    rfl
  · rw [if_neg hrole]
    rfl

/-- **A message** is the same after the detour when its role is one of the two and its
content is. -/
theorem sameMessage_iff {msg : Json} (h : ∃ content, msg.get? (str "content") = some content ∧
    IsContent content) :
    SameMessage msg (keptMessage repr msg) ↔
      (msg.get? (str "role") = some (.str (str "user")) ∨
        msg.get? (str "role") = some (.str (str "assistant"))) ∧
          ContentKept (fieldOf (str "content") msg) := by
  obtain ⟨content, hcontent, hshape⟩ := h
  obtain ⟨fields, rfl⟩ := Json.eq_obj_of_get? hcontent
  rw [Json.get?_obj] at hcontent
  have hfield : fieldOf (str "content") (.obj fields) = content := by
    rw [fieldOf, hcontent, Option.getD_some]
  have hkept : fieldOf (str "content") (keptMessage repr (.obj fields)) =
      keptContent repr content := by
    rw [← hfield]
    rfl
  have hrole : (keptMessage repr (.obj fields)).get? (str "role") =
      some (.str (if fieldOf (str "role") (.obj fields) = .str (str "assistant") then
        str "assistant" else str "user")) := rfl
  have hiff : SameMessage (.obj fields) (keptMessage repr (.obj fields)) ↔
      (Json.obj fields).get? (str "role") = some (.str (if fieldOf (str "role") (.obj fields) =
        .str (str "assistant") then str "assistant" else str "user")) ∧
          Json.Same content (keptContent repr content) :=
    ⟨fun h => ⟨hrole ▸ h.role, by have := h.content; rwa [hfield, hkept] at this⟩,
      fun h => ⟨hrole ▸ h.1, by rw [hfield, hkept]; exact h.2⟩⟩
  rw [hiff, (keptContent_spec hshape).2, hfield]
  refine and_congr_left fun _ => ?_
  by_cases hassistant : fieldOf (str "role") (.obj fields) = .str (str "assistant")
  · rw [if_pos hassistant]
    refine ⟨Or.inr, fun h => h.resolve_left fun huser => ?_⟩
    rw [Json.get?_obj] at huser
    rw [fieldOf, huser, Option.getD_some] at hassistant
    exact absurd hassistant (by decide)
  · rw [if_neg hassistant]
    refine ⟨Or.inl, fun h => h.resolve_right fun hget => ?_⟩
    rw [Json.get?_obj] at hget
    rw [fieldOf, hget, Option.getD_some] at hassistant
    exact hassistant rfl

/-! #### Payloads -/

/-- What is sent as the system prompt of these parts. -/
def systemFields (systemParts : List Str) : List (Str × Json) :=
  if systemParts.isEmpty then []
  else [(str "system", .str (join (str "\n\n") systemParts))]

/-- **The system prompt** makes the trip when it is a string, or has no text. -/
theorem system_detour (r : MessagesRequest) :
    ∃ messages entries, anthropicSystem repr r.payload = some messages ∧
      messages.mapM openaiMessageToAnthropic = some entries ∧ entries.flatMap Prod.snd = [] ∧
      (systemText (.obj (systemFields (entries.flatMap Prod.fst))) = systemText r.payload ↔
        ∀ blocks, r.payload.get? (str "system") = some (.arr blocks) →
          textOfBlocks blocks = []) := by
  obtain ⟨fields, hpayload⟩ := Json.eq_obj_of_get? r.payload_messages
  have hshape := r.isSystem
  rw [hpayload] at hshape ⊢
  rw [Json.get?_obj] at hshape ⊢
  cases hsystem : Json.lookup (str "system") fields with
  | none =>
      have hfield : fieldOf (str "system") (.obj fields) = .null := by
        rw [fieldOf, hsystem, Option.getD_none]
      refine ⟨[], [], by rw [anthropicSystem, hfield], rfl, rfl, (fun _ _ h => by cases h),
        fun _ => ?_⟩
      rw [systemText, systemText, hfield]
      rfl
  | some system =>
      have hfield : fieldOf (str "system") (.obj fields) = system := by
        rw [fieldOf, hsystem, Option.getD_some]
      cases system with
      | str s =>
          cases s with
          | nil =>
              refine ⟨[], [], by rw [anthropicSystem, hfield]; rfl, rfl, rfl,
                (fun _ _ h => by cases h), fun _ => ?_⟩
              rw [systemText, systemText, hfield]
              rfl
          | cons c s =>
              refine ⟨[chatMessage (.str (str "system")) (.str (c :: s))], [([c :: s], [])],
                by rw [anthropicSystem, hfield]; rfl, rfl, rfl,
                (fun _ _ h => by cases h), fun _ => ?_⟩
              rw [systemText, systemText, hfield]
              exact List.append_nil (c :: s)
      | arr blocks =>
          have htext := hshape _ hsystem
          have hempty : systemText (.obj (systemFields [])) = systemText (.obj fields) ↔
              ∀ blocks', some (Json.arr blocks) = some (.arr blocks') →
                textOfBlocks blocks' = [] := by
            have hnone : systemText (.obj (systemFields [])) = [] := rfl
            rw [hnone, systemText, hfield]
            refine ⟨fun h blocks' heq => ?_, fun h => (h blocks rfl).symm⟩
            cases heq
            exact h.symm
          cases blocks with
          | nil => exact ⟨[], [], by rw [anthropicSystem, hfield]; rfl, rfl, rfl, hempty⟩
          | cons block blocks =>
              have hcontent : IsContent (.arr (block :: blocks)) :=
                fun b hb => Or.inl (htext b hb)
              obtain ⟨kept, hkept⟩ :=
                Option.isSome_iff_exists.mp (@keptContent_spec repr _ hcontent).1
              obtain ⟨chat, rfl⟩ : ∃ chat, kept = .arr chat := by
                obtain ⟨chat, -, rfl⟩ := Option.map_eq_some_iff.mp hkept
                exact ⟨_, rfl⟩
              refine ⟨[chatMessage (.str (str "system")) (.arr chat)], [([], [])], ?_, rfl, rfl,
                hempty⟩
              rw [anthropicSystem, hfield]
              simp only [List.isEmpty_cons, Bool.false_eq_true, if_false, hkept, Option.map_some]
      | _ => exact (hshape _ hsystem).elim

/-- The fields of the chat payload between the two, with these messages. -/
def chatFields (payload : Json) (messages : List Json) : List (Str × Json) :=
  [(str "model", fieldOf (str "model") payload), (str "messages", .arr messages)] ++
    copied (str "max_tokens") (str "max_tokens") payload ++
    copied (str "temperature") (str "temperature") payload ++
    copied (str "top_p") (str "top_p") payload ++
    copied (str "stop") (str "stop_sequences") payload ++
    ((payload.get? (str "stream")).toList.map fun v => (str "stream", .bool v.truthy)) ++
    streamOptions payload

theorem anthropicToOpenaiPayload_eq (r : MessagesRequest) {system : List Json}
    (hsystem : anthropicSystem repr r.payload = some system) :
    anthropicToOpenaiPayload repr r.payload =
      some (.obj (chatFields r.payload (system ++ r.messages.map (chatOf repr)))) := by
  have hvisited : ((fieldOf (str "messages") r.payload).orElse (.arr [])).iter? =
      some r.messages := by
    obtain ⟨fields, hpayload⟩ := Json.eq_obj_of_get? r.payload_messages
    have hmessages := r.payload_messages
    rw [hpayload, Json.get?_obj] at hmessages
    rw [hpayload, fieldOf, hmessages, Option.getD_some]
    cases r.messages <;> rfl
  have hchats : r.messages.mapM (anthropicMessageToOpenai repr) =
      some (r.messages.map fun msg => [chatOf repr msg]) :=
    mapM_eq_some_map fun msg hmsg => (message_detour (r.isContent msg hmsg)).1
  have hflatten : (r.messages.map fun msg => [chatOf repr msg]).flatten =
      r.messages.map (chatOf repr) := by
    rw [← List.flatMap_def]
    exact List.flatMap_pure_eq_map (chatOf repr) r.messages
  rw [anthropicToOpenaiPayload, hsystem, hvisited]
  simp only [Option.bind_eq_bind, Option.bind_some, hchats, hflatten]
  rfl

theorem lookup_copiedStream {key : Str} (h : key ≠ str "stream") (payload : Json) :
    Json.lookup key ((payload.get? (str "stream")).toList.map
      fun v => (str "stream", Json.bool v.truthy)) = none := by
  cases payload.get? (str "stream") with
  | none => rfl
  | some v =>
      show Json.lookup key [(str "stream", Json.bool v.truthy)] = none
      rw [Json.lookup_cons, if_neg h.symm, Json.lookup_nil]

/-- What the chat payload holds. -/
theorem lookup_chatFields (payload : Json) (messages : List Json) :
    Json.lookup (str "messages") (chatFields payload messages) = some (.arr messages) ∧
      Json.lookup (str "max_tokens") (chatFields payload messages) =
        payload.get? (str "max_tokens") ∧
      Json.lookup (str "max_completion_tokens") (chatFields payload messages) = none ∧
      Json.lookup (str "temperature") (chatFields payload messages) =
        payload.get? (str "temperature") ∧
      Json.lookup (str "top_p") (chatFields payload messages) = payload.get? (str "top_p") ∧
      Json.lookup (str "top_k") (chatFields payload messages) = none ∧
      Json.lookup (str "stop") (chatFields payload messages) =
        payload.get? (str "stop_sequences") ∧
      Json.lookup (str "stop_sequences") (chatFields payload messages) = none := by
  refine ⟨?_, ?_, ?_, ?_, ?_, ?_, ?_, ?_⟩
  all_goals
    simp +decide only [chatFields, Json.lookup_append, Json.lookup_cons, Json.lookup_nil,
      lookup_copied, lookup_streamOptions, lookup_copiedStream, if_false, if_true, Option.none_or,
      Option.or_none]

/-- The fields of the body that is sent upstream. -/
def bodyFields (payload : Json) (systemParts : List Str) (messages : List Json) :
    List (Str × Json) :=
  [(str "messages", .arr messages), (str "max_tokens", openaiChatTokenLimit payload (.int 1024))] ++
    systemFields systemParts ++
    [str "temperature", str "top_p", str "top_k", str "stop_sequences"].flatMap
      (fun key => copied key key payload) ++
    stopSequences payload

theorem toAnthropic_eq {fields : List (Str × Json)} {chats : List Json}
    {entries : List (List Str × List Json)}
    (hmessages : Json.lookup (str "messages") fields = some (.arr chats))
    (hentries : chats.mapM openaiMessageToAnthropic = some entries) :
    toAnthropic (.obj fields) =
      some (.obj (bodyFields (.obj fields) (entries.flatMap Prod.fst) (entries.flatMap Prod.snd))) := by
  have hvisited : ((fieldOf (str "messages") (.obj fields)).orElse (.arr [])).iter? = some chats := by
    rw [fieldOf, hmessages, Option.getD_some]
    cases chats <;> rfl
  rw [toAnthropic, hvisited]
  simp only [Option.bind_eq_bind, Option.bind_some, hentries]
  rfl

theorem lookup_systemFields {key : Str} (h : key ≠ str "system") (systemParts : List Str) :
    Json.lookup key (systemFields systemParts) = none := by
  rw [systemFields]
  split_ifs
  · rfl
  · rw [Json.lookup_cons, if_neg h.symm, Json.lookup_nil]

theorem lookup_stopSequences {key : Str} (h : key ≠ str "stop_sequences") (payload : Json) :
    Json.lookup key (stopSequences payload) = none := by
  rw [stopSequences]
  split
  all_goals simp only [Json.lookup_cons, if_neg h.symm, Json.lookup_nil]

/-- What the body holds. -/
theorem lookup_bodyFields (payload : Json) (systemParts : List Str) (messages : List Json) :
    Json.lookup (str "messages") (bodyFields payload systemParts messages) = some (.arr messages) ∧
      Json.lookup (str "system") (bodyFields payload systemParts messages) =
        Json.lookup (str "system") (systemFields systemParts) ∧
      Json.lookup (str "max_tokens") (bodyFields payload systemParts messages) =
        some (openaiChatTokenLimit payload (.int 1024)) ∧
      Json.lookup (str "temperature") (bodyFields payload systemParts messages) =
        payload.get? (str "temperature") ∧
      Json.lookup (str "top_p") (bodyFields payload systemParts messages) =
        payload.get? (str "top_p") ∧
      Json.lookup (str "top_k") (bodyFields payload systemParts messages) =
        payload.get? (str "top_k") ∧
      Json.lookup (str "stop_sequences") (bodyFields payload systemParts messages) =
        (payload.get? (str "stop_sequences")).or
          (Json.lookup (str "stop_sequences") (stopSequences payload)) := by
  refine ⟨?_, ?_, ?_, ?_, ?_, ?_, ?_⟩
  all_goals
    simp +decide only [bodyFields, Json.lookup_append, Json.lookup_cons, Json.lookup_nil,
      lookup_copied_all, lookup_systemFields, lookup_stopSequences, if_false, if_true,
      Option.none_or, Option.or_none]

/-- An accepted request has a number of tokens. -/
theorem maxTokens_of_accepted (r : MessagesRequest) :
    ∃ n : ℤ, r.payload.get? (str "max_tokens") = some (.int n) := by
  have h := r.accepted
  rw [anthropicMessagesRequestError] at h
  split_ifs at h
  split at h
  · cases h
  · rename_i n hn
    exact ⟨n, hn⟩
  · cases h

/-- **The body that is sent upstream** for a request. -/
theorem request_detour (r : MessagesRequest) :
    ∃ body systemParts,
      (anthropicToOpenaiPayload repr r.payload).bind toAnthropic = some body ∧
      systemText body = systemText (.obj (systemFields systemParts)) ∧
      (systemText (.obj (systemFields systemParts)) = systemText r.payload ↔
        ∀ blocks, r.payload.get? (str "system") = some (.arr blocks) → textOfBlocks blocks = []) ∧
      elementsOf (str "messages") body = r.messages.map (keptMessage repr) ∧
      body.get? (str "max_tokens") = r.payload.get? (str "max_tokens") ∧
      body.get? (str "temperature") = r.payload.get? (str "temperature") ∧
      body.get? (str "top_p") = r.payload.get? (str "top_p") ∧
      body.get? (str "top_k") = none ∧
      body.get? (str "stop_sequences") = (r.payload.get? (str "stop_sequences")).map fun v =>
        match v with
        | .arr stops => .arr stops
        | stop => .arr [stop] := by
  obtain ⟨system, entries, hsystem, hentries, hsnd, hiff⟩ := @system_detour repr r
  obtain ⟨n, hn⟩ := maxTokens_of_accepted r
  obtain ⟨hmessages, htokens, hcompletion, htemperature, htopP, htopK, hstop, hstopSequences⟩ :=
    lookup_chatFields r.payload (system ++ r.messages.map (chatOf repr))
  have hall : (system ++ r.messages.map (chatOf repr)).mapM openaiMessageToAnthropic =
      some (entries ++ r.messages.map fun msg => ([], [keptMessage repr msg])) := by
    have hchats : r.messages.mapM (fun msg => openaiMessageToAnthropic (chatOf repr msg)) =
        some (r.messages.map fun msg => ([], [keptMessage repr msg])) :=
      mapM_eq_some_map fun msg hmsg => (message_detour (r.isContent msg hmsg)).2
    rw [List.mapM_append, hentries, List.mapM_map]
    simp only [Function.comp_def, hchats]
    rfl
  have hbody := toAnthropic_eq hmessages hall
  have hparts : (entries ++ r.messages.map fun msg => ([], [keptMessage repr msg])).flatMap Prod.fst =
      entries.flatMap Prod.fst := by
    rw [List.flatMap_append, List.flatMap_map]
    simp
  have hkept : (entries ++ r.messages.map fun msg => ([], [keptMessage repr msg])).flatMap Prod.snd =
      r.messages.map (keptMessage repr) := by
    rw [List.flatMap_append, hsnd, List.nil_append, List.flatMap_map]
    exact List.flatMap_pure_eq_map (keptMessage repr) r.messages
  rw [hparts, hkept] at hbody
  obtain ⟨hmessages', hsystem', htokens', htemperature', htopP', htopK', hstop'⟩ :=
    lookup_bodyFields (.obj (chatFields r.payload (system ++ r.messages.map (chatOf repr))))
      (entries.flatMap Prod.fst) (r.messages.map (keptMessage repr))
  refine ⟨_, entries.flatMap Prod.fst, by rw [anthropicToOpenaiPayload_eq r hsystem]; exact hbody,
    ?_, hiff, ?_, ?_, ?_, ?_, ?_, ?_⟩
  · rw [systemText, systemText, fieldOf, fieldOf, hsystem']
  · rw [elementsOf, fieldOf, hmessages', Option.getD_some]
  · rw [Json.get?_obj, htokens', openaiChatTokenLimit, fieldOf, fieldOf, hcompletion, htokens, hn]
    rfl
  · rw [Json.get?_obj, htemperature', Json.get?_obj, htemperature]
  · rw [Json.get?_obj, htopP', Json.get?_obj, htopP]
  · rw [Json.get?_obj, htopK', Json.get?_obj, htopK]
  · rw [Json.get?_obj, hstop', Json.get?_obj, hstopSequences, Option.none_or, stopSequences,
      Json.get?_obj, Json.get?_obj, hstop, hstopSequences]
    cases r.payload.get? (str "stop_sequences") with
    | none => rfl
    | some v => cases v <;> rfl

end

/-- **When a request survives the detour.**  A system prompt in blocks, `top_k`, a lone stop
sequence that is no list, whatever a block holds beside its text or its image, and an empty
list of blocks do not. -/
theorem request_survives_iff (repr : Json → Str) (r : MessagesRequest) :
    RequestSurvives repr r ↔ RequestKept r := by
  obtain ⟨body, systemParts, hbody, hsystem, hsystemIff, hmessages, htokens, htemperature, htopP,
    htopK, hstop⟩ := @request_detour repr r
  have hall : List.Forall₂ SameMessage r.messages (elementsOf (str "messages") body) ↔
      ∀ msg ∈ r.messages, (msg.get? (str "role") = some (.str (str "user")) ∨
        msg.get? (str "role") = some (.str (str "assistant"))) ∧
          ContentKept (fieldOf (str "content") msg) := by
    rw [hmessages, List.forall₂_map_right_iff, List.forall₂_same]
    exact forall₂_congr fun msg hmsg => sameMessage_iff (r.isContent msg hmsg)
  have hstopIff : body.get? (str "stop_sequences") = r.payload.get? (str "stop_sequences") ↔
      ∀ v, r.payload.get? (str "stop_sequences") = some v → ∃ stops, v = .arr stops := by
    rw [hstop]
    cases r.payload.get? (str "stop_sequences") with
    | none => exact ⟨fun _ => nofun, fun _ => rfl⟩
    | some v =>
        rw [Option.map_some, Option.some.injEq]
        constructor
        · intro h w hw
          obtain rfl := Option.some.inj hw
          split at h
          · exact ⟨_, rfl⟩
          · exact ⟨_, h.symm⟩
        · intro h
          obtain ⟨stops, rfl⟩ := h v rfl
          rfl
  constructor
  · rintro ⟨body', hbody', htext, hsame, hcopied⟩
    obtain rfl : body = body' := Option.some.inj (hbody.symm.trans hbody')
    have hmsgs := hall.mp hsame
    refine ⟨hsystemIff.mp (hsystem ▸ htext), fun msg hmsg => (hmsgs msg hmsg).1,
      fun msg hmsg => (hmsgs msg hmsg).2, ?_, ?_⟩
    · rw [← hcopied (str "top_k") (by decide), htopK]
    · exact hstopIff.mp (hcopied (str "stop_sequences") (by decide))
  · intro h
    refine ⟨body, hbody, hsystem.trans (hsystemIff.mpr h.system),
      hall.mpr fun msg hmsg => ⟨h.role msg hmsg, h.content msg hmsg⟩, fun key hkey => ?_⟩
    simp only [copiedFields, List.mem_cons, List.not_mem_nil, or_false] at hkey
    rcases hkey with rfl | rfl | rfl | rfl | rfl
    · exact htokens
    · exact htemperature
    · exact htopP
    · exact htopK.trans h.topK.symm
    · exact hstopIff.mpr h.stop

/-- A request with its system prompt in a block. -/
def blockSystem : MessagesRequest where
  payload := .obj [(str "model", .str (str "claude")), (str "max_tokens", .int 64),
    (str "system", .arr [textBlock (.str (str "Be brief."))]),
    (str "messages", .arr [chatMessage (.str (str "user")) (.str (str "Hi"))])]
  messages := [chatMessage (.str (str "user")) (.str (str "Hi"))]
  accepted := by decide
  payload_messages := rfl
  isSystem := fun system h => by
    cases h
    exact fun block hblock => List.mem_singleton.mp hblock ▸ ⟨rfl, rfl⟩
  isContent := fun msg h => ⟨.str (str "Hi"), List.mem_singleton.mp h ▸ rfl, trivial⟩

/-- Its upstream gets no system prompt. -/
theorem blockSystem_lost :
    ∃ body, (anthropicToOpenaiPayload (fun _ => []) blockSystem.payload).bind toAnthropic =
        some body ∧
      body.get? (str "system") = none ∧ ¬ RequestSurvives (fun _ => []) blockSystem := by
  refine ⟨_, rfl, by decide +kernel, ?_⟩
  rintro ⟨body, hbody, hsystem, -⟩
  cases hbody
  exact absurd hsystem (by decide +kernel)

end AnthropicAdapter
end Llmxy
