import Llmxy.Envoy.ExtProc
import Llmxy.Lib.Loops
import Llmxy.Relay.Usage
import Mathlib.Data.List.ReduceOption

/-!
# The prompt a request is routed on

`select_route` sees the text of a request.  The endpoints of the API convert the payload
to that of a chat completion where their protocol is another one, and extract the text
from the result.  `ext_proc` converts Anthropic payloads only, so a Responses payload is
read as it is: without its instructions, and without the messages of its input list.

Python's `str` of a float, a list or a dictionary is the parameter `repr`.

## Main definitions

* `extractPromptText` — the text of a payload.
* `anthropicToOpenaiPayload`, `responsesToOpenaiChatPayload` — the conversions.
* `Endpoint`, `directPrompt`, `extProcPrompt` — the text each transport routes on.
* `SamePrompt`, `samePrompt_iff` — exactly when they route on the same.
-/

namespace Llmxy

namespace Json

/-- `v or default`. -/
def orElse (v default : Json) : Json := if v.truthy then v else default

/-- The string that a value is. -/
def str? : Json → Option Str
  | str s => some s
  | _ => none

/-- `isinstance(v, dict)`. -/
def isObj : Json → Bool
  | obj _ => true
  | _ => false

/-- Can the value be looked up in a set?  `hash` raises for a list and a dictionary. -/
def hashable : Json → Bool
  | arr _ => false
  | obj _ => false
  | _ => true

/-- The values that `for x in v` visits.  `none` when it raises. -/
def iter? : Json → Option (List Json)
  | arr xs => some xs
  | str s => some (s.map fun c => str [c])
  | obj fields => some (fields.map fun f => str f.1)
  | _ => none

end Json

/-! ### Extraction -/

/-- The text of a piece of a message. -/
def pieceText (piece : Json) : Option Str := (piece.get? (str "text")).bind Json.str?

/-- The texts of a message. -/
def messageTexts (msg : Json) : List Str :=
  match msg.get? (str "content") with
  | some (.str s) => [s]
  | some (.arr pieces) => pieces.filterMap pieceText
  | _ => []

/-- `extract_prompt_text`. -/
def extractPromptText (payload : Json) : Str :=
  match fieldOf (str "messages") payload with
  | .arr messages => join (str "\n") (messages.flatMap messageTexts)
  | _ =>
      match fieldOf (str "input") payload with
      | .str s => s
      | .arr items => join (str "\n") (items.filterMap Json.str?)
      | _ =>
          match fieldOf (str "prompt") payload with
          | .str s => s
          | _ => []

/-! ### Conversion -/

/-- `{"role": role, "content": content}`. -/
def chatMessage (role : Json) (content : Json) : Json :=
  .obj [(str "role", role), (str "content", content)]

/-- `out[key] = payload[source]` if the payload has it. -/
def copied (key source : Str) (payload : Json) : List (Str × Json) :=
  (payload.get? source).toList.map fun v => (key, v)

/-- `out["stream_options"]` of a streamed request. -/
def streamOptions (payload : Json) : List (Str × Json) :=
  if (fieldOf (str "stream") payload).truthy then
    [(str "stream_options", .obj [(str "include_usage", .bool true)])]
  else []

section
variable (repr : Json → Str)

/-- A block of Anthropic content.  `none` when it raises. -/
def anthropicBlockToOpenai (block : Json) : Option (List Json) :=
  match block with
  | .obj _ =>
      if fieldOf (str "type") block = .str (str "text") then
        some [.obj [(str "type", .str (str "text")),
          (str "text", (fieldOf (str "text") block).orElse (.str []))]]
      else if fieldOf (str "type") block = .str (str "image") then
        match (fieldOf (str "source") block).orElse (.obj []) with
        | .obj fields =>
            let source := Json.obj fields
            let mediaType := fieldOf (str "media_type") source
            let data := fieldOf (str "data") source
            if fieldOf (str "type") source = .str (str "base64") && mediaType.truthy &&
                data.truthy then
              some [.obj [(str "type", .str (str "image_url")),
                (str "image_url", .obj [(str "url", .str (str "data:" ++ mediaType.toStr repr ++
                  str ";base64," ++ data.toStr repr))])]]
            else some []
        | _ => none
      else some [block]
  | _ => some []

/-- `_anthropic_content_to_openai`. -/
def anthropicContentToOpenai (content : Json) : Option Json :=
  match content with
  | .str s => some (.str s)
  | .arr blocks =>
      (blocks.mapM (anthropicBlockToOpenai repr)).map fun blocks => .arr blocks.flatten
  | _ => some (.str [])

/-- The system message of an Anthropic payload. -/
def anthropicSystem (payload : Json) : Option (List Json) :=
  match fieldOf (str "system") payload with
  | .str s => some (if s.isEmpty then [] else [chatMessage (.str (str "system")) (.str s)])
  | .arr blocks =>
      if blocks.isEmpty then some []
      else (anthropicContentToOpenai repr (.arr blocks)).map fun content =>
        [chatMessage (.str (str "system")) content]
  | _ => some []

/-- A message of an Anthropic payload. -/
def anthropicMessageToOpenai (msg : Json) : Option (List Json) :=
  match msg with
  | .obj _ =>
      let role := if fieldOf (str "role") msg = .str (str "assistant") then str "assistant"
        else str "user"
      (anthropicContentToOpenai repr (fieldOf (str "content") msg)).map fun content =>
        [chatMessage (.str role) content]
  | _ => some []

/-- `anthropic_to_openai_payload`. -/
def anthropicToOpenaiPayload (payload : Json) : Option Json := do
  let system ← anthropicSystem repr payload
  let visited ← ((fieldOf (str "messages") payload).orElse (.arr [])).iter?
  let messages ← visited.mapM (anthropicMessageToOpenai repr)
  return .obj ([(str "model", fieldOf (str "model") payload),
      (str "messages", .arr (system ++ messages.flatten))] ++
    copied (str "max_tokens") (str "max_tokens") payload ++
    copied (str "temperature") (str "temperature") payload ++
    copied (str "top_p") (str "top_p") payload ++
    copied (str "stop") (str "stop_sequences") payload ++
    ((payload.get? (str "stream")).toList.map fun v => (str "stream", .bool v.truthy)) ++
    streamOptions payload)

/-- The text of a content block of a Responses payload.  `none` when it raises. -/
def blockText (block : Json) : Option Str :=
  match block with
  | .obj _ =>
      let type := fieldOf (str "type") block
      if !type.hashable then none
      else if type ∈ [.str (str "text"), .str (str "input_text"), .str (str "output_text")] then
        some (((fieldOf (str "text") block).orElse (.str [])).toStr repr)
      else some []
  | _ => some []

/-- `_content_to_text`. -/
def contentToText (content : Json) : Option Str :=
  match content with
  | .str s => some s
  | .arr blocks => (blocks.mapM (blockText repr)).map List.flatten
  | _ => some []

/-- `_responses_input_item_to_chat_message`.  The outer `none` when it raises. -/
def responsesInputItemToChatMessage (item : Json) : Option (Option Json) :=
  match item with
  | .str s => some (some (chatMessage (.str (str "user")) (.str s)))
  | .obj _ =>
      let role := (fieldOf (str "role") item).orElse (.str (str "user"))
      if !role.hashable then none
      else
        let role := if role ∈ [.str (str "system"), .str (str "user"), .str (str "assistant")]
          then role else .str (str "user")
        (contentToText repr (fieldOf (str "content") item)).map fun text =>
          some (chatMessage role (.str text))
  | _ => some none

/-- The instructions of a Responses payload, unless they are blank. -/
def instructionsOf (payload : Json) : Option Str :=
  (fieldOf (str "instructions") payload).str?.filter fun s => !(strip s).isEmpty

/-- The messages of the input of a Responses payload. -/
def inputMessages (payload : Json) : Option (List Json) :=
  match fieldOf (str "input") payload with
  | .str s => some [chatMessage (.str (str "user")) (.str s)]
  | .arr items => (items.mapM (responsesInputItemToChatMessage repr)).map List.reduceOption
  | _ => some []

/-- `responses_to_openai_chat_payload`. -/
def responsesToOpenaiChatPayload (payload : Json) : Option Json :=
  (inputMessages repr payload).map fun input =>
    let messages := (instructionsOf payload).toList.map
      (fun s => chatMessage (.str (str "system")) (.str s)) ++ input
    .obj ([(str "model", fieldOf (str "model") payload),
        (str "messages", .arr (if messages.isEmpty then
          [chatMessage (.str (str "user")) (.str [])] else messages))] ++
      (if (payload.get? (str "max_output_tokens")).isSome then
        copied (str "max_tokens") (str "max_output_tokens") payload
      else copied (str "max_tokens") (str "max_tokens") payload) ++
      [str "temperature", str "top_p", str "stream", str "stop"].flatMap
        (fun key => copied key key payload) ++
      streamOptions payload)

/-! ### The two transports -/

/-- The endpoints that route. -/
inductive Endpoint where
  | chatCompletions | responses | messages | embeddings | images
  deriving DecidableEq

/-- The path of an endpoint. -/
def Endpoint.path : Endpoint → Str
  | .chatCompletions => str "/v1/chat/completions"
  | .responses => str "/v1/responses"
  | .messages => str "/v1/messages"
  | .embeddings => str "/v1/embeddings"
  | .images => str "/v1/images/generations"

/-- The path with the query of a request. -/
def Endpoint.target (endpoint : Endpoint) (query : Option Str) : Str :=
  endpoint.path ++ (query.map fun q => str "?" ++ q).getD []

/-- `anthropic_messages_request_error`. -/
def anthropicMessagesRequestError (payload : Json) : Option Str :=
  if (payload.get? (str "max_completion_tokens")).isSome then
    some (str "max_completion_tokens is not valid for Anthropic Messages; use max_tokens")
  else
    match payload.get? (str "max_tokens") with
    | none => some (str "missing max_tokens")
    | some (.int n) => if n ≤ 0 then some (str "max_tokens must be a positive integer") else none
    | some _ => some (str "max_tokens must be a positive integer")

/-- The text that an endpoint of the API routes on.  `none` when it rejects the payload
before or raises. -/
def directPrompt : Endpoint → Json → Option Str
  | .messages, payload =>
      if !(fieldOf (str "messages") payload).truthy ||
          (anthropicMessagesRequestError payload).isSome then none
      else (anthropicToOpenaiPayload repr payload).map extractPromptText
  | .responses, payload => (responsesToOpenaiChatPayload repr payload).map extractPromptText
  | .chatCompletions, payload => some (extractPromptText payload)
  | .embeddings, payload => some (extractPromptText payload)
  | .images, payload => some (extractPromptText payload)

/-- `_prompt_text`. -/
def promptText (clientProtocol : Str) (payload : Json) : Option Str :=
  if !payload.isObj then some []
  else if clientProtocol = str "anthropic.messages" then
    (anthropicToOpenaiPayload repr payload).map extractPromptText
  else some (extractPromptText payload)

/-- The text that `ext_proc` routes a request of the path on. -/
def extProcPrompt (path : Str) (payload : Json) : Option Str :=
  promptText repr (clientProtocolAndModality path).1 payload

/-- Whatever text the API routes the payload on, `ext_proc` routes it on the same. -/
def SamePrompt (endpoint : Endpoint) (query : Option Str) (payload : Json) : Prop :=
  ∀ text, directPrompt repr endpoint payload = some text →
    extProcPrompt repr (endpoint.target query) payload = some text

/-- The texts that an item of the input adds. -/
def itemTexts (item : Json) : List Str :=
  match item with
  | .str s => [s]
  | .obj _ => [(contentToText repr (fieldOf (str "content") item)).getD []]
  | _ => []

/-- Does an item of the input add a text? -/
def Json.speaks (item : Json) : Bool := item.str?.isSome || item.isObj

/-- The texts that the input adds. -/
def inputTexts (payload : Json) : List Str :=
  match fieldOf (str "input") payload with
  | .str s => [s]
  | .arr items => items.flatMap (itemTexts repr)
  | _ => []

/-- **When a Responses payload reads the same on both transports.**  Without a list of
messages: there are no instructions beside an input, and no message in the input list
unless it is all there is and empty; without an input, the prompt is the instructions. -/
def ResponsesAgree (payload : Json) : Prop :=
  match fieldOf (str "messages") payload with
  | .arr messages =>
      join (str "\n") (messages.flatMap messageTexts) =
        join (str "\n") ((instructionsOf payload).toList ++ inputTexts repr payload)
  | _ =>
      match fieldOf (str "input") payload with
      | .str _ => instructionsOf payload = none
      | .arr items =>
          instructionsOf payload = none ∧
            ((∀ item ∈ items, item.isObj = false) ∨
              ∃ item, items.filter Json.speaks = [item] ∧ item.isObj = true ∧
                itemTexts repr item = [[]])
      | _ => ((fieldOf (str "prompt") payload).str?).getD [] = (instructionsOf payload).getD []

variable {repr}

/-! ### Responses payloads -/

theorem messageTexts_chatMessage (role : Json) (s : Str) :
    messageTexts (chatMessage role (.str s)) = [s] := by
  have hcontent : (chatMessage role (.str s)).get? (str "content") = some (.str s) := by
    have hne : str "role" ≠ str "content" := by decide
    simp [chatMessage, Json.get?, Json.lookup, hne]
  rw [messageTexts, hcontent]

/-- What a conversion of the items leaves of their texts. -/
theorem texts_of_mapM {items : List Json} {messages : List (Option Json)}
    (h : items.mapM (responsesInputItemToChatMessage repr) = some messages) :
    messages.reduceOption.flatMap messageTexts = items.flatMap (itemTexts repr) := by
  induction items generalizing messages with
  | nil =>
      cases h
      rfl
  | cons item items ih =>
      obtain ⟨msg, rest, hmsg, hrest, rfl⟩ := mapM_cons_eq_some.mp h
      have htail := ih hrest
      cases item with
      | str s =>
          cases hmsg
          rw [List.reduceOption_cons_of_some, List.flatMap_cons, htail, messageTexts_chatMessage,
            List.flatMap_cons]
          rfl
      | obj fields =>
          rw [responsesInputItemToChatMessage] at hmsg
          dsimp only at hmsg
          by_cases hrole : (!((fieldOf (str "role") (.obj fields)).orElse
              (.str (str "user"))).hashable) = true
          · rw [if_pos hrole] at hmsg
            cases hmsg
          rw [if_neg hrole] at hmsg
          obtain ⟨text, htext, rfl⟩ := Option.map_eq_some_iff.mp hmsg
          rw [List.reduceOption_cons_of_some, List.flatMap_cons, htail, messageTexts_chatMessage,
            List.flatMap_cons, itemTexts, htext, Option.getD_some]
      | _ =>
          cases hmsg
          rw [List.reduceOption_cons_of_none, htail]
          rfl

/-- The text of a chat completion with messages. -/
theorem extractPromptText_messages (model : Json) (messages : List Json)
    (rest : List (Str × Json)) :
    extractPromptText (.obj ((str "model", model) :: (str "messages", .arr messages) :: rest)) =
      join (str "\n") (messages.flatMap messageTexts) := by
  have hne : str "model" ≠ str "messages" := by decide
  have hfield : fieldOf (str "messages")
      (.obj ((str "model", model) :: (str "messages", .arr messages) :: rest)) = .arr messages := by
    simp [fieldOf, Json.lookup, hne]
  rw [extractPromptText, hfield]

/-- The text a Responses payload is routed on by the API. -/
theorem directPrompt_responses {payload : Json} :
    directPrompt repr .responses payload = (inputMessages repr payload).map fun _ =>
      join (str "\n") ((instructionsOf payload).toList ++ inputTexts repr payload) := by
  rw [directPrompt, responsesToOpenaiChatPayload, Option.map_map]
  cases hinput : inputMessages repr payload with
  | none => rfl
  | some input =>
      have htexts : input.flatMap messageTexts = inputTexts repr payload := by
        rw [inputMessages] at hinput
        rw [inputTexts]
        cases hin : fieldOf (str "input") payload with
        | str s =>
            rw [hin] at hinput
            cases hinput
            rw [List.flatMap_singleton, messageTexts_chatMessage]
        | arr items =>
            rw [hin] at hinput
            obtain ⟨messages, hmessages, rfl⟩ := Option.map_eq_some_iff.mp hinput
            exact texts_of_mapM hmessages
        | _ =>
            rw [hin] at hinput
            cases hinput
            rfl
      have hinstr : ((instructionsOf payload).toList.map
          fun s => chatMessage (.str (str "system")) (.str s)).flatMap messageTexts =
            (instructionsOf payload).toList := by
        cases instructionsOf payload with
        | none => rfl
        | some s => exact congrArg (· ++ []) (messageTexts_chatMessage _ s)
      simp only [Option.map_some, Function.comp_apply, Option.some.injEq, List.cons_append,
        List.nil_append, extractPromptText_messages]
      obtain ⟨messages, hmessages⟩ : ∃ messages, messages = (instructionsOf payload).toList.map
          (fun s => chatMessage (.str (str "system")) (.str s)) ++ input := ⟨_, rfl⟩
      have hall : messages.flatMap messageTexts =
          (instructionsOf payload).toList ++ inputTexts repr payload := by
        rw [hmessages, List.flatMap_append, hinstr, htexts]
      rw [← hmessages, ← hall]
      cases messages with
      | nil => exact congrArg (fun texts => join (str "\n") (texts ++ [])) (messageTexts_chatMessage _ [])
      | cons m ms => rfl

/-- How the texts of the input list compare with its strings. -/
theorem itemTexts_lengths (items : List Json) :
    (items.flatMap (itemTexts repr)).length =
        (items.filterMap Json.str?).length + (items.filter Json.isObj).length ∧
      ((items.flatMap (itemTexts repr)).map List.length).sum =
        ((items.filterMap Json.str?).map List.length).sum +
          (((items.filter Json.isObj).flatMap (itemTexts repr)).map List.length).sum := by
  induction items with
  | nil => exact ⟨rfl, rfl⟩
  | cons item items ih =>
      obtain ⟨hcount, hsum⟩ := ih
      cases item with
      | str s =>
          have hfilter : (Json.str s :: items).filter Json.isObj = items.filter Json.isObj := rfl
          have hstrs : (Json.str s :: items).filterMap Json.str? = s :: items.filterMap Json.str? :=
            rfl
          have htext : itemTexts repr (.str s) = [s] := rfl
          simp only [List.flatMap_cons, hfilter, hstrs, htext, List.length_append, List.map_append,
            List.sum_append, hcount, hsum, List.length_cons, List.length_nil, List.map_cons,
            List.map_nil, List.sum_cons, List.sum_nil]
          constructor
          · omega
          · omega
      | obj fields =>
          obtain ⟨text, htext⟩ : ∃ text, itemTexts repr (.obj fields) = [text] := ⟨_, rfl⟩
          have hfilter : (Json.obj fields :: items).filter Json.isObj =
              .obj fields :: items.filter Json.isObj := rfl
          have hstrs : (Json.obj fields :: items).filterMap Json.str? = items.filterMap Json.str? :=
            rfl
          simp only [List.flatMap_cons, hfilter, hstrs, htext, List.length_append, List.map_append,
            List.sum_append, hcount, hsum, List.length_cons, List.length_nil]
          constructor
          · omega
          · omega
      | _ => exact ⟨hcount, hsum⟩

/-- An input list without messages is read the same. -/
theorem itemTexts_of_strings {items : List Json} (h : ∀ item ∈ items, item.isObj = false) :
    items.flatMap (itemTexts repr) = items.filterMap Json.str? := by
  induction items with
  | nil => rfl
  | cons item items ih =>
      have htail := ih fun x hx => h x (List.mem_cons_of_mem _ hx)
      rw [List.flatMap_cons, htail]
      cases item with
      | obj fields => cases h _ List.mem_cons_self
      | _ => rfl

/-- Only what speaks is read. -/
theorem texts_filter_speaks (items : List Json) :
    (items.filter Json.speaks).flatMap (itemTexts repr) = items.flatMap (itemTexts repr) ∧
      (items.filter Json.speaks).filterMap Json.str? = items.filterMap Json.str? ∧
      (items.filter Json.speaks).length =
        (items.filterMap Json.str?).length + (items.filter Json.isObj).length := by
  induction items with
  | nil => exact ⟨rfl, rfl, rfl⟩
  | cons item items ih =>
      obtain ⟨htexts, hstrs, hcount⟩ := ih
      cases item with
      | str s =>
          refine ⟨congrArg (itemTexts repr (.str s) ++ ·) htexts, congrArg (s :: ·) hstrs, ?_⟩
          have hlen := congrArg (· + 1) hcount
          refine hlen.trans ?_
          rw [show (Json.str s :: items).filterMap Json.str? = s :: items.filterMap Json.str? from rfl,
            show (Json.str s :: items).filter Json.isObj = items.filter Json.isObj from rfl,
            List.length_cons]
          omega
      | obj fields =>
          exact ⟨congrArg (itemTexts repr (.obj fields) ++ ·) htexts, hstrs,
            congrArg (· + 1) hcount⟩
      | _ => exact ⟨htexts, hstrs, hcount⟩

/-- **The input list** reads the same on both transports exactly when nothing but its
strings adds a text. -/
theorem join_items_eq_iff (instructions : Option Str) (items : List Json)
    (hinstr : ∀ s, instructions = some s → s ≠ []) :
    join (str "\n") (items.filterMap Json.str?) =
        join (str "\n") (instructions.toList ++ items.flatMap (itemTexts repr)) ↔
      instructions = none ∧
        ((∀ item ∈ items, item.isObj = false) ∨
          ∃ item, items.filter Json.speaks = [item] ∧ item.isObj = true ∧
            itemTexts repr item = [[]]) := by
  obtain ⟨hcount, hsum⟩ := @itemTexts_lengths repr items
  constructor
  · intro heq
    have hlen := congrArg List.length heq
    have hsep : (str "\n").length = 1 := rfl
    rw [length_join, length_join, hsep, mul_one, mul_one, List.length_append, hcount,
      List.map_append, List.sum_append, hsum] at hlen
    cases instructions with
    | some s =>
        -- the instructions make the text longer
        have hs : 0 < s.length := List.length_pos_of_ne_nil (hinstr s rfl)
        simp only [Option.toList_some, List.map_cons, List.map_nil, List.sum_cons, List.sum_nil,
          List.length_cons, List.length_nil] at hlen
        omega
    | none =>
        refine ⟨rfl, ?_⟩
        simp only [Option.toList_none, List.map_nil, List.sum_nil, List.length_nil] at hlen
        by_cases hobj : (items.filter Json.isObj).length = 0
        · apply Or.inl
          intro item hitem
          have hnil := List.filter_eq_nil_iff.mp (List.length_eq_zero_iff.mp hobj) item hitem
          simpa using hnil
        · -- a message adds a separator unless nothing else speaks
          apply Or.inr
          obtain ⟨-, -, hspeaks⟩ := @texts_filter_speaks repr items
          obtain ⟨only, honly⟩ : ∃ only, items.filter Json.speaks = [only] :=
            List.length_eq_one_iff.mp (by omega)
          obtain ⟨item, hitem⟩ : ∃ item, items.filter Json.isObj = [item] :=
            List.length_eq_one_iff.mp (by omega)
          have hmem : item ∈ items ∧ item.isObj = true := by
            apply List.mem_filter.mp
            rw [hitem]
            exact List.mem_singleton_self _
          have heq : item = only := by
            have hspeaks : item ∈ items.filter Json.speaks :=
              List.mem_filter.mpr ⟨hmem.1, by rw [Json.speaks, hmem.2, Bool.or_true]⟩
            rw [honly] at hspeaks
            exact List.mem_singleton.mp hspeaks
          subst heq
          refine ⟨item, honly, hmem.2, ?_⟩
          obtain ⟨text, htext⟩ : ∃ text, itemTexts repr item = [text] := by
            cases item with
            | obj fields => exact ⟨_, rfl⟩
            | _ => cases hmem.2
          rw [hitem, List.flatMap_singleton, htext] at hlen
          simp only [List.map_cons, List.map_nil, List.sum_cons, List.sum_nil, List.length_cons,
            List.length_nil] at hlen
          have hnil : text = [] := List.length_eq_zero_iff.mp (by omega)
          rw [htext, hnil]
  · rintro ⟨rfl, hitems | ⟨item, honly, hobj, hempty⟩⟩
    · rw [itemTexts_of_strings hitems]
      rfl
    · obtain ⟨htexts, hstrs, -⟩ := @texts_filter_speaks repr items
      have hstr : item.str? = none := by
        cases item with
        | obj fields => rfl
        | _ => cases hobj
      rw [← htexts, ← hstrs, honly, List.flatMap_singleton, hempty, List.filterMap_cons, hstr]
      rfl

/-! ### Both transports -/

/-- The query does not change the endpoint. -/
theorem cleanPath_target (endpoint : Endpoint) (query : Option Str) :
    cleanPath (endpoint.target query) = endpoint.path := by
  have hpath : ∀ c ∈ endpoint.path, decide (c ≠ 63) = true := by
    cases endpoint <;> decide
  rw [cleanPath, Endpoint.target]
  cases query with
  | none => exact (congrArg _ (List.append_nil _)).trans (List.takeWhile_eq_self_iff.mpr hpath)
  | some q =>
      rw [List.takeWhile_append_of_pos hpath]
      exact List.append_nil _

/-- The processor converts the payloads of the messages endpoint only. -/
theorem clientProtocol_target (endpoint : Endpoint) (query : Option Str) :
    (clientProtocolAndModality (endpoint.target query)).1 = str "anthropic.messages" ↔
      endpoint = .messages := by
  rw [clientProtocolAndModality, cleanPath_target]
  cases endpoint <;> decide

theorem extProcPrompt_obj (endpoint : Endpoint) (query : Option Str) (fields : List (Str × Json)) :
    extProcPrompt repr (endpoint.target query) (.obj fields) =
      if endpoint = .messages then
        (anthropicToOpenaiPayload repr (.obj fields)).map extractPromptText
      else some (extractPromptText (.obj fields)) := by
  rw [extProcPrompt, promptText]
  simp only [Json.isObj, Bool.not_true, Bool.false_eq_true, if_false, clientProtocol_target]

theorem instructionsOf_ne_nil {payload : Json} {s : Str} (h : instructionsOf payload = some s) :
    s ≠ [] := by
  rintro rfl
  obtain ⟨-, hblank⟩ := Option.filter_eq_some_iff.mp h
  cases hblank

theorem join_singleton (sep s : Str) : join sep [s] = s := List.append_nil s

/-- An input text reads the same exactly when there are no instructions before it. -/
theorem join_text_eq_iff (instructions : Option Str) (s : Str) :
    s = join (str "\n") (instructions.toList ++ [s]) ↔ instructions = none := by
  cases instructions with
  | none => exact iff_of_true (join_singleton _ s).symm rfl
  | some i =>
      refine iff_of_false ?_ (by simp)
      intro heq
      have hlen := congrArg List.length heq
      have hsep : (str "\n").length = 1 := rfl
      rw [length_join, hsep] at hlen
      simp only [Option.toList_some, List.singleton_append, List.map_cons, List.map_nil,
        List.sum_cons, List.sum_nil, List.length_cons, List.length_nil] at hlen
      omega

/-- Without an input the API reads the instructions alone. -/
theorem join_instructions (instructions : Option Str) :
    join (str "\n") (instructions.toList ++ []) = instructions.getD [] := by
  cases instructions with
  | none => rfl
  | some i => exact join_singleton _ i

theorem prompt_eq_getD (prompt : Json) :
    (match prompt with | .str s => s | _ => []) = prompt.str?.getD [] := by
  cases prompt <;> rfl

/-- A Responses payload reads the same exactly when `ResponsesAgree`. -/
theorem responses_agree_iff (payload : Json) :
    extractPromptText payload =
        join (str "\n") ((instructionsOf payload).toList ++ inputTexts repr payload) ↔
      ResponsesAgree repr payload := by
  rw [extractPromptText, ResponsesAgree]
  cases hmessages : fieldOf (str "messages") payload with
  | arr messages => exact Iff.rfl
  | _ =>
      dsimp only
      cases hinput : fieldOf (str "input") payload with
      | str s =>
          rw [inputTexts, hinput]
          exact join_text_eq_iff _ s
      | arr items =>
          rw [inputTexts, hinput]
          exact join_items_eq_iff _ items fun s hs => instructionsOf_ne_nil hs
      | _ =>
          rw [inputTexts, hinput]
          dsimp only
          rw [join_instructions, prompt_eq_getD]

/-- **Both transports route a request on the same prompt** on every endpoint but
`/v1/responses`, and there exactly when the payload agrees or the API cannot convert
it. -/
theorem samePrompt_iff (endpoint : Endpoint) (query : Option Str) (fields : List (Str × Json)) :
    SamePrompt repr endpoint query (.obj fields) ↔
      (endpoint = .responses → (inputMessages repr (.obj fields)).isSome →
        ResponsesAgree repr (.obj fields)) := by
  rw [SamePrompt, extProcPrompt_obj]
  cases endpoint with
  | responses =>
      rw [if_neg (by decide), directPrompt_responses]
      cases hinput : inputMessages repr (.obj fields) with
      | none => simp
      | some input =>
          simp only [Option.map_some, Option.some.injEq, Option.isSome_some, true_implies]
          rw [← responses_agree_iff]
          constructor
          · exact fun h => h _ rfl
          · rintro h text rfl
            exact h
  | messages =>
      refine iff_of_true ?_ (fun h => by cases h)
      intro text htext
      rw [directPrompt] at htext
      split_ifs at htext
      rwa [if_pos rfl]
  | chatCompletions => exact iff_of_true (fun _ h => h) (fun h => by cases h)
  | embeddings => exact iff_of_true (fun _ h => h) (fun h => by cases h)
  | images => exact iff_of_true (fun _ h => h) (fun h => by cases h)

end

/-- A Responses payload with instructions. -/
def instructedPayload : Json :=
  .obj [(str "model", .str (str "auto")), (str "instructions", .str (str "Translate")),
    (str "input", .str (str "hi"))]

/-- The API routes the payload on its instructions and its input, `ext_proc` on its input
alone. -/
theorem instructions_not_samePrompt :
    ¬ SamePrompt (fun _ => []) .responses none instructedPayload ∧
      directPrompt (fun _ => []) .responses instructedPayload = some (str "Translate\nhi") ∧
      extProcPrompt (fun _ => []) (str "/v1/responses") instructedPayload = some (str "hi") := by
  have hdirect : directPrompt (fun _ => []) .responses instructedPayload =
      some (str "Translate\nhi") := by decide +kernel
  have hext : extProcPrompt (fun _ => []) (str "/v1/responses") instructedPayload =
      some (str "hi") := by decide +kernel
  refine ⟨?_, hdirect, hext⟩
  intro hsame
  have htext := hsame _ hdirect
  have htarget : Endpoint.responses.target none = str "/v1/responses" := by decide
  rw [htarget, hext] at htext
  exact absurd htext (by decide)

end Llmxy
