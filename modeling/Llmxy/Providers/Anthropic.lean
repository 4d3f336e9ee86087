import Llmxy.Providers.ChatOutput

/-!
# The Anthropic adapter

How the adapter turns a chat payload into that of an Anthropic upstream, and its response
or its events into a chat completion or chunks.

## Main definitions

* `toAnthropic` — the request.
* `anthropicRespToOpenai` — the response.
* `onEvent`, `gen` — the events.
-/

namespace Llmxy

namespace AnthropicAdapter

/-! ### The request -/

/-- The media type and the data of a `data:` URL in base64. -/
def base64Source (url : Str) : Option (Str × Str) :=
  if startsWith (str "data:") url ∧ str ";base64," <:+: url then
    let header := url.takeWhile (· ≠ 44)
    let data := (url.dropWhile (· ≠ 44)).drop 1
    let mediaType := (header.drop 5).takeWhile (· ≠ 59)
    if mediaType ≠ [] ∧ data ≠ [] then some (mediaType, data) else none
  else none

/-- `_image_url_source`. -/
def imageUrlSource : Json → Option Json
  | .str url =>
      if url.isEmpty then none
      else
        match base64Source url with
        | some (mediaType, data) =>
            some (.obj [(str "type", .str (str "base64")), (str "media_type", .str mediaType),
              (str "data", .str data)])
        | none => some (.obj [(str "type", .str (str "url")), (str "url", .str url)])
  | _ => none

/-- `{"type": "image", "source": source}`. -/
def imageBlock (source : Json) : Json :=
  .obj [(str "type", .str (str "image")), (str "source", source)]

/-- What a block of content becomes. -/
def openaiBlockToAnthropic (block : Json) : List Json :=
  if !block.isObj then []
  else if fieldOf (str "type") block = .str (str "text") then
    [textBlock ((fieldOf (str "text") block).orElse (.str []))]
  else if fieldOf (str "type") block = .str (str "image_url") then
    ((imageUrlSource (imageUrl block)).map imageBlock).toList
  else [block]

/-- `_openai_content_to_anthropic` of the adapter. -/
def openaiContentToAnthropic : Json → Json
  | .str s => .str s
  | .arr blocks =>
      let blocks := blocks.flatMap openaiBlockToAnthropic
      if blocks.isEmpty then .str [] else .arr blocks
  | _ => .str []

/-- What a message adds to the system prompt and to the messages.  `none` when it raises. -/
def openaiMessageToAnthropic (msg : Json) : Option (List Str × List Json) :=
  msg.fields?.map fun fields =>
    let role := (Json.lookup (str "role") fields).getD .null
    let content := (Json.lookup (str "content") fields).getD .null
    if role = .str (str "system") then (content.str?.toList, [])
    else if role = .str (str "user") ∨ role = .str (str "assistant") then
      ([], [chatMessage role (openaiContentToAnthropic content)])
    else ([], [])

/-- `body["stop_sequences"]` of a payload with `stop`. -/
def stopSequences (payload : Json) : List (Str × Json) :=
  match payload.get? (str "stop"), payload.get? (str "stop_sequences") with
  | some (.arr stops), none => [(str "stop_sequences", .arr stops)]
  | some stop, none => [(str "stop_sequences", .arr [stop])]
  | _, _ => []

/-- `_to_anthropic`, without the system prompt that it returns beside the body. -/
def toAnthropic (payload : Json) : Option Json := do
  let visited ← ((fieldOf (str "messages") payload).orElse (.arr [])).iter?
  let messages ← visited.mapM openaiMessageToAnthropic
  let systemParts := messages.flatMap Prod.fst
  return .obj ([(str "messages", .arr (messages.flatMap Prod.snd)),
      (str "max_tokens", openaiChatTokenLimit payload (.int 1024))] ++
    (if systemParts.isEmpty then []
      else [(str "system", .str (join (str "\n\n") systemParts))]) ++
    [str "temperature", str "top_p", str "top_k", str "stop_sequences"].flatMap
      (fun key => copied key key payload) ++
    stopSequences payload)

/-! ### The response -/

/-- The text that a block adds.  `none` when it raises. -/
def blockTextOf (block : Json) : Option Str := do
  let fields ← block.fields?
  if Json.lookup (str "type") fields = some (.str (str "text")) then
    ((Json.lookup (str "text") fields).getD (.str [])).str?
  else some []

/-- The text of a response. -/
def responseText (fields : List (Str × Json)) : Option Str := do
  let blocks ← ((getTruthy (str "content") fields).getD (.arr [])).iter?
  let texts ← blocks.mapM blockTextOf
  return texts.flatten

section
variable (plus : Json → Json → Option Json)

/-- `_anthropic_resp_to_openai`, with `freshId` for a response without an id and the time
`created`.  `none` when it raises. -/
def anthropicRespToOpenai (freshId : Str) (created : ℤ) (resp : Json) (model : Str) :
    Option Json := do
  let fields ← resp.fields?
  let text ← responseText fields
  let usage ← ((getTruthy (str "usage") fields).getD (.obj [])).fields?
  let pt := (Json.lookup (str "input_tokens") usage).getD (.int 0)
  let ct := (Json.lookup (str "output_tokens") usage).getD (.int 0)
  let total ← Json.add plus pt ct
  return chatCompletion ((getTruthy (str "id") fields).getD (.str freshId)) created model text
    ((getTruthy (str "stop_reason") fields).getD (.str (str "stop"))) pt ct total

/-! ### The events -/

/-- What the generator yields at an event, and the counts after it.  The id, the time and the
model are those of its chunks.  `none` when it raises. -/
def onEvent (chatId : Str) (created : ℤ) (model : Str) (counts : Counts) (ev : Json) :
    Option (List StreamItem × Counts) := do
  let fields ← ev.fields?
  let t := Json.lookup (str "type") fields
  if t = some (.str (str "message_start")) then
    let message ← ((getTruthy (str "message") fields).getD (.obj [])).fields?
    let u ← ((getTruthy (str "usage") message).getD (.obj [])).fields?
    some ([], (Json.lookup (str "input_tokens") u).getD (.int 0), counts.2)
  else if t = some (.str (str "content_block_delta")) then
    let delta ← ((getTruthy (str "delta") fields).getD (.obj [])).fields?
    if Json.lookup (str "type") delta = some (.str (str "text_delta")) then
      let text := (Json.lookup (str "text") delta).getD (.str [])
      some ([.chunk (deltaChunk chatId created model text)], counts)
    else some ([], counts)
  else if t = some (.str (str "message_delta")) then
    let u ← ((getTruthy (str "usage") fields).getD (.obj [])).fields?
    some ([], counts.1, (Json.lookup (str "output_tokens") u).getD counts.2)
  else if t = some (.str (str "message_stop")) then
    let total ← Json.add plus counts.1 counts.2
    some ([.chunk (finalChunk chatId created model counts.1 counts.2 total), .done], counts)
  else some ([], counts)

/-- `gen` of the adapter's `chat`: what it yields for the chunks of a stream.  `none` when it
raises. -/
def gen (chatId : Str) (created : ℤ) (model : Str) (chunks : List Str) :
    Option (List StreamItem) :=
  (readStream (onEvent plus chatId created model) zeroCounts chunks).map Prod.fst

end
end AnthropicAdapter
end Llmxy
