import Llmxy.Providers.ChatOutput

/-!
# The Gemini adapter

How the adapter turns a chat payload into that of a Gemini upstream, and its response or its
events into a chat completion or chunks.

## Main definitions

* `toGemini` — the request.
* `geminiRespToOpenai` — the response.
* `onEvent`, `gen` — the events.
-/

namespace Llmxy.GeminiAdapter

/-! ### The request -/

/-- `p.get("text", "")` of a dictionary in the content, for a join that raises unless it is a
string. -/
def pieceTextOf : Json → Option Str
  | .obj fields => ((Json.lookup (str "text") fields).getD (.str [])).str?
  | _ => some []

/-- The text of a message.  `none` when it raises. -/
def contentTextOf : Json → Option Str
  | .str s => some s
  | content => do
      let pieces ← content.iter?
      let texts ← pieces.mapM pieceTextOf
      return texts.flatten

/-- What a message adds to the system parts and to the contents.  `none` when it raises. -/
def openaiMessageToGemini (m : Json) : Option (List Str × List Json) := do
  let fields ← m.fields?
  let role := (Json.lookup (str "role") fields).getD .null
  let content ← contentTextOf ((Json.lookup (str "content") fields).getD .null)
  return if role = .str (str "system") then ([content], [])
    else ([], [.obj [
      (str "role", .str (if role = .str (str "user") then str "user" else str "model")),
      (str "parts", .arr [.obj [(str "text", .str content)]])]])

/-- `gen_cfg["stopSequences"]` of a payload with `stop`. -/
def stopSequences (payload : Json) : List (Str × Json) :=
  match payload.get? (str "stop") with
  | some (.arr stops) => [(str "stopSequences", .arr stops)]
  | some stop => [(str "stopSequences", .arr [stop])]
  | none => []

/-- `_to_gemini`.  `none` when it raises. -/
def toGemini (payload : Json) : Option Json := do
  let visited ← ((fieldOf (str "messages") payload).orElse (.arr [])).iter?
  let messages ← visited.mapM openaiMessageToGemini
  let systemParts := messages.flatMap Prod.fst
  let maxTokens := openaiChatTokenLimit payload .null
  let genCfg := copied (str "temperature") (str "temperature") payload ++
    copied (str "topP") (str "top_p") payload ++
    (if maxTokens = .null then [] else [(str "maxOutputTokens", maxTokens)]) ++
    stopSequences payload
  return .obj ((str "contents", .arr (messages.flatMap Prod.snd)) ::
    ((if systemParts.isEmpty then []
      else [(str "systemInstruction", .obj [(str "parts",
        .arr [.obj [(str "text", .str (join (str "\n\n") systemParts))]])])]) ++
    (if genCfg.isEmpty then [] else [(str "generationConfig", .obj genCfg)])))

/-! ### Candidates -/

/-- `part["text"]` of a part with `"text" in part`.  `none` when it raises. -/
def partText : Json → Option (Option Json)
  | .obj fields => some (Json.lookup (str "text") fields)
  | .arr xs => if .str (str "text") ∈ xs then none else some none
  | .str s => if str "text" <:+: s then none else some none
  | _ => none

/-- The texts of a candidate. -/
def candidateTexts (cand : Json) : Option (List Json) := do
  let fields ← cand.fields?
  let content ← ((getTruthy (str "content") fields).getD (.obj [])).fields?
  let parts ← ((getTruthy (str "parts") content).getD (.arr [])).iter?
  let texts ← parts.mapM partText
  return texts.reduceOption

/-- `resp.get("candidates") or []`. -/
def candidatesOf (fields : List (Str × Json)) : Option (List Json) :=
  ((getTruthy (str "candidates") fields).getD (.arr [])).iter?

/-- `cand["finishReason"].lower()` of a candidate with one.  `none` when it raises. -/
def candidateFinish (cand : Json) : Option (Option Str) := do
  let fields ← cand.fields?
  match getTruthy (str "finishReason") fields with
  | none => some none
  | some reason => reason.str?.map fun r => some (lower r)

section
variable (plus : Json → Json → Option Json)

/-! ### The response -/

/-- `_gemini_resp_to_openai`, with the id `freshId` and the time `created`.  `none` when it
raises. -/
def geminiRespToOpenai (freshId : Str) (created : ℤ) (resp : Json) (model : Str) :
    Option Json := do
  let fields ← resp.fields?
  let candidates ← candidatesOf fields
  let texts ← candidates.mapM candidateTexts
  let texts ← texts.flatten.mapM Json.str?
  let reasons ← candidates.mapM candidateFinish
  let finish := reasons.reduceOption.getLast?.getD (str "stop")
  let usage ← ((getTruthy (str "usageMetadata") fields).getD (.obj [])).fields?
  let pt := (Json.lookup (str "promptTokenCount") usage).getD (.int 0)
  let ct := (Json.lookup (str "candidatesTokenCount") usage).getD (.int 0)
  let total ← Json.add plus pt ct
  return chatCompletion (.str freshId) created model texts.flatten
    (.str (if finish = str "stop" then str "stop" else finish)) pt ct total

/-! ### The events -/

/-- The counts after an event. -/
def countsAfter (counts : Counts) (fields : List (Str × Json)) : Option Counts :=
  match getTruthy (str "usageMetadata") fields with
  | none => some counts
  | some u => u.fields?.map fun u =>
      ((Json.lookup (str "promptTokenCount") u).getD counts.1,
        (Json.lookup (str "candidatesTokenCount") u).getD counts.2)

/-- What the generator yields at an event, and the counts after it.  The id, the time and the
model are those of its chunks.  `none` when it raises. -/
def onEvent (chatId : Str) (created : ℤ) (model : Str) (counts : Counts) (ev : Json) :
    Option (List StreamItem × Counts) := do
  let fields ← ev.fields?
  let candidates ← candidatesOf fields
  let texts ← candidates.mapM candidateTexts
  let counts ← countsAfter counts fields
  return (texts.flatten.map fun text => .chunk (deltaChunk chatId created model text), counts)

/-- `gen` of the adapter's `chat`: what it yields for the chunks of a stream.  `none` when it
raises. -/
def gen (chatId : Str) (created : ℤ) (model : Str) (chunks : List Str) :
    Option (List StreamItem) := do
  let (items, counts) ← readStream (onEvent chatId created model) zeroCounts chunks
  let total ← Json.add plus counts.1 counts.2
  return items ++ [.chunk (finalChunk chatId created model counts.1 counts.2 total), .done]

end
end Llmxy.GeminiAdapter
