import Llmxy.Lib.Loops
import Llmxy.Providers.Gemini

/-!
# What a Gemini upstream is asked

A chat payload becomes the contents of a Gemini request, one for each message that is not a
system one, and the system texts its instruction.  The content of a message is a string, null,
or a list of blocks, and a block may have a text that is null.

## Main definitions

* `ChatPayload` — a payload whose messages have such contents.
* `messageText` — the text of a message.
* `Translated` — a request with the texts of a payload, in their order.
* `Joinable` — a content without nulls.
-/

namespace Llmxy

namespace GeminiAdapter

/-! ### Payloads -/

/-- A block: its text, if it is an object with one, is a string or null. -/
def IsBlock (block : Json) : Prop :=
  ∀ text, block.get? (str "text") = some text → text = .null ∨ ∃ s, text = .str s

/-- The content of a message. -/
inductive IsContent : Json → Prop
  | text (s : Str) : IsContent (.str s)
  | null : IsContent .null
  | blocks {blocks : List Json} : (∀ block ∈ blocks, IsBlock block) → IsContent (.arr blocks)

/-- `m.get("content")`. -/
def contentOf (m : List (Str × Json)) : Json := fieldOf (str "content") (.obj m)

/-- A chat payload: its messages are objects with a content. -/
structure ChatPayload where
  fields : List (Str × Json)
  messages : List (List (Str × Json))
  held : Json.lookup (str "messages") fields = some (.arr (messages.map .obj))
  content : ∀ m ∈ messages, IsContent (contentOf m)

/-! ### The request that is meant -/

/-- The text of a block. -/
def blockText (block : Json) : Str := ((block.get? (str "text")).bind Json.str?).getD []

/-- The text of a content. -/
def messageText : Json → Str
  | .str s => s
  | .arr blocks => (blocks.map blockText).flatten
  | _ => []

abbrev IsSystem (m : List (Str × Json)) : Prop :=
  Json.lookup (str "role") m = some (.str (str "system"))

/-- `{"parts": [{"text": text}]}`. -/
def partsOf (text : Str) : List (Str × Json) :=
  [(str "parts", .arr [.obj [(str "text", .str text)]])]

/-- The entry of the contents for a message with a text. -/
def turnOf (m : List (Str × Json)) (text : Str) : Json :=
  .obj ((str "role", .str (if Json.lookup (str "role") m = some (.str (str "user")) then str "user"
    else str "model")) :: partsOf text)

/-- The texts of the system messages. -/
def ChatPayload.systemTexts (p : ChatPayload) : List Str :=
  (p.messages.filter fun m => IsSystem m).map fun m => messageText (contentOf m)

/-- **All text is kept**: a content for each message that is not a system one, and the system
texts as the instruction. -/
structure Translated (p : ChatPayload) (body : Json) : Prop where
  contents : body.get? (str "contents") =
    some (.arr ((p.messages.filter fun m => ¬ IsSystem m).map fun m =>
      turnOf m (messageText (contentOf m))))
  systemInstruction : body.get? (str "systemInstruction") =
    if p.systemTexts = [] then none
    else some (.obj (partsOf (join (str "\n\n") p.systemTexts)))

/-! ### Contents without nulls -/

/-- A content that is not null and has no block with a null for its text. -/
def Joinable (content : Json) : Prop :=
  content ≠ .null ∧
    ∀ blocks, content = .arr blocks → ∀ block ∈ blocks, block.get? (str "text") ≠ some .null

theorem pieceTextOf_eq {block : Json} (h : IsBlock block)
    (hnull : block.get? (str "text") ≠ some .null) :
    pieceTextOf block = some (blockText block) := by
  cases block with
  | obj fields =>
      rw [pieceTextOf, blockText, Json.get?_obj]
      cases hheld : Json.lookup (str "text") fields with
      | none => rfl
      | some text =>
          obtain rfl | ⟨s, rfl⟩ := h text hheld
          · exact absurd hheld hnull
          · rfl
  | _ => rfl

theorem pieceTextOf_null {block : Json} (hnull : block.get? (str "text") = some .null) :
    pieceTextOf block = none := by
  obtain ⟨fields, rfl⟩ := Json.eq_obj_of_get? hnull
  rw [Json.get?_obj] at hnull
  rw [pieceTextOf, hnull]
  rfl

/-- A content without nulls has its text. -/
theorem contentTextOf_eq {content : Json} (h : IsContent content) (hjoin : Joinable content) :
    contentTextOf content = some (messageText content) := by
  cases h with
  | text s => rfl
  | null => exact absurd rfl hjoin.1
  | @blocks blocks h =>
      have htexts : blocks.mapM pieceTextOf = some (blocks.map blockText) :=
        mapM_eq_some_map fun block hblock =>
          pieceTextOf_eq (h block hblock) (hjoin.2 blocks rfl block hblock)
      show ((blocks.mapM pieceTextOf).bind fun texts => some texts.flatten) = _
      rw [htexts]
      rfl

/-- Only a content without nulls has one. -/
theorem joinable_of_contentTextOf {content : Json} (h : (contentTextOf content).isSome) :
    Joinable content := by
  refine ⟨fun hnull => ?_, fun blocks hblocks block hblock hnull => ?_⟩
  · rw [hnull] at h
    cases h
  · have htexts : (blocks.mapM pieceTextOf).isSome := by
      rw [hblocks] at h
      exact Option.isSome_of_isSome_bind (f := fun texts => some texts.flatten) h
    have htext := isSome_mapM_iff.mp htexts block hblock
    rw [pieceTextOf_null hnull] at htext
    cases htext

/-! ### The translation -/

/-- What a message with a text adds to the system texts and to the contents. -/
def addedBy (m : List (Str × Json)) (text : Str) : List Str × List Json :=
  if IsSystem m then ([text], []) else ([], [turnOf m text])

theorem openaiMessageToGemini_eq (m : List (Str × Json)) :
    openaiMessageToGemini (.obj m) = (contentTextOf (contentOf m)).map (addedBy m) := by
  have hrole : ∀ role, (Json.lookup (str "role") m).getD .null = .str role ↔
      Json.lookup (str "role") m = some (.str role) := by
    intro role
    cases Json.lookup (str "role") m with
    | none => exact iff_of_false nofun nofun
    | some held => exact Option.some_inj.symm
  show ((contentTextOf (contentOf m)).bind fun content => some (if
      (Json.lookup (str "role") m).getD .null = .str (str "system") then ([content], [])
    else ([], [Json.obj ((str "role", .str (if (Json.lookup (str "role") m).getD .null =
      .str (str "user") then str "user" else str "model")) :: partsOf content)]))) = _
  simp only [hrole]
  cases contentTextOf (contentOf m) <;> rfl

/-- What the messages add up to. -/
theorem flatMap_addedBy (p : ChatPayload) :
    let added := p.messages.map fun m => addedBy m (messageText (contentOf m))
    added.flatMap Prod.fst = p.systemTexts ∧
      added.flatMap Prod.snd = (p.messages.filter fun m => ¬ IsSystem m).map fun m =>
        turnOf m (messageText (contentOf m)) := by
  simp only [List.flatMap_map]
  constructor
  · refine (List.flatMap_congr fun m _ => ?_).trans (flatMap_ite IsSystem _ p.messages)
    exact apply_ite Prod.fst _ _ _
  · refine (List.flatMap_congr fun m _ => ?_).trans
      (flatMap_ite (fun m => ¬ IsSystem m) _ p.messages)
    rw [addedBy, apply_ite Prod.snd, ite_not]

/-- **Translation is total and keeps all text** exactly for the payloads without nulls in their
contents. -/
theorem toGemini_translated_iff (p : ChatPayload) :
    (∃ body, toGemini (.obj p.fields) = some body ∧ Translated p body) ↔
      ∀ m ∈ p.messages, Joinable (contentOf m) := by
  have hvisited : ((fieldOf (str "messages") (.obj p.fields)).orElse (.arr [])).iter? =
      some (p.messages.map .obj) := by
    rw [fieldOf, p.held, Option.getD_some]
    cases p.messages <;> rfl
  rw [toGemini, hvisited]
  simp only [Option.bind_eq_bind, Option.bind_some]
  constructor
  · rintro ⟨body, hbody, -⟩ m hm
    obtain ⟨parts, hparts, -⟩ := Option.bind_eq_some_iff.mp hbody
    have hmessage := isSome_mapM_iff.mp (Option.isSome_of_eq_some hparts) (Json.obj m)
      (List.mem_map_of_mem hm)
    rw [openaiMessageToGemini_eq, Option.isSome_map] at hmessage
    exact joinable_of_contentTextOf hmessage
  · intro hjoin
    have hparts : (p.messages.map Json.obj).mapM openaiMessageToGemini =
        some (p.messages.map fun m => addedBy m (messageText (contentOf m))) := by
      rw [List.mapM_map]
      refine mapM_eq_some_map fun m hm => ?_
      rw [Function.comp_apply, openaiMessageToGemini_eq,
        contentTextOf_eq (p.content m hm) (hjoin m hm), Option.map_some]
    obtain ⟨hsystem, hturns⟩ := flatMap_addedBy p
    rw [hparts, Option.bind_some, hsystem, hturns]
    refine ⟨_, rfl, rfl, ?_⟩
    have hcontents : str "contents" ≠ str "systemInstruction" := by decide
    have hconfig : str "generationConfig" ≠ str "systemInstruction" := by decide
    rw [Json.get?_obj, Json.lookup_cons, if_neg hcontents, Json.lookup_append, lookup_unless,
      lookup_unless, if_pos rfl, if_neg hconfig, Option.or_none]
    simp only [List.isEmpty_iff]
    rfl

/-! ### A tool call -/

/-- A payload whose history has a tool call. -/
def toolCallPayload : ChatPayload where
  fields := [(str "messages", .arr [.obj [(str "role", .str (str "assistant")),
    (str "content", .null)]])]
  messages := [[(str "role", .str (str "assistant")), (str "content", .null)]]
  held := rfl
  content m hm := by
    rw [List.mem_singleton.mp hm]
    exact .null

/-- The null of a message with a tool call is iterated over. -/
theorem toGemini_null_content :
    ¬ ∃ body, toGemini (.obj toolCallPayload.fields) = some body ∧
      Translated toolCallPayload body := by
  rintro ⟨body, hbody, -⟩
  have hraises : toGemini (.obj toolCallPayload.fields) = none := rfl
  rw [hraises] at hbody
  cases hbody

end GeminiAdapter
end Llmxy
