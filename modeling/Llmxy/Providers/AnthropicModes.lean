import Llmxy.Providers.AnthropicDetour

/-!
# Both modes of the Anthropic adapter

One generation of an Anthropic upstream, as a response and as a stream.  The adapter makes a
chat completion of the one and chunks of the other.

## Main definitions

* `BlockEvent`, `AnthropicGeneration` — a generation, its `response` and its `events`.
* `AnthropicGeneration.agree_iff` — when a client reads the same off both.
-/

namespace Llmxy

/-! ### Generations -/

/-- A number that can be printed. -/
abbrev PrintableNat := {n : ℕ // n < 10 ^ maxIntDigits}

/-- An event of the content blocks. -/
inductive BlockEvent where
  | contentBlockStart (index : PrintableNat)
  | textDelta (index : PrintableNat) (text : UnicodeText)
  | contentBlockStop (index : PrintableNat)
  | ping

namespace BlockEvent

/-- The text that the event adds. -/
def text : BlockEvent → Str
  | textDelta _ t => t.text
  | _ => []

/-- The event with a piece of text. -/
def deltaJson (index : PrintableNat) (t : Str) : Json :=
  .obj [(str "type", .str (str "content_block_delta")), (str "index", .int index.1),
    (str "delta", .obj [(str "type", .str (str "text_delta")), (str "text", .str t)])]

def json : BlockEvent → Json
  | contentBlockStart index =>
      .obj [(str "type", .str (str "content_block_start")), (str "index", .int index.1),
        (str "content_block", textBlock (.str []))]
  | textDelta index t => deltaJson index t.text
  | contentBlockStop index =>
      .obj [(str "type", .str (str "content_block_stop")), (str "index", .int index.1)]
  | ping => .obj [(str "type", .str (str "ping"))]

def name : BlockEvent → Str
  | contentBlockStart _ => str "content_block_start"
  | textDelta _ _ => str "content_block_delta"
  | contentBlockStop _ => str "content_block_stop"
  | ping => str "ping"

def event (e : BlockEvent) : ServerEvent := ⟨some e.name, e.json⟩

end BlockEvent

/-- A completed generation. -/
structure AnthropicGeneration where
  id : Label
  model : Label
  /-- The texts of the response. -/
  texts : List UnicodeText
  /-- The same text in a stream. -/
  blocks : List BlockEvent
  text_blocks : blocks.flatMap BlockEvent.text = texts.flatMap UnicodeText.text
  stopReason : Option UnicodeText
  stopSequence : Option UnicodeText
  stopSequence_eq_none : stopReason.map UnicodeText.text ≠ some (str "stop_sequence") →
    stopSequence = none
  usage : TokenUsage
  /-- The output tokens at the start of a stream. -/
  startTokens : PrintableNat

/-- A text or `null`. -/
def textOrNull (t : Option UnicodeText) : Json := (t.map fun t => .str t.text).getD .null

namespace AnthropicGeneration
variable (g : AnthropicGeneration)

/-- A message of the upstream. -/
def message (content : List Json) (stopReason stopSequence : Json) (outputTokens : ℤ) : Json :=
  .obj [(str "id", .str g.id.text), (str "type", .str (str "message")),
    (str "role", .str (str "assistant")), (str "model", .str g.model.text),
    (str "content", .arr content), (str "stop_reason", stopReason),
    (str "stop_sequence", stopSequence),
    (str "usage", .obj [(str "input_tokens", .int g.usage.prompt),
      (str "output_tokens", .int outputTokens)])]

/-- The generation as one response. -/
def response : Json :=
  g.message (g.texts.map fun t => textBlock (.str t.text)) (textOrNull g.stopReason)
    (textOrNull g.stopSequence) g.usage.completion

def messageStart : ServerEvent :=
  ⟨some (str "message_start"), .obj [(str "type", .str (str "message_start")),
    (str "message", g.message [] .null .null g.startTokens.1)]⟩

def messageDelta : ServerEvent :=
  ⟨some (str "message_delta"), .obj [(str "type", .str (str "message_delta")),
    (str "delta", .obj [(str "stop_reason", textOrNull g.stopReason),
      (str "stop_sequence", textOrNull g.stopSequence)]),
    (str "usage", .obj [(str "output_tokens", .int g.usage.completion)])]⟩

def messageStop : ServerEvent :=
  ⟨some (str "message_stop"), .obj [(str "type", .str (str "message_stop"))]⟩

/-- The generation as a stream. -/
def events : List ServerEvent :=
  g.messageStart :: (g.blocks.map BlockEvent.event ++ [g.messageDelta, messageStop])

/-- The stop reason is missing, empty or `stop`. -/
def StopsPlainly : Prop := ∀ r ∈ g.stopReason, r.text = [] ∨ r.text = str "stop"

end AnthropicGeneration

/-! ### The response -/

namespace AnthropicGeneration
open AnthropicAdapter
variable {plus : Json → Json → Option Json} (g : AnthropicGeneration)

/-- The finish reason of the chat completion. -/
def finishReason : Json := (textOrNull g.stopReason).orElse (.str (str "stop"))

theorem bodyOutput_response (freshId : Str) (created : ℤ) (model : Str) :
    ∃ v, anthropicRespToOpenai plus freshId created g.response model = some v ∧
      bodyOutput v = ⟨g.texts.flatMap UnicodeText.text, g.finishReason,
        .int g.usage.prompt, .int g.usage.completion⟩ := by
  have hblocks : ∀ block ∈ g.texts.map fun t => textBlock (.str t.text), IsTextBlock block := by
    intro block hblock
    obtain ⟨t, -, rfl⟩ := List.mem_map.mp hblock
    exact ⟨rfl, rfl⟩
  have htext : textOfBlocks (g.texts.map fun t => textBlock (.str t.text)) =
      g.texts.flatMap UnicodeText.text := by
    rw [textOfBlocks, List.filterMap_map, List.flatMap_def]
    exact congrArg List.flatten (congrFun (List.filterMap_eq_map (f := UnicodeText.text)) g.texts)
  have hreason : ∀ v : Json, ((some v).filter Json.truthy).getD (.str (str "stop")) =
      v.orElse (.str (str "stop")) := fun v => by
    rw [Json.orElse, Option.filter_some]
    cases v.truthy <;> rfl
  rw [response, message]
  simp only [anthropicRespToOpenai, Json.fields?, Option.bind_eq_bind, Option.bind_some]
  rw [responseText_eq rfl hblocks, htext]
  refine ⟨_, rfl, ?_⟩
  exact congrArg (fun reason => ChatOutput.mk _ reason _ _) (hreason _)

/-- Only a stop reason that is missing, empty or `stop` becomes the finish reason `stop`. -/
theorem finishReason_eq_iff : g.finishReason = .str (str "stop") ↔ g.StopsPlainly := by
  rw [finishReason, StopsPlainly, textOrNull]
  cases g.stopReason with
  | none => exact ⟨fun _ => nofun, fun _ => rfl⟩
  | some r =>
      have hone : (∀ r' ∈ some r, r'.text = [] ∨ r'.text = str "stop") ↔
          r.text = [] ∨ r.text = str "stop" := by simp
      rw [hone, Option.map_some, Option.getD_some, Json.orElse]
      by_cases hr : r.text = []
      · simp [Json.truthy, hr]
      · simp [Json.truthy, hr]

theorem finishReason_ne_null : g.finishReason ≠ .null := by
  rw [finishReason, textOrNull, Json.orElse]
  cases g.stopReason with
  | none => exact nofun
  | some r =>
      rw [Option.map_some, Option.getD_some]
      split_ifs <;> exact nofun

end AnthropicGeneration

/-! ### The events -/

theorem clean_printable {own : Str} (n : PrintableNat) : Clean own (.int n.1) :=
  clean_int (by rw [Int.natAbs_natCast]; exact n.2)

namespace BlockEvent
variable {style : DumpStyle}

theorem clean_deltaJson (index : PrintableNat) {t : Str} (ht : IsText t) :
    Clean t (deltaJson index t) := by
  have hevent : GoodKeys [str "type", str "index", str "delta"] := by decide
  have hdelta : GoodKeys [str "type", str "text"] := by decide
  exact clean_obj hevent ⟨clean_ascii (by decide), clean_printable index,
    clean_obj hdelta ⟨clean_ascii (by decide), clean_own ht⟩⟩

theorem clean_json (e : BlockEvent) : Clean e.text e.json := by
  have hblock : GoodKeys [str "type", str "index", str "content_block"] := by decide
  have hstop : GoodKeys [str "type", str "index"] := by decide
  cases e with
  | contentBlockStart index =>
      exact clean_obj hblock ⟨clean_ascii (by decide), clean_printable index,
        clean_obj (by decide) ⟨clean_ascii (by decide), clean_ascii (by decide)⟩⟩
  | textDelta index t => exact clean_deltaJson index t.isText
  | contentBlockStop index =>
      exact clean_obj hstop ⟨clean_ascii (by decide), clean_printable index⟩
  | ping => exact clean_obj (by decide) (clean_ascii (by decide))

theorem name_ascii (e : BlockEvent) : ∀ c ∈ e.name, 32 ≤ c ∧ c < 128 := by
  cases e <;> dsimp only [name] <;> decide

theorem fit_event (e : BlockEvent) : e.event.Fit where
  name name hname := by
    obtain rfl := Option.some.inj hname
    exact e.name_ascii
  data := by cases e <;> exact ⟨_, _, rfl⟩
  clean := ⟨_, e.clean_json⟩

/-- The text of a delta is followed by braces only. -/
theorem textSlot (index : PrintableNat) : TextSlot style (deltaJson index) where
  hole := by
    have hdelta := (@hole_str style).obj (str "text") [(str "type", .str (str "text_delta"))] []
    have hevent := hdelta.obj (str "delta") [(str "type", .str (str "content_block_delta")),
      (str "index", .int index.1)] []
    obtain ⟨t, ht⟩ := @beforeField_head style (str "delta")
      [(str "type", .str (str "content_block_delta")), (str "index", .int index.1)]
    rw [ht, List.cons_append, ← List.append_assoc] at hevent
    refine ⟨_, [125, 125], [125], hevent, rfl, fun k v w hparse => ?_⟩
    cases hparse
  clean := fun t ht => clean_deltaJson index ht

end BlockEvent

namespace AnthropicGeneration
variable (g : AnthropicGeneration)

theorem clean_message (stopReason stopSequence : Json) (outputTokens : PrintableNat)
    (hreason : Clean [] stopReason) (hsequence : Clean [] stopSequence) :
    Clean [] (g.message [] stopReason stopSequence outputTokens.1) := by
  have hmessage : GoodKeys [str "id", str "type", str "role", str "model", str "content",
    str "stop_reason", str "stop_sequence", str "usage"] := by decide
  have husage : GoodKeys [str "input_tokens", str "output_tokens"] := by decide
  have hprompt : Clean [] (.int g.usage.prompt) := clean_int (by
    have := g.usage.printable
    rw [Int.natAbs_natCast]
    omega)
  exact clean_obj hmessage ⟨clean_ascii g.id.ascii, clean_ascii (by decide),
    clean_ascii (by decide), clean_ascii g.model.ascii, clean_arr trivial, hreason, hsequence,
    clean_obj husage ⟨hprompt, clean_printable outputTokens⟩⟩

theorem clean_messageStart : Clean [] g.messageStart.data := by
  have hkeys : GoodKeys [str "type", str "message"] := by decide
  exact clean_obj hkeys ⟨clean_ascii (by decide), g.clean_message _ _ _ clean_null clean_null⟩

theorem fit_messageStart : g.messageStart.Fit where
  name name hname := by
    obtain rfl := Option.some.inj hname
    decide
  data := ⟨_, _, rfl⟩
  clean := ⟨[], g.clean_messageStart⟩

theorem clean_messageStop : Clean [] messageStop.data :=
  clean_obj (by decide) (clean_ascii (by decide))

theorem fit_messageStop : messageStop.Fit where
  name name hname := by
    obtain rfl := Option.some.inj hname
    decide
  data := ⟨_, _, rfl⟩
  clean := ⟨[], clean_messageStop⟩

/-- The end of a message that stops plainly is ASCII. -/
theorem clean_messageDelta (h : g.StopsPlainly) : Clean [] g.messageDelta.data := by
  have hevent : GoodKeys [str "type", str "delta", str "usage"] := by decide
  have hdelta : GoodKeys [str "stop_reason", str "stop_sequence"] := by decide
  have husage : GoodKeys [str "output_tokens"] := by decide
  have hreason : Clean [] (textOrNull g.stopReason) := by
    rw [textOrNull]
    cases hr : g.stopReason with
    | none => exact clean_null
    | some r =>
        rcases h r hr with hr | hr
        · exact clean_ascii (by rw [hr]; decide)
        · exact clean_ascii (by rw [hr]; decide)
  have hnone : g.stopSequence = none := g.stopSequence_eq_none fun heq => by
    obtain ⟨r, hr, htext⟩ := Option.map_eq_some_iff.mp heq
    rcases h r hr with hr | hr
    · exact absurd (hr.symm.trans htext) (by decide)
    · exact absurd (hr.symm.trans htext) (by decide)
  have hcompletion : Clean [] (.int g.usage.completion) := clean_int (by
    have := g.usage.printable
    rw [Int.natAbs_natCast]
    omega)
  exact clean_obj hevent ⟨clean_ascii (by decide),
    clean_obj hdelta ⟨hreason, by rw [hnone]; exact clean_null⟩, clean_obj husage hcompletion⟩

theorem fit_messageDelta (h : g.StopsPlainly) : g.messageDelta.Fit where
  name name hname := by
    obtain rfl := Option.some.inj hname
    decide
  data := ⟨_, _, rfl⟩
  clean := ⟨[], g.clean_messageDelta h⟩

end AnthropicGeneration

/-! ### The stream -/

section
open AnthropicAdapter
variable {plus : Json → Json → Option Json} {chatId : Str} {created : ℤ} {model : Str}
  {style : DumpStyle} {counts : Counts}

theorem AnthropicAdapter.isReader_onEvent : IsReader (onEvent plus chatId created model) where
  empty _ := rfl
  other s v hv := by rw [onEvent, hv]; rfl

/-- The generator yields texts, the end of a stream, and nothing else. -/
theorem AnthropicAdapter.isWritten_onEvent {ev : Json} {r : List StreamItem × Counts}
    (hr : onEvent plus chatId created model counts ev = some r) :
    ∀ item ∈ r.1, item.IsWritten := by
  simp only [onEvent, Option.bind_eq_bind] at hr
  obtain ⟨fields, -, hr⟩ := Option.bind_eq_some_iff.mp hr
  split_ifs at hr
  · obtain ⟨message, -, hr⟩ := Option.bind_eq_some_iff.mp hr
    obtain ⟨u, -, hr⟩ := Option.bind_eq_some_iff.mp hr
    obtain rfl := Option.some.inj hr
    exact List.forall_mem_nil _
  · obtain ⟨delta, -, hr⟩ := Option.bind_eq_some_iff.mp hr
    split_ifs at hr
    · obtain rfl := Option.some.inj hr
      exact List.forall_mem_singleton.mpr (.delta ..)
    · obtain rfl := Option.some.inj hr
      exact List.forall_mem_nil _
  · obtain ⟨u, -, hr⟩ := Option.bind_eq_some_iff.mp hr
    obtain rfl := Option.some.inj hr
    exact List.forall_mem_nil _
  · obtain ⟨total, -, hr⟩ := Option.bind_eq_some_iff.mp hr
    obtain rfl := Option.some.inj hr
    exact List.forall_mem_cons.mpr ⟨.final .., List.forall_mem_singleton.mpr .done⟩
  · obtain rfl := Option.some.inj hr
    exact List.forall_mem_nil _

namespace BlockEvent

/-- No character of the text ends its line. -/
def Whole (style : DumpStyle) (e : BlockEvent) : Prop :=
  style.ensureAscii = true ∨ ∀ c ∈ e.text, ¬ IsUnicodeBreak c

instance : DecidablePred (Whole style) := fun e => by unfold Whole; infer_instance

/-- A delta yields its text, and no other event of a block yields anything. -/
theorem onEvent_json (e : BlockEvent) : ∃ items,
    onEvent plus chatId created model counts e.json = some (items, counts) ∧
      items.flatMap StreamItem.text = e.text ∧
      ∀ item ∈ items, ∃ t, item = .chunk (deltaChunk chatId created model (.str t)) := by
  cases e with
  | textDelta index t =>
      exact ⟨_, rfl, List.append_nil _, List.forall_mem_singleton.mpr ⟨t.text, rfl⟩⟩
  | _ => exact ⟨[], rfl, rfl, List.forall_mem_nil _⟩

variable {e : BlockEvent}

theorem readPart_event (h : e.Whole style) :
    readPart (onEvent plus chatId created model) counts (e.event.block style) =
      onEvent plus chatId created model counts e.json :=
  readPart_whole e.fit_event (not_break_of_clean e.clean_json h)

theorem readPart_lost (h : ¬ e.Whole style) {r : List StreamItem × Counts}
    (hr : readPart (onEvent plus chatId created model) counts (e.event.block style) = some r) :
    r = ([], counts) := by
  rw [Whole, not_or, Bool.not_eq_true] at h
  obtain ⟨hraw, hbreak⟩ := h
  push Not at hbreak
  cases e with
  | textDelta index t =>
      exact readPart_broken isReader_onEvent (textSlot index) hraw (fit_event _) rfl t.isText
        hbreak hr
  | _ =>
      obtain ⟨c, hc, -⟩ := hbreak
      cases hc

/-- An event of a block leaves the counts alone, whether it is read or lost. -/
theorem readPart_spec {r : List StreamItem × Counts}
    (hr : readPart (onEvent plus chatId created model) counts (e.event.block style) = some r) :
    r.2 = counts ∧ ∀ item ∈ r.1, ∃ t, item = .chunk (deltaChunk chatId created model (.str t)) := by
  by_cases h : e.Whole style
  · rw [readPart_event h] at hr
    obtain ⟨items, hitems, -, hdeltas⟩ := @onEvent_json plus chatId created model counts e
    rw [hitems] at hr
    obtain rfl := Option.some.inj hr
    exact ⟨rfl, hdeltas⟩
  · obtain rfl := readPart_lost h hr
    exact ⟨rfl, List.forall_mem_nil _⟩

end BlockEvent

namespace AnthropicGeneration
variable (g : AnthropicGeneration)

theorem finishReason_gen {chunks : List Str} {items : List StreamItem}
    (h : gen plus chatId created model chunks = some items) :
    (streamOutput items).finishReason = .null ∨
      (streamOutput items).finishReason = .str (str "stop") := by
  obtain ⟨r, hr, rfl⟩ := Option.map_eq_some_iff.mp h
  exact finishReason_streamOutput
    (readStream_forall (fun _ _ _ hev => isWritten_onEvent hev) hr)

/-- The counts that a stream starts with. -/
def startCounts : Counts := (.int g.usage.prompt, .int 0)

/-- The last items of a stream. -/
def lastItems (chatId : Str) (created : ℤ) (model : Str) : List StreamItem :=
  [.chunk (finalChunk chatId created model (.int g.usage.prompt) (.int g.usage.completion)
    (.int (g.usage.prompt + g.usage.completion))), .done]

/-- **What is yielded** for a message that stops plainly: what is read off its blocks, and the
end of the stream. -/
theorem gen_eq (h : g.StopsPlainly) (d : Chunked (eventStream style g.events)) :
    gen plus chatId created model d.chunks =
      (collect (fun counts (e : BlockEvent) =>
        readPart (onEvent plus chatId created model) counts (e.event.block style))
          g.startCounts g.blocks).map fun r => r.1 ++ g.lastItems chatId created model := by
  have hfit : ∀ e ∈ g.events, e.Fit := by
    rw [events, List.forall_mem_cons, List.forall_mem_append, List.forall_mem_map]
    refine ⟨g.fit_messageStart, fun e _ => e.fit_event, ?_⟩
    exact List.forall_mem_cons.mpr
      ⟨g.fit_messageDelta h, List.forall_mem_singleton.mpr fit_messageStop⟩
  have hstart : readPart (onEvent plus chatId created model) zeroCounts
      (g.messageStart.block style) = some ([], g.startCounts) :=
    readPart_ascii g.fit_messageStart g.clean_messageStart
  have hdelta : readPart (onEvent plus chatId created model) g.startCounts
      (g.messageDelta.block style) =
        some ([], .int g.usage.prompt, .int g.usage.completion) :=
    readPart_ascii (g.fit_messageDelta h) (g.clean_messageDelta h)
  have hstop : readPart (onEvent plus chatId created model)
      (.int g.usage.prompt, .int g.usage.completion) (messageStop.block style) =
        some (g.lastItems chatId created model, .int g.usage.prompt, .int g.usage.completion) :=
    readPart_ascii fit_messageStop clean_messageStop
  rw [gen, readStream_events hfit d, events, collect, hstart, Option.bind_eq_bind,
    Option.bind_some, collect_append, collect_map]
  cases hr : collect (fun counts (e : BlockEvent) =>
      readPart (onEvent plus chatId created model) counts (e.event.block style))
        g.startCounts g.blocks with
  | none => rfl
  | some r =>
      have hcounts := collect_same (fun e r hr => (BlockEvent.readPart_spec hr).1) hr
      simp only [Option.bind_some, hcounts, collect, hdelta, hstop, Option.bind_eq_bind,
        Option.map_some, List.nil_append, List.append_nil]

/-- The whole text comes out of the blocks only if no event is lost. -/
theorem texts_whole_iff : (∃ r, collect (fun counts (e : BlockEvent) =>
      readPart (onEvent plus chatId created model) counts (e.event.block style))
        g.startCounts g.blocks = some r ∧
      r.1.flatMap StreamItem.text = g.texts.flatMap UnicodeText.text) ↔
    ∀ e ∈ g.blocks, e.Whole style := by
  rw [← g.text_blocks]
  refine collect_texts_iff (fun counts e h => ?_) (fun counts e r h hr => ?_) (fun e h hnil => ?_) _ _
  · obtain ⟨items, hitems, htext, -⟩ := @BlockEvent.onEvent_json plus chatId created model counts e
    exact ⟨_, (BlockEvent.readPart_event h).trans hitems, htext⟩
  · rw [BlockEvent.readPart_lost h hr]
  · refine h (Or.inr fun c hc => ?_)
    rw [hnil] at hc
    cases hc

/-- **The modes agree** exactly on a generation that stops plainly and of whose texts no event
is lost. -/
theorem agree_iff (d : Chunked (eventStream style g.events)) (freshId : Str) (created' : ℤ) :
    Agree (gen plus chatId created model d.chunks)
        (anthropicRespToOpenai plus freshId created' g.response model) ↔
      g.StopsPlainly ∧ ∀ e ∈ g.blocks, e.Whole style := by
  obtain ⟨v, hbody, hout⟩ := @bodyOutput_response plus g freshId created' model
  have hlast : (g.lastItems chatId created model).flatMap StreamItem.text = [] := rfl
  -- a stream never has another finish reason
  have hplain : Agree (gen plus chatId created model d.chunks)
      (anthropicRespToOpenai plus freshId created' g.response model) → g.StopsPlainly := by
    rintro ⟨items, v', hitems, hbody', hagree⟩
    obtain rfl := Option.some.inj (hbody.symm.trans hbody')
    rw [hout] at hagree
    rw [← finishReason_eq_iff]
    rcases finishReason_gen hitems with hreason | hreason
    · rw [hagree] at hreason
      exact absurd hreason g.finishReason_ne_null
    · rw [hagree] at hreason
      exact hreason
  refine ⟨fun hagree => ⟨hplain hagree, ?_⟩, fun ⟨hstop, hwhole⟩ => ?_⟩
  · obtain ⟨items, v', hitems, hbody', hagree⟩ := hagree
    obtain rfl := Option.some.inj (hbody.symm.trans hbody')
    rw [g.gen_eq (hplain ⟨items, v, hitems, hbody, hagree⟩) d] at hitems
    obtain ⟨r, hr, rfl⟩ := Option.map_eq_some_iff.mp hitems
    refine g.texts_whole_iff.mp ⟨r, hr, ?_⟩
    have htext := congrArg ChatOutput.text hagree
    rwa [text_streamOutput, List.flatMap_append, hlast, List.append_nil, hout] at htext
  · obtain ⟨r, hr, htext⟩ := (@texts_whole_iff plus chatId created model style g).mpr hwhole
    have hdeltas := collect_forall (fun counts e r hr => (BlockEvent.readPart_spec hr).2) hr
    refine ⟨_, v, by rw [g.gen_eq hstop d, hr, Option.map_some], hbody, ?_⟩
    rw [lastItems, streamOutput_final _ _ _ _ _ _ hdeltas, htext, hout,
      g.finishReason_eq_iff.mpr hstop]

end AnthropicGeneration
end
end Llmxy
