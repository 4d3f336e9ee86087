import Llmxy.Providers.AnthropicModes
import Llmxy.Providers.Gemini

/-!
# Both modes of the Gemini adapter

One generation of a Gemini upstream, as a response and as a stream.  The adapter makes a chat
completion of the one and chunks of the other.  What this has in common with the Anthropic
adapter is put together here.

## Main definitions

* `GeminiEvent`, `GeminiGeneration` — a generation, its `response` and its `events`.
* `GeminiGeneration.agree_iff` — when a client reads the same off both.
* `modes_agree_iff` — the same of both adapters.
-/

namespace Llmxy

/-! ### Generations -/

/-- A part with a text. -/
def textPart (t : Str) : Json := .obj [(str "text", .str t)]

/-- The content of a candidate, if it has any. -/
def contentField (texts : List Str) : List (Str × Json) :=
  if texts.isEmpty then []
  else [(str "content", .obj [(str "parts", .arr (texts.map textPart)),
    (str "role", .str (str "model"))])]

def finishField (finishReason : Option Label) : List (Str × Json) :=
  (finishReason.map fun r => (str "finishReason", Json.str r.text)).toList

/-- A candidate with texts. -/
def geminiCandidate (texts : List Str) (finishReason : Option Label) : Json :=
  .obj (contentField texts ++ (finishField finishReason ++ [(str "index", .int 0)]))

def usageMetadata (u : TokenUsage) : Json :=
  .obj [(str "promptTokenCount", .int u.prompt), (str "candidatesTokenCount", .int u.completion),
    (str "totalTokenCount", .int (u.prompt + u.completion : ℕ))]

def usageField (usage : Option TokenUsage) : List (Str × Json) :=
  (usage.map fun u => (str "usageMetadata", usageMetadata u)).toList

/-- A response with one candidate. -/
def geminiResponse (texts : List Str) (finishReason : Option Label) (usage : Option TokenUsage)
    (modelVersion : Label) : Json :=
  .obj ((str "candidates", .arr [geminiCandidate texts finishReason]) ::
    (usageField usage ++ [(str "modelVersion", .str modelVersion.text)]))

/-- An event of a stream. -/
structure GeminiEvent where
  piece : Option UnicodeText
  finishReason : Option Label
  usage : Option TokenUsage
  modelVersion : Label

namespace GeminiEvent
variable (e : GeminiEvent)

/-- The text that the event adds. -/
def text : Str := (e.piece.map UnicodeText.text).getD []

/-- The event with these texts. -/
def withTexts (texts : List Str) : Json :=
  geminiResponse texts e.finishReason e.usage e.modelVersion

def event : ServerEvent := ⟨none, e.withTexts (e.piece.map UnicodeText.text).toList⟩

end GeminiEvent

/-- A completed generation. -/
structure GeminiGeneration where
  modelVersion : Label
  /-- The texts of the response. -/
  texts : List UnicodeText
  /-- The pieces of a stream but the last, with the usage so far where it is sent. -/
  pieces : List (Option UnicodeText × Option TokenUsage)
  lastPiece : Option UnicodeText
  finishReason : Option Label
  usage : TokenUsage
  text_pieces : (pieces.map Prod.fst ++ [lastPiece]).reduceOption.flatMap UnicodeText.text =
    texts.flatMap UnicodeText.text

namespace GeminiGeneration
variable (g : GeminiGeneration)

/-- The generation as one response. -/
def response : Json :=
  geminiResponse (g.texts.map UnicodeText.text) g.finishReason (some g.usage) g.modelVersion

def firstEvents : List GeminiEvent :=
  g.pieces.map fun p => ⟨p.1, none, p.2, g.modelVersion⟩

def lastEvent : GeminiEvent := ⟨g.lastPiece, g.finishReason, some g.usage, g.modelVersion⟩

/-- The generation as a stream. -/
def events : List GeminiEvent := g.firstEvents ++ [g.lastEvent]

/-- The finish reason is missing, empty or `STOP` in some case. -/
def StopsPlainly : Prop := ∀ r ∈ g.finishReason, r.text = [] ∨ lower r.text = str "stop"

theorem text_events : g.events.flatMap GeminiEvent.text = g.texts.flatMap UnicodeText.text := by
  have hreduce : ∀ ps : List (Option UnicodeText),
      ps.flatMap (fun p => (p.map UnicodeText.text).getD []) =
        ps.reduceOption.flatMap UnicodeText.text := by
    intro ps
    induction ps with
    | nil => rfl
    | cons p ps ih =>
        cases p with
        | none => exact ih
        | some t => exact congrArg (t.text ++ ·) ih
  rw [← g.text_pieces, ← hreduce, events, firstEvents, List.flatMap_append, List.flatMap_append,
    List.flatMap_map, List.flatMap_map]
  rfl

end GeminiGeneration

/-! ### The response -/

section
open GeminiAdapter

theorem candidateTexts_candidate (texts : List Str) (finishReason : Option Label) :
    candidateTexts (geminiCandidate texts finishReason) = some (texts.map .str) := by
  cases texts with
  | nil => cases finishReason <;> rfl
  | cons t texts =>
      have hparts : ((t :: texts).map textPart).mapM GeminiAdapter.partText =
          some (((t :: texts).map textPart).map fun part => some (fieldOf (str "text") part)) := by
        refine mapM_eq_some_map fun part hpart => ?_
        obtain ⟨t, -, rfl⟩ := List.mem_map.mp hpart
        rfl
      have hkeep : (((t :: texts).map textPart).map fun part =>
          some (fieldOf (str "text") part)).reduceOption = (t :: texts).map .str := by
        rw [List.reduceOption, List.filterMap_map, List.filterMap_map]
        exact congrFun (List.filterMap_eq_map (f := Json.str)) _
      rw [← hkeep]
      show ((((t :: texts).map textPart).mapM GeminiAdapter.partText).bind
        fun texts => some texts.reduceOption) = _
      rw [hparts]
      rfl

/-- The finish reason in lower case, if there is one. -/
theorem candidateFinish_candidate (texts : List Str) (finishReason : Option Label) :
    candidateFinish (geminiCandidate texts finishReason) =
      some ((finishReason.filter fun r => r.text ≠ []).map fun r => lower r.text) := by
  have hget : getTruthy (str "finishReason")
      (contentField texts ++ (finishField finishReason ++ [(str "index", .int 0)])) =
        (finishReason.map fun r => Json.str r.text).filter Json.truthy := by
    cases texts <;> cases finishReason <;> rfl
  simp only [candidateFinish, geminiCandidate, Json.fields?, Option.bind_eq_bind,
    Option.bind_some, hget]
  cases finishReason with
  | none => rfl
  | some r =>
      by_cases hr : r.text = []
      · simp [Option.filter, Json.truthy, hr]
      · simp [Option.filter, Json.truthy, Json.str?, hr]

namespace GeminiGeneration
variable {plus : Json → Json → Option Json} (g : GeminiGeneration)

/-- The finish reason of the chat completion. -/
def finish : Str :=
  ((g.finishReason.filter fun r => r.text ≠ []).map fun r => lower r.text).getD (str "stop")

theorem finish_eq_iff : g.finish = str "stop" ↔ g.StopsPlainly := by
  rw [finish, StopsPlainly]
  cases g.finishReason with
  | none => exact ⟨fun _ => nofun, fun _ => rfl⟩
  | some r =>
      by_cases hr : r.text = []
      · simp [Option.filter, hr]
      · simp [Option.filter, hr]

theorem bodyOutput_response (freshId : Str) (created : ℤ) (model : Str) :
    ∃ v, geminiRespToOpenai plus freshId created g.response model = some v ∧
      bodyOutput v = ⟨g.texts.flatMap UnicodeText.text, .str g.finish,
        .int g.usage.prompt, .int g.usage.completion⟩ := by
  have htexts : ((g.texts.map UnicodeText.text).map Json.str).mapM Json.str? =
      some (g.texts.map UnicodeText.text) := by
    have hstr : ∀ v ∈ (g.texts.map UnicodeText.text).map Json.str,
        v.str? = some (v.str?.getD []) := fun v hv => by
      obtain ⟨t, -, rfl⟩ := List.mem_map.mp hv
      rfl
    rw [mapM_eq_some_map hstr, List.map_map]
    exact congrArg some (List.map_id'' (fun _ => rfl) _)
  have hcandidates : candidatesOf ((str "candidates",
      .arr [geminiCandidate (g.texts.map UnicodeText.text) g.finishReason]) ::
        (usageField (some g.usage) ++ [(str "modelVersion", .str g.modelVersion.text)])) =
      some [geminiCandidate (g.texts.map UnicodeText.text) g.finishReason] := rfl
  have hfinish : ([(g.finishReason.filter fun r => r.text ≠ []).map fun r => lower r.text] :
      List (Option Str)).reduceOption.getLast?.getD (str "stop") = g.finish := by
    rw [finish]
    cases (g.finishReason.filter fun r => r.text ≠ []).map fun r => lower r.text <;> rfl
  rw [response, geminiResponse]
  simp only [geminiRespToOpenai, Json.fields?, Option.bind_eq_bind, Option.bind_some, hcandidates,
    List.mapM_cons, List.mapM_nil, candidateTexts_candidate, candidateFinish_candidate,
    Option.pure_def, List.flatten_cons, List.flatten_nil, List.append_nil, htexts, hfinish]
  refine ⟨_, rfl, ?_⟩
  have hsame : (if g.finish = str "stop" then str "stop" else g.finish) = g.finish := by
    split_ifs with h
    · exact h.symm
    · rfl
  rw [hsame, List.flatMap_def]
  rfl

end GeminiGeneration
end

/-! ### The events -/

namespace GeminiEvent
variable {style : DumpStyle} (e : GeminiEvent)

theorem clean_usageMetadata (u : TokenUsage) (own : Str) : Clean own (usageMetadata u) := by
  have hkeys : GoodKeys [str "promptTokenCount", str "candidatesTokenCount",
    str "totalTokenCount"] := by decide
  have hbound := u.printable
  have hp : (u.prompt : ℤ).natAbs < 10 ^ maxIntDigits := by rw [Int.natAbs_natCast]; omega
  have hc : (u.completion : ℤ).natAbs < 10 ^ maxIntDigits := by rw [Int.natAbs_natCast]; omega
  exact clean_obj hkeys ⟨clean_int hp, clean_int hc, clean_int hbound⟩

variable {own : Str} {texts : List Str}

theorem clean_textPart {t : Str} (h : Clean own (.str t)) : Clean own (textPart t) := by
  have hkeys : GoodKeys [str "text"] := by decide
  exact clean_obj hkeys h

theorem clean_content (h : ∀ t ∈ texts, Clean own (.str t)) :
    Clean own (.obj [(str "parts", .arr (texts.map textPart)),
      (str "role", .str (str "model"))]) := by
  have hkeys : GoodKeys [str "parts", str "role"] := by decide
  have hparts : (texts.map textPart).Forall (Clean own) := by
    rw [List.forall_iff_forall_mem, List.forall_mem_map]
    exact fun t ht => clean_textPart (h t ht)
  exact clean_obj hkeys ⟨clean_arr hparts, clean_ascii (by decide)⟩

theorem clean_candidate (h : ∀ t ∈ texts, Clean own (.str t)) (finishReason : Option Label) :
    Clean own (geminiCandidate texts finishReason) := by
  have hindex : (0 : ℤ).natAbs < 10 ^ maxIntDigits := natAbs_small (by decide)
  cases texts with
  | nil =>
      cases finishReason with
      | none => exact clean_obj (by decide) (clean_int hindex)
      | some r =>
          have hkeys : GoodKeys [str "finishReason", str "index"] := by decide
          exact clean_obj hkeys ⟨clean_ascii r.ascii, clean_int hindex⟩
  | cons t texts =>
      cases finishReason with
      | none =>
          have hkeys : GoodKeys [str "content", str "index"] := by decide
          exact clean_obj hkeys ⟨clean_content h, clean_int hindex⟩
      | some r =>
          have hkeys : GoodKeys [str "content", str "finishReason", str "index"] := by decide
          exact clean_obj hkeys ⟨clean_content h, clean_ascii r.ascii, clean_int hindex⟩

theorem clean_withTexts (h : ∀ t ∈ texts, Clean own (.str t)) : Clean own (e.withTexts texts) := by
  have hcandidates : Clean own (.arr [geminiCandidate texts e.finishReason]) :=
    clean_arr (clean_candidate h e.finishReason)
  rw [withTexts, geminiResponse]
  cases e.usage with
  | none =>
      have hkeys : GoodKeys [str "candidates", str "modelVersion"] := by decide
      exact clean_obj hkeys ⟨hcandidates, clean_ascii e.modelVersion.ascii⟩
  | some u =>
      have hkeys : GoodKeys [str "candidates", str "usageMetadata", str "modelVersion"] := by decide
      exact clean_obj hkeys
        ⟨hcandidates, clean_usageMetadata u own, clean_ascii e.modelVersion.ascii⟩

theorem clean_event : Clean e.text e.event.data := by
  refine e.clean_withTexts fun t ht => ?_
  obtain ⟨piece, hpiece, rfl⟩ := Option.map_eq_some_iff.mp (Option.mem_toList.mp ht)
  rw [text, hpiece]
  exact clean_own piece.isText

theorem fit_event : e.event.Fit where
  name := nofun
  data := ⟨_, _, rfl⟩
  clean := ⟨_, e.clean_event⟩

theorem quote_role : ∃ rest, quote style (str "role") = 34 :: 114 :: rest := by
  have hr : escapeChar style 114 = [114] := by simp [escapeChar]
  have hcons : escape style (str "role") = escapeChar style 114 ++ escape style (str "ole") := rfl
  exact ⟨_, by rw [quote, hcons, hr]; rfl⟩

/-- The text of a piece is followed by the role. -/
theorem textSlot : TextSlot style fun t => e.withTexts [t] where
  hole := by
    have hpart := (@hole_str style).obj (str "text") [] []
    have hcontent := (hpart.arr [] []).obj (str "parts") [] [(str "role", .str (str "model"))]
    have hcandidate := hcontent.obj (str "content") []
      (finishField e.finishReason ++ [(str "index", .int 0)])
    have hevent := (hcandidate.arr [] []).obj (str "candidates") []
      (usageField e.usage ++ [(str "modelVersion", .str e.modelVersion.text)])
    obtain ⟨role, hrole⟩ := @quote_role style
    obtain ⟨t, ht⟩ := @beforeField_head style (str "candidates") []
    obtain ⟨before, hbefore⟩ : ∃ before, beforeField style (str "candidates") [] ++
        (beforeElement style [] ++ (beforeField style (str "content") [] ++
          (beforeField style (str "parts") [] ++ (beforeElement style [] ++
            (beforeField style (str "text") [] ++ [34]))))) = 123 :: (before ++ [34]) :=
      ⟨t ++ (beforeElement style [] ++ (beforeField style (str "content") [] ++
        (beforeField style (str "parts") [] ++ (beforeElement style [] ++
          beforeField style (str "text") [])))), by simp [ht]⟩
    obtain ⟨rest, m, hafter, hm⟩ : ∃ rest m, [34] ++ (dumpsMoreFields style [] ++ [125]) ++
        (dumpsMore style [] ++ [93]) ++ (dumpsMoreFields style [(str "role", .str (str "model"))] ++
          [125]) ++ (dumpsMoreFields style (finishField e.finishReason ++ [(str "index", .int 0)]) ++
            [125]) ++ (dumpsMore style [] ++ [93]) ++ (dumpsMoreFields style (usageField e.usage ++
              [(str "modelVersion", .str e.modelVersion.text)]) ++ [125]) =
        34 :: ((125 :: 93 :: 44 :: List.replicate style.itemGap 32) ++ 34 :: 114 :: rest) ∧
          (125 :: 93 :: 44 :: List.replicate style.itemGap 32) ++ 34 :: 114 :: rest = m ++ [125] := by
      refine ⟨role ++ (style.keySep ++ (dumps style (.str (str "model")) ++ ([125] ++
        (dumpsMoreFields style (finishField e.finishReason ++ [(str "index", .int 0)]) ++ ([125] ++
          ([93] ++ (dumpsMoreFields style (usageField e.usage ++
            [(str "modelVersion", .str e.modelVersion.text)]) ++ [125]))))))),
        125 :: 93 :: 44 :: List.replicate style.itemGap 32 ++ 34 :: 114 :: (role ++ (style.keySep ++
          (dumps style (.str (str "model")) ++ ([125] ++ (dumpsMoreFields style
            (finishField e.finishReason ++ [(str "index", .int 0)]) ++ ([125] ++ ([93] ++
              dumpsMoreFields style (usageField e.usage ++
                [(str "modelVersion", .str e.modelVersion.text)])))))))), ?_, ?_⟩
      · simp [dumpsMore, dumpsMoreFields, hrole, DumpStyle.itemSep]
      · simp
    rw [hbefore, hafter] at hevent
    refine ⟨before, _, m, hevent, hm, noKey_of_next (fun c hc => ?_) (by decide) (by decide)⟩
    simp only [List.mem_cons, List.mem_replicate] at hc
    omega
  clean := fun t ht => e.clean_withTexts fun t' ht' => by
    rw [List.mem_singleton.mp ht']
    exact clean_own ht

end GeminiEvent

/-! ### The stream -/

section
open GeminiAdapter
variable {plus : Json → Json → Option Json} {chatId : Str} {created : ℤ} {model : Str}
  {style : DumpStyle} {counts : Counts}

theorem GeminiAdapter.isReader_onEvent : IsReader (onEvent chatId created model) where
  empty _ := rfl
  other s v hv := by rw [onEvent, hv]; rfl

/-- The generator yields texts only, before its end. -/
theorem GeminiAdapter.isWritten_onEvent {ev : Json} {r : List StreamItem × Counts}
    (hr : onEvent chatId created model counts ev = some r) : ∀ item ∈ r.1, item.IsWritten := by
  simp only [onEvent, Option.bind_eq_bind] at hr
  obtain ⟨fields, -, hr⟩ := Option.bind_eq_some_iff.mp hr
  obtain ⟨candidates, -, hr⟩ := Option.bind_eq_some_iff.mp hr
  obtain ⟨texts, -, hr⟩ := Option.bind_eq_some_iff.mp hr
  obtain ⟨counts', -, hr⟩ := Option.bind_eq_some_iff.mp hr
  obtain rfl := Option.some.inj hr
  intro item hitem
  obtain ⟨text, -, rfl⟩ := List.mem_map.mp hitem
  exact .delta ..

namespace GeminiEvent

/-- No character of the text ends its line. -/
def Whole (style : DumpStyle) (e : GeminiEvent) : Prop :=
  style.ensureAscii = true ∨ ∀ c ∈ e.text, ¬ IsUnicodeBreak c

instance : DecidablePred (Whole style) := fun e => by unfold Whole; infer_instance

/-- The counts after an event that is read. -/
def countsAfter (e : GeminiEvent) (counts : Counts) : Counts :=
  match e.usage with
  | none => counts
  | some u => (.int u.prompt, .int u.completion)

/-- An event yields its text, if it has any. -/
theorem onEvent_event (e : GeminiEvent) : ∃ items,
    onEvent chatId created model counts e.event.data = some (items, e.countsAfter counts) ∧
      items.flatMap StreamItem.text = e.text ∧
      ∀ item ∈ items, ∃ t, item = .chunk (deltaChunk chatId created model (.str t)) := by
  obtain ⟨piece, finishReason, usage, modelVersion⟩ := e
  have hcandidates : candidatesOf ((str "candidates",
      .arr [geminiCandidate (piece.map UnicodeText.text).toList finishReason]) ::
        (usageField usage ++ [(str "modelVersion", .str modelVersion.text)])) =
      some [geminiCandidate (piece.map UnicodeText.text).toList finishReason] := rfl
  have hcounts : GeminiAdapter.countsAfter counts ((str "candidates",
      .arr [geminiCandidate (piece.map UnicodeText.text).toList finishReason]) ::
        (usageField usage ++ [(str "modelVersion", .str modelVersion.text)])) =
      some (countsAfter ⟨piece, finishReason, usage, modelVersion⟩ counts) := by
    cases usage <;> rfl
  simp only [onEvent, event, withTexts, geminiResponse, Json.fields?, Option.bind_eq_bind,
    Option.bind_some, hcandidates, hcounts, List.mapM_cons, List.mapM_nil,
    candidateTexts_candidate, Option.pure_def]
  cases piece with
  | none => exact ⟨[], rfl, rfl, List.forall_mem_nil _⟩
  | some t => exact ⟨_, rfl, List.append_nil _, List.forall_mem_singleton.mpr ⟨t.text, rfl⟩⟩

variable {e : GeminiEvent}

theorem readPart_event (h : e.Whole style) :
    readPart (onEvent chatId created model) counts (e.event.block style) =
      onEvent chatId created model counts e.event.data :=
  readPart_whole e.fit_event (not_break_of_clean e.clean_event h)

theorem readPart_lost (h : ¬ e.Whole style) {r : List StreamItem × Counts}
    (hr : readPart (onEvent chatId created model) counts (e.event.block style) = some r) :
    r = ([], counts) := by
  rw [Whole, not_or, Bool.not_eq_true] at h
  obtain ⟨hraw, hbreak⟩ := h
  push Not at hbreak
  cases hpiece : e.piece with
  | some t =>
      have hdata : e.event.data = e.withTexts [t.text] := by
        rw [event, hpiece]
        rfl
      rw [text, hpiece] at hbreak
      exact readPart_broken isReader_onEvent e.textSlot hraw e.fit_event hdata t.isText hbreak hr
  | none =>
      obtain ⟨c, hc, -⟩ := hbreak
      rw [text, hpiece] at hc
      cases hc

theorem readPart_deltas {r : List StreamItem × Counts}
    (hr : readPart (onEvent chatId created model) counts (e.event.block style) = some r) :
    ∀ item ∈ r.1, ∃ t, item = .chunk (deltaChunk chatId created model (.str t)) := by
  by_cases h : e.Whole style
  · rw [readPart_event h] at hr
    obtain ⟨items, hitems, -, hdeltas⟩ := @onEvent_event chatId created model counts e
    rw [hitems] at hr
    obtain rfl := Option.some.inj hr
    exact hdeltas
  · obtain rfl := readPart_lost h hr
    exact List.forall_mem_nil _

end GeminiEvent

namespace GeminiGeneration
variable (g : GeminiGeneration)

theorem finishReason_gen {chunks : List Str} {items : List StreamItem}
    (h : gen plus chatId created model chunks = some items) :
    (streamOutput items).finishReason = .null ∨
      (streamOutput items).finishReason = .str (str "stop") := by
  simp only [gen, Option.bind_eq_bind] at h
  obtain ⟨r, hr, h⟩ := Option.bind_eq_some_iff.mp h
  obtain ⟨total, -, h⟩ := Option.bind_eq_some_iff.mp h
  obtain rfl := Option.some.inj h
  refine finishReason_streamOutput (List.forall_mem_append.mpr
    ⟨readStream_forall (fun _ _ _ hev => isWritten_onEvent hev) hr, ?_⟩)
  exact List.forall_mem_cons.mpr ⟨.final .., List.forall_mem_singleton.mpr .done⟩

/-- The stream is read event by event. -/
theorem readStream_eq_collect
    (d : Chunked (eventStream style (g.events.map GeminiEvent.event))) :
    readStream (onEvent chatId created model) zeroCounts d.chunks =
      collect (fun counts (e : GeminiEvent) =>
        readPart (onEvent chatId created model) counts (e.event.block style)) zeroCounts g.events := by
  have hfit : ∀ e ∈ g.events.map GeminiEvent.event, e.Fit := by
    rw [List.forall_mem_map]
    exact fun e _ => e.fit_event
  rw [readStream_events hfit d, collect_map]

/-- The whole text comes out of the events only if none is lost. -/
theorem texts_whole_iff : (∃ r, collect (fun counts (e : GeminiEvent) =>
      readPart (onEvent chatId created model) counts (e.event.block style)) zeroCounts g.events =
        some r ∧ r.1.flatMap StreamItem.text = g.texts.flatMap UnicodeText.text) ↔
    ∀ e ∈ g.events, e.Whole style := by
  rw [← g.text_events]
  refine collect_texts_iff (fun counts e h => ?_) (fun counts e r h hr => ?_) (fun e h hnil => ?_) _ _
  · obtain ⟨items, hitems, htext, -⟩ := @GeminiEvent.onEvent_event chatId created model counts e
    exact ⟨_, (GeminiEvent.readPart_event h).trans hitems, htext⟩
  · rw [GeminiEvent.readPart_lost h hr]
  · refine h (Or.inr fun c hc => ?_)
    rw [hnil] at hc
    cases hc

/-- The last event has the counts. -/
theorem counts_eq (hlast : g.lastEvent.Whole style) {r : List StreamItem × Counts}
    (hr : collect (fun counts (e : GeminiEvent) =>
      readPart (onEvent chatId created model) counts (e.event.block style)) zeroCounts g.events =
        some r) : r.2 = (.int g.usage.prompt, .int g.usage.completion) := by
  rw [events, collect_append] at hr
  obtain ⟨r₁, -, hr⟩ := Option.bind_eq_some_iff.mp hr
  obtain ⟨r₂, hr₂, rfl⟩ := Option.map_eq_some_iff.mp hr
  obtain ⟨items, hitems, -⟩ :=
    @GeminiEvent.onEvent_event chatId created model r₁.2 g.lastEvent
  rw [collect, GeminiEvent.readPart_event hlast, hitems] at hr₂
  obtain rfl := Option.some.inj hr₂
  rfl

/-- **The modes agree** exactly on a generation that stops plainly and of whose texts no event
is lost. -/
theorem agree_iff (d : Chunked (eventStream style (g.events.map GeminiEvent.event)))
    (freshId : Str) (created' : ℤ) :
    Agree (gen plus chatId created model d.chunks)
        (geminiRespToOpenai plus freshId created' g.response model) ↔
      g.StopsPlainly ∧ ∀ e ∈ g.events, e.Whole style := by
  obtain ⟨v, hbody, hout⟩ := @bodyOutput_response plus g freshId created' model
  constructor
  · rintro ⟨items, v', hitems, hbody', hagree⟩
    obtain rfl := Option.some.inj (hbody.symm.trans hbody')
    rw [hout] at hagree
    constructor
    · -- a stream never has another finish reason
      rw [← finish_eq_iff]
      rcases finishReason_gen hitems with hreason | hreason
      · rw [hagree] at hreason
        cases hreason
      · rw [hagree] at hreason
        exact Json.str.inj hreason
    · simp only [gen, Option.bind_eq_bind, readStream_eq_collect] at hitems
      obtain ⟨r, hr, hitems⟩ := Option.bind_eq_some_iff.mp hitems
      obtain ⟨total, -, hitems⟩ := Option.bind_eq_some_iff.mp hitems
      obtain rfl := Option.some.inj hitems
      refine g.texts_whole_iff.mp ⟨r, hr, ?_⟩
      have htext := congrArg ChatOutput.text hagree
      have hlast : ∀ v w total, ([.chunk (finalChunk chatId created model v w total), .done] :
          List StreamItem).flatMap StreamItem.text = [] := fun _ _ _ => rfl
      rwa [text_streamOutput, List.flatMap_append, hlast, List.append_nil] at htext
  · rintro ⟨hstop, hwhole⟩
    obtain ⟨r, hr, htext⟩ := (@texts_whole_iff chatId created model style g).mpr hwhole
    have hdeltas := collect_forall (fun counts e r hr => GeminiEvent.readPart_deltas hr) hr
    have hlast : g.lastEvent ∈ g.events := List.mem_append_right _ (List.mem_singleton_self _)
    have hcounts := g.counts_eq (hwhole _ hlast) hr
    have hgen : gen plus chatId created model d.chunks = some (r.1 ++
        [.chunk (finalChunk chatId created model (.int g.usage.prompt) (.int g.usage.completion)
          (.int (g.usage.prompt + g.usage.completion))), .done]) := by
      simp only [gen, readStream_eq_collect, hr, Option.bind_eq_bind, Option.bind_some, hcounts]
      rfl
    refine ⟨_, v, hgen, hbody, ?_⟩
    rw [streamOutput_final _ _ _ _ _ _ hdeltas, htext, hout, g.finish_eq_iff.mpr hstop]

end GeminiGeneration
end

/-! ### Both adapters -/

/-- **Streaming and not streaming agree** for both adapters exactly on the generations that
stop plainly and of whose texts no event is lost. -/
theorem modes_agree_iff (plus : Json → Json → Option Json) (style : DumpStyle)
    (chatId freshId model : Str) (created created' : ℤ) :
    (∀ (g : AnthropicGeneration) (d : Chunked (eventStream style g.events)),
      Agree (AnthropicAdapter.gen plus chatId created model d.chunks)
          (AnthropicAdapter.anthropicRespToOpenai plus freshId created' g.response model) ↔
        g.StopsPlainly ∧ (style.ensureAscii = true ∨
          ∀ e ∈ g.blocks, ∀ c ∈ e.text, ¬ IsUnicodeBreak c)) ∧
    ∀ (g : GeminiGeneration) (d : Chunked (eventStream style (g.events.map GeminiEvent.event))),
      Agree (GeminiAdapter.gen plus chatId created model d.chunks)
          (GeminiAdapter.geminiRespToOpenai plus freshId created' g.response model) ↔
        g.StopsPlainly ∧ (style.ensureAscii = true ∨
          ∀ e ∈ g.events, ∀ c ∈ e.text, ¬ IsUnicodeBreak c) := by
  refine ⟨fun g d => ?_, fun g d => ?_⟩
  · rw [g.agree_iff d freshId created']
    refine and_congr_right fun _ => ⟨fun h => ?_, fun h e he => h.imp_right fun h => h e he⟩
    exact or_iff_not_imp_left.mpr fun hraw e he => (h e he).resolve_left hraw
  · rw [g.agree_iff d freshId created']
    refine and_congr_right fun _ => ⟨fun h => ?_, fun h e he => h.imp_right fun h => h e he⟩
    exact or_iff_not_imp_left.mpr fun hraw e he => (h e he).resolve_left hraw

/-- A message that ends of itself. -/
def endTurn : AnthropicGeneration where
  id := ⟨str "msg_1", by decide⟩
  model := ⟨str "claude", by decide⟩
  texts := [⟨str "Hi", isText_of_ascii (by decide)⟩]
  blocks := [.contentBlockStart ⟨0, zero_lt_pow_maxIntDigits⟩,
    .textDelta ⟨0, zero_lt_pow_maxIntDigits⟩ ⟨str "Hi", isText_of_ascii (by decide)⟩,
    .contentBlockStop ⟨0, zero_lt_pow_maxIntDigits⟩]
  text_blocks := rfl
  stopReason := some ⟨str "end_turn", isText_of_ascii (by decide)⟩
  stopSequence := none
  stopSequence_eq_none := fun _ => rfl
  usage := ⟨9, 1, (by decide : 9 + 1 < 11).trans_le (Nat.le_of_lt (by decide +kernel))⟩
  startTokens := ⟨1, Nat.one_lt_pow (by decide) (by decide)⟩

/-- Its stream says `stop`, and its response says `end_turn`. -/
theorem endTurn_disagree :
    (AnthropicAdapter.gen (fun _ _ => none) (str "chatcmpl-1") 0 (str "claude")
        [eventStream (.compact noFloats) endTurn.events]).map
          (fun items => (streamOutput items).finishReason) = some (.str (str "stop")) ∧
      (AnthropicAdapter.anthropicRespToOpenai (fun _ _ => none) (str "chatcmpl-2") 0
        endTurn.response (str "claude")).map (fun v => (bodyOutput v).finishReason) =
          some (.str (str "end_turn")) ∧
      ¬ Agree (AnthropicAdapter.gen (fun _ _ => none) (str "chatcmpl-1") 0 (str "claude")
          [eventStream (.compact noFloats) endTurn.events])
        (AnthropicAdapter.anthropicRespToOpenai (fun _ _ => none) (str "chatcmpl-2") 0
          endTurn.response (str "claude")) := by
  have hstream : (AnthropicAdapter.gen (fun _ _ => none) (str "chatcmpl-1") 0 (str "claude")
      [eventStream (.compact noFloats) endTurn.events]).map
        (fun items => (streamOutput items).finishReason) = some (.str (str "stop")) := by
    decide +kernel
  have hbody : (AnthropicAdapter.anthropicRespToOpenai (fun _ _ => none) (str "chatcmpl-2") 0
      endTurn.response (str "claude")).map (fun v => (bodyOutput v).finishReason) =
        some (.str (str "end_turn")) := by
    decide +kernel
  refine ⟨hstream, hbody, ?_⟩
  rintro ⟨items, v, hitems, hv, hagree⟩
  rw [hitems, Option.map_some, hagree] at hstream
  rw [hv, Option.map_some, hstream] at hbody
  exact absurd hbody (by decide)

end Llmxy
