import Llmxy.Protocols.AnthropicCalls
import Llmxy.Relay.Stream

/-!
# What the converter of the messages endpoint survives

`feed` skips a `data:` line that is no JSON.  An object that is none, or that has something
else than a dictionary where `feed` looks for keys, makes it raise, and so does a text with a
surrogate; the caller reads the usage of each chunk on its own, and that raises too.  Then the
rest of the stream is lost, with the charge.

## Main definitions

* `dataObjects` — the objects of a stream.
* `anthropicConverter` — the converter for the handler of the endpoint.
* `Survives`, `survives_iff` — the stream is converted and charged, and when it is.
-/

namespace Llmxy

section
variable (float : Bool → ℕ → ℤ → Str)

/-- An input that can be read. -/
def ConverterInput.fits : ConverterInput → Bool
  | .object obj => expectedShape float obj
  | .usage u => usageFits u

/-! ### Streams -/

/-- The objects of the blocks of a stream. -/
def dataObjects (pieces : List Bytes) : List Json :=
  (splitBlank (pieces.map decode).flatten).1.flatMap partObjects

/-- The events for objects. -/
def convertObjects (model messageId : Str) (objs : List Json) : Option (List SseEvent) := do
  let fed ← collect (AnthropicState.feedObject float) (AnthropicStream.init model messageId).state
    objs
  let finished ← fed.2.finish float
  some (fed.1 ++ finished.1)

/-- The converter whose counts its caller writes. -/
def AnthropicStream.setCounts (s : AnthropicStream) (counts : Counts) : AnthropicStream :=
  { s with state := { s.state with counts } }

/-- The calls of the endpoint's loop: the usage of each chunk, then the chunk. -/
def streamerCalls (pieces : List Bytes) : List ConverterCall :=
  pieces.flatMap fun chunk => ((parseUsageFromChunk chunk).map .usage).toList ++ [.feed chunk]

/-- What a call that may raise yields, and the converter with its counts apart. -/
def yielded (r : Option (List SseEvent × AnthropicStream)) :
    List SseEvent × Option (Counts × AnthropicStream) :=
  ((r.map Prod.fst).getD [], r.map fun r => (r.2.state.counts, r.2))

/-- The converter of the messages endpoints. -/
def anthropicConverter : Converter (Counts × AnthropicStream) SseEvent where
  feed s chunk := yielded ((s.2.setCounts s.1).feed float chunk)
  finish s := yielded (((s.2.setCounts s.1).state.finish float).map fun r =>
    (r.1, { s.2 with state := r.2 }))

/-- The state that the loop of the endpoint ends with.  `none` when it raises, and the charge
after it is not reached. -/
def chargeReached (model messageId : Str) (pieces : List Bytes) :
    Option (Counts × AnthropicStream) :=
  (messagesHandler (anthropicConverter float)).final pieces (zeroCounts, .init model messageId)

/-- **The converter survives a stream**: it returns the events for the objects that have the
expected shape, and the loop of the endpoint reaches the charge. -/
structure Survives (model messageId : Str) (pieces : List Bytes) : Prop where
  converted : ∃ events s, openaiSseToAnthropicSse float model messageId pieces = some (events, s) ∧
    convertObjects float model messageId ((dataObjects pieces).filter (expectedShape float)) =
      some events
  charged : (chargeReached float model messageId pieces).isSome = true

end

section
variable {float : Bool → ℕ → ℤ → Str}

/-! ### What does not raise -/

namespace AnthropicState
variable {s : AnthropicState}

theorem sendContent_isSome (h : s.Sendable) (delta : List (Str × Json)) :
    (s.sendContent float delta).isSome = deltaFits float (.obj delta) := by
  rw [sendContent, deltaFits]
  cases getTruthy (str "content") delta with
  | none => rfl
  | some content =>
      simp only [ensureStarted_sendable h, sse_eq (by decide : IsText (str "content_block_delta")),
        encodable_contentBlockDelta, Option.bind_eq_bind, Option.bind_some, Option.all_some]
      by_cases hc : content.Encodable float
      · rw [if_pos hc, decide_eq_true hc]
        rfl
      · rw [if_neg hc, decide_eq_false hc]
        rfl

theorem Sendable.set (h : s.Sendable) {counts : Counts} {stopReason : Str}
    (hcounts : ∃ p c : ℤ, counts = (.int p, .int c)) (hstop : IsText stopReason) :
    Sendable { s with counts, stopReason } := ⟨h.model, h.messageId, hcounts, hstop⟩

/-- **`feed` handles an object exactly when it has the expected shape.** -/
theorem feedObject_isSome (h : s.Sendable) (obj : Json) :
    (s.feedObject float obj).isSome = expectedShape float obj := by
  obtain ⟨p, c, hcounts⟩ := h.counts
  cases obj with
  | obj fields =>
      have hread := readCounts_isSome fields p c
      simp only [feedObject, Json.fields?, Option.bind_eq_bind, Option.bind_some, hcounts,
        expectedShape, ← hread]
      cases hr : readCounts fields (.int p, .int c) with
      | none => rfl
      | some counts =>
          have hset : ∀ choice, Sendable
              { s with counts, stopReason := readStopReason choice s.stopReason } := by
            intro choice
            refine h.set ⟨_, _, readCounts_some hr⟩ ?_
            rw [readStopReason_eq]
            cases getTruthy (str "finish_reason") choice with
            | none => exact h.stopReason
            | some reason => exact isText_finishReasonToAnthropic reason
          rw [Option.bind_some, Option.isSome_some, Bool.true_and]
          exact readDelta_isSome (fun choice delta => sendContent_isSome (hset choice) delta) fields
  | _ => rfl

theorem receive_isSome (h : s.Sendable) (item : ConverterInput) :
    (s.receive float item).isSome = item.fits float := by
  cases item with
  | object obj => exact feedObject_isSome h obj
  | usage u =>
      obtain ⟨p, c, hcounts⟩ := h.counts
      rw [receive, setUsage, Option.isSome_map, hcounts, translatedCounts_isSome,
        ConverterInput.fits]

end AnthropicState

/-- Inputs are read exactly when each can be. -/
theorem Converting.collect_isSome {model messageId : Str} {items more : List ConverterInput}
    {s : AnthropicState} {events : List SseEvent} (h : Converting model messageId items s events)
    (hm : IsText model) (hid : IsText messageId) :
    (Llmxy.collect (AnthropicState.receive float) s more).isSome =
      more.all (ConverterInput.fits float) := by
  refine isSome_collect (fun s => ∃ items events, Converting model messageId items s events)
    ?_ ?_ ⟨items, events, h⟩ more
  · rintro s item ⟨items, events, h⟩
    exact AnthropicState.receive_isSome (h.sendable hm hid) item
  · rintro s item r ⟨items, events, h⟩ hr
    exact ⟨_, _, h.receive hm hid hr⟩

/-! ### What a stream brings -/

/-- The object of an input. -/
def ConverterInput.object? : ConverterInput → Option Json
  | .object obj => some obj
  | .usage _ => none

/-- The usage of an input. -/
def ConverterInput.usage? : ConverterInput → Option Json
  | .object _ => none
  | .usage u => some u

theorem all_fits (items : List ConverterInput) : items.all (ConverterInput.fits float) =
    ((items.filterMap ConverterInput.object?).all (expectedShape float) &&
      (items.filterMap ConverterInput.usage?).all usageFits) := by
  induction items with
  | nil => rfl
  | cons item items ih =>
      rw [List.all_cons, ih]
      cases item with
      | object obj =>
          simp only [ConverterInput.fits, ConverterInput.object?, ConverterInput.usage?,
            List.filterMap_cons, List.all_cons, Bool.and_assoc]
      | usage u =>
          simp only [ConverterInput.fits, ConverterInput.object?, ConverterInput.usage?,
            List.filterMap_cons, List.all_cons]
          rw [Bool.and_left_comm]

/-- The chunk of a call. -/
def ConverterCall.chunk? : ConverterCall → Option Bytes
  | .feed chunk => some chunk
  | .usage _ => none

/-- The usage of a call. -/
def ConverterCall.usage? : ConverterCall → Option Json
  | .feed _ => none
  | .usage u => some u

/-- The objects that are read are those of the chunks, however the text is cut. -/
theorem objects_inputs {buffer : Str} (calls : List ConverterCall)
    (h : splitBlank buffer = ([], buffer)) :
    (inputs buffer calls).filterMap ConverterInput.object? =
      (splitBlank (buffer ++ ((calls.filterMap ConverterCall.chunk?).map decode).flatten)).1.flatMap
        partObjects := by
  have hobjects : ∀ objs : List Json,
      (objs.map ConverterInput.object).filterMap ConverterInput.object? = objs := by
    intro objs
    rw [List.filterMap_map]
    exact List.filterMap_some
  induction calls generalizing buffer with
  | nil => simp [inputs, h]
  | cons call calls ih =>
      cases call with
      | feed chunk =>
          rw [inputs, List.filterMap_append, hobjects, ih (splitBlank_rest _)]
          simp only [List.filterMap_cons, ConverterCall.chunk?, List.map_cons, List.flatten_cons]
          rw [← List.append_assoc, splitBlank_append (buffer ++ decode chunk), List.flatMap_append]
      | usage u => exact ih h

theorem usages_inputs (buffer : Str) (calls : List ConverterCall) :
    (inputs buffer calls).filterMap ConverterInput.usage? =
      calls.filterMap ConverterCall.usage? := by
  have hobjects : ∀ objs : List Json,
      (objs.map ConverterInput.object).filterMap ConverterInput.usage? = [] := by
    intro objs
    rw [List.filterMap_map]
    exact List.filterMap_eq_nil_iff.mpr fun _ _ => rfl
  induction calls generalizing buffer with
  | nil => rfl
  | cons call calls ih =>
      cases call with
      | feed chunk =>
          rw [inputs, List.filterMap_append, hobjects, List.nil_append, ih]
          rfl
      | usage u => exact congrArg (u :: ·) (ih buffer)

theorem chunks_streamerCalls (pieces : List Bytes) :
    (streamerCalls pieces).filterMap ConverterCall.chunk? = pieces := by
  induction pieces with
  | nil => rfl
  | cons chunk pieces ih =>
      rw [streamerCalls, List.flatMap_cons, List.filterMap_append, ← streamerCalls, ih]
      cases parseUsageFromChunk chunk <;> rfl

theorem usages_streamerCalls (pieces : List Bytes) :
    (streamerCalls pieces).filterMap ConverterCall.usage? =
      pieces.filterMap parseUsageFromChunk := by
  induction pieces with
  | nil => rfl
  | cons chunk pieces ih =>
      rw [streamerCalls, List.flatMap_cons, List.filterMap_append, ← streamerCalls, ih,
        List.filterMap_cons]
      cases parseUsageFromChunk chunk <;> rfl

/-! ### The converter and its caller -/

section
variable {model messageId : Str}

/-- **However it is cut**, a stream is converted object by object. -/
theorem openaiSseToAnthropicSse_objects (pieces : List Bytes) :
    (openaiSseToAnthropicSse float model messageId pieces).map Prod.fst =
      convertObjects float model messageId (dataObjects pieces) := by
  have hfeed := @collect_feed float (.init model messageId) pieces rfl
  have hbuffer : (AnthropicStream.init model messageId).buffer = [] := rfl
  have hparts : (fun s part => AnthropicState.feedPart float s part) = fun s part =>
      collect (AnthropicState.feedObject float) s (partObjects part) :=
    funext fun s => funext fun part => feedPart_eq s part
  rw [hbuffer, List.nil_append] at hfeed
  rw [openaiSseToAnthropicSse, convertObjects, dataObjects, collect_flatMap, ← hparts, hfeed]
  cases collect (fun s part => AnthropicState.feedPart float s part)
      (AnthropicStream.init model messageId).state (splitBlank (pieces.map decode).flatten).1 with
  | none => rfl
  | some r =>
      simp only [Option.map_some, Option.bind_eq_bind, Option.bind_some]
      cases r.2.finish float <;> rfl

/-- Objects are converted exactly when each has the expected shape. -/
theorem convertObjects_isSome (hm : IsText model) (hid : IsText messageId) (objs : List Json) :
    (convertObjects float model messageId objs).isSome = objs.all (expectedShape float) := by
  have hinit := Converting.init model messageId
  have hall : (objs.map ConverterInput.object).all (ConverterInput.fits float) =
      objs.all (expectedShape float) := List.all_map
  have hmap : collect (AnthropicState.receive float) (AnthropicStream.init model messageId).state
      (objs.map ConverterInput.object) =
      collect (AnthropicState.feedObject float) (AnthropicStream.init model messageId).state objs :=
    collect_map _ _ _ _
  have hcollect := @Converting.collect_isSome float model messageId [] (objs.map .object) _ _
    hinit hm hid
  rw [← hall, ← hcollect, hmap, convertObjects]
  cases hr : collect (AnthropicState.feedObject float)
      (AnthropicStream.init model messageId).state objs with
  | none => rfl
  | some r =>
      have hend := hinit.collect hm hid (hmap.trans hr)
      simp only [Option.bind_eq_bind, Option.bind_some,
        AnthropicState.finish_sendable (hend.sendable hm hid), Option.isSome_some]

/-- A usage that is written yields nothing. -/
theorem collect_usage (s : AnthropicStream) (u : Json) (calls : List ConverterCall) :
    collect (AnthropicStream.call float) s (.usage u :: calls) =
      (translatedCounts u s.state.counts).bind fun counts =>
        collect (AnthropicStream.call float) { s with state := { s.state with counts } } calls := by
  simp only [collect, AnthropicStream.call, AnthropicState.setUsage, Option.bind_eq_bind]
  cases translatedCounts u s.state.counts with
  | none => rfl
  | some counts =>
      simp only [Option.map_some, Option.bind_some]
      cases collect (AnthropicStream.call float) { s with state := { s.state with counts } }
        calls <;> rfl

/-- The loop of the endpoint makes the calls. -/
theorem final_anthropicConverter (s : AnthropicStream) (pieces : List Bytes) :
    (messagesHandler (anthropicConverter float)).final pieces (s.state.counts, s) =
      (collect (AnthropicStream.call float) s (streamerCalls pieces)).bind fun r =>
        (r.2.state.finish float).map fun f => (f.2.counts, { r.2 with state := f.2 }) := by
  induction pieces generalizing s with
  | nil =>
      have heq : s.setCounts s.state.counts = s := rfl
      simp only [StreamHandler.final, messagesHandler, anthropicConverter, yielded, heq,
        Option.map_map]
      rfl
  | cons chunk pieces ih =>
      -- the chunk is fed, whatever its usage was
      have hfed : ∀ s : AnthropicStream,
          ((s.feed float chunk).map fun r => (r.2.state.counts, r.2)).bind
              ((messagesHandler (anthropicConverter float)).final pieces) =
            (collect (AnthropicStream.call float) s (.feed chunk :: streamerCalls pieces)).bind
              fun r => (r.2.state.finish float).map fun f =>
                (f.2.counts, { r.2 with state := f.2 }) := by
        intro s
        simp only [collect, AnthropicStream.call, Option.bind_eq_bind]
        cases s.feed float chunk with
        | none => rfl
        | some r =>
            refine (ih r.2).trans ?_
            cases hrest : collect (AnthropicStream.call float) r.2 (streamerCalls pieces) <;>
              simp only [hrest, Option.bind_some, Option.bind_none]
      rw [StreamHandler.final, streamerCalls, List.flatMap_cons, ← streamerCalls, List.append_assoc]
      simp only [messagesHandler, StreamLoop.receive, StreamLoop.update, anthropicConverter,
        yielded]
      cases parseUsageFromChunk chunk with
      | none => exact hfed s
      | some u =>
          refine Eq.trans ?_ (congrArg (Option.bind · _) (collect_usage s u _).symm)
          dsimp only
          cases translatedCounts u s.state.counts with
          | none => rfl
          | some counts => exact hfed { s with state := { s.state with counts } }

/-- The charge is reached exactly when both the converter and its caller can read the stream. -/
theorem chargeReached_isSome (hm : IsText model) (hid : IsText messageId) (pieces : List Bytes) :
    (chargeReached float model messageId pieces).isSome =
      ((dataObjects pieces).all (expectedShape float) &&
        (pieces.filterMap parseUsageFromChunk).all usageFits) := by
  have hinit := Converting.init model messageId
  have hcall := @collect_call float (.init model messageId) (streamerCalls pieces)
  have hobjects := @objects_inputs [] (streamerCalls pieces) rfl
  have hfits := @Converting.collect_isSome float model messageId []
    (inputs [] (streamerCalls pieces)) _ _ hinit hm hid
  rw [chunks_streamerCalls, List.nil_append] at hobjects
  rw [all_fits, hobjects, usages_inputs, usages_streamerCalls] at hfits
  rw [dataObjects, ← hfits, chargeReached]
  refine (congrArg Option.isSome (final_anthropicConverter (.init model messageId) pieces)).trans ?_
  cases hr : collect (AnthropicStream.call float) (.init model messageId)
      (streamerCalls pieces) with
  | none =>
      rw [hr] at hcall
      exact congrArg Option.isSome hcall
  | some r =>
      rw [hr] at hcall
      have hend := hinit.collect hm hid hcall.symm
      rw [Option.bind_some, AnthropicState.finish_sendable (hend.sendable hm hid)]
      exact congrArg Option.isSome hcall

end

end

/-- **When the converter survives**: every object of the stream has the expected shape, and so
does every usage that its caller reads off a chunk. -/
theorem survives_iff (float : Bool → ℕ → ℤ → Str) (model : UnicodeText) (messageId : Label)
    (pieces : List Bytes) :
    Survives float model.text messageId.text pieces ↔
      (∀ obj ∈ dataObjects pieces, expectedShape float obj = true) ∧
        ∀ u ∈ pieces.filterMap parseUsageFromChunk, usageFits u = true := by
  have hm := model.isText
  have hid := isText_of_ascii messageId.ascii
  have hobjects := @openaiSseToAnthropicSse_objects float model.text messageId.text pieces
  have hconvert := @convertObjects_isSome float _ _ hm hid (dataObjects pieces)
  have hcharge := @chargeReached_isSome float _ _ hm hid pieces
  constructor
  · rintro ⟨-, hcharged⟩
    rw [hcharged] at hcharge
    obtain ⟨hshape, husage⟩ := Bool.and_eq_true_iff.mp hcharge.symm
    exact ⟨List.all_eq_true.mp hshape, List.all_eq_true.mp husage⟩
  · rintro ⟨hshape, husage⟩
    have hall := List.all_eq_true.mpr hshape
    rw [hall] at hconvert hcharge
    rw [List.all_eq_true.mpr husage] at hcharge
    obtain ⟨events, hevents⟩ := Option.isSome_iff_exists.mp hconvert
    rw [hevents] at hobjects
    obtain ⟨⟨events', s⟩, hrun, rfl⟩ := Option.map_eq_some_iff.mp hobjects
    refine ⟨⟨events', s, hrun, ?_⟩, hcharge⟩
    rw [List.filter_eq_self.mpr hshape]
    exact hevents

/-- A choice that is `null`. -/
def nullChoice : Bytes := encode (str "data: \x7b\"choices\":[null]\x7d\n\n")

/-- A `null` choice makes `feed` raise: nothing after it is converted or charged. -/
theorem nullChoice_not_survived :
    (openaiSseToAnthropicSse noFloats (str "m") (str "i") [nullChoice]).isNone = true ∧
      ¬ Survives noFloats (str "m") (str "i") [nullChoice] := by
  have hraises : (openaiSseToAnthropicSse noFloats (str "m") (str "i") [nullChoice]).isNone = true :=
    by decide +kernel
  refine ⟨hraises, ?_⟩
  rintro ⟨⟨events, s, hrun, -⟩, -⟩
  rw [hrun] at hraises
  cases hraises

end Llmxy
