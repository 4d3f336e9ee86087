import Llmxy.Protocols.ChatShapes
import Llmxy.Protocols.ResponsesStream

/-!
# The events of a responses stream

`openai_chat_sse_to_responses_sse` sends the events that open the response with the first text,
or after the loop when there was none, and repeats the whole text in the events that close it.
It writes characters as they are, so a text with a surrogate, which JSON may bring in as an
escape, ends the stream where it stands.

## Main definitions

* `DecodedChunk` — a chunk whose content, if any, is a string.
* `responsesStream` — what the converter yields for chunks.
* `responsesEvents`, `lastCount` — the events of a response, and its counts.
* `responses_wellFormed_iff` — when the stream is that of a response.
-/

namespace Llmxy

/-- The content of a chunk, if it counts as true. -/
def readContent (fields : List (Str × Json)) : Option Json := do
  let choice ← (← firstChoice fields).fields?
  let delta ← ((getTruthy (str "delta") choice).getD (.obj [])).fields?
  getTruthy (str "content") delta

/-- A dictionary that `_iter_sse_json` yields, with the name of its event.  Its content, if any,
is a string. -/
structure DecodedChunk where
  event : Option Str
  fields : List (Str × Json)
  isStr : ∀ x, readContent fields = some x → ∃ t, x = .str t

namespace DecodedChunk

/-- The chunk as the converter gets it. -/
def obj (chunk : DecodedChunk) : Option Str × List (Str × Json) := (chunk.event, chunk.fields)

/-- Its text, unless it is empty. -/
def text? (chunk : DecodedChunk) : Option Str :=
  match readContent chunk.fields with
  | some (.str t) => some t
  | _ => none

end DecodedChunk

/-- What `openai_chat_sse_to_responses_sse` yields for chunks, `none` when it raises. -/
def responsesStream (repr : Json → Str) (float : Bool → ℕ → ℤ → Str) (head : ResponseHead)
    (objs : List (Option Str × List (Str × Json))) : Option (List Str) :=
  (responsesOfObjects repr float head objs).map fun events =>
    events.map (SseEvent.text float) ++ [sseData (str "[DONE]")]

/-- The events of a response. -/
def responsesEvents (head : ResponseHead) (texts : List Str) (prompt completion : ℤ) :
    List SseEvent :=
  head.starting ++ head.deltas texts ++ head.ending texts.flatten ++
    [head.completed texts.flatten prompt completion]

/-- The counts that the chunks set, as `int` makes them. -/
def countsOf (key : Str) (chunks : List DecodedChunk) : List ℤ :=
  chunks.filterMap fun chunk => chunkCount key chunk.fields

/-- The last count of the chunks that is not zero. -/
def lastCount (key : Str) (chunks : List DecodedChunk) : ℤ :=
  ((countsOf key chunks).filter (· ≠ 0)).getLast?.getD 0

/-- A count that is true and that `int` makes zero, such as the text `0`, is not the last one
after a count that is not zero. -/
def KeepsNonzero (counts : List ℤ) : Prop := counts.getLast? = some 0 → ∀ n ∈ counts, n = 0

/-- The stream is that of one response: the texts of the chunks as deltas, all of them in each
closing event, and the last counts that are not zero with their sum. -/
def WellFormedResponse (repr : Json → Str) (float : Bool → ℕ → ℤ → Str) (head : ResponseHead)
    (chunks : List DecodedChunk) : Prop :=
  responsesStream repr float head (chunks.map DecodedChunk.obj) =
    some ((responsesEvents head (chunks.filterMap DecodedChunk.text?)
        (lastCount (str "prompt_tokens") chunks)
        (lastCount (str "completion_tokens") chunks)).map (SseEvent.text float) ++
      [sseData (str "[DONE]")])

section
variable {repr : Json → Str} {float : Bool → ℕ → ℤ → Str} {head : ResponseHead}

/-! ### Events that can be sent -/

/-- Events are sent as they are, when all of them can be. -/
theorem sendAll_eq {events : List SseEvent} (hname : ∀ e ∈ events, IsText e.name) :
    sendAll float events =
      if ∀ e ∈ events, e.data.Encodable float then some events else none := by
  have hsse : ∀ e ∈ events, sse float e.name e.data =
      if e.data.Encodable float then some (id e) else none :=
    fun e he => sse_eq (hname e he) e.data
  by_cases hall : ∀ e ∈ events, e.data.Encodable float
  · have hsend : ∀ e ∈ events, sse float e.name e.data = some (id e) :=
      fun e he => (hsse e he).trans (if_pos (hall e he))
    rw [if_pos hall, sendAll, mapM_eq_some_map hsend, List.map_id]
  · rw [if_neg hall, ← Option.not_isSome_iff_eq_none, sendAll, isSome_mapM_iff]
    refine fun hsome => hall fun e he => ?_
    have hsent := hsome e he
    rw [hsse e he] at hsent
    by_contra hraises
    rw [if_neg hraises] at hsent
    cases hsent

namespace ResponseHead

theorem encodable_starting : ∀ e ∈ head.starting, e.data.Encodable float := by
  have hmodel := head.model.isText
  have hid := isText_of_ascii head.responseId.ascii
  have hitem := isText_of_ascii head.itemId.ascii
  simp +decide [starting, created, itemAdded, partAdded, stub, item, place, part, event, hmodel,
    hid, hitem]

theorem encodable_ending {t : Str} (ht : IsText t) :
    ∀ e ∈ head.ending t, e.data.Encodable float := by
  have hitem := isText_of_ascii head.itemId.ascii
  simp +decide [ending, textDone, partDone, itemDone, item, place, part, event, hitem, ht]

theorem encodable_completed {t : Str} (ht : IsText t) (prompt completion : ℤ) :
    (head.completed t prompt completion).data.Encodable float := by
  have hmodel := head.model.isText
  have hid := isText_of_ascii head.responseId.ascii
  have hitem := isText_of_ascii head.itemId.ascii
  simp +decide [completed, stub, item, part, event, hmodel, hid, hitem, ht]

theorem encodable_textDelta {x : Json} :
    (head.textDelta x).data.Encodable float ↔ x.Encodable float := by
  have hitem := isText_of_ascii head.itemId.ascii
  simp +decide [textDelta, place, event, hitem]

end ResponseHead

/-! ### The loop -/

theorem readContent_eq {fields choice delta : List (Str × Json)} {first : Json}
    (hfirst : firstChoice fields = some first) (hchoice : first.fields? = some choice)
    (hdelta : ((getTruthy (str "delta") choice).getD (.obj [])).fields? = some delta) :
    readContent fields = getTruthy (str "content") delta := by
  simp only [readContent, hfirst, hchoice, hdelta, Option.bind_eq_bind, Option.bind_some]

theorem name_starting : ∀ e ∈ head.starting, IsText e.name := by
  simp only [ResponseHead.starting, ResponseHead.created, ResponseHead.itemAdded,
    ResponseHead.partAdded, ResponseHead.event, List.forall_mem_cons]
  decide

/-- Events that are sent once are all sent, or none. -/
theorem forall_mem_once {p : SseEvent → Prop} {events : List SseEvent} (started : Bool)
    (h : ∀ e ∈ events, p e) : ∀ e ∈ (if started then [] else events), p e := by
  cases started with
  | true => exact fun e he => by cases he
  | false => exact h

/-- A delta is sent, after the opening events if it is the first, when it can be encoded. -/
theorem sendAll_delta (started : Bool) (x : Json) :
    sendAll float ((if started then [] else head.starting) ++ [head.textDelta x]) =
      if x.Encodable float then
        some ((if started then [] else head.starting) ++ [head.textDelta x]) else none := by
  have hdelta : IsText (head.textDelta x).name :=
    (by decide : IsText (str "response.output_text.delta"))
  rw [sendAll_eq]
  · refine if_congr ?_ rfl rfl
    rw [List.forall_mem_append, List.forall_mem_singleton, ResponseHead.encodable_textDelta]
    exact and_iff_right (forall_mem_once started ResponseHead.encodable_starting)
  · rw [List.forall_mem_append, List.forall_mem_singleton]
    exact ⟨forall_mem_once started name_starting, hdelta⟩

/-- **A chunk is handled exactly when it has the expected shape.** -/
theorem receive_isSome (obj : Option Str × List (Str × Json)) (p c : ℤ) (started : Bool)
    (parts : List Str) :
    (ResponsesState.receive repr float head ⟨(.int p, .int c), started, parts⟩ obj).isSome =
      expectedShape float (.obj obj.2) := by
  have hread := readCounts_isSome obj.2 p c
  simp only [ResponsesState.receive, expectedShape, ← hread, Option.bind_eq_bind]
  cases readCounts obj.2 (.int p, .int c) with
  | none => rfl
  | some counts =>
      rw [Option.bind_some, Option.isSome_some, Bool.true_and]
      refine readDelta_isSome (fun choice delta => ?_) obj.2
      rw [deltaFits]
      cases getTruthy (str "content") delta with
      | none => rfl
      | some x =>
          simp only [sendAll_delta, Option.all_some]
          by_cases hx : x.Encodable float
          · rw [if_pos hx, decide_eq_true hx]
            rfl
          · rw [if_neg hx, decide_eq_false hx]
            rfl

/-- What the converter does with a chunk that does not make it raise. -/
theorem receive_some {chunk : DecodedChunk} {p c : ℤ} {started : Bool} {parts : List Str}
    {r : List SseEvent × ResponsesState}
    (h : ResponsesState.receive repr float head ⟨(.int p, .int c), started, parts⟩ chunk.obj =
      some r) :
    r = (textEvents head started chunk.text?.toList,
      ⟨(.int ((chunkCount (str "prompt_tokens") chunk.fields).getD p),
          .int ((chunkCount (str "completion_tokens") chunk.fields).getD c)),
        started || chunk.text?.isSome, parts ++ chunk.text?.toList⟩) ∧
      ∀ t ∈ chunk.text?, IsText t := by
  simp only [ResponsesState.receive, Option.bind_eq_bind, Option.bind_eq_some_iff] at h
  obtain ⟨counts, hcounts, first, hfirst, choice, hchoice, delta, hdelta, h⟩ := h
  obtain rfl := readCounts_some hcounts
  have hcontent : readContent chunk.fields = getTruthy (str "content") delta :=
    readContent_eq hfirst hchoice hdelta
  cases hx : getTruthy (str "content") delta with
  | none =>
      have htext : chunk.text? = none := by rw [DecodedChunk.text?, hcontent, hx]
      rw [hx] at h
      obtain rfl := Option.some.inj h
      rw [htext]
      refine ⟨?_, fun t ht => by cases ht⟩
      simp [textEvents, ResponseHead.deltas, DecodedChunk.obj]
  | some x =>
      obtain ⟨t, rfl⟩ := chunk.isStr x (hcontent.trans hx)
      have htext : chunk.text? = some t := by rw [DecodedChunk.text?, hcontent, hx]
      rw [hx] at h
      simp only [sendAll_delta] at h
      by_cases ht : (Json.str t).Encodable float
      · rw [if_pos ht] at h
        obtain rfl := Option.some.inj h
        rw [htext]
        refine ⟨?_, fun t' ht' => Option.some.inj ht' ▸ encodable_str.mp ht⟩
        cases started <;> rfl
      · rw [if_neg ht] at h
        cases h

theorem getLast?_countsOf_cons (key : Str) (chunk : DecodedChunk) (chunks : List DecodedChunk)
    (n : ℤ) : (countsOf key (chunk :: chunks)).getLast?.getD n =
      (countsOf key chunks).getLast?.getD ((chunkCount key chunk.fields).getD n) :=
  getLast?_filterMap_cons _ _ _ _

/-- What the converter does with chunks that do not make it raise. -/
theorem collect_some {chunks : List DecodedChunk} {p c : ℤ} {started : Bool} {parts : List Str}
    {r : List SseEvent × ResponsesState}
    (h : collect (ResponsesState.receive repr float head) ⟨(.int p, .int c), started, parts⟩
      (chunks.map DecodedChunk.obj) = some r) :
    r = (textEvents head started (chunks.filterMap DecodedChunk.text?),
      ⟨(.int ((countsOf (str "prompt_tokens") chunks).getLast?.getD p),
          .int ((countsOf (str "completion_tokens") chunks).getLast?.getD c)),
        started || !(chunks.filterMap DecodedChunk.text?).isEmpty,
        parts ++ chunks.filterMap DecodedChunk.text?⟩) ∧
      ∀ t ∈ chunks.filterMap DecodedChunk.text?, IsText t := by
  induction chunks generalizing p c started parts r with
  | nil =>
      obtain rfl := Option.some.inj h
      refine ⟨?_, fun t ht => by cases ht⟩
      simp [textEvents, ResponseHead.deltas, countsOf]
  | cons chunk chunks ih =>
      obtain ⟨r₁, r₂, hr₁, hr₂, rfl⟩ := collect_cons_eq_some.mp h
      obtain ⟨rfl, htext⟩ := receive_some hr₁
      obtain ⟨rfl, hrest⟩ := ih hr₂
      have htexts : (chunk :: chunks).filterMap DecodedChunk.text? =
          chunk.text?.toList ++ chunks.filterMap DecodedChunk.text? := by
        rw [List.filterMap_cons]
        cases chunk.text? <;> rfl
      have hsome : chunk.text?.isSome = !chunk.text?.toList.isEmpty := by
        cases chunk.text? <;> rfl
      have hstarted : ∀ xs ys : List Str, (started || !(xs ++ ys).isEmpty) =
          (started || !xs.isEmpty || !ys.isEmpty) := by
        intro xs ys
        cases started <;> cases xs <;> rfl
      refine ⟨?_, fun t ht => ?_⟩
      · rw [htexts, textEvents_append, getLast?_countsOf_cons, getLast?_countsOf_cons, hsome,
          hstarted, List.append_assoc]
      · rw [htexts] at ht
        obtain ht | ht := List.mem_append.mp ht
        · exact htext t (Option.mem_toList.mp ht)
        · exact hrest t ht

/-- The counts stay integers. -/
theorem counts_receive {obj : Option Str × List (Str × Json)} {p c : ℤ} {started : Bool}
    {parts : List Str} {r : List SseEvent × ResponsesState}
    (h : ResponsesState.receive repr float head ⟨(.int p, .int c), started, parts⟩ obj = some r) :
    ∃ p' c' : ℤ, r.2.counts = (.int p', .int c') := by
  simp only [ResponsesState.receive, Option.bind_eq_bind, Option.bind_eq_some_iff] at h
  obtain ⟨counts, hcounts, first, hfirst, choice, hchoice, delta, hdelta, h⟩ := h
  obtain rfl := readCounts_some hcounts
  cases hx : getTruthy (str "content") delta with
  | none =>
      rw [hx] at h
      obtain rfl := Option.some.inj h
      exact ⟨_, _, rfl⟩
  | some x =>
      rw [hx] at h
      obtain ⟨events, -, h⟩ := Option.bind_eq_some_iff.mp h
      obtain rfl := Option.some.inj h
      exact ⟨_, _, rfl⟩

/-- **The chunks are read** exactly when each has the expected shape. -/
theorem collect_isSome (objs : List (Option Str × List (Str × Json))) (s : ResponsesState)
    (hs : ∃ p c : ℤ, s.counts = (.int p, .int c)) :
    (collect (ResponsesState.receive repr float head) s objs).isSome =
      objs.all fun obj => expectedShape float (.obj obj.2) := by
  refine isSome_collect (fun s => ∃ p c : ℤ, s.counts = (.int p, .int c)) ?_ ?_ hs objs
  · rintro ⟨_, started, parts⟩ obj ⟨p, c, rfl⟩
    exact receive_isSome obj p c started parts
  · rintro ⟨_, started, parts⟩ obj r ⟨p, c, rfl⟩ hr
    exact counts_receive hr

/-! ### The end -/

/-- The events after the loop are sent when the text can be, and the counts. -/
theorem finish_eq {p c : ℤ} {started : Bool} {parts : List Str} (h : IsText parts.flatten) :
    ResponsesState.finish float head ⟨(.int p, .int c), started, parts⟩ =
      if PrintableCounts p c then
        some ((if started then [] else head.starting) ++ head.ending parts.flatten ++
          [head.completed parts.flatten p c])
      else none := by
  have hending : ∀ e ∈ head.ending parts.flatten, IsText e.name := by
    simp only [ResponseHead.ending, ResponseHead.textDone, ResponseHead.partDone,
      ResponseHead.itemDone, ResponseHead.event, List.forall_mem_cons]
    decide
  have hcompleted : IsText (head.completed parts.flatten p c).name :=
    (by decide : IsText (str "response.completed"))
  by_cases hprintable : PrintableCounts p c
  swap
  · simp only [ResponsesState.finish, if_neg hprintable]
  simp only [ResponsesState.finish, if_pos hprintable]
  refine (sendAll_eq ?_).trans (if_pos ?_)
  · rw [List.forall_mem_append, List.forall_mem_append, List.forall_mem_singleton]
    exact ⟨⟨forall_mem_once started name_starting, hending⟩, hcompleted⟩
  · rw [List.forall_mem_append, List.forall_mem_append, List.forall_mem_singleton]
    exact ⟨⟨forall_mem_once started ResponseHead.encodable_starting,
      ResponseHead.encodable_ending h⟩, ResponseHead.encodable_completed h p c⟩

/-! ### The counts at the end -/

theorem showInt_ne_comma {n : ℤ} {c : ℕ} (hc : c ∈ showInt n) : c ≠ 44 := by
  have hdigit : ∀ m, ∀ d ∈ showNat m, d ≠ 44 := by
    intro m d hd
    have := digit_bounds (isAsciiDigit_of_mem_showNat hd)
    omega
  rw [showInt] at hc
  split_ifs at hc
  · rcases List.mem_append.mp hc with hc | hc
    · rw [List.mem_singleton.mp hc]
      decide
    · exact hdigit _ c hc
  · exact hdigit _ c hc

/-- A number is read off up to a comma. -/
theorem showInt_comma_inj {m n : ℤ} {s t : Str} (h : showInt m ++ 44 :: s = showInt n ++ 44 :: t) :
    m = n ∧ s = t := by
  have hbefore : ∀ k : ℤ, ∀ r : Str, (showInt k ++ 44 :: r).takeWhile (· ≠ 44) = showInt k := by
    intro k r
    rw [List.takeWhile_append_of_pos (by simpa using fun c hc => showInt_ne_comma hc)]
    simp
  have hshow := congrArg (List.takeWhile (· ≠ 44)) h
  rw [hbefore, hbefore] at hshow
  rw [hshow] at h
  exact ⟨showInt_injective hshow, (List.cons.inj (List.append_cancel_left h)).2⟩

/-- The text of a usage object. -/
theorem dumps_usage (float : Bool → ℕ → ℤ → Str) : ∃ a b d : Str, ∀ p c : ℤ,
    dumps (.raw float) (.obj [(str "input_tokens", .int p), (str "output_tokens", .int c),
      (str "total_tokens", .int (p + c))]) =
      a ++ (showInt p ++ 44 :: (b ++ (showInt c ++ 44 :: (d ++ (showInt (p + c) ++ [125]))))) := by
  refine ⟨123 :: (quote (.raw float) (str "input_tokens") ++ [58]),
    quote (.raw float) (str "output_tokens") ++ [58],
    quote (.raw float) (str "total_tokens") ++ [58], fun p c => ?_⟩
  simp [dumps, dumpsMoreFields, DumpStyle.itemSep, DumpStyle.keySep, DumpStyle.raw]

/-- The last event tells its counts. -/
theorem text_completed_inj {t : Str} {p c p' c' : ℤ}
    (h : (head.completed t p c).text float = (head.completed t p' c').text float) :
    p = p' ∧ c = c' := by
  simp only [SseEvent.text, ResponseHead.completed, ResponseHead.event, ResponseHead.stub,
    List.cons_append, List.nil_append, List.append_assoc, List.append_cancel_left_eq] at h
  generalize hu : Json.obj [(str "input_tokens", .int p), (str "output_tokens", .int c),
      (str "total_tokens", .int (p + c))] = u at h
  generalize hu' : Json.obj [(str "input_tokens", .int p'), (str "output_tokens", .int c'),
      (str "total_tokens", .int (p' + c'))] = u' at h
  simp only [dumps, dumpsMoreFields, List.append_assoc, List.append_cancel_left_eq,
    List.cons_append, List.cons.injEq, true_and] at h
  have hsame := List.append_cancel_right h
  obtain ⟨a, b, d, husage⟩ := dumps_usage float
  rw [← hu, ← hu', husage, husage] at hsame
  obtain ⟨hp, hrest⟩ := showInt_comma_inj (List.append_cancel_left hsame)
  exact ⟨hp, (showInt_comma_inj (List.append_cancel_left hrest)).1⟩

/-- The events that open the response come once, with the first text or after the loop. -/
theorem textEvents_finish (texts : List Str) (p c : ℤ) :
    textEvents head false texts ++
        ((if (false || !texts.isEmpty) = true then [] else head.starting) ++
          head.ending texts.flatten ++ [head.completed texts.flatten p c]) =
      responsesEvents head texts p c := by
  rw [textEvents, responsesEvents]
  cases texts with
  | nil => simp [ResponseHead.deltas]
  | cons t texts => simp

/-- The texts of the events tell the counts. -/
theorem responsesEvents_inj {texts : List Str} {p c p' c' : ℤ}
    (h : (responsesEvents head texts p c).map (SseEvent.text float) =
      (responsesEvents head texts p' c').map (SseEvent.text float)) : p = p' ∧ c = c' := by
  simp only [responsesEvents, List.map_append, List.map_singleton] at h
  exact text_completed_inj (List.cons.inj (List.append_cancel_left h)).1

end

/-- The last count is the last one that is not zero, unless it is zero after one. -/
theorem getLast?_filter_ne_zero_iff {counts : List ℤ} :
    (counts.filter (· ≠ 0)).getLast?.getD 0 = counts.getLast?.getD 0 ↔ KeepsNonzero counts := by
  induction counts using List.reverseRecOn with
  | nil => exact iff_of_true rfl fun h => by cases h
  | append_singleton counts n _ =>
      simp only [KeepsNonzero, List.getLast?_concat, Option.getD_some, Option.some.injEq]
      by_cases hn : n = 0
      · have hdropped : (counts ++ [n]).filter (· ≠ 0) = counts.filter (· ≠ 0) := by simp [hn]
        rw [hdropped, hn]
        simp only [forall_const, List.mem_append, List.mem_singleton]
        constructor
        · intro hlast m hm
          obtain hm | rfl := hm
          · by_contra hne
            have hmem : m ∈ counts.filter (· ≠ 0) := by simp [hm, hne]
            have hsome := List.getLast?_eq_some_getLast (List.ne_nil_of_mem hmem)
            have hlastmem := List.getLast_mem (List.ne_nil_of_mem hmem)
            rw [hsome, Option.getD_some] at hlast
            rw [hlast] at hlastmem
            simp at hlastmem
          · rfl
        · intro hall
          have hnil : counts.filter (· ≠ 0) = [] := by
            refine List.filter_eq_nil_iff.mpr fun m hm => ?_
            simp [hall m (.inl hm)]
          rw [hnil]
          rfl
      · have hkept : (counts ++ [n]).filter (· ≠ 0) = counts.filter (· ≠ 0) ++ [n] := by simp [hn]
        rw [hkept, List.getLast?_concat]
        exact iff_of_true rfl fun h => absurd h hn

/-- **When the stream is that of a response**: every chunk has the shape that the converter
reads, no text has a surrogate, no count that `int` makes zero hides an earlier one, and the
counts and their sum are not too long to be printed. -/
theorem responses_wellFormed_iff (repr : Json → Str) (float : Bool → ℕ → ℤ → Str)
    (head : ResponseHead) (chunks : List DecodedChunk) :
    WellFormedResponse repr float head chunks ↔
      (∀ chunk ∈ chunks, expectedShape float (.obj chunk.fields) = true) ∧
        KeepsNonzero (countsOf (str "prompt_tokens") chunks) ∧
        KeepsNonzero (countsOf (str "completion_tokens") chunks) ∧
        PrintableCounts (lastCount (str "prompt_tokens") chunks)
          (lastCount (str "completion_tokens") chunks) := by
  have hsome := @collect_isSome repr float head (chunks.map DecodedChunk.obj)
    ⟨zeroCounts, false, []⟩ ⟨0, 0, rfl⟩
  rw [List.all_map] at hsome
  rw [WellFormedResponse, responsesStream, responsesOfObjects]
  cases hr : collect (ResponsesState.receive repr float head) ⟨zeroCounts, false, []⟩
      (chunks.map DecodedChunk.obj) with
  | none =>
      rw [hr] at hsome
      refine iff_of_false (fun h => by cases h) fun h => ?_
      cases hsome.trans (List.all_eq_true.mpr h.1)
  | some r =>
      rw [hr] at hsome
      have hshape : ∀ chunk ∈ chunks, expectedShape float (.obj chunk.fields) = true :=
        List.all_eq_true.mp hsome.symm
      obtain ⟨rfl, htexts⟩ := collect_some hr
      have hflat : IsText (chunks.filterMap DecodedChunk.text?).flatten := by
        intro c hc
        obtain ⟨t, ht, hc⟩ := List.mem_flatten.mp hc
        exact htexts t ht c hc
      rw [and_iff_right hshape, ← getLast?_filter_ne_zero_iff, ← getLast?_filter_ne_zero_iff]
      simp only [Option.bind_eq_bind, Option.bind_some, List.nil_append, finish_eq hflat]
      -- the counts of the converter are the last ones
      generalize hp : (countsOf (str "prompt_tokens") chunks).getLast?.getD 0 = p
      generalize hc : (countsOf (str "completion_tokens") chunks).getLast?.getD 0 = c
      change _ ↔ lastCount (str "prompt_tokens") chunks = p ∧
        lastCount (str "completion_tokens") chunks = c ∧ _
      constructor
      · intro h
        by_cases hprintable : PrintableCounts p c
        · rw [if_pos hprintable, Option.bind_some, textEvents_finish] at h
          obtain ⟨hprompt, hcompletion⟩ :=
            responsesEvents_inj (List.append_cancel_right (Option.some.inj h))
          rw [← hprompt, ← hcompletion]
          exact ⟨rfl, rfl, hprintable⟩
        · rw [if_neg hprintable] at h
          cases h
      · rintro ⟨hprompt, hcompletion, hprintable⟩
        rw [hprompt, hcompletion] at hprintable ⊢
        rw [if_pos hprintable, Option.bind_some, textEvents_finish, Option.map_some]

/-- A chunk with half of a surrogate pair. -/
def halfPair : DecodedChunk where
  event := none
  fields := [(str "choices", .arr [.obj [(str "delta", .obj [(str "content", .str [0xD83D])])]])]
  isStr := fun _ h => ⟨[0xD83D], (Option.some.inj h).symm⟩

/-- Half of a surrogate pair, as an upstream that cuts within an escaped pair sends it, ends the
stream. -/
theorem halfPair_not_wellFormed :
    (openaiChatSseToResponsesSse (fun _ => []) noFloats plainHead
      [encode (str "data: \x7b\"choices\":[\x7b\"delta\":\x7b\"content\":\"\\ud83d\"\x7d\x7d]\x7d\n\n")]).isNone =
        true ∧
      ¬ WellFormedResponse (fun _ => []) noFloats plainHead [halfPair] := by
  have hnone : (responsesStream (fun _ => []) noFloats plainHead [halfPair.obj]).isNone = true := by
    decide +kernel
  refine ⟨by decide +kernel, fun h => ?_⟩
  have hsome : responsesStream (fun _ => []) noFloats plainHead [halfPair.obj] = some _ := h
  rw [hsome] at hnone
  cases hnone

end Llmxy
