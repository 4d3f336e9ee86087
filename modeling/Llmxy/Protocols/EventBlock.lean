import Llmxy.Lib.ThinJson
import Llmxy.Protocols.ChatRead
import Llmxy.Protocols.DataLine

/-!
# Blocks with an event's name

`_iter_sse_events` decodes each chunk of bytes alone, takes the blocks off its buffer one
by one and splits each into lines with `str.splitlines`.  A block whose JSON text has a
character that ends a line for `splitlines` only is not read; from any other block the
whole object is.

## Main definitions

* `readBlock`, `iterSseEvents` — the decoder.
* `SseEvent.Fit` — an event that can be sent, `SseEvent.Whole` — and that is read.
* `readBlock_event` — what is read off its block.
* `thins_eventsText` — events that have lost characters.
-/

namespace Llmxy

/-- What the lines of a block say: the event's name and its data lines.  A line that ends
the stream also ends the loop. -/
def readLines (name : Option Str) (data : List Str) : List Str → Option Str × List Str
  | [] => (name, data)
  | line :: lines =>
      if startsWith (str "event:") (strip line) then
        readLines (some (strip ((strip line).drop 6))) data lines
      else if startsWith (str "data:") (strip line) then
        let raw := strip ((strip line).drop 5)
        if raw = str "[DONE]" then (name, []) else readLines name (data ++ [raw]) lines
      else readLines name data lines

/-- A block, if it holds a dictionary. -/
def readBlock (block : Str) : Option (Option Str × List (Str × Json)) :=
  let lines := readLines none [] (splitlines block)
  if lines.2 = [] then none
  else ((loads (join [10] lines.2)).bind Json.fields?).map fun fields => (lines.1, fields)

/-- `_iter_sse_events`.  The text after the last block stays in the buffer. -/
def iterSseEvents (buffer : Str) : List Bytes → List (Option Str × List (Str × Json))
  | [] => []
  | chunk :: chunks =>
      let parts := splitBlank (buffer ++ decode chunk)
      parts.1.filterMap readBlock ++ iterSseEvents parts.2 chunks

/-! ### Data lines -/

variable {style : DumpStyle} {own : Str}

theorem readLines_data {line raw : Str} {name : Option Str} {data lines : List Str}
    (h : dataText line = some raw) : readLines name data (line :: lines) =
      if raw = str "[DONE]" then (name, []) else readLines name (data ++ [raw]) lines := by
  unfold dataText at h
  split_ifs at h with hdata
  obtain rfl := Option.some.inj h
  have hevent : startsWith (str "event:") (strip line) = false := by
    obtain ⟨rest, hrest⟩ := List.isPrefixOf_iff_prefix.mp hdata
    rw [← hrest]
    rfl
  rw [readLines, hevent, if_neg Bool.false_ne_true, if_pos hdata]

/-- Lines that are read are added to those before them, unless the stream ends. -/
theorem readLines_append (name : Option Str) (data lines : List Str) :
    (readLines name data lines).2 = [] ∨ ∃ more, (readLines name data lines).2 = data ++ more := by
  fun_induction readLines name data lines with
  | case1 name data => exact Or.inr ⟨[], (List.append_nil _).symm⟩
  | case2 name data line lines hevent ih => exact ih
  | case3 => exact Or.inl rfl
  | case4 name data line lines hevent hdata raw hraw ih =>
      rcases ih with ih | ⟨more, ih⟩
      · exact Or.inl ih
      · exact Or.inr ⟨raw :: more, by rw [ih, List.append_assoc]; rfl⟩
  | case5 name data line lines hevent hdata ih => exact ih

theorem join_cons (line : Str) (lines : List Str) :
    ∃ t, join [10] (line :: lines) = line ++ t ∧ BrokenOff t := by
  cases lines with
  | nil => exact ⟨[], by simp [join], Or.inl rfl⟩
  | cons l ls => exact ⟨10 :: (join [10] (l :: ls)), by simp [join], Or.inr ⟨_, rfl⟩⟩

section Block
variable {f : Str × Json} {fs : List (Str × Json)} {name : Option Str}

theorem dumps_obj (style : DumpStyle) (f : Str × Json) (fs : List (Str × Json)) :
    ∃ m, dumps style (.obj (f :: fs)) = 123 :: (m ++ [125]) := by
  obtain ⟨k, x⟩ := f
  exact ⟨_, by rw [dumps]⟩

theorem dataText_dumps :
    dataText (str "data: " ++ dumps style (.obj (f :: fs))) = some (dumps style (.obj (f :: fs))) := by
  obtain ⟨m, hm⟩ := dumps_obj style f fs
  rw [hm, dataText_object]

theorem ne_done_of_brace (m : Str) : 123 :: m ≠ str "[DONE]" := fun h =>
  absurd (List.cons.inj h).1 (by decide)

/-- A text that stands on one line is the only data line. -/
theorem readLines_whole (hclean : Clean own (.obj (f :: fs)))
    (hline : ∀ c ∈ dumps style (.obj (f :: fs)), ¬ IsUnicodeBreak c) :
    readLines name [] (splitlines (str "data: " ++ dumps style (.obj (f :: fs)))) =
      (name, [dumps style (.obj (f :: fs))]) := by
  have hall := not_isLineBreak_dataLine (fun c hc => (written_dumps _ hclean.plain hc).low) hline
  obtain ⟨m, hm⟩ := dumps_obj style f fs
  have hne : dumps style (.obj (f :: fs)) ≠ str "[DONE]" := by
    rw [hm]
    exact ne_done_of_brace _
  rw [splitlines_line hall (by simp [hm]), readLines_data dataText_dumps, if_neg hne]
  rfl

/-- **A text that `splitlines` breaks is no JSON**, whatever its other lines are. -/
theorem loads_of_break (hclean : Clean own (.obj (f :: fs)))
    (hbreak : ∃ c ∈ dumps style (.obj (f :: fs)), IsUnicodeBreak c) {data : List Str}
    (hdata : (readLines name [] (splitlines (str "data: " ++ dumps style (.obj (f :: fs))))).2 = data) :
    data = [] ∨ loads (join [10] data) = none := by
  obtain ⟨p, b, q, htext, hb, hnone⟩ := exists_first hbreak
  have hbig : 128 ≤ b := by
    unfold IsUnicodeBreak at hb
    omega
  have hlow : ∀ c ∈ dumps style (.obj (f :: fs)), 32 ≤ c := fun c hc =>
    (written_dumps _ hclean.plain hc).low
  have hraw : style.ensureAscii = false := by
    rcases written_dumps _ hclean.plain (htext ▸ by simp : b ∈ dumps style (.obj (f :: fs))) with
      h | ⟨hraw, -⟩
    · omega
    · exact hraw
  -- the first line ends at the break
  have hfirst := not_isLineBreak_dataLine (fun c hc => hlow c (htext ▸ by simp [hc])) hnone
  have hlines : splitlines (str "data: " ++ dumps style (.obj (f :: fs))) =
      (str "data: " ++ p) :: splitlines q := by
    rw [htext, ← List.append_assoc, splitlines_break hfirst ((isLineBreak_iff (by omega)).mpr hb)
      (by omega)]
  -- and breaks off within a string
  obtain ⟨value, before, after, s, hvalue, hplain, hs, rfl⟩ :=
    stringCut_dumps _ hclean.plain hclean.keys htext hbig
  obtain ⟨m, hm⟩ := dumps_obj style f fs
  cases before with
  | nil =>
      rw [hm] at htext
      exact absurd (List.cons.inj htext).1 (by decide)
  | cons d before =>
      obtain rfl : d = 123 := by
        rw [hm] at htext
        exact (List.cons.inj htext).1.symm
      obtain ⟨s', hs', hcut⟩ := @dataText_cut style before s
      have hstring : StringCut style (dumps style) Json.Plain (123 :: (before ++ 34 :: escape style s')) :=
        ⟨value, 123 :: before, after, s', hvalue, hplain, fun c hc => hs c (hs'.subset hc), rfl⟩
      rw [hlines, List.cons_append, readLines_data hcut, if_neg (ne_done_of_brace _),
        List.nil_append] at hdata
      rcases readLines_append name [123 :: (before ++ 34 :: escape style s')] (splitlines q) with
        hnil | ⟨more, hmore⟩
      · exact Or.inl (hdata.symm.trans hnil)
      · obtain ⟨t, hjoin, ht⟩ := join_cons (123 :: (before ++ 34 :: escape style s')) more
        rw [hmore] at hdata
        rw [← hdata, List.singleton_append, hjoin]
        exact Or.inr (hstring.loads hraw ht)

/-- What is read off a block whose lines are those of a data line. -/
theorem readBlock_of_lines {block : Str} (hclean : Clean own (.obj (f :: fs)))
    (hlines : readLines none [] (splitlines block) =
      readLines name [] (splitlines (str "data: " ++ dumps style (.obj (f :: fs))))) :
    readBlock block =
      if ∀ c ∈ dumps style (.obj (f :: fs)), ¬ IsUnicodeBreak c then some (name, f :: fs) else none := by
  split_ifs with hline
  · have hjoin : join [10] [dumps style (.obj (f :: fs))] = dumps style (.obj (f :: fs)) := by
      simp [join]
    simp only [readBlock, hlines, readLines_whole hclean hline, hjoin, loads_dumps hclean.plain]
    rfl
  · push Not at hline
    simp only [readBlock, hlines]
    rcases loads_of_break hclean hline rfl with hnil | hnone
    · rw [hnil]
      rfl
    · rw [hnone]
      split_ifs <;> rfl

/-- A data line alone. -/
theorem readBlock_data (hclean : Clean own (.obj (f :: fs))) :
    readBlock (str "data: " ++ dumps style (.obj (f :: fs))) =
      if ∀ c ∈ dumps style (.obj (f :: fs)), ¬ IsUnicodeBreak c then some (none, f :: fs) else none :=
  readBlock_of_lines hclean rfl

end Block

/-! ### Events -/

/-- A name that is read back from its line. -/
def GoodName (name : Str) : Prop :=
  strip (str "event: " ++ name) = str "event: " ++ name ∧ strip (32 :: name) = name ∧
    ∀ c ∈ name, 32 ≤ c ∧ c < 128

instance (name : Str) : Decidable (GoodName name) := by unfold GoodName; infer_instance

/-- An event with its name as its type, and no characters but ASCII and those of `own`. -/
structure SseEvent.Fit (own : Str) (e : SseEvent) : Prop where
  name : GoodName e.name
  data : ∃ fields, e.data = .obj ((str "type", .str e.name) :: fields)
  clean : Clean own e.data

/-- The text of events. -/
def eventsText (float : Bool → ℕ → ℤ → Str) (events : List SseEvent) : Str :=
  events.flatMap (SseEvent.text float)

namespace SseEvent
variable {float : Bool → ℕ → ℤ → Str} {e : SseEvent}

/-- The text of an event without the empty line after it. -/
def block (float : Bool → ℕ → ℤ → Str) (e : SseEvent) : Str :=
  str "event: " ++ e.name ++ 10 :: (str "data: " ++ dumps (.raw float) e.data)

/-- An event whose text `splitlines` does not break. -/
def Whole (float : Bool → ℕ → ℤ → Str) (e : SseEvent) : Prop :=
  ∀ c ∈ dumps (.raw float) e.data, ¬ IsUnicodeBreak c

instance (float : Bool → ℕ → ℤ → Str) : DecidablePred (Whole float) := fun e => by
  unfold Whole
  infer_instance

/-- What is read off an event. -/
def read (float : Bool → ℕ → ℤ → Str) (e : SseEvent) : Option (Option Str × List (Str × Json)) :=
  if e.Whole float then e.data.fields?.map fun fields => (some e.name, fields) else none

theorem whole_iff (h : e.Fit own) : e.Whole float ↔ ∀ c ∈ e.data.chars, ¬ IsUnicodeBreak c := by
  constructor
  · intro hwhole c hc hbreak
    have hbig : 128 ≤ c := by
      unfold IsUnicodeBreak at hbreak
      omega
    exact hwhole c (mem_dumps rfl h.clean.keys hbig hc) hbreak
  · intro hchars c hc hbreak
    rcases written_dumps _ h.clean.plain hc with hascii | ⟨-, -, hown, -⟩
    · unfold IsUnicodeBreak at hbreak
      omega
    · exact hchars c hown hbreak

/-- The name of an event has no line breaks. -/
theorem whole_iff_text (h : e.Fit own) : e.Whole float ↔ ∀ c ∈ e.text float, ¬ IsUnicodeBreak c := by
  have hascii : ∀ a : Str, (∀ c ∈ a, c < 128) → ∀ c ∈ a, ¬ IsUnicodeBreak c := by
    intro a ha c hc hbreak
    have := ha c hc
    unfold IsUnicodeBreak at hbreak
    omega
  have hevent := hascii (str "event: ") (by decide)
  have hname := hascii e.name fun c hc => (h.name.2.2 c hc).2
  have hline := hascii (str "\ndata: ") (by decide)
  have hblank := hascii [10, 10] (by decide)
  rw [text]
  simp only [List.forall_mem_append]
  exact ⟨fun hwhole => ⟨⟨⟨⟨hevent, hname⟩, hline⟩, hwhole⟩, hblank⟩, fun h => h.1.2⟩

/-- **What is read off the block of an event**: the event, if its text stands on one line. -/
theorem readBlock_event (h : e.Fit own) : readBlock (e.block float) = e.read float := by
  obtain ⟨⟨hevent, hname, hascii⟩, ⟨fields, hdata⟩, hclean⟩ := h
  have hstarts : ∀ c ∈ str "event: ", isLineBreak c = false := by decide
  have hline : ∀ c ∈ str "event: " ++ e.name, isLineBreak c = false := by
    intro c hc
    rcases List.mem_append.mp hc with hc | hc
    · exact hstarts c hc
    · exact not_isLineBreak_of_ascii (hascii c hc)
  have hlines : splitlines (e.block float) =
      (str "event: " ++ e.name) :: splitlines (str "data: " ++ dumps (.raw float) e.data) :=
    splitlines_break hline (by decide) (by decide) _
  rw [hdata] at hclean hlines
  have hread : readLines none [] (splitlines (e.block float)) = readLines (some e.name) []
      (splitlines (str "data: " ++ dumps (.raw float) (.obj ((str "type", .str e.name) :: fields)))) := by
    have hstart : startsWith (str "event:") (str "event: " ++ e.name) = true := rfl
    have hdrop : (str "event: " ++ e.name).drop 6 = 32 :: e.name := rfl
    rw [hlines, readLines, hevent, if_pos hstart, hdrop, hname]
  simp only [readBlock_of_lines hclean hread, read, Whole, hdata]
  rfl

theorem text_eq (float : Bool → ℕ → ℤ → Str) (e : SseEvent) (rest : Str) :
    e.text float ++ rest = (str "event: " ++ e.name) ++
      10 :: ((str "data: " ++ dumps (.raw float) e.data) ++ 10 :: 10 :: rest) := by
  have hline : str "\ndata: " = 10 :: str "data: " := rfl
  rw [text, hline]
  simp

theorem splitBlank_text (h : e.Fit own) (rest : Str) :
    splitBlank (e.text float ++ rest) = (e.block float :: (splitBlank rest).1, (splitBlank rest).2) := by
  have hname : 10 ∉ str "event: " ++ e.name := by
    have hstarts : 10 ∉ str "event: " := by decide
    rw [List.mem_append, not_or]
    refine ⟨hstarts, fun hmem => ?_⟩
    have := h.name.2.2 10 hmem
    omega
  have hdata : 10 ∉ str "data: " ++ dumps (.raw float) e.data := by
    have hstarts : 10 ∉ str "data: " := by decide
    rw [List.mem_append, not_or]
    exact ⟨hstarts, fun hmem => absurd (written_dumps _ h.clean.plain hmem).low (by decide)⟩
  rw [text_eq, splitBlank_block₂ hname hdata (by simp [str])]
  rfl

/-- An event that has lost characters. -/
def Thinned (e e' : SseEvent) : Prop := e'.name = e.name ∧ e.data.Thinned e'.data

theorem Thinned.fit {e' : SseEvent} (h : e.Thinned e') (he : e.Fit own) : e'.Fit own := by
  obtain ⟨hname, hdata⟩ := h
  obtain ⟨hgood, ⟨fields, hfields⟩, hclean⟩ := he
  have hclean' := hdata.clean hclean
  rw [hfields] at hdata
  obtain ⟨_, hobj, w, gs, rfl, ⟨t, rfl, ht⟩, -⟩ := hdata
  have hsame : t = e.name := ht.eq_of_ascii fun c hc => (hgood.2.2 c hc).2
  refine ⟨hname ▸ hgood, ⟨gs, ?_⟩, hclean'⟩
  rw [hobj, hsame, hname]

theorem thins_text {t : Str} (h : e.Fit own) (ht : Thins (e.text float) t) :
    ∃ e', t = e'.text float ∧ e.Thinned e' := by
  have hevent : ∀ c ∈ str "event: " ++ e.name ++ str "\ndata: ", c < 128 := by
    have hstarts : ∀ c ∈ str "event: ", c < 128 := by decide
    have hline : ∀ c ∈ str "\ndata: ", c < 128 := by decide
    simp only [List.forall_mem_append]
    exact ⟨⟨hstarts, fun c hc => (h.name.2.2 c hc).2⟩, hline⟩
  obtain ⟨t₁, rfl, ht₁⟩ := Thins.append_ascii ht (by decide)
  obtain ⟨t₂, rfl, ht₂⟩ := ht₁.ascii_append hevent
  obtain ⟨w, rfl, hw⟩ := thins_dumps e.data h.clean.plain h.clean.keys ht₂
  exact ⟨⟨e.name, w⟩, rfl, rfl, hw⟩

end SseEvent

section Events
variable {float : Bool → ℕ → ℤ → Str} {events events' : List SseEvent}

/-- **Events that have lost characters** are read as events. -/
theorem thins_eventsText {t : Str} (h : ∀ e ∈ events, ∃ own, e.Fit own)
    (ht : Thins (eventsText float events) t) :
    ∃ events', t = eventsText float events' ∧ events.Forall₂ SseEvent.Thinned events' := by
  induction events generalizing t with
  | nil =>
      cases ht
      exact ⟨[], rfl, .nil⟩
  | cons e events ih =>
      obtain ⟨own, he⟩ := h e List.mem_cons_self
      rw [eventsText, List.flatMap_cons] at ht
      obtain ⟨t₁, t₂, rfl, ht₁, ht₂⟩ := ht.of_append
      obtain ⟨e', rfl, he'⟩ := SseEvent.thins_text he ht₁
      obtain ⟨events', rfl, hevents'⟩ := ih (fun e he => h e (List.mem_cons_of_mem _ he)) ht₂
      exact ⟨e' :: events', rfl, .cons he' hevents'⟩

theorem eventsText_append (a b : List SseEvent) :
    eventsText float (a ++ b) = eventsText float a ++ eventsText float b := List.flatMap_append

/-- Events can be encoded. -/
theorem isText_eventsText (h : ∀ e ∈ events, ∃ own, e.Fit own) : IsText (eventsText float events) := by
  intro c hc
  obtain ⟨e, he, hc⟩ := List.mem_flatMap.mp hc
  obtain ⟨own, hfit⟩ := h e he
  have hsend := @sse_of_plain float _ _ (fun c hc => (hfit.name.2.2 c hc).2) hfit.clean.plain
  unfold sse at hsend
  split_ifs at hsend with htext
  exact htext c hc

theorem fit_of_thinned (h : ∀ e ∈ events, ∃ own, e.Fit own)
    (hthinned : events.Forall₂ SseEvent.Thinned events') : ∀ e ∈ events', ∃ own, e.Fit own := by
  induction hthinned with
  | nil => exact fun e he => by cases he
  | @cons e e' events events' he _ ih =>
      obtain ⟨own, hfit⟩ := h e List.mem_cons_self
      intro d hd
      rcases List.mem_cons.mp hd with rfl | hd
      · exact ⟨own, he.fit hfit⟩
      · exact ih (fun e he => h e (List.mem_cons_of_mem _ he)) d hd

/-- What is read off the blocks of events, before the line that ends the stream. -/
theorem readBlocks_eventsText (h : ∀ e ∈ events, ∃ own, e.Fit own) :
    (splitBlank (eventsText float events ++ sseData (str "[DONE]"))).1.filterMap readBlock =
      events.filterMap (SseEvent.read float) := by
  induction events with
  | nil =>
      exact (by decide : (splitBlank (sseData (str "[DONE]"))).1.filterMap readBlock = [])
  | cons e events ih =>
      obtain ⟨own, he⟩ := h e List.mem_cons_self
      rw [eventsText, List.flatMap_cons, List.append_assoc, SseEvent.splitBlank_text he,
        List.filterMap_cons, SseEvent.readBlock_event he, List.filterMap_cons,
        ← ih fun e he => h e (List.mem_cons_of_mem _ he)]
      rfl

/-- **The pieces do not matter once they are decoded.** -/
theorem iterSseEvents_eq (buffer : Str) (h : splitBlank buffer = ([], buffer)) (pieces : List Bytes) :
    iterSseEvents buffer pieces =
      (splitBlank (buffer ++ (pieces.map decode).flatten)).1.filterMap readBlock := by
  induction pieces generalizing buffer with
  | nil =>
      rw [List.map_nil, List.flatten_nil, List.append_nil, h]
      rfl
  | cons piece pieces ih =>
      rw [List.map_cons, List.flatten_cons, ← List.append_assoc, splitBlank_append,
        List.filterMap_append, iterSseEvents, ih _ (splitBlank_rest _)]

end Events

end Llmxy
