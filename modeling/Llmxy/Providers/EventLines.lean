import Llmxy.Protocols.ChatRead
import Llmxy.Protocols.DataLine

/-!
# The event streams of the providers

The adapters of Anthropic and Gemini read the text of a stream alike: they keep the text
after the last empty line for the next chunk, split each block into lines with
`str.splitlines`, and parse the text of each line that starts with `data:`.

## Main definitions

* `readLine`, `readPart`, `readStream` — the loops, around what is done with an event.
* `ServerEvent` — an event of a provider, `eventStream` — the text of a stream.
* `readStream_eq` — the chunks do not matter.
* `readPart_whole`, `readPart_broken` — what is read off the block of an event.
-/

namespace Llmxy

/-! ### Reading -/

/-- The text on a line that is to be parsed. -/
def lineData (line : Str) : Option Str :=
  if startsWith (str "data:") line then
    let data := strip (line.drop 5)
    if data.isEmpty then none else some data
  else none

section Read
variable {σ ε : Type} (step : σ → Json → Option (List ε × σ))

/-- A line.  A text that is no JSON is skipped. -/
def readLine (s : σ) (line : Str) : Option (List ε × σ) :=
  match (lineData line).bind loads with
  | none => some ([], s)
  | some ev => step s ev

/-- A block. -/
def readPart (s : σ) (part : Str) : Option (List ε × σ) :=
  collect (readLine step) s (splitlines part)

/-- A chunk, with the text that is kept from the chunks before it. -/
def readChunk (r : Str × σ) (chunk : Str) : Option (List ε × Str × σ) :=
  let parts := splitBlank (r.1 ++ chunk)
  (collect (readPart step) r.2 parts.1).map fun out => (out.1, parts.2, out.2)

/-- The chunks of a stream.  `none` when an event raises. -/
def readStream (s : σ) (chunks : List Str) : Option (List ε × σ) :=
  (collect (readChunk step) ([], s) chunks).map fun out => (out.1, out.2.2)

variable {step}

theorem collect_readChunk (chunks : List Str) {buffer : Str} {s : σ}
    (h : splitBlank buffer = ([], buffer)) :
    collect (readChunk step) (buffer, s) chunks =
      (collect (readPart step) s (splitBlank (buffer ++ chunks.flatten)).1).map fun out =>
        (out.1, (splitBlank (buffer ++ chunks.flatten)).2, out.2) := by
  induction chunks generalizing buffer s with
  | nil =>
      rw [List.flatten_nil, List.append_nil, h]
      rfl
  | cons chunk chunks ih =>
      rw [List.flatten_cons, ← List.append_assoc, splitBlank_append, collect_append]
      simp only [collect, readChunk, Option.bind_eq_bind]
      cases collect (readPart step) s (splitBlank (buffer ++ chunk)).1 with
      | none => rfl
      | some r =>
          simp only [Option.map_some, Option.bind_some]
          rw [ih (splitBlank_rest _)]
          cases collect (readPart step) r.2
              (splitBlank ((splitBlank (buffer ++ chunk)).2 ++ chunks.flatten)).1 with
          | none => rfl
          | some rs => rfl

/-- **The chunks do not matter**: the blocks of the whole text are read one after the
other. -/
theorem readStream_eq (s : σ) (chunks : List Str) :
    readStream step s chunks = collect (readPart step) s (splitBlank chunks.flatten).1 := by
  rw [readStream, collect_readChunk chunks rfl, Option.map_map, List.nil_append]
  cases collect (readPart step) s (splitBlank chunks.flatten).1 <;> rfl

/-- What a stream yields, its events yield. -/
theorem readStream_forall {p : ε → Prop}
    (h : ∀ s ev r, step s ev = some r → ∀ e ∈ r.1, p e) {s : σ} {chunks : List Str}
    {r : List ε × σ} (hr : readStream step s chunks = some r) : ∀ e ∈ r.1, p e := by
  rw [readStream_eq] at hr
  refine collect_forall (fun s part r hr => collect_forall (fun s line r hr => ?_) hr) hr
  rw [readLine] at hr
  split at hr
  · obtain rfl := Option.some.inj hr
    exact List.forall_mem_nil p
  · exact h _ _ _ hr

end Read

/-! ### Events -/

/-- An event that a provider sends, with its name if it has one. -/
structure ServerEvent where
  name : Option Str
  data : Json

namespace ServerEvent

/-- The line with the name. -/
def nameLine (e : ServerEvent) : Str :=
  (e.name.map fun name => str "event: " ++ (name ++ [10])).getD []

/-- The lines of an event. -/
def block (style : DumpStyle) (e : ServerEvent) : Str :=
  e.nameLine ++ (str "data: " ++ dumps style e.data)

end ServerEvent

/-- The text of a stream. -/
def eventStream (style : DumpStyle) (events : List ServerEvent) : Str :=
  events.flatMap fun e => e.block style ++ [10, 10]

/-- A stream as it comes: its text in chunks. -/
structure Chunked (text : Str) where
  chunks : List Str
  flatten_chunks : chunks.flatten = text

/-! ### Blocks -/

/-- An event with a name of one line and an object that is read back. -/
structure ServerEvent.Fit (e : ServerEvent) : Prop where
  name : ∀ name, e.name = some name → ∀ c ∈ name, 32 ≤ c ∧ c < 128
  data : ∃ f fs, e.data = .obj (f :: fs)
  clean : ∃ own, Clean own e.data

namespace ServerEvent
variable {style : DumpStyle} {e : ServerEvent}

theorem low_dumps (h : e.Fit) {c : ℕ} (hc : c ∈ dumps style e.data) : 32 ≤ c := by
  obtain ⟨own, hclean⟩ := h.clean
  exact (written_dumps _ hclean.plain hc).low

theorem dumps_object (h : e.Fit) : ∃ m, dumps style e.data = 123 :: (m ++ [125]) := by
  obtain ⟨⟨k, x⟩, fs, hdata⟩ := h.data
  rw [hdata, dumps]
  exact ⟨_, rfl⟩

theorem splitBlank_event (h : e.Fit) (rest : Str) :
    splitBlank ((e.block style ++ [10, 10]) ++ rest) =
      (e.block style :: (splitBlank rest).1, (splitBlank rest).2) := by
  have hdata : 10 ∉ str "data: " ++ dumps style e.data := fun hc => by
    rcases List.mem_append.mp hc with hc | hc
    · revert hc
      decide
    · exact absurd (low_dumps h hc) (by decide)
  rw [List.append_assoc, block, nameLine]
  cases hname : e.name with
  | none => exact splitBlank_block hdata rest
  | some name =>
      have hevent : 10 ∉ str "event: " ++ name := fun hc => by
        rcases List.mem_append.mp hc with hc | hc
        · revert hc
          decide
        · exact absurd (h.name name hname 10 hc).1 (by decide)
      have hsplit := splitBlank_block₂ hevent hdata nofun rest
      simpa using hsplit

end ServerEvent

theorem splitBlank_eventStream {style : DumpStyle} {events : List ServerEvent}
    (h : ∀ e ∈ events, e.Fit) :
    (splitBlank (eventStream style events)).1 = events.map (ServerEvent.block style) := by
  induction events with
  | nil => rfl
  | cons e events ih =>
      rw [List.forall_mem_cons] at h
      rw [eventStream, List.flatMap_cons, ServerEvent.splitBlank_event h.1, List.map_cons]
      exact congrArg (e.block style :: ·) (ih h.2)

section Part
variable {σ ε : Type} {step : σ → Json → Option (List ε × σ)} {s : σ} {style : DumpStyle}
  {e : ServerEvent}

/-- **The whole stream** is read event by event. -/
theorem readStream_events {events : List ServerEvent} (h : ∀ e ∈ events, e.Fit)
    (d : Chunked (eventStream style events)) :
    readStream step s d.chunks = collect (fun s e => readPart step s (e.block style)) s events := by
  rw [readStream_eq, d.flatten_chunks, splitBlank_eventStream h, collect_map]

/-- The line with the name is skipped. -/
theorem readPart_block (h : e.Fit) :
    readPart step s (e.block style) = readPart step s (str "data: " ++ dumps style e.data) := by
  rw [ServerEvent.block, ServerEvent.nameLine]
  cases hname : e.name with
  | none => rfl
  | some name =>
      have hline : ∀ c ∈ str "event: " ++ name, isLineBreak c = false := fun c hc => by
        have hstarts : ∀ c ∈ str "event: ", isLineBreak c = false := by decide
        rcases List.mem_append.mp hc with hc | hc
        · exact hstarts c hc
        · exact not_isLineBreak_of_ascii (h.name name hname c hc)
      have hsplit := splitlines_break hline (b := 10) (by decide) (by decide)
        (str "data: " ++ dumps style e.data)
      have hskip : readLine step s (str "event: " ++ name) = some ([], s) := rfl
      rw [Option.map_some, Option.getD_some, List.append_assoc, List.append_assoc,
        ← List.append_assoc, List.singleton_append, readPart, hsplit, collect, hskip,
        Option.bind_eq_bind, Option.bind_some, readPart]
      cases collect (readLine step) s (splitlines (str "data: " ++ dumps style e.data)) <;> rfl

/-- The text of an object is read off its line. -/
theorem lineData_object (m : Str) :
    lineData (str "data: " ++ 123 :: (m ++ [125])) = some (123 :: (m ++ [125])) := by
  have hstart : startsWith (str "data:") (str "data: " ++ 123 :: (m ++ [125])) = true := rfl
  have hdrop : strip ((str "data: " ++ 123 :: (m ++ [125])).drop 5) = strip (123 :: (m ++ [125])) :=
    rfl
  rw [lineData, if_pos hstart, hdrop, strip_of_ends (by decide) (by decide)]
  rfl

/-- **An event that stands on one line is read.** -/
theorem readPart_whole (h : e.Fit) (hline : ∀ c ∈ dumps style e.data, ¬ IsUnicodeBreak c) :
    readPart step s (e.block style) = step s e.data := by
  have hall := not_isLineBreak_dataLine (fun c hc => ServerEvent.low_dumps h hc) hline
  obtain ⟨m, hm⟩ := @ServerEvent.dumps_object style _ h
  obtain ⟨own, hclean⟩ := h.clean
  have hloads := @loads_dumps style _ hclean.plain
  rw [readPart_block h, readPart, splitlines_line hall nofun]
  rw [hm] at hloads ⊢
  simp only [collect, readLine, lineData_object, Option.bind_some, hloads, Option.bind_eq_bind,
    List.append_nil]
  cases step s e.data <;> rfl

/-- A value whose own text has no line break stands on one line. -/
theorem not_break_of_clean {v : Json} {own : Str} (h : Clean own v)
    (hown : style.ensureAscii = true ∨ ∀ c ∈ own, ¬ IsUnicodeBreak c) :
    ∀ c ∈ dumps style v, ¬ IsUnicodeBreak c := by
  intro c hc hbreak
  have hbig : 128 ≤ c := by
    unfold IsUnicodeBreak at hbreak
    omega
  rcases written_dumps v h.plain hc with hascii | ⟨hraw, -, hmem, -⟩
  · omega
  · rcases h.chars c hmem with hsmall | hmem
    · omega
    · rcases hown with hstyle | hown
      · rw [hraw] at hstyle
        cases hstyle
      · exact hown c hmem hbreak

/-- An event in ASCII is read. -/
theorem readPart_ascii (h : e.Fit) (hclean : Clean [] e.data) :
    readPart step s (e.block style) = step s e.data :=
  readPart_whole h (not_break_of_clean hclean (Or.inr (List.forall_mem_nil _)))

/-! ### Blocks that are broken -/

/-- What a reader does with a value that is no event: nothing with an empty object, and it
raises for anything but a dictionary. -/
structure IsReader (step : σ → Json → Option (List ε × σ)) : Prop where
  empty : ∀ s, step s (.obj []) = some ([], s)
  other : ∀ s v, v.fields? = none → step s v = none

/-- An object with a string in it that a key comes after, if anything does. -/
structure TextSlot (style : DumpStyle) (value : Str → Json) : Prop where
  hole : ∃ before after m, Hole style value (123 :: (before ++ [34])) (34 :: after) ∧
    after = m ++ [125] ∧ NoKey after
  clean : ∀ t, IsText t → Clean t (value t)

theorem lineData_loads_obj {line raw : Str} {f : Str × Json} {fs : List (Str × Json)}
    (hraw : lineData line = some raw) (hobj : loads raw = some (.obj (f :: fs))) :
    HoldsKey line := by
  have hdata : 34 ∉ str "data:" := by decide
  unfold lineData at hraw
  split_ifs at hraw with hstart
  obtain ⟨rest, rfl⟩ := List.isPrefixOf_iff_prefix.mp hstart
  have hdrop : (str "data:" ++ rest).drop 5 = rest := rfl
  obtain ⟨sp, sp', htext, hsp, hsp'⟩ := exists_of_strip rest
  dsimp only at hraw
  rw [hdrop] at hraw
  split_ifs at hraw with hempty
  obtain rfl := Option.some.inj hraw
  have hpre : 34 ∉ str "data:" ++ sp := by
    simp only [List.mem_append, not_or]
    exact ⟨hdata, notMem_space hsp⟩
  obtain ⟨p, d, u, hall, hnone, hd, hkey⟩ := loads_obj_quote hpre hobj
  refine ⟨p, d, u, sp', ?_, hnone, hd, hsp', hkey⟩
  calc str "data:" ++ rest = (str "data:" ++ sp ++ strip rest) ++ sp' := by
        nth_rewrite 1 [htext]
        simp
    _ = (p ++ [d]) ++ 34 :: (u ++ sp') := by
        rw [hall]
        simp

/-- A line that breaks off within a string. -/
theorem lineData_cut (before s : Str) :
    ∃ s', s' <+: s ∧ lineData (str "data: " ++ (123 :: (before ++ 34 :: escape style s))) =
      some (123 :: (before ++ 34 :: escape style s')) := by
  obtain ⟨s', hs', hstrip⟩ := @rstrip_escape style (123 :: before) 34 (by decide) s
  have hstart : startsWith (str "data:")
      (str "data: " ++ (123 :: (before ++ 34 :: escape style s))) = true := rfl
  have hdrop : strip ((str "data: " ++ (123 :: (before ++ 34 :: escape style s))).drop 5) =
      rstrip ((123 :: before) ++ 34 :: escape style s) := rfl
  refine ⟨s', hs', ?_⟩
  rw [lineData, if_pos hstart, hdrop, hstrip]
  rfl

/-- A line without an object that has keys changes nothing. -/
theorem readLine_quiet (hreader : IsReader step) {line : Str}
    (h : ∀ raw fields, lineData line = some raw → loads raw = some (.obj fields) → fields = [])
    {r : List ε × σ} (hr : readLine step s line = some r) : r = ([], s) := by
  rw [readLine] at hr
  cases hraw : lineData line with
  | none =>
      rw [hraw] at hr
      exact (Option.some.inj hr).symm
  | some raw =>
      rw [hraw, Option.bind_some] at hr
      cases hobj : loads raw with
      | none =>
          rw [hobj] at hr
          exact (Option.some.inj hr).symm
      | some ev =>
          rw [hobj] at hr
          dsimp only at hr
          cases ev with
          | obj fields =>
              rw [h raw fields hraw hobj, hreader.empty] at hr
              exact (Option.some.inj hr).symm
          | _ =>
              rw [hreader.other _ _ rfl] at hr
              cases hr

theorem readLines_quiet (hreader : IsReader step) {lines : List Str}
    (h : ∀ line ∈ lines, ∀ raw fields, lineData line = some raw →
      loads raw = some (.obj fields) → fields = [])
    {r : List ε × σ} (hr : collect (readLine step) s lines = some r) : r = ([], s) := by
  refine collect_idle (fun line hline r₁ hr₁ => ?_) hr
  exact readLine_quiet hreader (h line hline) hr₁

/-- **An event whose text has a line break is lost**: nothing is read off its lines. -/
theorem readPart_broken (hreader : IsReader step) {value : Str → Json} (hslot : TextSlot style value)
    (hraw : style.ensureAscii = false) (h : e.Fit) {t : Str} (hdata : e.data = value t)
    (ht : IsText t) (hbreak : ∃ c ∈ t, IsUnicodeBreak c) {r : List ε × σ}
    (hr : readPart step s (e.block style) = some r) : r = ([], s) := by
  obtain ⟨before, after, m, hole, hend, hkey⟩ := hslot.hole
  rw [readPart_block h, readPart, hdata] at hr
  refine readLines_quiet hreader (fun line hline raw fields hraw' hobj => ?_) hr
  obtain hnone | ⟨t', ht'⟩ := mem_splitlines_broken hole hslot.clean hraw ht hbreak
    (@lineData_cut style before) hline
  · rw [hnone raw hraw'] at hobj
    cases hobj
  · cases fields with
    | nil => rfl
    | cons f fs => exact absurd (lineData_loads_obj hraw' hobj) (line_without_object hend hkey ht')

end Part

end Llmxy
