import Llmxy.Lib.CutText
import Llmxy.Lib.Sse
import Llmxy.Relay.Usage

/-!
# The events of a chat stream

A chat stream is a sequence of `chat.completion.chunk` objects, each on a `data:` line of
its own with an empty line after it.  Ids and names are ASCII; the content is any Unicode
text.  A provider may escape the content's characters or send them as they are.

## Main definitions

* `Label`, `UnicodeText`, `TokenUsage` — the parts of a chunk.
* `ChatChunk`, `ChatChunk.json` — a chunk, `chatStream` — the text of a stream.
* `IsUnicodeBreak` — the characters that end a line for `splitlines` only.
* `ChatChunk.thins` — what is left of a chunk whose content has lost characters.
-/

namespace Llmxy

/-- An ASCII text. -/
structure Label where
  text : Str
  ascii : ∀ c ∈ text, c < 128

/-- A text of Unicode scalar values. -/
structure UnicodeText where
  text : Str
  isText : IsText text

/-- Token counts that can be printed. -/
structure TokenUsage where
  prompt : ℕ
  completion : ℕ
  printable : prompt + completion < 10 ^ maxIntDigits

def TokenUsage.json (u : TokenUsage) : Json :=
  .obj [(str "prompt_tokens", .int u.prompt), (str "completion_tokens", .int u.completion),
    (str "total_tokens", .int (u.prompt + u.completion : ℕ))]

/-- The first choice of a chunk. -/
structure ChunkChoice where
  /-- The delta has a role. -/
  role : Bool
  content : Option UnicodeText
  finishReason : Option Label

/-- A `chat.completion.chunk`. -/
structure ChatChunk where
  id : Label
  created : {n : ℤ // n.natAbs < 10 ^ maxIntDigits}
  model : Label
  choice : Option ChunkChoice
  usage : Option TokenUsage

/-- The fields of a delta without its content. -/
def ChunkChoice.roleFields (c : ChunkChoice) : List (Str × Json) :=
  if c.role then [(str "role", .str (str "assistant"))] else []

def ChunkChoice.finishFields (c : ChunkChoice) : List (Str × Json) :=
  [(str "finish_reason", (c.finishReason.map fun r => .str r.text).getD .null)]

/-- The choice with a delta. -/
def ChunkChoice.withDelta (c : ChunkChoice) (delta : List (Str × Json)) : Json :=
  .obj ((str "index", .int 0) :: (str "delta", .obj delta) :: c.finishFields)

def ChunkChoice.json (c : ChunkChoice) : Json :=
  c.withDelta (c.roleFields ++ (c.content.map fun t => (str "content", .str t.text)).toList)

namespace ChatChunk

def headFields (chunk : ChatChunk) : List (Str × Json) :=
  [(str "id", .str chunk.id.text), (str "object", .str (str "chat.completion.chunk")),
    (str "created", .int chunk.created), (str "model", .str chunk.model.text)]

def usageFields (chunk : ChatChunk) : List (Str × Json) :=
  (chunk.usage.map fun u => (str "usage", u.json)).toList

/-- The chunk with a list of choices. -/
def withChoices (chunk : ChatChunk) (choices : List Json) : Json :=
  .obj (chunk.headFields ++ (str "choices", .arr choices) :: chunk.usageFields)

def json (chunk : ChatChunk) : Json := chunk.withChoices (chunk.choice.map ChunkChoice.json).toList

/-- The text that the chunk adds. -/
def content (chunk : ChatChunk) : Str :=
  ((chunk.choice.bind ChunkChoice.content).map UnicodeText.text).getD []

end ChatChunk

/-- A `data:` line with an empty line after it. -/
def sseData (text : Str) : Str := str "data: " ++ text ++ [10, 10]

/-- The text of a stream, with or without the line that ends it. -/
def chatStream (style : DumpStyle) (chunks : List ChatChunk) (done : Bool) : Str :=
  (chunks.flatMap fun chunk => sseData (dumps style chunk.json)) ++
    if done then sseData (str "[DONE]") else []

/-- The texts of a stream's deltas, one after the other. -/
def contents (chunks : List ChatChunk) : Str := chunks.flatMap ChatChunk.content

/-- A character that ends a line for `str.splitlines` but not in JSON or in an event
stream: U+0085, U+2028 or U+2029. -/
def IsUnicodeBreak (c : ℕ) : Prop := c = 0x85 ∨ c = 0x2028 ∨ c = 0x2029

instance : DecidablePred IsUnicodeBreak := fun c => by unfold IsUnicodeBreak; infer_instance

/-! ### The characters of a chunk -/

theorem TokenUsage.clean (u : TokenUsage) (own : Str) : Clean own u.json := by
  have hbound := u.printable
  have hp : (u.prompt : ℤ).natAbs < 10 ^ maxIntDigits := by rw [Int.natAbs_natCast]; omega
  have hc : (u.completion : ℤ).natAbs < 10 ^ maxIntDigits := by rw [Int.natAbs_natCast]; omega
  exact clean_obj (by simp only [List.map_cons, List.map_nil]; decide)
    ⟨clean_int hp, clean_int hc, clean_int hbound⟩

namespace ChunkChoice

theorem clean_withDelta (c : ChunkChoice) {own : Str} {delta : List (Str × Json)}
    (h : Clean own (.obj delta)) : Clean own (c.withDelta delta) := by
  have hindex : (0 : ℤ).natAbs < 10 ^ maxIntDigits := zero_lt_pow_maxIntDigits
  have hfinish : Clean own ((c.finishReason.map fun r => Json.str r.text).getD .null) := by
    cases c.finishReason with
    | none => exact clean_null
    | some r => exact clean_ascii r.ascii
  exact clean_obj (by simp only [finishFields, List.map_cons, List.map_nil]; decide)
    ⟨clean_int hindex, h, hfinish⟩

/-- A delta with a text. -/
theorem clean_delta (c : ChunkChoice) {s : Str} (hs : IsText s) :
    Clean s (.obj (c.roleFields ++ [(str "content", .str s)])) := by
  have hrole : Clean s (.str (str "assistant")) := clean_ascii (by decide)
  unfold roleFields
  split_ifs
  · exact clean_obj (by simp only [List.cons_append, List.nil_append, List.map_cons, List.map_nil]; decide)
      ⟨hrole, clean_own hs⟩
  · exact clean_obj (by simp only [List.nil_append, List.map_cons, List.map_nil]; decide)
      (clean_own hs)

/-- A delta without a text. -/
theorem clean_role (c : ChunkChoice) (own : Str) : Clean own (.obj c.roleFields) := by
  have hrole : Clean own (.str (str "assistant")) := clean_ascii (by decide)
  unfold roleFields
  split_ifs
  · exact clean_obj (by decide) hrole
  · exact clean_obj (by decide) trivial

end ChunkChoice

namespace ChatChunk

theorem clean_withChoices (chunk : ChatChunk) {own : Str} {choices : List Json}
    (h : Clean own (.arr choices)) : Clean own (chunk.withChoices choices) := by
  have hobject : Clean own (.str (str "chat.completion.chunk")) := clean_ascii (by decide)
  unfold withChoices usageFields headFields
  cases chunk.usage with
  | none =>
      refine clean_obj ?_ ⟨clean_ascii chunk.id.ascii, hobject, clean_int chunk.created.2,
        clean_ascii chunk.model.ascii, h⟩
      simp only [List.cons_append, List.nil_append, Option.map_none, Option.toList_none,
        List.map_cons, List.map_nil]
      decide
  | some u =>
      refine clean_obj ?_ ⟨clean_ascii chunk.id.ascii, hobject, clean_int chunk.created.2,
        clean_ascii chunk.model.ascii, h, u.clean own⟩
      simp only [List.cons_append, List.nil_append, Option.map_some, Option.toList_some,
        List.map_cons, List.map_nil]
      decide

/-- The chunk with a text as its content. -/
def contentJson (chunk : ChatChunk) (c : ChunkChoice) (s : Str) : Json :=
  chunk.withChoices [c.withDelta (c.roleFields ++ [(str "content", .str s)])]

theorem clean_contentJson (chunk : ChatChunk) (c : ChunkChoice) {s : Str} (hs : IsText s) :
    Clean s (chunk.contentJson c s) :=
  chunk.clean_withChoices (clean_arr (c.clean_withDelta (c.clean_delta hs)))

/-- **The characters of a chunk** are ASCII, or its content's. -/
theorem clean (chunk : ChatChunk) : Clean chunk.content chunk.json := by
  unfold json content
  cases hc : chunk.choice with
  | none => exact chunk.clean_withChoices (clean_arr trivial)
  | some c =>
      cases ht : c.content with
      | none =>
          have hjson : c.json = c.withDelta c.roleFields := by
            rw [ChunkChoice.json, ht, Option.map_none, Option.toList_none, List.append_nil]
          rw [Option.map_some, hjson]
          exact chunk.clean_withChoices (clean_arr (c.clean_withDelta (c.clean_role _)))
      | some t =>
          have hjson : c.json = c.withDelta (c.roleFields ++ [(str "content", .str t.text)]) := by
            rw [ChunkChoice.json, ht]
            rfl
          simp only [Option.map_some, Option.bind_some, Option.getD_some, ht, hjson]
          exact chunk.clean_contentJson c t.isText

/-- The text of the chunk after its content. -/
def afterContent (style : DumpStyle) (chunk : ChatChunk) (c : ChunkChoice) : Str :=
  [34] ++ (dumpsMoreFields style [] ++ [125]) ++ (dumpsMoreFields style c.finishFields ++ [125]) ++
    (dumpsMore style [] ++ [93]) ++ (dumpsMoreFields style chunk.usageFields ++ [125])

/-- The content is a string within the chunk. -/
theorem hole_contentJson (style : DumpStyle) (chunk : ChatChunk) (c : ChunkChoice) :
    ∃ before, Hole style (chunk.contentJson c) (123 :: (before ++ [34]))
      (chunk.afterContent style c) := by
  have hole := ((((@hole_str style).obj (str "content") c.roleFields []).obj (str "delta")
    [(str "index", .int 0)] c.finishFields).arr [] []).obj (str "choices") chunk.headFields
      chunk.usageFields
  obtain ⟨t, ht⟩ := @beforeField_head style (str "choices") chunk.headFields
  rw [ht, ← List.append_assoc, ← List.append_assoc, ← List.append_assoc] at hole
  exact ⟨_, hole⟩

/-- The chunk with another text in place of its content, if it has one. -/
def withText (chunk : ChatChunk) (t : UnicodeText) : ChatChunk :=
  { chunk with choice := chunk.choice.map fun c => { c with content := c.content.map fun _ => t } }

/-- A chunk has a content, which may be replaced, or is ASCII. -/
theorem cases_content (chunk : ChatChunk) :
    (∃ c t, chunk.choice = some c ∧ c.content = some t ∧ chunk.content = t.text ∧
        ∀ t', (chunk.withText t').json = chunk.contentJson c t'.text ∧
          (chunk.withText t').content = t'.text) ∨
      chunk.content = [] ∧ ∀ t', chunk.withText t' = chunk := by
  unfold content json withText
  cases hc : chunk.choice with
  | none => exact Or.inr ⟨rfl, fun t' => by rw [Option.map_none, ← hc]⟩
  | some c =>
      cases ht : c.content with
      | none =>
          refine Or.inr ⟨by simp [ht], fun t' => ?_⟩
          rw [Option.map_some, ht, Option.map_none, ← ht, ← hc]
      | some t =>
          refine Or.inl ⟨c, t, rfl, ht, by simp [ht], fun t' => ⟨?_, by simp [ht]⟩⟩
          simp only [Option.map_some, ht, Option.toList_some, contentJson, ChunkChoice.json]
          rfl

theorem withText_self {chunk : ChatChunk} {t : UnicodeText}
    (h : (chunk.withText t).content = chunk.content) : chunk.withText t = chunk := by
  rcases chunk.cases_content with ⟨c, t₀, hc, ht₀, hcontent, hwith⟩ | ⟨-, hself⟩
  · have heq : t = t₀ := by
      cases t
      cases t₀
      simpa only [UnicodeText.mk.injEq, (hwith _).2, hcontent] using h
    subst heq
    unfold withText
    rw [hc, Option.map_some, ht₀, Option.map_some, ← ht₀, ← hc]
  · exact hself t

/-- **A chunk that has lost characters** is the chunk with what is left of its content. -/
theorem thins {style : DumpStyle} {chunk : ChatChunk} {e : Str}
    (h : Thins (dumps style chunk.json) e) :
    ∃ t, e = dumps style (chunk.withText t).json ∧
      Thins chunk.content (chunk.withText t).content := by
  rcases chunk.cases_content with ⟨c, t, hc, ht, hcontent, hwith⟩ | ⟨hcontent, hself⟩
  · have hjson : chunk.json = chunk.contentJson c t.text := by
      rw [← (hwith t).1, withText_self]
      rw [(hwith t).2, hcontent]
    obtain ⟨before, hole⟩ := hole_contentJson style chunk c
    rw [hjson] at h
    obtain ⟨s', rfl, hs'⟩ := hole.thins (chunk.clean_contentJson c (s := []) (fun c hc => by cases hc))
      t.isText h
    refine ⟨⟨s', hs'.isText t.isText⟩, ?_, ?_⟩
    · rw [(hwith _).1]
    · rw [(hwith _).2, hcontent]
      exact hs'
  · have hclean := chunk.clean
    rw [hcontent] at hclean ⊢
    refine ⟨⟨[], fun c hc => by cases hc⟩, ?_, ?_⟩
    · rw [hself, h.eq_of_ascii fun c hc => (dumps_ascii hclean hc).2]
    · rw [hself, hcontent]
      exact .nil

end ChatChunk

/-! ### The text of a stream -/

variable {style : DumpStyle}

/-- Chunks whose contents have lost characters. -/
def ThinnedChunks : List ChatChunk → List ChatChunk → Prop :=
  List.Forall₂ fun chunk chunk' =>
    ∃ t, chunk' = chunk.withText t ∧ Thins chunk.content chunk'.content

theorem sseData_ascii {t : Str} (h : ∀ c ∈ t, c < 128) : ∀ c ∈ sseData t, c < 128 := by
  have hstarts : ∀ c ∈ str "data: ", c < 128 := by decide
  have hblank : ∀ c ∈ [10, 10], c < 128 := by decide
  intro c hc
  rcases List.mem_append.mp hc with hc | hc
  · rcases List.mem_append.mp hc with hc | hc
    · exact hstarts c hc
    · exact h c hc
  · exact hblank c hc

theorem thins_sseData {t e : Str} (h : Thins (sseData t) e) :
    ∃ t', e = sseData t' ∧ Thins t t' := by
  have hstarts : ∀ c ∈ str "data: ", c < 128 := by decide
  have hblank : ∀ c ∈ [10, 10], c < 128 := by decide
  obtain ⟨e₁, e₃, rfl, h₁, h₃⟩ := h.of_append
  obtain ⟨e₁, e₂, rfl, h₁, h₂⟩ := h₁.of_append
  exact ⟨e₂, by rw [h₁.eq_of_ascii hstarts, h₃.eq_of_ascii hblank, sseData], h₂⟩

/-- **A stream that has lost characters** is the stream of the chunks that have. -/
theorem thins_chatStream {chunks : List ChatChunk} {done : Bool} {e : Str}
    (h : Thins (chatStream style chunks done) e) :
    ∃ chunks', ThinnedChunks chunks chunks' ∧ e = chatStream style chunks' done := by
  induction chunks generalizing e with
  | nil =>
      refine ⟨[], .nil, h.eq_of_ascii ?_⟩
      cases done with
      | true => exact sseData_ascii (by decide)
      | false => exact fun c hc => by cases hc
  | cons chunk chunks ih =>
      rw [chatStream, List.flatMap_cons, List.append_assoc] at h
      obtain ⟨e₁, e₂, rfl, h₁, h₂⟩ := h.of_append
      obtain ⟨e₁, rfl, h₁'⟩ := thins_sseData h₁
      obtain ⟨t, rfl, ht⟩ := ChatChunk.thins h₁'
      obtain ⟨chunks', hchunks', rfl⟩ := ih h₂
      refine ⟨chunk.withText t :: chunks', .cons ⟨t, rfl, ht⟩ hchunks', ?_⟩
      rw [chatStream, chatStream, List.flatMap_cons, List.append_assoc]

theorem ThinnedChunks.length_contents {chunks chunks' : List ChatChunk}
    (h : ThinnedChunks chunks chunks') : (contents chunks').length ≤ (contents chunks).length := by
  induction h with
  | nil => exact le_rfl
  | cons hchunk _ ih =>
      obtain ⟨t, rfl, ht⟩ := hchunk
      have := ht.sublist.length_le
      rw [contents, contents] at ih ⊢
      rw [List.flatMap_cons, List.flatMap_cons, List.length_append, List.length_append]
      omega

/-- Chunks whose contents have as many characters as before have lost nothing. -/
theorem ThinnedChunks.eq_of_length {chunks chunks' : List ChatChunk}
    (h : ThinnedChunks chunks chunks')
    (hlen : (contents chunks').length = (contents chunks).length) : chunks' = chunks := by
  induction h with
  | nil => rfl
  | @cons chunk _ chunks chunks' hchunk hrest ih =>
      obtain ⟨t, rfl, ht⟩ := hchunk
      have hle := ht.sublist.length_le
      have hle' := ThinnedChunks.length_contents hrest
      rw [contents, contents] at ih hle' hlen
      rw [List.flatMap_cons, List.flatMap_cons, List.length_append, List.length_append] at hlen
      rw [ChatChunk.withText_self (ht.eq_of_length_le (by omega)), ih (by omega)]

/-- The characters of the text of a chunk. -/
theorem ChatChunk.written (chunk : ChatChunk) {c : ℕ} (hc : c ∈ dumps style chunk.json) :
    (32 ≤ c ∧ c < 128) ∨
      (style.ensureAscii = false ∧ 128 ≤ c ∧ c ∈ chunk.content ∧ IsScalar c) := by
  rcases written_dumps chunk.json chunk.clean.plain hc with hascii | ⟨hraw, hbig, hown, hscalar⟩
  · exact Or.inl hascii
  · rcases chunk.clean.chars c hown with hsmall | hcontent
    · omega
    · exact Or.inr ⟨hraw, hbig, hcontent, hscalar⟩

/-- Characters that no stream has lost can be encoded. -/
theorem isText_chatStream (chunks : List ChatChunk) (done : Bool) :
    IsText (chatStream style chunks done) := by
  have hstarts : ∀ c ∈ str "data: ", c < 128 := by decide
  intro c hc
  rcases List.mem_append.mp hc with hc | hc
  · obtain ⟨chunk, -, hc⟩ := List.mem_flatMap.mp hc
    rcases List.mem_append.mp hc with hc | hc
    · rcases List.mem_append.mp hc with hc | hc
      · exact Or.inl (by have := hstarts c hc; omega)
      · rcases chunk.written hc with hascii | ⟨-, -, -, hscalar⟩
        · exact Or.inl (by omega)
        · exact hscalar
    · simp only [List.mem_cons, List.not_mem_nil, or_false, or_self] at hc
      exact Or.inl (by omega)
  · cases done with
    | true =>
        have hdone : ∀ c ∈ sseData (str "[DONE]"), c < 128 := sseData_ascii (by decide)
        exact Or.inl (by have := hdone c hc; omega)
    | false => cases hc

/-- A stream of ASCII chunks is ASCII. -/
theorem chatStream_ascii {chunks : List ChatChunk} {done : Bool}
    (h : ∀ chunk ∈ chunks, ∀ c ∈ dumps style chunk.json, c < 128) :
    ∀ c ∈ chatStream style chunks done, c < 128 := by
  intro c hc
  rcases List.mem_append.mp hc with hc | hc
  · obtain ⟨chunk, hchunk, hc⟩ := List.mem_flatMap.mp hc
    exact sseData_ascii (h chunk hchunk) c hc
  · cases done with
    | true => exact sseData_ascii (t := str "[DONE]") (by decide) c hc
    | false => cases hc

/-- A line break in a content that is not escaped is in the text of the chunk. -/
theorem mem_dumps_of_content (hraw : style.ensureAscii = false) {chunk : ChatChunk} {c : ℕ}
    (hc : c ∈ chunk.content) (hbreak : IsUnicodeBreak c) : c ∈ dumps style chunk.json := by
  have hbig : 128 ≤ c := by
    unfold IsUnicodeBreak at hbreak
    omega
  rcases chunk.cases_content with ⟨d, t, -, -, hcontent, hwith⟩ | ⟨hcontent, -⟩
  · have hjson : chunk.json = chunk.contentJson d t.text := by
      rw [← (hwith t).1, ChatChunk.withText_self]
      rw [(hwith t).2, hcontent]
    obtain ⟨before, hole⟩ := ChatChunk.hole_contentJson style chunk d
    rw [hcontent] at hc
    have hmem : c ∈ escape style t.text :=
      List.mem_flatMap.mpr ⟨c, hc, by rw [escapeChar_self hraw hbig]; exact List.mem_singleton_self c⟩
    rw [hjson, hole]
    simp [hmem]
  · rw [hcontent] at hc
    cases hc

/-- The blocks of a stream. -/
def chatBlocks (style : DumpStyle) (chunks : List ChatChunk) (done : Bool) : List Str :=
  (chunks.map fun chunk => str "data: " ++ dumps style chunk.json) ++
    if done then [str "data: [DONE]"] else []

theorem splitBlank_sseData {t : Str} (h : 10 ∉ t) (s : Str) :
    splitBlank (sseData t ++ s) =
      ((str "data: " ++ t) :: (splitBlank s).1, (splitBlank s).2) := by
  have hline : 10 ∉ str "data: " ++ t := by
    rw [List.mem_append, not_or]
    exact ⟨by decide, h⟩
  have htext : sseData t ++ s = (str "data: " ++ t) ++ 10 :: 10 :: s := by
    simp [sseData]
  rw [htext, splitBlank_block hline]

/-- A stream is split into its blocks. -/
theorem splitBlank_chatStream (chunks : List ChatChunk) (done : Bool) :
    splitBlank (chatStream style chunks done) = (chatBlocks style chunks done, []) := by
  induction chunks with
  | nil =>
      cases done with
      | true => exact (by decide : splitBlank (sseData (str "[DONE]")) = ([str "data: [DONE]"], []))
      | false => rfl
  | cons chunk chunks ih =>
      have hline : 10 ∉ dumps style chunk.json := fun hmem =>
        absurd (Written.low (chunk.written hmem)) (by decide)
      have htext : chatStream style (chunk :: chunks) done =
          sseData (dumps style chunk.json) ++ chatStream style chunks done := by
        rw [chatStream, chatStream, List.flatMap_cons, List.append_assoc]
      rw [htext, splitBlank_sseData hline, ih]
      rfl

end Llmxy
