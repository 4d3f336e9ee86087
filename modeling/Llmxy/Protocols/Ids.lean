import Llmxy.Lib.Text
import Mathlib.Data.List.Basic
import Mathlib.Tactic.Common

/-!
# Protocol ids

The names of the protocols, and what other spellings of them mean.  An absent text and an
empty one are the same to these functions.

`normalizeProtocol` is `normalize_protocol` without a kind; with one the result goes through
`protocolForKind`, which normalises once more.

## Main definitions

* `protocolAliases`, `defaultByFamilyKind` — the two tables.
* `normalizeProtocol`, `protocolForKind`, `normalizeProtocolFor`.
-/

namespace Llmxy

/-- `value or default`. -/
def textOr (default : Str) (value : Option Str) : Str :=
  match value with
  | none => default
  | some s => if s.isEmpty then default else s

@[simp] theorem textOr_nil (default : Str) : textOr default (some []) = default := rfl

theorem textOr_of_ne {s : Str} (h : s ≠ []) (default : Str) : textOr default (some s) = s := by
  simp [textOr, h]

def openaiChat : Str := str "openai.chat"
def openaiResponses : Str := str "openai.responses"
def openaiEmbeddings : Str := str "openai.embeddings"
def openaiImages : Str := str "openai.images"
def anthropicMessages : Str := str "anthropic.messages"
def geminiGenerateContent : Str := str "gemini.generate_content"
def geminiEmbeddings : Str := str "gemini.embeddings"
def geminiImages : Str := str "gemini.images"

def chatProtocols : List Str :=
  [openaiChat, openaiResponses, anthropicMessages, geminiGenerateContent]

def embeddingProtocols : List Str := [openaiEmbeddings, geminiEmbeddings]

def imageProtocols : List Str := [openaiImages, geminiImages]

/-- `_ALIASES`. -/
def protocolAliases : List (Str × Str) := [
  (str "openai", openaiChat),
  (str "openai_chat", openaiChat),
  (str "openai-chat", openaiChat),
  (str "openai.chat_completions", openaiChat),
  (str "openai.chat-completions", openaiChat),
  (str "openai.chat.completions", openaiChat),
  (str "chat", openaiChat),
  (str "chat.completions", openaiChat),
  (str "responses", openaiResponses),
  (str "response", openaiResponses),
  (str "openai_response", openaiResponses),
  (str "openai-response", openaiResponses),
  (str "openai.responses", openaiResponses),
  (str "openai.response", openaiResponses),
  (str "embedding", openaiEmbeddings),
  (str "embeddings", openaiEmbeddings),
  (str "openai.embedding", openaiEmbeddings),
  (str "openai.embeddings", openaiEmbeddings),
  (str "image", openaiImages),
  (str "images", openaiImages),
  (str "openai.image", openaiImages),
  (str "openai.images", openaiImages),
  (str "anthropic", anthropicMessages),
  (str "message", anthropicMessages),
  (str "messages", anthropicMessages),
  (str "anthropic.message", anthropicMessages),
  (str "anthropic.messages", anthropicMessages),
  (str "gemini", geminiGenerateContent),
  (str "gemini.generatecontent", geminiGenerateContent),
  (str "gemini.generate_content", geminiGenerateContent),
  (str "gemini.embedding", geminiEmbeddings),
  (str "gemini.embeddings", geminiEmbeddings),
  (str "gemini.image", geminiImages),
  (str "gemini.images", geminiImages),
  (str "azure", openaiChat),
  (str "azure_openai", openaiChat),
  (str "azure-openai", openaiChat),
  (str "openai-compatible", openaiChat)]

/-- `_DEFAULT_BY_FAMILY_KIND`. -/
def defaultByFamilyKind : List ((Str × Str) × Str) := [
  ((str "openai", str "chat"), openaiChat),
  ((str "openai", str "embedding"), openaiEmbeddings),
  ((str "openai", str "image"), openaiImages),
  ((str "anthropic", str "chat"), anthropicMessages),
  ((str "gemini", str "chat"), geminiGenerateContent),
  ((str "gemini", str "embedding"), geminiEmbeddings),
  ((str "gemini", str "image"), geminiImages)]

/-- `s.lower().strip().replace("/", ".")`. -/
def rawProtocol (s : Str) : Str := (strip (lower s)).map fun c => if c = 47 then 46 else c

/-- `normalize_protocol(protocol)`. -/
def normalizeProtocol (protocol : Option Str) : Str :=
  let raw := rawProtocol (textOr openaiChat protocol)
  (protocolAliases.lookup raw).getD raw

/-- `value.split(".", 1)[0]`. -/
def protocolFamilyOf (value : Str) : Str := value.takeWhile (· ≠ 46)

/-- `protocol_for_kind`. -/
def protocolForKind (protocol kind : Option Str) : Str :=
  let value := normalizeProtocol protocol
  let normalizedKind := strip (lower (textOr (str "chat") kind))
  if normalizedKind = str "chat" ∧ value ∈ chatProtocols then value
  else (defaultByFamilyKind.lookup (protocolFamilyOf value, normalizedKind)).getD value

/-- `normalize_protocol(protocol, kind=kind)`. -/
def normalizeProtocolFor (protocol kind : Option Str) : Str :=
  let value := normalizeProtocol protocol
  if (textOr [] kind).isEmpty then value else protocolForKind (some value) kind

/-! ### Blank texts -/

theorem mem_dropWhile {p : ℕ → Bool} {l : List ℕ} {c : ℕ} (h : p c = false) :
    c ∈ l.dropWhile p ↔ c ∈ l := by
  induction l with
  | nil => rfl
  | cons d l ih =>
      rw [List.dropWhile_cons]
      split_ifs with hd
      · rw [ih, List.mem_cons]
        refine ⟨.inr, fun hmem => hmem.resolve_left ?_⟩
        rintro rfl
        cases h.symm.trans hd
      · rfl

/-- Stripping takes spaces alone. -/
theorem mem_strip {s : Str} {c : ℕ} (h : isSpace c = false) : c ∈ strip s ↔ c ∈ s := by
  rw [strip, rstrip, List.mem_reverse, mem_dropWhile h, List.mem_reverse, lstrip, mem_dropWhile h]

theorem strip_eq_nil {s : Str} : strip s = [] ↔ ∀ c ∈ s, isSpace c = true := by
  constructor
  · intro hnil c hc
    by_contra hspace
    have hmem := (mem_strip (Bool.eq_false_iff.mpr hspace)).mpr hc
    rw [hnil] at hmem
    cases hmem
  · intro hall
    rw [strip, lstrip, List.dropWhile_eq_nil_iff.mpr hall]
    rfl

theorem isSpace_lowerAscii (c : ℕ) : isSpace (lowerAscii c) = isSpace c := by
  rw [lowerAscii]
  split_ifs with h
  · have hletter : isSpace c = false := by
      simp [isSpace]
      omega
    have hlower : isSpace (c + 32) = false := by
      simp [isSpace]
      omega
    rw [hletter, hlower]
  · rfl

theorem rawProtocol_eq_nil {s : Str} : rawProtocol s = [] ↔ ∀ c ∈ s, isSpace c = true := by
  rw [rawProtocol, List.map_eq_nil_iff, strip_eq_nil]
  simp [lower, isSpace_lowerAscii]

/-- A normal form that is not empty is not blank. -/
theorem rawProtocol_rawProtocol {s : Str} (h : rawProtocol (rawProtocol s) = []) :
    rawProtocol s = [] := by
  by_contra hne
  have hraw := rawProtocol_eq_nil.mp h
  have hblank : ¬∀ c ∈ s, isSpace c = true := fun hall => hne (rawProtocol_eq_nil.mpr hall)
  push Not at hblank
  obtain ⟨c, hc, hspace⟩ := hblank
  have hspace : isSpace (lowerAscii c) = false := by
    rw [isSpace_lowerAscii]
    exact Bool.eq_false_iff.mpr hspace
  have hmem : lowerAscii c ∈ strip (lower s) :=
    (mem_strip hspace).mpr (List.mem_map_of_mem hc)
  have hmapped := hraw _ (List.mem_map_of_mem hmem)
  split_ifs at hmapped
  · cases hmapped
  · cases hspace.symm.trans hmapped

/-! ### Normal forms -/

/-- The protocols by their names. -/
def knownProtocols : List Str := chatProtocols ++ embeddingProtocols ++ imageProtocols

theorem normalizeProtocol_known : ∀ p ∈ knownProtocols, normalizeProtocol (some p) = p := by
  decide +kernel

theorem normalizeProtocol_chat {p : Str} (h : p ∈ chatProtocols) :
    normalizeProtocol (some p) = p :=
  normalizeProtocol_known p (List.mem_append_left _ (List.mem_append_left _ h))

/-- An empty protocol is that of OpenAI chats. -/
theorem normalizeProtocol_nil : normalizeProtocol (some []) = openaiChat := by decide +kernel

theorem normalizeProtocolFor_nil (protocol : Option Str) :
    normalizeProtocolFor protocol (some []) = normalizeProtocol protocol := rfl

theorem normalizeProtocolFor_kind (protocol : Option Str) {kind : Str} (h : kind ≠ []) :
    normalizeProtocolFor protocol (some kind) =
      protocolForKind (some (normalizeProtocol protocol)) (some kind) := by
  simp [normalizeProtocolFor, textOr, h]

/-- A chat protocol is that of a chat. -/
theorem protocolForKind_chat {p : Str} (h : p ∈ chatProtocols) :
    protocolForKind (some p) (some (str "chat")) = p := by
  have hkind : strip (lower (textOr (str "chat") (some (str "chat")))) = str "chat" := by decide
  rw [protocolForKind, normalizeProtocol_chat h]
  simp only [hkind]
  exact if_pos ⟨trivial, h⟩

theorem lookup_mem {α β : Type} [BEq α] [LawfulBEq α] {table : List (α × β)} {key : α} {value : β}
    (h : table.lookup key = some value) : (key, value) ∈ table := by
  obtain ⟨before, after, hsplit, -⟩ := List.lookup_eq_some_iff.mp h
  rw [hsplit]
  exact List.mem_append_right _ List.mem_cons_self

/-- A table without empty texts and a default that is not empty. -/
theorem lookup_getD_ne_nil {α : Type} [BEq α] [LawfulBEq α] {table : List (α × Str)} {key : α}
    {default : Str} (hdefault : default ≠ []) (htable : ∀ p ∈ table, p.2 ≠ []) :
    (table.lookup key).getD default ≠ [] := by
  cases hlookup : table.lookup key with
  | none => exact hdefault
  | some value => exact htable _ (lookup_mem hlookup)

/-- No alias is for an empty protocol: a value that is empty was blank. -/
theorem normalizeProtocol_eq_nil {s : Str} :
    normalizeProtocol (some s) = [] ↔ s ≠ [] ∧ rawProtocol s = [] := by
  have halias : ∀ p ∈ protocolAliases, p.2 ≠ [] := by decide
  by_cases hs : s = []
  · subst hs
    rw [normalizeProtocol_nil]
    exact iff_of_false (by decide) fun h => h.1 rfl
  have htext : textOr openaiChat (some s) = s := textOr_of_ne hs _
  simp only [normalizeProtocol, htext]
  cases hlookup : protocolAliases.lookup (rawProtocol s) with
  | none => exact ⟨fun h => ⟨hs, h⟩, fun h => h.2⟩
  | some value =>
      refine iff_of_false (halias _ (lookup_mem hlookup)) ?_
      rintro ⟨-, hraw⟩
      rw [hraw] at hlookup
      have hnil : protocolAliases.lookup [] = none := by decide
      cases hnil.symm.trans hlookup

/-- With a kind the normal form is never empty. -/
theorem normalizeProtocolFor_ne_nil (protocol : Option Str) {kind : Str} (h : kind ≠ []) :
    normalizeProtocolFor protocol (some kind) ≠ [] := by
  have hdefault : ∀ p ∈ defaultByFamilyKind, p.2 ≠ [] := by decide
  have halias : ∀ p ∈ protocolAliases, rawProtocol p.2 ≠ [] := by decide +kernel
  have hvalue : normalizeProtocol (some (normalizeProtocol protocol)) ≠ [] := by
    intro hnil
    obtain ⟨hne, hraw⟩ := normalizeProtocol_eq_nil.mp hnil
    rw [normalizeProtocol] at hne hraw
    cases hlookup : protocolAliases.lookup (rawProtocol (textOr openaiChat protocol)) with
    | none =>
        rw [hlookup] at hne hraw
        exact hne (rawProtocol_rawProtocol hraw)
    | some value =>
        rw [hlookup] at hraw
        exact halias _ (lookup_mem hlookup) hraw
  rw [normalizeProtocolFor_kind protocol h, protocolForKind]
  split_ifs with hchat
  · exact hvalue
  · exact lookup_getD_ne_nil hvalue hdefault

end Llmxy
