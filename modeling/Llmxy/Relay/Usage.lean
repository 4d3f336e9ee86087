import Llmxy.Lib.Json
import Llmxy.Lib.Utf8

/-!
# The usage of a stream

The relay forwards a stream chunk by chunk and reads the usage object off each chunk
alone.  A chunk is whatever the network delivered, so a usage event that is cut in
two is read from neither half.

The two transports accumulate what they read in loops that differ on missing and
zero counts (`directCounts`, `translatedCounts`).

## Main definitions

* `parseUsageFromChunk` — the parser.
* `Counts`, `StreamLoop`, `StreamLoop.accumulate` — the loops.
* `lastUsage`, `lastCounts` — the last usage object of a whole stream.
* `splitIndependent_iff` — when the chunks do not matter.
-/

namespace Llmxy

/-- `d.get("usage")` of a dictionary, if it is not empty. -/
def usageOf : Json → Option Json
  | .obj fields => (Json.lookup (str "usage") fields).filter Json.truthy
  | _ => none

/-- The text of a `data:` line that is to be parsed. -/
def dataOf (line : Str) : Option Str :=
  if startsWith (str "data:") line then
    let data := strip (line.drop 5)
    if data.isEmpty || data == str "[DONE]" then none else some data
  else none

/-- The loop of `parse_usage_from_chunk`: the first usage of a chunk.  A text that is
no JSON raises, which ends the loop. -/
def usageOfLines : List Str → Option Json
  | [] => none
  | line :: lines =>
      match dataOf line with
      | none => usageOfLines lines
      | some data => (loads data).bind fun obj => usageOf obj <|> usageOfLines lines

/-- `parse_usage_from_chunk`. -/
def parseUsageFromChunk (chunk : Bytes) : Option Json := usageOfLines (splitlines (decode chunk))

/-- `(prompt_tokens, completion_tokens)`, as the loops hold them. -/
abbrev Counts := Json × Json

/-- Both counts before the first chunk. -/
def zeroCounts : Counts := (.int 0, .int 0)

/-- `u.get("prompt_tokens", prompt_tokens)` and the same of the completion. -/
def directCounts (u : Json) (counts : Counts) : Option Counts :=
  match u with
  | .obj fields =>
      some ((Json.lookup (str "prompt_tokens") fields).getD counts.1,
        (Json.lookup (str "completion_tokens") fields).getD counts.2)
  | _ => none

/-- `int(v or previous or 0)`. -/
def intOr (v : Option Json) (previous : Json) : Option Json :=
  ((v.filter Json.truthy).getD (if previous.truthy then previous else .int 0)).toInt?.map .int

theorem intOr_eq (v : Option Json) (n : ℤ) : intOr v (.int n) =
    ((v.filter Json.truthy).map fun x => x.toInt?.map Json.int).getD (some (.int n)) := by
  have hprev : (if (Json.int n).truthy then Json.int n else .int 0) = .int n := by
    by_cases hn : n = 0
    · simp [hn, Json.truthy]
    · simp [hn, Json.truthy]
  rw [intOr, hprev]
  cases v.filter Json.truthy <;> rfl

/-- `int(usage.get("prompt_tokens") or prompt_tokens or 0)` and the same of the
completion. -/
def translatedCounts (u : Json) (counts : Counts) : Option Counts :=
  match u with
  | .obj fields => do
      some (← intOr (Json.lookup (str "prompt_tokens") fields) counts.1,
        ← intOr (Json.lookup (str "completion_tokens") fields) counts.2)
  | _ => none

/-- The streaming loops: that of the direct chat endpoint, and that of all others. -/
inductive StreamLoop where
  | direct | translated
  deriving DecidableEq

/-- What a loop does with a usage object.  `none` when it raises. -/
def StreamLoop.update : StreamLoop → Json → Counts → Option Counts
  | .direct => directCounts
  | .translated => translatedCounts

/-- What a loop does with a chunk. -/
def StreamLoop.receive (loop : StreamLoop) (counts : Counts) (chunk : Bytes) : Option Counts :=
  match parseUsageFromChunk chunk with
  | some u => loop.update u counts
  | none => some counts

/-- The counts after the chunks of a stream. -/
def StreamLoop.accumulate (loop : StreamLoop) (counts : Counts) : List Bytes → Option Counts
  | [] => some counts
  | chunk :: chunks => (loop.receive counts chunk).bind fun counts => loop.accumulate counts chunks

/-! ### The stream as a whole -/

/-- The last non-empty usage object of a stream. -/
def lastUsage (stream : Bytes) : Option Json :=
  ((splitlines (decode stream)).filterMap fun line =>
    (dataOf line).bind fun data => (loads data).bind usageOf).getLast?

/-- A field of a JSON object, `null` when it is missing. -/
def fieldOf (key : Str) : Json → Json
  | .obj fields => (Json.lookup key fields).getD .null
  | _ => .null

/-- The counts of the last usage object, and zeros when there is none. -/
def lastCounts (stream : Bytes) : Counts :=
  match lastUsage stream with
  | some u => (fieldOf (str "prompt_tokens") u, fieldOf (str "completion_tokens") u)
  | none => zeroCounts

/-- **The billed usage does not depend on the chunks**: any two ways to cut a stream
give the same counts, and they are those of the last usage object. -/
structure SplitIndependent (loop : StreamLoop) (stream : Bytes) : Prop where
  same : ∀ chunks chunks', chunks.flatten = stream → chunks'.flatten = stream →
    loop.accumulate zeroCounts chunks = loop.accumulate zeroCounts chunks'
  last : ∀ chunks, chunks.flatten = stream →
    loop.accumulate zeroCounts chunks = some (lastCounts stream)

/-! ### Small chunks -/

theorem usageOfLines_eq_none {lines : List Str} (h : ∀ line ∈ lines, dataOf line = none) :
    usageOfLines lines = none := by
  induction lines with
  | nil => rfl
  | cons line lines ih =>
      rw [usageOfLines, h line (by simp)]
      exact ih fun l hl => h l (by simp [hl])

/-- A chunk of fewer than five bytes has no `data:` line. -/
theorem parseUsageFromChunk_of_short {chunk : Bytes} (h : chunk.length < 5) :
    parseUsageFromChunk chunk = none := by
  refine usageOfLines_eq_none fun line hline => ?_
  have hlen := length_le_of_mem_splitlinesFrom hline
  have hdec := length_decode_le chunk
  rw [dataOf, if_neg]
  intro hdata
  have hstarts : (str "data:").length ≤ line.length :=
    (List.isPrefixOf_iff_prefix.mp hdata).length_le
  have hfive : (str "data:").length = 5 := rfl
  simp only [List.length_nil, Nat.zero_add] at hlen
  omega

namespace StreamLoop
variable {loop : StreamLoop} {counts : Counts}

theorem accumulate_append (xs ys : List Bytes) :
    loop.accumulate counts (xs ++ ys) =
      (loop.accumulate counts xs).bind fun counts => loop.accumulate counts ys := by
  induction xs generalizing counts with
  | nil => rfl
  | cons x xs ih =>
      simp only [List.cons_append, accumulate]
      cases loop.receive counts x with
      | none => rfl
      | some counts' => exact ih

theorem accumulate_singleton (chunk : Bytes) :
    loop.accumulate counts [chunk] = loop.receive counts chunk := by
  simp [accumulate]

/-- Chunks that leave the counts as they are. -/
theorem accumulate_of_receive {chunks : List Bytes}
    (h : ∀ chunk ∈ chunks, loop.receive counts chunk = some counts) :
    loop.accumulate counts chunks = some counts := by
  induction chunks with
  | nil => rfl
  | cons c cs ih =>
      rw [accumulate, h c (by simp), Option.bind_some]
      exact ih fun c' hc' => h c' (by simp [hc'])

/-- Cut into single bytes, a stream reports nothing. -/
theorem accumulate_bytes (stream : Bytes) :
    loop.accumulate counts (stream.map fun b => [b]) = some counts := by
  refine accumulate_of_receive fun chunk hchunk => ?_
  obtain ⟨b, -, rfl⟩ := List.mem_map.mp hchunk
  rw [receive, parseUsageFromChunk_of_short (by simp)]

end StreamLoop

theorem flatten_bytes (stream : Bytes) : (stream.map fun b => [b]).flatten = stream := by
  induction stream with
  | nil => rfl
  | cons b bs ih => simp [ih]

/-- **When the chunks do not matter**: the last usage object counts nothing, and
neither does any piece of the stream when it is parsed alone. -/
theorem splitIndependent_iff (loop : StreamLoop) (stream : Bytes) :
    SplitIndependent loop stream ↔
      lastCounts stream = zeroCounts ∧
        ∀ piece, piece <:+: stream → loop.receive zeroCounts piece = some zeroCounts := by
  constructor
  · rintro ⟨-, hlast⟩
    have hzero : lastCounts stream = zeroCounts := by
      have h := hlast _ (flatten_bytes stream)
      rw [StreamLoop.accumulate_bytes, Option.some.injEq] at h
      exact h.symm
    refine ⟨hzero, ?_⟩
    rintro piece ⟨before, after, rfl⟩
    -- one chunk for the piece, single bytes for everything else
    have h := hlast (before.map (fun b => [b]) ++ [piece] ++ after.map fun b => [b]) (by
      simp only [List.flatten_append, flatten_bytes, List.flatten_cons, List.flatten_nil,
        List.append_nil])
    rw [hzero, StreamLoop.accumulate_append, StreamLoop.accumulate_append,
      StreamLoop.accumulate_bytes, Option.bind_some, StreamLoop.accumulate_singleton] at h
    cases hr : loop.receive zeroCounts piece with
    | none => rw [hr] at h; cases h
    | some counts =>
        rw [hr, Option.bind_some, StreamLoop.accumulate_bytes] at h
        exact h
  · rintro ⟨hzero, hpieces⟩
    have hall : ∀ chunks : List Bytes, chunks.flatten = stream →
        loop.accumulate zeroCounts chunks = some zeroCounts := by
      rintro chunks rfl
      refine StreamLoop.accumulate_of_receive fun chunk hchunk => hpieces chunk ?_
      obtain ⟨xs, ys, rfl⟩ := List.append_of_mem hchunk
      exact ⟨xs.flatten, ys.flatten, by simp⟩
    exact ⟨fun chunks chunks' h h' => (hall _ h).trans (hall _ h').symm,
      fun chunks h => by rw [hzero]; exact hall _ h⟩

/-- A stream whose usage is five and seven tokens. -/
def usageStream : Bytes :=
  ascii "data: \x7b\"usage\":\x7b\"prompt_tokens\":5,\"completion_tokens\":7\x7d\x7d\n\n"

/-- The usage of a chunk as numbers. -/
def Counts.ints (counts : Counts) : Option ℤ × Option ℤ := (counts.1.toInt?, counts.2.toInt?)

/-- The same stream in one chunk and in two: five and seven tokens, or none. -/
theorem usage_lost_in_split :
    (usageStream.take 30 :: [usageStream.drop 30]).flatten = usageStream ∧
      (StreamLoop.direct.accumulate zeroCounts [usageStream]).map Counts.ints =
        some (some 5, some 7) ∧
      (StreamLoop.direct.accumulate zeroCounts [usageStream.take 30, usageStream.drop 30]).map
        Counts.ints = some (some 0, some 0) := by
  decide +kernel

end Llmxy
