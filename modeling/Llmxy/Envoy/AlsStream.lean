import Llmxy.Envoy.LogTail
import Llmxy.Lib.Machine

/-!
# The streams of access logs

Each Envoy keeps a stream open on which it sends its access log, some entries in a message.  The
handler of a stream takes them one by one: it shows the entry as a line in the buffer of the node,
and ingests it.  While one handler waits for the database the others go on, so the ingestion of an
entry is many moves, between any two of which others may write what it has read.

A stream is refused at the first message that names a node which does not exist.  The entries of
the messages before it have been ingested by then.

The rendering of a line and the ingestion of an entry are parameters here: nothing depends on
what they do, nor on whether they succeed.  What concurrent ingestions make of the database is not
said here, for they may lose each other's updates; but every entry is handed over once.

## Main definitions

* `AlsMessage`, `AlsPhase`, `alsStep` — `_stream_handler`, for many streams at once.
* `AlsShared.append`, `AlsShared.tail` — `access_log_buffer`.
* `entries_ingested_once` — every entry of a stream is ingested once, in order, after the one
  before it.
* `tail_shows_last` — the buffer of a node has its last lines.
-/

namespace Llmxy

universe u v w

/-! ### The buffers -/

/-- `MAX_LINES_PER_NODE`. -/
def maxLinesPerNode : ℕ := 500

/-- What the handlers share.  `ingested` is what they have ingested to the end so far and `recorded`
what they have shown, for the statements. -/
structure AlsShared (n : ℕ) (ε : Type u) (σ : Type v) where
  db : σ
  buffers : Str → Option (List Str)
  ingested : List (Fin n × ε)
  recorded : List (Fin n × Str × Str)

/-- `deque.append`, for a `maxlen`. -/
def dequeAppend (line : Str) (buf : List Str) : List Str :=
  (if buf.length < maxLinesPerNode then buf else buf.tail) ++ [line]

variable {n : ℕ} {ε : Type u} {σ : Type v} {ρ : Type w}

/-- `append`. -/
def AlsShared.append (i : Fin n) (nodeId line : Str) (s : AlsShared n ε σ) : AlsShared n ε σ :=
  if nodeId.isEmpty then s
  else
    { s with
      buffers := Function.update s.buffers nodeId
        (some (dequeAppend line ((s.buffers nodeId).getD [])))
      recorded := s.recorded ++ [(i, nodeId, line)] }

/-- `tail`. -/
def AlsShared.tail (s : AlsShared n ε σ) (nodeId : Str) (k : ℤ) : List Str :=
  match s.buffers nodeId with
  | none => []
  | some buf => if (buf.length : ℤ) ≤ k then buf else sliceFrom (-k) buf

/-! ### The handlers -/

/-- A `StreamAccessLogsMessage`.  There is no node id without an identifier. -/
structure AlsMessage (ε : Type u) where
  nodeId : Str
  entries : List ε

/-- Does the message name a node? -/
def AlsMessage.names (m : AlsMessage ε) : Bool := !m.nodeId.isEmpty

/-- Where a handler stands: before a message, before an entry, and at an await of the ingestion of
one. -/
inductive AlsPhase (ε : Type u) (ρ : Type w) where
  | reading (nodeId : Str) (authed : Bool) (messages : List (AlsMessage ε))
  | logging (nodeId : Str) (authed : Bool) (entries : List ε) (messages : List (AlsMessage ε))
  | ingesting (nodeId : Str) (authed : Bool) (entry : ε) (task : ρ) (entries : List ε)
      (messages : List (AlsMessage ε))
  | aborted
  | done (nodeId : Str)

/-- The entry that is being ingested. -/
def AlsPhase.underWay : AlsPhase ε ρ → List ε
  | .ingesting _ _ e _ _ _ => [e]
  | .reading _ _ _ | .logging _ _ _ _ | .aborted | .done _ => []

/-- How an entry is shown, if it can be, and how it is ingested. -/
structure AlsEnv (ε : Type u) (σ : Type v) (ρ : Type w) where
  line : ε → Option Str
  /-- `_ingest_entry`, before its first await. -/
  task : ε → ρ
  /-- From one await to the next, or to the end. -/
  work : ρ → σ → σ × Option ρ

/-- One move of a handler.  `known` is what `_node_exists` answers if it is asked. -/
def alsMove (env : AlsEnv ε σ ρ) (known : Bool) (i : Fin n) (s : AlsShared n ε σ) :
    AlsPhase ε ρ → Option (AlsShared n ε σ × AlsPhase ε ρ)
  | .reading nodeId _ [] => some (s, .done nodeId)
  | .reading nodeId authed (m :: messages) =>
      if !authed && m.names then
        if known then some (s, .logging m.nodeId true m.entries messages) else some (s, .aborted)
      else some (s, .logging nodeId authed m.entries messages)
  | .logging nodeId authed [] messages => some (s, .reading nodeId authed messages)
  | .logging nodeId authed (e :: entries) messages =>
      some (((env.line e).elim s fun line => s.append i nodeId line),
        .ingesting nodeId authed e (env.task e) entries messages)
  | .ingesting nodeId authed e task entries messages =>
      match env.work task s.db with
      | (db, some task) => some ({ s with db }, .ingesting nodeId authed e task entries messages)
      | (db, none) => some ({ s with db, ingested := s.ingested ++ [(i, e)] },
          .logging nodeId authed entries messages)
  | .aborted => none
  | .done _ => none

/-- The handlers of one process. -/
abbrev AlsNet (n : ℕ) (ε : Type u) (σ : Type v) (ρ : Type w) :=
  Net (Fin n) (AlsShared n ε σ) (AlsPhase ε ρ)

/-- One move of some handler. -/
def alsStep (env : AlsEnv ε σ ρ) (s : AlsNet n ε σ ρ) (a : Fin n × Bool) :
    Option (AlsNet n ε σ ρ) :=
  Net.step (alsMove env a.2) s a.1

/-- No stream has been read, and nothing shown. -/
def AlsNet.start (db : σ) (messages : Fin n → List (AlsMessage ε)) : AlsNet n ε σ ρ :=
  ⟨⟨db, fun _ => none, [], []⟩, fun i => .reading [] false (messages i)⟩

/-- The entries of messages. -/
def allEntries (messages : List (AlsMessage ε)) : List ε := messages.flatMap (·.entries)

/-- The messages from the first that names a node. -/
def identified (messages : List (AlsMessage ε)) : List (AlsMessage ε) :=
  messages.dropWhile fun m => !m.names

/-- What `i` has ingested. -/
def AlsShared.ingestedBy (s : AlsShared n ε σ) (i : Fin n) : List ε :=
  (s.ingested.filter (·.1 = i)).map Prod.snd

/-- The lines that `i` has shown. -/
def AlsShared.recordedBy (s : AlsShared n ε σ) (i : Fin n) : List Str :=
  (s.recorded.filter (·.1 = i)).map (·.2.2)

/-- The lines of a node. -/
def AlsShared.linesOf (s : AlsShared n ε σ) (nodeId : Str) : List Str :=
  (s.recorded.filter (·.2.1 = nodeId)).map (·.2.2)

/-- The node that a stream is about, once it is named. -/
def streamNode (messages : List (AlsMessage ε)) : Str :=
  (messages.find? (·.names)).elim [] (·.nodeId)

/-- The lines of a stream. -/
def streamLines (env : AlsEnv ε σ ρ) (messages : List (AlsMessage ε)) : List Str :=
  (allEntries (identified messages)).filterMap env.line

/-! ### What a handler has done of its stream -/

/-- The handler has read `past`. -/
structure HasRead (past : List (AlsMessage ε)) (nodeId : Str) (authed : Bool) : Prop where
  nodeId_eq : nodeId = streamNode past
  authed_eq : authed = past.any (·.names)

/-- The part of a stream that a handler has ingested and shown. -/
def AlsPhase.Holds (env : AlsEnv ε σ ρ) (all : List (AlsMessage ε)) (ingested : List ε)
    (lines : List Str) : AlsPhase ε ρ → Prop
  | .reading nodeId authed messages => ∃ past, all = past ++ messages ∧
      HasRead past nodeId authed ∧ ingested = allEntries past ∧ lines = streamLines env past
  | .logging nodeId authed entries messages => ∃ past m taken, all = past ++ m :: messages ∧
      m.entries = taken ++ entries ∧ HasRead (past ++ [m]) nodeId authed ∧
      ingested = allEntries past ++ taken ∧ lines = streamLines env (past ++ [⟨m.nodeId, taken⟩])
  | .ingesting nodeId authed e _ entries messages => ∃ past m taken, all = past ++ m :: messages ∧
      m.entries = taken ++ e :: entries ∧ HasRead (past ++ [m]) nodeId authed ∧
      ingested = allEntries past ++ taken ∧
      lines = streamLines env (past ++ [⟨m.nodeId, taken ++ [e]⟩])
  | .aborted => ingested = allEntries (all.takeWhile fun m => !m.names) ∧ lines = []
  | .done nodeId => HasRead all nodeId (all.any (·.names)) ∧ ingested = allEntries all ∧
      lines = streamLines env all

section
variable {env : AlsEnv ε σ ρ} {past : List (AlsMessage ε)} {m : AlsMessage ε} {es : List ε}

theorem identified_concat (past : List (AlsMessage ε)) (m : AlsMessage ε) :
    identified (past ++ [m]) =
      if past.any (·.names) || m.names then identified past ++ [m] else [] := by
  induction past with
  | nil => cases h : m.names <;> simp [identified, h]
  | cons p past ih =>
      rw [identified, List.cons_append, List.dropWhile_cons, List.any_cons]
      cases h : p.names with
      | true => simp [identified, h]
      | false =>
          rw [identified] at ih
          simpa [identified, h] using ih

theorem identified_eq_nil (h : past.any (·.names) = false) : identified past = [] := by
  rw [identified, List.dropWhile_eq_nil_iff]
  simpa using h

/-- One more message, of the same node. -/
theorem streamLines_concat :
    streamLines env (past ++ [⟨m.nodeId, es⟩]) =
      if (past ++ [m]).any (·.names) then streamLines env past ++ es.filterMap env.line
      else [] := by
  have hnames : (⟨m.nodeId, es⟩ : AlsMessage ε).names = m.names := rfl
  rw [streamLines, identified_concat, hnames, List.any_append, List.any_cons, List.any_nil,
    Bool.or_false]
  split_ifs
  · rw [allEntries, List.flatMap_append, List.filterMap_append]
    simp [streamLines, allEntries]
  · rfl

/-- One more entry of the last message. -/
theorem streamLines_entry {e : ε} :
    streamLines env (past ++ [⟨m.nodeId, es ++ [e]⟩]) =
      streamLines env (past ++ [⟨m.nodeId, es⟩]) ++
        if (past ++ [m]).any (·.names) then (env.line e).toList else [] := by
  rw [streamLines_concat, streamLines_concat]
  split_ifs
  · rw [List.filterMap_append, List.append_assoc]
    rfl
  · rfl

theorem streamNode_isEmpty (messages : List (AlsMessage ε)) :
    (streamNode messages).isEmpty = !messages.any (·.names) := by
  cases h : messages.find? (·.names) with
  | none =>
      have hany : messages.any (·.names) = false := by
        simpa [List.any_eq_false] using List.find?_eq_none.mp h
      rw [streamNode, h, hany]
      rfl
  | some m =>
      have hname : m.names = true := List.find?_some h
      have hany : messages.any (·.names) = true :=
        List.any_eq_true.mpr ⟨m, List.mem_of_find?_eq_some h, hname⟩
      rw [streamNode, h, hany]
      simpa [AlsMessage.names] using hname

/-- A node that is known stays. -/
theorem streamNode_append (h : past.any (·.names) = true) (messages : List (AlsMessage ε)) :
    streamNode (past ++ messages) = streamNode past := by
  obtain ⟨m, hm⟩ : ∃ m, past.find? (·.names) = some m := by
    rw [← Option.isSome_iff_exists, List.find?_isSome]
    simpa using h
  rw [streamNode, streamNode, List.find?_append, hm, Option.some_or]

theorem streamLines_eq_nil (h : past.any (·.names) = false) : streamLines env past = [] := by
  rw [streamLines, identified_eq_nil h]
  rfl

/-- The message that names the node. -/
theorem HasRead.named (h : past.any (·.names) = false) (hm : m.names = true) :
    HasRead (past ++ [m]) m.nodeId true := by
  have hnone : past.find? (·.names) = none := by
    simpa [List.find?_eq_none, List.any_eq_false] using h
  refine ⟨?_, by simp [hm]⟩
  rw [streamNode, List.find?_append, hnone, Option.none_or, List.find?_singleton, if_pos hm]
  rfl

/-- Another message of a stream whose node is known, or that does not name it. -/
theorem HasRead.unnamed {nodeId : Str} {authed : Bool} (h : HasRead past nodeId authed)
    (hm : (!authed && m.names) = false) : HasRead (past ++ [m]) nodeId authed := by
  obtain ⟨rfl, rfl⟩ := h
  cases hany : past.any (·.names) with
  | true => exact ⟨(streamNode_append hany [m]).symm, by simp [hany]⟩
  | false =>
      have hname : m.names = false := by simpa [hany] using hm
      have hnode : streamNode (past ++ [m]) = streamNode past := by
        rw [streamNode, streamNode, List.find?_append, List.find?_singleton, hname]
        simp
      exact ⟨hnode.symm, by simp [hany, hname]⟩

/-- **The moves between messages** keep what a handler has done. -/
theorem AlsPhase.Holds.quiet {all : List (AlsMessage ε)} {ingested : List ε} {lines : List Str}
    {known : Bool} {i : Fin n} {s : AlsShared n ε σ} {l l' : AlsPhase ε ρ}
    (hread : ∀ nodeId authed e entries messages, l ≠ .logging nodeId authed (e :: entries) messages)
    (hingest : ∀ nodeId authed e task entries messages,
      l ≠ .ingesting nodeId authed e task entries messages)
    {s' : AlsShared n ε σ} (hmove : alsMove env known i s l = some (s', l'))
    (h : l.Holds env all ingested lines) : s' = s ∧ l'.Holds env all ingested lines := by
  cases l with
  | aborted => cases hmove
  | done nodeId => cases hmove
  | ingesting nodeId authed e task entries messages => exact absurd rfl (hingest _ _ _ _ _ _)
  | logging nodeId authed entries messages =>
      cases entries with
      | cons e entries => exact absurd rfl (hread _ _ _ _ _)
      | nil =>
          cases hmove
          obtain ⟨past, m, taken, hall, hentries, hpast, hing, hlines⟩ := h
          rw [List.append_nil] at hentries
          refine ⟨rfl, past ++ [m], by simp [hall], hpast, ?_, ?_⟩
          · rw [hing, ← hentries]
            simp [allEntries]
          · rw [hlines, ← hentries]
  | reading nodeId authed messages =>
      obtain ⟨past, hall, hpast, hing, hlines⟩ := h
      cases messages with
      | nil =>
          cases hmove
          rw [List.append_nil] at hall
          subst hall
          exact ⟨rfl, ⟨hpast.nodeId_eq, rfl⟩, hing, hlines⟩
      | cons m messages =>
          -- no entry of the message is taken yet
          have hstart : lines = streamLines env (past ++ [⟨m.nodeId, []⟩]) := by
            rw [hlines, streamLines_concat, List.filterMap_nil, List.append_nil]
            split_ifs with hany
            · rfl
            · rw [List.any_append, Bool.or_eq_true, not_or, Bool.not_eq_true] at hany
              exact streamLines_eq_nil hany.1
          rw [alsMove] at hmove
          split_ifs at hmove with hname hknown
          · cases hmove
            rw [hpast.authed_eq, Bool.and_eq_true, Bool.not_eq_true'] at hname
            exact ⟨rfl, past, m, [], hall, rfl, .named hname.1 hname.2, by simpa using hing, hstart⟩
          · cases hmove
            rw [hpast.authed_eq, Bool.and_eq_true, Bool.not_eq_true'] at hname
            have htake : all.takeWhile (fun m => !m.names) = past := by
              rw [hall, List.takeWhile_append_of_pos (by simpa using hname.1),
                List.takeWhile_cons_of_neg (by simpa using hname.2), List.append_nil]
            exact ⟨rfl, by rw [htake, hing], by rw [hlines, streamLines_eq_nil hname.1]⟩
          · cases hmove
            exact ⟨rfl, past, m, [], hall, rfl, hpast.unnamed (by simpa using hname),
              by simpa using hing, hstart⟩

end

/-! ### The invariant -/

section
variable {env : AlsEnv ε σ ρ} {db : σ} {messages : Fin n → List (AlsMessage ε)}

/-- Every handler has done its part, and a buffer has the last lines of its node. -/
structure AlsInv (env : AlsEnv ε σ ρ) (messages : Fin n → List (AlsMessage ε))
    (s : AlsNet n ε σ ρ) : Prop where
  holds : ∀ i, (s.loc i).Holds env (messages i) (s.shared.ingestedBy i) (s.shared.recordedBy i)
  buffers : ∀ nodeId, (s.shared.buffers nodeId).getD [] =
    (s.shared.linesOf nodeId).rtake maxLinesPerNode
  nodes : ∀ x ∈ s.shared.recorded, x.2.1 = streamNode (messages x.1)

theorem alsInv_start : AlsInv env messages (.start db messages) where
  holds _ := ⟨[], rfl, ⟨rfl, rfl⟩, rfl, rfl⟩
  buffers _ := by simp [AlsNet.start, AlsShared.linesOf]
  nodes := by intro x hx; exact absurd hx List.not_mem_nil

/-- A deque keeps the last lines. -/
theorem dequeAppend_rtake (line : Str) (lines : List Str) :
    dequeAppend line (lines.rtake maxLinesPerNode) = (lines ++ [line]).rtake maxLinesPerNode := by
  have hlength : (lines.rtake maxLinesPerNode).length = min lines.length maxLinesPerNode := by
    rw [List.rtake, List.length_drop]
    omega
  obtain ⟨k, hk⟩ : ∃ k, maxLinesPerNode = k + 1 := ⟨499, rfl⟩
  rw [dequeAppend, hlength, hk, List.rtake_concat_succ, ← hk]
  split_ifs with hlt
  · have hshort : lines.length ≤ k := by omega
    rw [List.rtake, List.rtake, Nat.sub_eq_zero_of_le hshort, Nat.sub_eq_zero_of_le (by omega)]
  · have hlong : lines.length - k = lines.length - maxLinesPerNode + 1 := by omega
    rw [List.rtake, List.rtake, List.tail_drop, hlong]

/-- What a line leaves. -/
theorem append_of_named {s : AlsShared n ε σ} {i : Fin n} {nodeId line : Str}
    (h : nodeId.isEmpty = false) :
    s.append i nodeId line =
      { s with
        buffers := Function.update s.buffers nodeId
          (some (dequeAppend line ((s.buffers nodeId).getD [])))
        recorded := s.recorded ++ [(i, nodeId, line)] } := by
  rw [AlsShared.append, h]
  rfl

section
variable {s : AlsNet n ε σ ρ} {i : Fin n} {l : AlsPhase ε ρ}

/-- A handler that moves without an effect, but on the database. -/
theorem AlsInv.move (h : AlsInv env messages s)
    (hl : l.Holds env (messages i) (s.shared.ingestedBy i) (s.shared.recordedBy i)) (db : σ) :
    AlsInv env messages ⟨{ s.shared with db }, Function.update s.loc i l⟩ := by
  refine ⟨fun j => ?_, h.buffers, h.nodes⟩
  by_cases hj : j = i
  · subst hj
    simpa [AlsShared.ingestedBy, AlsShared.recordedBy] using hl
  · simpa [AlsShared.ingestedBy, AlsShared.recordedBy, Function.update_of_ne hj] using h.holds j

/-- **An entry that is ingested** is ingested for its stream alone. -/
theorem AlsInv.ingest (h : AlsInv env messages s) {e : ε}
    (hl : l.Holds env (messages i) (s.shared.ingestedBy i ++ [e]) (s.shared.recordedBy i))
    (db : σ) :
    AlsInv env messages ⟨{ s.shared with db, ingested := s.shared.ingested ++ [(i, e)] },
      Function.update s.loc i l⟩ := by
  refine ⟨fun j => ?_, h.buffers, h.nodes⟩
  by_cases hj : j = i
  · subst hj
    simpa [AlsShared.ingestedBy, AlsShared.recordedBy] using hl
  · simpa [AlsShared.ingestedBy, AlsShared.recordedBy, Function.update_of_ne hj, Ne.symm hj]
      using h.holds j

/-- **A line that is shown** is shown for its stream and its node alone. -/
theorem AlsInv.record (h : AlsInv env messages s) {nodeId line : Str}
    (hnamed : nodeId.isEmpty = false) (hnode : nodeId = streamNode (messages i))
    (hl : l.Holds env (messages i) (s.shared.ingestedBy i) (s.shared.recordedBy i ++ [line])) :
    AlsInv env messages ⟨s.shared.append i nodeId line, Function.update s.loc i l⟩ := by
  rw [append_of_named hnamed]
  refine ⟨fun j => ?_, fun node => ?_, fun x hx => ?_⟩
  · by_cases hj : j = i
    · subst hj
      simpa [AlsShared.ingestedBy, AlsShared.recordedBy] using hl
    · simpa [AlsShared.ingestedBy, AlsShared.recordedBy, Function.update_of_ne hj, Ne.symm hj]
        using h.holds j
  · have hbuffer := h.buffers node
    by_cases hsame : node = nodeId
    · subst hsame
      simp only [Function.update_self, Option.getD_some, hbuffer, dequeAppend_rtake]
      simp [AlsShared.linesOf]
    · simpa [Function.update_of_ne hsame, AlsShared.linesOf, Ne.symm hsame] using hbuffer
  · obtain hx | rfl := List.mem_append.mp hx |>.imp_right List.mem_singleton.mp
    · exact h.nodes x hx
    · exact hnode

/-- **One move** of a handler keeps the invariant. -/
theorem AlsInv.step {a : Fin n × Bool} {t : AlsNet n ε σ ρ} (h : AlsInv env messages s)
    (hstep : alsStep env s a = some t) : AlsInv env messages t := by
  obtain ⟨i, known⟩ := a
  obtain ⟨sh, l', hmove, rfl⟩ := Net.step_eq_some.mp hstep
  have hi := h.holds i
  cases hloc : s.loc i with
  | ingesting nodeId authed e task entries todo =>
      rw [hloc] at hmove hi
      rw [alsMove] at hmove
      split at hmove
      · next db task' _ =>
        cases hmove
        -- where the ingestion stands is no part of what is held
        have hl : (AlsPhase.ingesting nodeId authed e task' entries todo).Holds env (messages i)
            (s.shared.ingestedBy i) (s.shared.recordedBy i) := hi
        exact h.move hl db
      · next db _ =>
        cases hmove
        obtain ⟨past, m, taken, hall, hentries, hpast, hing, hlines⟩ := hi
        have hl : (AlsPhase.logging nodeId authed entries todo : AlsPhase ε ρ).Holds env
            (messages i) (s.shared.ingestedBy i ++ [e]) (s.shared.recordedBy i) := by
          refine ⟨past, m, taken ++ [e], hall, by simpa using hentries, hpast, ?_, hlines⟩
          rw [hing, List.append_assoc]
        exact h.ingest hl db
  | logging nodeId authed entries todo =>
      cases entries with
      | cons e entries =>
          rw [hloc] at hmove hi
          cases hmove
          obtain ⟨past, m, taken, hall, hentries, hpast, hing, hlines⟩ := hi
          have hempty := streamNode_isEmpty (past ++ [m])
          rw [← hpast.nodeId_eq] at hempty
          have hholds : ∀ {lines}, lines = streamLines env (past ++ [⟨m.nodeId, taken ++ [e]⟩]) →
              (AlsPhase.ingesting nodeId authed e (env.task e) entries todo).Holds env (messages i)
                (s.shared.ingestedBy i) lines :=
            fun hlines => ⟨past, m, taken, hall, hentries, hpast, hing, hlines⟩
          rw [streamLines_entry, ← hlines] at hholds
          cases hline : env.line e with
          | none => exact h.move (hholds (by simp [hline])) _
          | some line =>
              rw [hline] at hholds
              cases hany : (past ++ [m]).any (·.names) with
              | false =>
                  rw [hany] at hempty hholds
                  have hsame : s.shared.append i nodeId line = s.shared := if_pos hempty
                  rw [Option.elim_some, hsame]
                  exact h.move (hholds (by simp)) _
              | true =>
                  rw [hany] at hempty hholds
                  refine h.record hempty ?_ (hholds (by simp))
                  rw [hpast.nodeId_eq, hall, ← streamNode_append hany todo, List.append_assoc]
                  rfl
      | nil =>
          obtain ⟨rfl, hl⟩ := hi.quiet (by simp [hloc]) (by simp [hloc]) hmove
          exact h.move hl _
  | reading nodeId authed todo =>
      obtain ⟨rfl, hl⟩ := hi.quiet (by simp [hloc]) (by simp [hloc]) hmove
      exact h.move hl _
  | aborted =>
      rw [hloc] at hmove
      cases hmove
  | done nodeId =>
      rw [hloc] at hmove
      cases hmove

end

/-! ### Whole runs -/

section
variable {s : AlsNet n ε σ ρ} {as : List (Fin n × Bool)}

theorem alsInv_run (hrun : run (alsStep env) as (.start db messages) = some s) :
    AlsInv env messages s :=
  run_induction (fun _ _ _ h hstep => h.step hstep) alsInv_start hrun

/-- The entry under way is the next one. -/
theorem prefix_of_holds {l : AlsPhase ε ρ} {all : List (AlsMessage ε)} {ingested : List ε}
    {lines : List Str} (h : l.Holds env all ingested lines) :
    ingested ++ l.underWay <+: allEntries all := by
  cases l with
  | reading nodeId authed todo =>
      obtain ⟨past, rfl, -, rfl, -⟩ := h
      exact ⟨allEntries todo, by simp [allEntries, AlsPhase.underWay]⟩
  | logging nodeId authed entries todo =>
      obtain ⟨past, m, taken, rfl, hentries, -, rfl, -⟩ := h
      exact ⟨entries ++ allEntries todo, by simp [allEntries, AlsPhase.underWay, hentries]⟩
  | ingesting nodeId authed e task entries todo =>
      obtain ⟨past, m, taken, rfl, hentries, -, rfl, -⟩ := h
      exact ⟨entries ++ allEntries todo, by simp [allEntries, AlsPhase.underWay, hentries]⟩
  | aborted =>
      obtain ⟨rfl, -⟩ := h
      obtain ⟨rest, hrest⟩ := List.takeWhile_prefix (fun m : AlsMessage ε => !m.names) (l := all)
      refine ⟨allEntries rest, ?_⟩
      rw [AlsPhase.underWay, List.append_nil, allEntries, allEntries, ← List.flatMap_append, hrest]
      rfl
  | done nodeId =>
      obtain ⟨-, rfl, -⟩ := h
      exact ⟨[], by simp [AlsPhase.underWay]⟩

/-- **Every entry is ingested once.**  However the handlers of a process take turns, between the
awaits of an ingestion too, the entries of a stream that have been ingested to the end, and the one
that is under way, are its first ones in order: all of them when the handler is done, and when it
refused the stream those of the messages before the one that names the node. -/
theorem entries_ingested_once (env : AlsEnv ε σ ρ) (db : σ)
    (messages : Fin n → List (AlsMessage ε)) (as : List (Fin n × Bool)) (s : AlsNet n ε σ ρ)
    (hrun : run (alsStep env) as (.start db messages) = some s) (i : Fin n) :
    s.shared.ingestedBy i ++ (s.loc i).underWay <+: allEntries (messages i) ∧
      (∀ nodeId, s.loc i = .done nodeId → s.shared.ingestedBy i = allEntries (messages i)) ∧
      (s.loc i = .aborted →
        s.shared.ingestedBy i = allEntries ((messages i).takeWhile fun m => !m.names)) := by
  have hi := (alsInv_run hrun).holds i
  refine ⟨prefix_of_holds hi, fun nodeId hdone => ?_, fun haborted => ?_⟩
  · rw [hdone] at hi
    exact hi.2.1
  · rw [haborted] at hi
    exact hi.1

/-- The tail of a list of lines is its end. -/
theorem tail_eq_rtake_of {s : AlsShared n ε σ} {nodeId : Str} {k : ℕ} (hk : 1 ≤ k) :
    s.tail nodeId k = ((s.buffers nodeId).getD []).rtake k := by
  cases hbuf : s.buffers nodeId with
  | none => simp [AlsShared.tail, hbuf]
  | some buf =>
      rw [AlsShared.tail, hbuf, Option.getD_some]
      dsimp only
      split_ifs with hle
      · rw [List.rtake, Nat.sub_eq_zero_of_le (by omega), List.drop_zero]
      · exact sliceFrom_neg hk buf

/-- **The view of a node.**  However the handlers take turns, the tail of the buffer of a node has
the last of its lines, at most 500; a line is shown for the node that its stream has named; and
when a handler is done its stream has shown every entry that can be rendered from the message
that names the node, once and in order. -/
theorem tail_shows_last (env : AlsEnv ε σ ρ) (db : σ) (messages : Fin n → List (AlsMessage ε))
    (as : List (Fin n × Bool)) (s : AlsNet n ε σ ρ)
    (hrun : run (alsStep env) as (.start db messages) = some s) :
    (∀ nodeId (k : ℕ), 1 ≤ k →
        s.shared.tail nodeId k = (s.shared.linesOf nodeId).rtake (min k maxLinesPerNode)) ∧
      (∀ x ∈ s.shared.recorded, x.2.1 = streamNode (messages x.1)) ∧
      ∀ i nodeId, s.loc i = .done nodeId →
        s.shared.recordedBy i = streamLines env (messages i) := by
  have hinv := alsInv_run hrun
  refine ⟨fun nodeId k hk => ?_, hinv.nodes, fun i nodeId hdone => ?_⟩
  · rw [tail_eq_rtake_of hk, hinv.buffers nodeId, List.rtake_eq_reverse_take_reverse,
      List.rtake_eq_reverse_take_reverse, List.rtake_eq_reverse_take_reverse,
      List.reverse_reverse, List.take_take]
  · have hi := hinv.holds i
    rw [hdone] at hi
    exact hi.2.2

end

end

/-! ### Two streams -/

/-- Two streams of one node, the second of which does not name it at once. -/
def twoStreams : Fin 2 → List (AlsMessage ℕ) :=
  ![[⟨str "n", [1]⟩], [⟨[], [2]⟩, ⟨str "n", [3]⟩]]

/-- An entry is shown as its number.  To count it the counter is read, and written after an
await. -/
def countingEnv : AlsEnv ℕ ℕ (ℕ × Option ℕ) where
  line e := some (showNat e)
  task e := (e, none)
  work
    | (e, none), db => (db, some (e, some db))
    | (e, some read), _ => (read + e, none)

/-- The handlers take turns. -/
def takingTurns : List (Fin 2 × Bool) :=
  (List.range 6).flatMap (fun _ => [(0, true), (1, true)]) ++ List.replicate 5 (1, true)

/-- The counter misses an entry, and no entry is missed. -/
theorem entries_ingested_once_two :
    ∃ s, run (alsStep countingEnv) takingTurns (.start 0 twoStreams) = some s ∧
      s.shared.db = 5 ∧ s.shared.ingestedBy 0 = [1] ∧ s.shared.ingestedBy 1 = [2, 3] := by
  have hrun : run (alsStep countingEnv) takingTurns (.start 0 twoStreams) = some _ := rfl
  have hzero := (entries_ingested_once countingEnv 0 twoStreams _ _ hrun 0).2.1 (str "n") rfl
  have hone := (entries_ingested_once countingEnv 0 twoStreams _ _ hrun 1).2.1 (str "n") rfl
  exact ⟨_, hrun, rfl, hzero, hone⟩

theorem tail_shows_last_two :
    ∃ s, run (alsStep countingEnv) takingTurns (.start 0 twoStreams) = some s ∧
      s.shared.tail (str "n") 2 = (s.shared.linesOf (str "n")).rtake 2 := by
  have hrun : run (alsStep countingEnv) takingTurns (.start 0 twoStreams) = some _ := rfl
  exact ⟨_, hrun, (tail_shows_last countingEnv 0 twoStreams _ _ hrun).1 (str "n") 2 (by decide)⟩

end Llmxy
