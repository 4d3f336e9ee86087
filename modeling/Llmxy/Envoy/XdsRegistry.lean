import Llmxy.Lib.Machine
import Llmxy.Lib.Text

/-!
# The registry of ADS streams

Each stream registers its event under the node it serves, and `notify_node` sets the event
that is registered.  A node that reconnects has two streams for a while, and both use the
same entry: the old stream takes it away when it ends, whoever's it is.

## Main definitions

* `XdsProcess`, `XdsProcess.step` — the process, with its streams and their events.
* `XdsProcess.Reached` — a notification wakes the newest stream of a node.
* `reached_iff` — when it always does.
-/

namespace Llmxy

/-- What one process holds.  A stream is named by its number in the order of opening. -/
structure XdsProcess (Node Loop : Type) where
  /-- `_node_events`. -/
  nodeEvents : Node → Option ℕ
  /-- `_node_loops`. -/
  nodeLoops : Node → Option Loop
  /-- The open streams with their nodes, the newest first. -/
  streams : List (Node × ℕ)
  /-- How many streams were opened. -/
  opened : ℕ
  /-- The events that a loop is to set, in order. -/
  callbacks : Loop → List ℕ
  isSet : ℕ → Bool

/-- What happens in the process. -/
inductive XdsLabel (Node Loop : Type) where
  | opens (node : Node) (loop : Loop)
  /-- The `finally` block of a stream. -/
  | closes (node : Node) (stream : ℕ)
  | notify (node : Node)
  /-- A loop runs its next callback. -/
  | callback (loop : Loop)
  /-- The push loop of a stream clears its event. -/
  | clears (stream : ℕ)

namespace XdsProcess
variable {Node Loop : Type} [DecidableEq Node] (s t : XdsProcess Node Loop)

/-- No stream was opened. -/
def start : XdsProcess Node Loop := ⟨fun _ => none, fun _ => none, [], 0, fun _ => [], fun _ => false⟩

/-- `_local_notify`: the event that it has set, and the loop that does it. -/
def localNotify (node : Node) : Option (Loop × ℕ) := do
  let evt ← s.nodeEvents node
  let loop ← s.nodeLoops node
  return (loop, evt)

/-- A stream registers. -/
def register (node : Node) (loop : Loop) : XdsProcess Node Loop :=
  { s with
    nodeEvents := Function.update s.nodeEvents node (some s.opened)
    nodeLoops := Function.update s.nodeLoops node (some loop)
    streams := (node, s.opened) :: s.streams
    opened := s.opened + 1 }

/-- A stream ends. -/
def unregister (node : Node) (stream : ℕ) : XdsProcess Node Loop :=
  { s with
    nodeEvents := Function.update s.nodeEvents node none
    nodeLoops := Function.update s.nodeLoops node none
    streams := s.streams.filter (· ≠ (node, stream)) }

/-- The newest open stream of a node. -/
def newest? (node : Node) : Option ℕ := (s.streams.find? fun e => e.1 = node).map Prod.snd

/-- A notification of the node is for its newest open stream. -/
def Reached (node : Node) : Prop :=
  ∀ stream, s.newest? node = some stream → (s.localNotify node).map Prod.snd = some stream

variable {s t}

theorem newest?_eq_none {node : Node} :
    s.newest? node = none ↔ ∀ stream, (node, stream) ∉ s.streams := by
  rw [newest?, Option.map_eq_none_iff, List.find?_eq_none]
  constructor
  · intro h stream hmem
    exact h _ hmem (by simp)
  · rintro h ⟨node', stream⟩ hmem heq
    obtain rfl : node' = node := by simpa using heq
    exact h stream hmem

/-- A stream registers for its own node. -/
theorem reached_register (node node' : Node) (loop : Loop) (h : s.Reached node) :
    (s.register node' loop).Reached node := by
  intro stream hnewest
  by_cases hnode : node' = node
  · subst hnode
    obtain rfl : s.opened = stream := by simpa [newest?, register] using hnewest
    simp [localNotify, register]
  · have hsame : s.newest? node = some stream := by
      simpa [newest?, register, hnode] using hnewest
    simpa [localNotify, register, Function.update_of_ne (Ne.symm hnode)] using h stream hsame

/-- A stream that ends leaves the other nodes alone. -/
theorem reached_unregister_of_ne {node node' : Node} (hnode : node' ≠ node) (stream : ℕ) :
    (s.unregister node' stream).Reached node ↔ s.Reached node := by
  have hnewest : (s.unregister node' stream).newest? node = s.newest? node := by
    rw [newest?, newest?, unregister, List.find?_filter]
    congr 2
    funext e
    by_cases he : e.1 = node
    · have : e ≠ (node', stream) := fun heq => hnode (by rw [← he, heq])
      simp [he, this]
    · simp [he]
  have hnotify : (s.unregister node' stream).localNotify node = s.localNotify node := by
    simp [localNotify, unregister, Function.update_of_ne (Ne.symm hnode)]
  rw [Reached, Reached, hnewest, hnotify]

/-- A stream that ends leaves its own node without an entry. -/
theorem reached_unregister (node : Node) (stream : ℕ) :
    (s.unregister node stream).Reached node ↔
      ∀ other, (node, other) ∈ s.streams → other = stream := by
  have hnotify : (s.unregister node stream).localNotify node = none := by
    simp [localNotify, unregister]
  have hmem : ∀ other, (node, other) ∈ (s.unregister node stream).streams ↔
      (node, other) ∈ s.streams ∧ other ≠ stream := fun other => by
    simp [unregister]
  calc (s.unregister node stream).Reached node
      ↔ (s.unregister node stream).newest? node = none := by
        rw [Reached, hnotify, Option.eq_none_iff_forall_ne_some]
        simp
    _ ↔ ∀ other, (node, other) ∈ s.streams → other = stream := by
        rw [newest?_eq_none]
        simp only [hmem, not_and, not_not]

/-! ### The process -/

section
variable [DecidableEq Loop]

def step (s : XdsProcess Node Loop) : XdsLabel Node Loop → Option (XdsProcess Node Loop)
  | .opens node loop => some (s.register node loop)
  | .closes node stream => if (node, stream) ∈ s.streams then some (s.unregister node stream) else none
  | .notify node =>
      match s.localNotify node with
      | none => some s
      | some (loop, evt) =>
          some { s with
            callbacks := Function.update s.callbacks loop (s.callbacks loop ++ [evt]) }
  | .callback loop =>
      match s.callbacks loop with
      | [] => none
      | evt :: rest =>
          some { s with
            callbacks := Function.update s.callbacks loop rest
            isSet := Function.update s.isSet evt true }
  | .clears stream => some { s with isSet := Function.update s.isSet stream false }

/-- The stream that closes is the only one of the node that is open. -/
def ClosesAlone (node : Node) (s : XdsProcess Node Loop) : XdsLabel Node Loop → Prop
  | .closes node' stream => node' = node → (node, stream) ∈ s.streams →
      ∀ other, (node, other) ∈ s.streams → other = stream
  | _ => True

/-- **What one step keeps**: only a stream that ends while another is open takes away the
entry of that one. -/
theorem reached_step_iff {node : Node} {l : XdsLabel Node Loop} (h : s.Reached node)
    (hstep : s.step l = some t) : t.Reached node ↔ s.ClosesAlone node l := by
  cases l with
  | opens node' loop =>
      obtain rfl := Option.some.inj hstep
      exact iff_of_true (reached_register node node' loop h) trivial
  | closes node' stream =>
      rw [step] at hstep
      split_ifs at hstep with hopen
      obtain rfl := Option.some.inj hstep
      by_cases hnode : node' = node
      · subst hnode
        rw [reached_unregister]
        exact ⟨fun hall _ _ => hall, fun hall => hall rfl hopen⟩
      · rw [reached_unregister_of_ne hnode]
        exact iff_of_true h fun heq => absurd heq hnode
  | notify node' =>
      refine iff_of_true ?_ trivial
      rw [step] at hstep
      split at hstep
      · obtain rfl := Option.some.inj hstep
        exact h
      · obtain rfl := Option.some.inj hstep
        exact h
  | callback loop =>
      refine iff_of_true ?_ trivial
      rw [step] at hstep
      split at hstep
      · cases hstep
      · obtain rfl := Option.some.inj hstep
        exact h
  | clears stream =>
      obtain rfl := Option.some.inj hstep
      exact iff_of_true h trivial

/-- **A live stream is always reached** exactly in the runs in which each stream of the node
ends while no other is open. -/
theorem reached_iff (node : Node) (labels : List (XdsLabel Node Loop)) :
    (∀ prefixes t, prefixes <+: labels → run step prefixes start = some t → t.Reached node) ↔
      Along step (ClosesAlone node) labels start := by
  have hstart : (start : XdsProcess Node Loop).Reached node := fun stream hnewest => by
    cases hnewest
  refine forall_prefix_iff_along (I := fun s => s.Reached node) (J := fun _ => True)
    (P := ClosesAlone node) (fun _ _ _ _ _ => trivial) (fun s l hstuck => ?_)
    (fun s l t _ h hstep => reached_step_iff h hstep) labels trivial hstart
  cases l with
  | closes node' stream =>
      rw [step] at hstuck
      split_ifs at hstuck with hopen
      rintro rfl hmem
      exact absurd hmem hopen
  | _ => exact trivial

end

/-- A node reconnects, and then its old stream ends. -/
def reconnected : XdsProcess Str ℕ :=
  (run step [.opens (str "edge-1") 0, .opens (str "edge-1") 0, .closes (str "edge-1") 0]
    start).get (by decide)

/-- The new stream is open, and no notification gets to it. -/
theorem reconnected_frozen :
    reconnected.newest? (str "edge-1") = some 1 ∧
      reconnected.localNotify (str "edge-1") = none ∧ ¬ reconnected.Reached (str "edge-1") := by
  refine ⟨by decide, by decide, fun h => ?_⟩
  have hnotify : (reconnected.localNotify (str "edge-1")).map Prod.snd = some 1 :=
    h 1 (by decide)
  exact absurd hnotify (by decide)

end XdsProcess
end Llmxy
