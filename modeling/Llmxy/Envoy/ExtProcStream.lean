import Llmxy.Envoy.ChatChain

/-!
# The external processor, frame by frame

Envoy opens one stream of the external processor for a request, and sends its headers and the
pieces of its body as frames; `Process` answers each frame before it reads the next.  The verdict
comes with the frame that is marked as the end of the stream.

A request is judged by what Envoy makes of the answers: it stops at an immediate response, and
applies the header mutations of the others.

## Main definitions

* `ProcFrame`, `ProcResponse` — the two directions of a stream.
* `headersMap`, `process` — `_headers_map` and the loop of `Process`.
* `Decision.response` — how a verdict is answered.
* `process_frames` — what is answered to a request, however its body is cut.
* `process_mutates`, `process_unended` — nobody is identified without a verdict, and nobody is
  asked about frames of which none ends the stream.
-/

namespace Llmxy

/-! ### Frames -/

/-- A `ProcessingRequest`. -/
inductive ProcFrame where
  | requestHeaders (headers : Headers) (endOfStream : Bool)
  | requestBody (body : Bytes) (endOfStream : Bool)
  /-- Trailers, or a frame of the response. -/
  | other

/-- A `ProcessingResponse`. -/
inductive ProcResponse where
  /-- Envoy answers the client itself. -/
  | immediate (code : ℕ) (headers : Headers) (message : Option Str)
  /-- `CONTINUE` after the headers, with a mutation or without. -/
  | continueHeaders (set : Option Headers)
  /-- `CONTINUE` after a piece of the body. -/
  | continueBody (set : Option Headers)
  | empty
  deriving DecidableEq

/-- `_headers_map`: names in lower case, and the last value of a name. -/
def headersMap (raw : Headers) : Headers :=
  raw.foldl (fun out h => out.filter (·.1 ≠ lower h.1) ++ [(lower h.1, h.2)]) []

/-- `_cors_preflight`. -/
def corsPreflight (headers : Headers) : ProcResponse :=
  let orDefault (v : Str) (dflt : String) : Str := if v.isEmpty then str dflt else v
  .immediate 204
    ([(str "access-control-allow-origin", orDefault (headers.getOr (str "origin")) "*"),
      (str "access-control-allow-methods", str "GET,POST,OPTIONS"),
      (str "access-control-allow-headers",
        orDefault (headers.getOr (str "access-control-request-headers"))
          "authorization,content-type,x-api-key,anthropic-version"),
      (str "access-control-allow-credentials", str "true"),
      (str "access-control-max-age", str "600"),
      (str "vary",
        str "Origin, Access-Control-Request-Method, Access-Control-Request-Headers")] ++
    if lower (headers.getOr (str "access-control-request-private-network")) = str "true" then
      [(str "access-control-allow-private-network", str "true")] else [])
    none

/-- `_deny`, or the headers of the decision with `carry`. -/
def Decision.response (carry : Option Headers → ProcResponse) : Decision → ProcResponse
  | .deny code message =>
      .immediate code [(str "content-type", str "application/json")] (some message)
  | .allow set => carry (some set)

/-- The loop of `Process`, with the headers and the body so far.  `fresh` is what a decision
would draw. -/
def processFrom (gate : Gate) (fresh : FreshId) (headers : Headers) (body : Bytes) :
    List ProcFrame → List ProcResponse
  | [] => []
  | .requestHeaders raw endOfStream :: frames =>
      let headers := headersMap raw
      if isCorsPreflight headers then [corsPreflight headers]
      else if endOfStream then
        match decideRequest gate ⟨headers, [], fresh⟩ with
        | .deny code message => [(Decision.deny code message).response .continueHeaders]
        | .allow set => .continueHeaders (some set) :: processFrom gate fresh headers body frames
      else .continueHeaders none :: processFrom gate fresh headers body frames
  | .requestBody piece endOfStream :: frames =>
      let body := body ++ piece
      if endOfStream then
        match decideRequest gate ⟨headers, body, fresh⟩ with
        | .deny code message => [(Decision.deny code message).response .continueBody]
        | .allow set => .continueBody (some set) :: processFrom gate fresh headers body frames
      else .continueBody none :: processFrom gate fresh headers body frames
  | .other :: frames => .empty :: processFrom gate fresh headers body frames

/-- `Process`, after the check of the token. -/
def process (gate : Gate) (fresh : FreshId) (frames : List ProcFrame) : List ProcResponse :=
  processFrom gate fresh [] [] frames

/-- A piece of the body that is not the last. -/
def ProcFrame.piece (body : Bytes) : ProcFrame := .requestBody body false

section
variable {gate : Gate} {fresh : FreshId} {headers : Headers} {body : Bytes}

/-- Pieces that do not end the stream are collected. -/
theorem processFrom_pieces (pieces : List Bytes) (frames : List ProcFrame) (body : Bytes) :
    processFrom gate fresh headers body (pieces.map .piece ++ frames) =
      List.replicate pieces.length (.continueBody none) ++
        processFrom gate fresh headers (body ++ pieces.flatten) frames := by
  induction pieces generalizing body with
  | nil => simp
  | cons piece pieces ih =>
      rw [List.map_cons, List.cons_append, ProcFrame.piece, processFrom]
      simp only [Bool.false_eq_true, if_false]
      rw [ih, List.length_cons, List.replicate_succ, List.cons_append, List.flatten_cons,
        List.append_assoc]

/-- The last frame of a body is answered by the verdict. -/
theorem processFrom_last (piece : Bytes) :
    processFrom gate fresh headers body [.requestBody piece true] =
      [(decideRequest gate ⟨headers, body ++ piece, fresh⟩).response .continueBody] := by
  rw [processFrom]
  simp only [if_true]
  cases decideRequest gate ⟨headers, body ++ piece, fresh⟩ with
  | deny code message => rfl
  | allow set => rfl

/-- **The verdict does not depend on how the body is cut.**  A request whose frames end with its
body gets no more than `CONTINUE` for each frame but the last, and for that the decision on its
headers and the whole of its body; a preflight is answered at once. -/
theorem process_frames (gate : Gate) (fresh : FreshId) (raw : Headers) (pieces : List Bytes)
    (last : Bytes) :
    process gate fresh (.requestHeaders raw false :: pieces.map .piece ++
        [.requestBody last true]) =
      if isCorsPreflight (headersMap raw) then [corsPreflight (headersMap raw)]
      else .continueHeaders none :: List.replicate pieces.length (.continueBody none) ++
        [(decideRequest gate ⟨headersMap raw, pieces.flatten ++ last, fresh⟩).response
          .continueBody] := by
  rw [process, List.cons_append, processFrom]
  simp only [Bool.false_eq_true, if_false]
  split_ifs
  · rfl
  · rw [processFrom_pieces, processFrom_last, List.nil_append, List.cons_append]

/-! ### What a mutation rests on -/

/-- The headers that an answer sets. -/
def ProcResponse.mutation : ProcResponse → Option Headers
  | .continueHeaders set | .continueBody set => set
  | .immediate _ _ _ | .empty => none

/-- Is this frame marked as the last of the request? -/
def ProcFrame.endOfStream : ProcFrame → Bool
  | .requestHeaders _ last | .requestBody _ last => last
  | .other => false

/-- The headers that are held after some frames. -/
def ProcFrame.headersAfter (headers : Headers) : ProcFrame → Headers
  | .requestHeaders raw _ => headersMap raw
  | _ => headers

/-- And the body. -/
def ProcFrame.bodyAfter (body : Bytes) : ProcFrame → Bytes
  | .requestBody piece _ => body ++ piece
  | _ => body

/-- The body that a verdict on this frame is about. -/
def ProcFrame.judged (body : Bytes) : ProcFrame → Bytes
  | .requestBody piece _ => body ++ piece
  | _ => []

/-- The headers that this answer sets are those of a verdict on the frame. -/
def ProcResponse.MutatesBy (gate : Gate) (fresh : FreshId) (headers : Headers) (body : Bytes)
    (frame : ProcFrame) (response : ProcResponse) : Prop :=
  ∀ set, response.mutation = some set → frame.endOfStream = true ∧
    decideRequest gate ⟨frame.headersAfter headers, frame.judged body, fresh⟩ = .allow set

theorem ProcResponse.MutatesBy.of_none {frame : ProcFrame} {response : ProcResponse}
    (h : response.mutation = none) : response.MutatesBy gate fresh headers body frame := by
  intro set hset
  rw [h] at hset
  cases hset

/-- One frame: an answer that sets headers is a verdict, and when the loop goes on it holds what
the frame left. -/
theorem processFrom_cons (gate : Gate) (fresh : FreshId) (headers : Headers) (body : Bytes)
    (frame : ProcFrame) (frames : List ProcFrame) :
    ∃ response rest,
      processFrom gate fresh headers body (frame :: frames) = response :: rest ∧
      response.MutatesBy gate fresh headers body frame ∧
      (rest = [] ∨ rest = processFrom gate fresh (frame.headersAfter headers)
        (frame.bodyAfter body) frames) := by
  cases frame with
  | other => exact ⟨.empty, _, rfl, .of_none rfl, .inr rfl⟩
  | requestHeaders raw last =>
      rw [processFrom]
      split_ifs with hcors hlast
      · exact ⟨_, _, rfl, .of_none rfl, .inl rfl⟩
      · cases hdecide : decideRequest gate ⟨headersMap raw, [], fresh⟩ with
        | deny code message => exact ⟨_, _, rfl, .of_none rfl, .inl rfl⟩
        | allow set =>
            refine ⟨_, _, rfl, fun set' h => ⟨hlast, ?_⟩, .inr rfl⟩
            obtain rfl := Option.some.inj h
            exact hdecide
      · exact ⟨_, _, rfl, .of_none rfl, .inr rfl⟩
  | requestBody piece last =>
      rw [processFrom]
      split_ifs with hlast
      · cases hdecide : decideRequest gate ⟨headers, body ++ piece, fresh⟩ with
        | deny code message => exact ⟨_, _, rfl, .of_none rfl, .inl rfl⟩
        | allow set =>
            refine ⟨_, _, rfl, fun set' h => ⟨hlast, ?_⟩, .inr rfl⟩
            obtain rfl := Option.some.inj h
            exact hdecide
      · exact ⟨_, _, rfl, .of_none rfl, .inr rfl⟩

/-- The frames before one leave the headers and the body that its verdict is about. -/
theorem processFrom_mutates {frames : List ProcFrame} {k : ℕ} {response : ProcResponse}
    (h : (processFrom gate fresh headers body frames)[k]? = some response) :
    ∃ frame, frames[k]? = some frame ∧
      response.MutatesBy gate fresh ((frames.take k).foldl ProcFrame.headersAfter headers)
        ((frames.take k).foldl ProcFrame.bodyAfter body) frame := by
  induction frames generalizing headers body k with
  | nil => cases h
  | cons frame frames ih =>
      obtain ⟨first, rest, hprocess, hfirst, hrest⟩ :=
        processFrom_cons gate fresh headers body frame frames
      rw [hprocess] at h
      cases k with
      | zero =>
          obtain rfl := Option.some.inj h
          exact ⟨frame, rfl, hfirst⟩
      | succ k =>
          rw [List.getElem?_cons_succ] at h
          obtain rfl | rfl := hrest
          · cases h
          · exact ih h

/-- The services are not asked about a request that is not ended. -/
theorem processFrom_unended {gate' : Gate} {frames : List ProcFrame}
    (h : ∀ frame ∈ frames, frame.endOfStream = false) :
    processFrom gate fresh headers body frames = processFrom gate' fresh headers body frames := by
  induction frames generalizing headers body with
  | nil => rfl
  | cons frame frames ih =>
      obtain ⟨hframe, hframes⟩ := List.forall_mem_cons.mp h
      cases frame with
      | other => rw [processFrom, processFrom, ih hframes]
      | requestHeaders raw last =>
          obtain rfl : last = false := hframe
          simp only [processFrom, Bool.false_eq_true, if_false]
          rw [ih hframes]
      | requestBody piece last =>
          obtain rfl : last = false := hframe
          simp only [processFrom, Bool.false_eq_true, if_false]
          rw [ih hframes]

end

/-- **Nobody is identified without a verdict.**  Whatever frames a stream brings, an answer that
sets headers is given to a frame that ends the stream, and they are what was decided on the
headers and the bytes that had come by then. -/
theorem process_mutates (gate : Gate) (fresh : FreshId) (frames : List ProcFrame) (k : ℕ)
    (response : ProcResponse) (set : Headers)
    (h : (process gate fresh frames)[k]? = some response) (hset : response.mutation = some set) :
    ∃ frame, frames[k]? = some frame ∧ frame.endOfStream = true ∧
      decideRequest gate ⟨frame.headersAfter ((frames.take k).foldl ProcFrame.headersAfter []),
        frame.judged ((frames.take k).foldl ProcFrame.bodyAfter []), fresh⟩ = .allow set := by
  obtain ⟨frame, hframe, hmutates⟩ := processFrom_mutates h
  exact ⟨frame, hframe, hmutates set hset⟩

/-- What is answered to frames of which none ends the stream is the same for every client. -/
theorem process_unended (gate gate' : Gate) (fresh : FreshId) (frames : List ProcFrame)
    (h : ∀ frame ∈ frames, frame.endOfStream = false) :
    process gate fresh frames = process gate' fresh frames :=
  processFrom_unended h

end Llmxy
