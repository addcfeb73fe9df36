import Oproxy.Middleware.Plugins.GrpcInspector

/-!
# The gRPC observer as a relay (`middleware/plugins/grpc_inspector.rs`)

An observer is called with the chunks of the two directions as they come, in any order, and with the head of the
response.  What it returns for the chunks of a direction is what the other side receives of it; `finish` returns
nothing, so that what a splitter still holds is not sent.
-/

namespace Oproxy

namespace GrpcInspector

/-- A call of an observer. -/
inductive ObserverCall where
  | onRequestChunk (chunk : Bytes)
  | onResponseHead (res : ResponseContext)
  | onChunk (chunk : Bytes)

namespace ObserverCall

/-- The bytes of a direction which a call brings. -/
def brings (direction : Direction) : ObserverCall → Bytes
  | onRequestChunk chunk => if direction = .request then chunk else []
  | onResponseHead _ => []
  | onChunk chunk => if direction = .response then chunk else []

end ObserverCall

/-- The bytes which an observer receives of a direction. -/
def received (direction : Direction) (calls : List ObserverCall) : Bytes :=
  calls.flatMap (ObserverCall.brings direction)

namespace Observer

variable (breakpoints : FrameBreakpoints)

/-- One call, with what it returns for the direction. -/
def call (direction : Direction) (obs : Observer) : ObserverCall → Observer × Bytes
  | .onRequestChunk chunk =>
    let (obs', out) := obs.onRequestChunk breakpoints chunk
    (obs', if direction = .request then out.getD [] else [])
  | .onResponseHead res => (obs.onResponseHead res, [])
  | .onChunk chunk =>
    let (obs', out) := obs.onChunk breakpoints chunk
    (obs', if direction = .response then out.getD [] else [])

/-- The bytes which are returned for a direction over all calls up to `finish`. -/
def returned (direction : Direction) : Observer → List ObserverCall → Bytes
  | _, [] => []
  | obs, c :: calls =>
    (call breakpoints direction obs c).2 ++ returned direction (call breakpoints direction obs c).1 calls

/-- What the splitter of a direction holds. -/
def held (direction : Direction) (obs : Observer) : Bytes :=
  match direction with
  | .request => obs.reqBuf
  | .response => obs.resBuf

variable {breakpoints}

private theorem relayFrames_eq (hrules : Breakpoints.hasFrameRules breakpoints.rules = false) (obs : Observer)
    (direction : Direction) (frames : List Frame) :
    obs.relayFrames breakpoints direction frames = frames.flatMap encodeFrame := by
  unfold relayFrames pauseMessage
  rw [hrules]
  rfl

/-- A call takes the whole frames off what is held and what it brings, and returns them encoded again. -/
theorem call_eq (hrules : Breakpoints.hasFrameRules breakpoints.rules = false) (direction : Direction) (obs : Observer)
    (c : ObserverCall) (hdrained : splitter.drain (obs.held direction) = ([], obs.held direction)) :
    ((call breakpoints direction obs c).1.held direction, (call breakpoints direction obs c).2) =
      ((splitter.drain (obs.held direction ++ c.brings direction)).2,
        (splitter.drain (obs.held direction ++ c.brings direction)).1.flatMap encodeFrame) := by
  have hquiet : splitter.drain (obs.held direction ++ []) = ([], obs.held direction) := by
    rw [List.append_nil]
    exact hdrained
  cases c with
  | onRequestChunk chunk =>
    cases direction with
    | request =>
      have hout := relayFrames_eq hrules obs .request (splitter.drain (obs.reqBuf ++ chunk)).1
      exact Prod.ext rfl hout
    | response =>
      show (obs.resBuf, ([] : Bytes)) = _
      rw [show ObserverCall.brings .response (.onRequestChunk chunk) = [] from rfl, hquiet]
      rfl
  | onResponseHead res =>
    rw [show ObserverCall.brings direction (.onResponseHead res) = [] from rfl, hquiet]
    cases direction <;> rfl
  | onChunk chunk =>
    cases direction with
    | request =>
      show (obs.reqBuf, ([] : Bytes)) = _
      rw [show ObserverCall.brings .request (.onChunk chunk) = [] from rfl, hquiet]
      rfl
    | response =>
      have hout := relayFrames_eq hrules obs .response (splitter.drain (obs.resBuf ++ chunk)).1
      exact Prod.ext rfl hout

/-- What is returned of a direction are the whole frames of what was held and of what is received. -/
theorem returned_eq (hrules : Breakpoints.hasFrameRules breakpoints.rules = false) (direction : Direction)
    (calls : List ObserverCall) (obs : Observer)
    (hdrained : splitter.drain (obs.held direction) = ([], obs.held direction)) :
    returned breakpoints direction obs calls =
      (splitter.drain (obs.held direction ++ received direction calls)).1.flatMap encodeFrame := by
  induction calls generalizing obs with
  | nil =>
    rw [show received direction [] = [] from rfl, List.append_nil, hdrained]
    rfl
  | cons c calls ih =>
    obtain ⟨hheld, hout⟩ := Prod.mk.inj (call_eq hrules direction obs c hdrained)
    -- the invariant: a splitter never holds a whole frame between two calls
    have hrest : splitter.drain ((call breakpoints direction obs c).1.held direction) =
        ([], (call breakpoints direction obs c).1.held direction) := by
      rw [hheld]
      exact Framer.drain_drained _
    unfold returned received
    rw [hout, ih _ hrest, hheld, List.flatMap_cons, ← List.append_assoc,
      Framer.drain_append (obs.held direction ++ c.brings direction), List.flatMap_append]
    rfl

end Observer

private theorem held_streamObserver {ctx : RequestContext} {obs : Observer} (h : streamObserver ctx = some obs)
    (direction : Direction) : obs.held direction = [] := by
  unfold streamObserver at h
  split at h
  · cases h
  · obtain ⟨sessionId, -, rfl⟩ := Option.map_eq_some_iff.1 h
    cases direction <;> rfl

/-- Without frame rules an observer relays a direction unchanged exactly where its bytes are a sequence of whole
frames with a plain flag. -/
theorem returned_eq_received_iff {breakpoints : FrameBreakpoints}
    (hrules : Breakpoints.hasFrameRules breakpoints.rules = false) {ctx : RequestContext} {obs : Observer}
    (hobs : streamObserver ctx = some obs) (direction : Direction) (calls : List ObserverCall) :
    obs.returned breakpoints direction calls = received direction calls ↔ WholeFrames (received direction calls) := by
  have hempty := held_streamObserver hobs direction
  have hdrained : splitter.drain (obs.held direction) = ([], obs.held direction) := by
    rw [hempty]
    rfl
  rw [Observer.returned_eq hrules direction calls obs hdrained, hempty, List.nil_append]
  exact encode_drain_eq_iff _

/-! ### One stream that is relayed, and one that is not -/

private def grpcRequest : RequestContext :=
  { RequestContext.default with
    headers := HeaderMap.new.insert "content-type" "application/grpc"
    sessionId := some "s1" }

private def withoutRules : FrameBreakpoints := ⟨fun _ => none, [], fun _ => .drop⟩

private def observed : Observer := ⟨"s1", grpcRequest, none, [], []⟩

private theorem streamObserver_grpcRequest : streamObserver grpcRequest = some observed := by
  have hgrpc : isGrpc grpcRequest = true := by decide
  unfold streamObserver
  rw [hgrpc]
  rfl

/-- A message which arrives in two parts is relayed. -/
theorem returned_eq_received_split :
    observed.returned withoutRules .request [.onRequestChunk [0, 0, 0], .onChunk [7], .onRequestChunk [0, 1, 42]] =
        received .request [.onRequestChunk [0, 0, 0], .onChunk [7], .onRequestChunk [0, 1, 42]] ↔
      WholeFrames (received .request [.onRequestChunk [0, 0, 0], .onChunk [7], .onRequestChunk [0, 1, 42]]) :=
  returned_eq_received_iff rfl streamObserver_grpcRequest .request
    [.onRequestChunk [0, 0, 0], .onChunk [7], .onRequestChunk [0, 1, 42]]

/-- The text of an error page is held back to the end. -/
theorem not_returned_eq_received :
    ¬ ∀ (breakpoints : FrameBreakpoints), Breakpoints.hasFrameRules breakpoints.rules = false →
      ∀ (ctx : RequestContext) (obs : Observer), streamObserver ctx = some obs →
        ∀ (direction : Direction) (calls : List ObserverCall),
          obs.returned breakpoints direction calls = received direction calls := by
  intro h
  have hpage := h withoutRules rfl grpcRequest observed streamObserver_grpcRequest .response
    [.onChunk (Str.toUtf8 "Bad Gateway")]
  exact absurd hpage (by decide)

end GrpcInspector

end Oproxy
