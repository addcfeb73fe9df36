import Oproxy.Core.Grpc
import Oproxy.Lib.Frames
import Oproxy.Middleware.Plugins.Breakpoints

/-!
# gRPC streams (`middleware/plugins/grpc_inspector.rs`)

The observer of a gRPC exchange which is streamed.  It takes the bytes of each direction apart into messages, pauses
a message where a rule says so, and passes the messages on, each encoded again.
-/

namespace Oproxy

namespace GrpcInspector

def isGrpc (ctx : RequestContext) : Bool :=
  (ctx.headers.get "content-type").any fun ct => Str.startsWith ct "application/grpc"

/-! ### The frame splitter -/

/-- A message with its compression flag. -/
abbrev Frame := Bool × Bytes

/-- The first frame of a buffer, where it is there as a whole. -/
def nextFrame : Bytes → Option (Frame × Bytes)
  | flag :: b0 :: b1 :: b2 :: b3 :: rest =>
    if rest.length < readBe b0 b1 b2 b3 then none
    else some ((flag ≠ 0, rest.take (readBe b0 b1 b2 b3)), rest.drop (readBe b0 b1 b2 b3))
  | _ => none

private theorem nextFrame_eq {a : Bytes} {x : Frame} {r : Bytes} (h : nextFrame a = some (x, r)) :
    ∃ flag b0 b1 b2 b3 payload, a = flag :: b0 :: b1 :: b2 :: b3 :: (payload ++ r) ∧
      payload.length = readBe b0 b1 b2 b3 ∧ x = (decide (flag ≠ 0), payload) := by
  unfold nextFrame at h
  split at h
  · rename_i flag b0 b1 b2 b3 rest
    split at h
    · cases h
    · rename_i hlength
      cases h
      refine ⟨flag, b0, b1, b2, b3, rest.take (readBe b0 b1 b2 b3), ?_, ?_, rfl⟩
      · rw [List.take_append_drop]
      · rw [List.length_take]
        omega
  · cases h

private theorem nextFrame_frame (flag b0 b1 b2 b3 : UInt8) {payload : Bytes}
    (hlength : payload.length = readBe b0 b1 b2 b3) (r : Bytes) :
    nextFrame (flag :: b0 :: b1 :: b2 :: b3 :: (payload ++ r)) = some ((decide (flag ≠ 0), payload), r) := by
  have henough : ¬ (payload ++ r).length < readBe b0 b1 b2 b3 := by
    rw [List.length_append]
    omega
  simp only [nextFrame, if_neg henough]
  rw [← hlength, List.take_left, List.drop_left]

/-- `GrpcFrameSplitter`. -/
def splitter : Framer UInt8 Frame where
  next := nextFrame
  shorter := by
    intro a x r h
    obtain ⟨flag, b0, b1, b2, b3, payload, rfl, -, -⟩ := nextFrame_eq h
    simp only [List.length_cons, List.length_append]
    omega
  extend := by
    intro a x r h b
    obtain ⟨flag, b0, b1, b2, b3, payload, rfl, hlength, rfl⟩ := nextFrame_eq h
    have happend := nextFrame_frame flag b0 b1 b2 b3 hlength (r ++ b)
    rw [← List.append_assoc] at happend
    exact happend

def encodeFrame (frame : Frame) : Bytes := encodeGrpcFrame frame.1 frame.2

/-- A message that is short enough for its length is taken off as it was put on. -/
theorem nextFrame_encodeFrame {frame : Frame} (h : frame.2.length < 2 ^ 32) (r : Bytes) :
    splitter.next (encodeFrame frame ++ r) = some (frame, r) := by
  obtain ⟨compressed, payload⟩ := frame
  have hframe := nextFrame_frame (if compressed then 1 else 0) _ _ _ _ (readBe_beBytes h).symm r
  have hmod : payload.length % 2 ^ 32 = payload.length := Nat.mod_eq_of_lt h
  unfold encodeFrame encodeGrpcFrame beBytes
  dsimp only
  rw [hmod]
  cases compressed with
  | true => exact hframe
  | false => exact hframe

theorem length_of_next {a : Bytes} {x : Frame} {r : Bytes} (h : splitter.next a = some (x, r)) :
    x.2.length < 2 ^ 32 := by
  obtain ⟨flag, b0, b1, b2, b3, payload, -, hlength, rfl⟩ := nextFrame_eq h
  dsimp only
  rw [hlength]
  exact readBe_lt b0 b1 b2 b3

/-- A frame takes up five bytes and its message. -/
theorem length_of_next_eq (a : Bytes) (x : Frame) (r : Bytes) (h : splitter.next a = some (x, r)) :
    a.length = (5 + x.2.length) + r.length := by
  obtain ⟨flag, b0, b1, b2, b3, payload, rfl, -, rfl⟩ := nextFrame_eq h
  simp only [List.length_cons, List.length_append]
  omega

/-- A stream which is a sequence of whole frames with a plain flag. -/
def WholeFrames (stream : Bytes) : Prop :=
  ∃ frames : List Frame, (∀ frame ∈ frames, frame.2.length < 2 ^ 32) ∧ stream = frames.flatMap encodeFrame

/-- Taking a stream apart and putting it together gives the stream exactly where it is made of whole frames. -/
theorem encode_drain_eq_iff (stream : Bytes) :
    (splitter.drain stream).1.flatMap encodeFrame = stream ↔ WholeFrames stream := by
  constructor
  · intro h
    exact ⟨_, Framer.mem_drain (fun a x r hnext => length_of_next hnext) stream, h.symm⟩
  · rintro ⟨frames, hlength, rfl⟩
    rw [Framer.drain_encoded fun x hx => nextFrame_encodeFrame (hlength x hx)]

/-! ### The stream observer -/

/-- The frame breakpoints as an observer sees them. -/
structure FrameBreakpoints where
  regex : RegexEngine
  rules : List BreakpointRule
  answer : BreakpointContext → BreakpointAnswer

/-- `GrpcStreamObserver`, up to what it records: the buffers of the two directions and the heads it shows. -/
structure Observer where
  sessionId : Str
  request : RequestContext
  responseHead : Option ResponseContext
  reqBuf : Bytes
  resBuf : Bytes

/-- The observer of a gRPC request which has a session. -/
def streamObserver (ctx : RequestContext) : Option Observer :=
  if !isGrpc ctx then none
  else ctx.sessionId.map fun sessionId => ⟨sessionId, ctx, none, [], []⟩

theorem isSome_streamObserver (ctx : RequestContext) :
    (streamObserver ctx).isSome = (isGrpc ctx && ctx.sessionId.isSome) := by
  unfold streamObserver
  cases isGrpc ctx <;> simp

inductive Direction where
  | request | response
  deriving DecidableEq

def Direction.label : Direction → Str
  | .request => "request"
  | .response => "response"

namespace Observer

variable (obs : Observer)

def messageProtocolContext : ProtocolContext :=
  { obs.request.protocolContext.getD ProtocolContext.default with
    application := .grpc
    bodyMode := .streamMessages }

private def boolText (b : Bool) : Str := if b then "true" else "false"

/-- The fields which say whose message it is. -/
private def markHeaders (headers : HeaderMap) (direction : Direction) (compressed : Bool) : HeaderMap :=
  (headers.insert "x-oproxy-grpc-direction" direction.label).insert "x-oproxy-grpc-compressed" (boolText compressed)

def messageRequestContext (compressed : Bool) (proto : Bytes) : RequestContext :=
  { obs.request with
    sessionId := some obs.sessionId
    body := proto
    protocolContext := some obs.messageProtocolContext
    headers := markHeaders obs.request.headers .request compressed }

def messageResponseContext (compressed : Bool) (proto : Bytes) : ResponseContext :=
  let ctx := obs.responseHead.getD
    { ResponseContext.default with
      status := 200
      requestUri := obs.request.uri
      sessionId := some obs.sessionId
      requestHost := obs.request.host
      requestMethod := obs.request.method
      protocolContext := some obs.messageProtocolContext }
  { ctx with
    requestUri := if ctx.requestUri.isEmpty then obs.request.uri else ctx.requestUri
    requestHost := if ctx.requestHost.isEmpty then obs.request.host else ctx.requestHost
    requestMethod := if ctx.requestMethod.isEmpty then obs.request.method else ctx.requestMethod
    sessionId := some obs.sessionId
    body := proto
    protocolContext := some obs.messageProtocolContext
    headers := markHeaders ctx.headers .response compressed }

/-- A message of a response is shown under the content types of its head. -/
theorem contentTypes_messageResponseContext (compressed : Bool) (proto : Bytes) :
    (obs.messageResponseContext compressed proto).headers.getAll "content-type" =
      ((obs.responseHead.map ResponseContext.headers).getD HeaderMap.new).getAll "content-type" := by
  have hmark : ∀ headers : HeaderMap, (markHeaders headers .response compressed).getAll "content-type" =
      headers.getAll "content-type" := by
    intro headers
    unfold markHeaders
    rw [HeaderMap.getAll_insert, if_neg (by decide), HeaderMap.getAll_insert, if_neg (by decide)]
  unfold messageResponseContext
  dsimp only
  rw [hmark]
  cases obs.responseHead <;> rfl

/-- What the operator is shown of a message. -/
def messageContext (direction : Direction) (frame : Frame) : BreakpointContext :=
  match direction with
  | .request => .request (obs.messageRequestContext frame.1 frame.2)
  | .response => .response (obs.messageResponseContext frame.1 frame.2)

variable (breakpoints : FrameBreakpoints)

def pauseMessage (direction : Direction) (frame : Frame) : BreakpointResolution :=
  if !Breakpoints.hasFrameRules breakpoints.rules then .proceed
  else Breakpoints.pauseFrame breakpoints.regex breakpoints.rules breakpoints.answer
    (obs.messageContext direction frame)

/-- The bytes which a message is passed on as. -/
def relayMessage (frame : Frame) : BreakpointResolution → Bytes
  | .proceed => encodeGrpcFrame frame.1 frame.2
  | .drop => []
  | .modify (.request ctx) => encodeGrpcFrame frame.1 ctx.body
  | .modify (.response ctx) => encodeGrpcFrame frame.1 ctx.body

def relayFrames (direction : Direction) (frames : List Frame) : Bytes :=
  frames.flatMap fun frame => relayMessage frame (obs.pauseMessage breakpoints direction frame)

/-- `handle_frames` for the two directions. -/
def onRequestChunk (chunk : Bytes) : Observer × Option Bytes :=
  let (frames, rest) := splitter.drain (obs.reqBuf ++ chunk)
  ({ obs with reqBuf := rest }, some (obs.relayFrames breakpoints .request frames))

def onResponseHead (res : ResponseContext) : Observer := { obs with responseHead := some res }

def onChunk (chunk : Bytes) : Observer × Option Bytes :=
  let (frames, rest) := splitter.drain (obs.resBuf ++ chunk)
  ({ obs with resBuf := rest }, some (obs.relayFrames breakpoints .response frames))

end Observer

end GrpcInspector

end Oproxy
