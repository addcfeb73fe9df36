import Oproxy.Engine.Exchange
import Oproxy.Middleware.Plugins.GrpcInspector

/-!
# A streamed exchange (`core/engine/mod.rs`)

`forward_stream` relays both bodies chunk by chunk through the observers of the plugins.  One kind of response it
reads as a whole: a body with a coding, of which it holds no more than the cap while it decodes it.
-/

namespace Oproxy

/-! ### Observers -/

/-- The observers which the plugins have for a streamed exchange, up to what they record. -/
inductive StreamObserver where
  | inspection
  | grpc (observer : GrpcInspector.Observer)

namespace StreamObserver

/-- The observers of the production chain, in its order: gRPC, inspection, inspection of the response pass. -/
def ofRequest (ctx : RequestContext) : List StreamObserver :=
  let inspections := if ctx.skipRecording || ctx.sessionId.isNone then [] else [inspection]
  ((GrpcInspector.streamObserver ctx).map grpc).toList ++ inspections ++ inspections

variable (breakpoints : GrpcInspector.FrameBreakpoints)

def onRequestChunk : StreamObserver → Bytes → StreamObserver × Option Bytes
  | inspection, chunk => (inspection, some chunk)
  | grpc observer, chunk =>
    let (observer, out) := observer.onRequestChunk breakpoints chunk
    (grpc observer, out)

def onResponseHead (res : ResponseContext) : StreamObserver → StreamObserver
  | inspection => inspection
  | grpc observer => grpc (observer.onResponseHead res)

def onChunk : StreamObserver → Bytes → StreamObserver × Option Bytes
  | inspection, chunk => (inspection, some chunk)
  | grpc observer, chunk =>
    let (observer, out) := observer.onChunk breakpoints chunk
    (grpc observer, out)

/-- One chunk through the observers, until one of them drops it. -/
def passChunk (step : StreamObserver → Bytes → StreamObserver × Option Bytes) :
    List StreamObserver → Bytes → List StreamObserver × Option Bytes
  | [], chunk => ([], some chunk)
  | observer :: observers, chunk =>
    match step observer chunk with
    | (observer', some chunk') =>
      let (observers', out) := passChunk step observers chunk'
      (observer' :: observers', out)
    | (observer', none) => (observer' :: observers, none)

/-- The chunks which are passed on of a body. -/
def relayBody (step : StreamObserver → Bytes → StreamObserver × Option Bytes) :
    List StreamObserver → List Bytes → List Bytes
  | _, [] => []
  | observers, chunk :: chunks =>
    let (observers', out) := passChunk step observers chunk
    out.toList.filter (fun bytes => !bytes.isEmpty) ++ relayBody step observers' chunks

end StreamObserver

namespace ProxyEngine

variable (engine : ProxyEngine)

/-! ### The request side -/

/-- The request side of `forward_stream`; `observers` is what the chain has for the request. -/
def forwardStream (parse : Str → Option Url) (chain : List Middleware) (breakpoints : GrpcInspector.FrameBreakpoints)
    (observers : RequestContext → List StreamObserver) (req : IncomingRequest) (mitmDestination : Option Str)
    (body : List Bytes) (ownsRecording : Bool) : RequestOutcome :=
  let head := engine.buildRequestHead req mitmDestination
  match MiddlewareChain.executeRequest chain (requestContext head mitmDestination []) with
  | (ctx, .stopAndReturn) =>
    match ctx.mockResponse with
    | some intercepted =>
      .answered (respondToIntercepted chain intercepted ctx head.displayUri head.host head.method ownsRecording)
    | none => .answered (stoppedByMiddleware "Request")
  | (ctx, .proceed) =>
    match engine.prepareUpstream parse ctx req.uri head.reqUri with
    | (_, .error refusal) => .answered (Refusal.response refusal)
    | (sent, .ok upstream) =>
      .forwarded
        { method := upstream.method
          url := upstream.url
          headers := upstream.headers
          body := (StreamObserver.relayBody (StreamObserver.onRequestChunk breakpoints) (observers sent) body).flatten }
        (sent.pushFlow (.forwarded upstream.url))

/-! ### The response side -/

/-- The response context which `forward_stream` starts the chain from. -/
def streamContext (fwd : Forwarded) (res : UpstreamResponse) : ResponseContext :=
  tagRewritten (({ ResponseContext.default with
    status := res.status
    headers := responseHeaders res
    requestUri := fwd.displayUri
    sessionId := fwd.sent.sessionId
    ttfbMs := fwd.ttfbMs
    requestHost := fwd.host
    requestMethod := fwd.method
    protocol := some (Wire.protocolLabel res.version)
    protocolContext := fwd.sent.protocolContext
    terminalRecordingPending := fwd.ownsRecording
    responseBodyObserverPending := true }.extendFlow fwd.sent.flow).pushFlow (.responseReceived res.status fwd.ttfbMs))
    fwd.sent

theorem streamContext_message (fwd : Forwarded) (res : UpstreamResponse) :
    (streamContext fwd res).status = res.status ∧ (streamContext fwd res).headers = responseHeaders res := by
  unfold streamContext tagRewritten
  rw [ResponseContext.extendFlow_frame]
  split <;> exact ⟨rfl, rfl⟩

def hasCoding (headers : HeaderMap) : Bool :=
  (headerValue headers "content-encoding").any fun value => !value.trim.isEmpty

def isEventStream (headers : HeaderMap) : Bool :=
  Str.contains "text/event-stream" ((headerValue headers "content-type").getD []).toAsciiLowercase

/-- Whether a response is read as a whole to be decoded. -/
def normalizesCoding (headers : HeaderMap) (res : UpstreamResponse) : Bool :=
  hasCoding headers && !isEventStream headers && res.contentLength.all fun len => len ≤ engine.maxBodyBytes

/-- Read chunks while they stay within the cap: what has been read, and whether that was too much. -/
def readCapped (maxBytes : Nat) : Bytes → List Bytes → Bytes × Bool
  | raw, [] => (raw, false)
  | raw, chunk :: chunks =>
    if raw.length + chunk.length > maxBytes then (raw, true) else readCapped maxBytes (raw ++ chunk) chunks

def codingTooLargeText : Str :=
  ("encoded response exceeded max_body_bytes (" : Str) ++ Str.ofNat engine.maxBodyBytes ++
    (") while normalizing content-encoding" : Str)

/-- The response side of `forward_stream`. -/
def streamResponse (codecs : Codecs) (chain : List Middleware) (breakpoints : GrpcInspector.FrameBreakpoints)
    (observers : List StreamObserver) (fwd : Forwarded) (res : UpstreamResponse) : Delivery :=
  match MiddlewareChain.executeResponse chain (streamContext fwd res) with
  | (_, .stopAndReturn) => ⟨stoppedByMiddleware "Response", 0⟩
  | (ctx, .proceed) =>
    if engine.normalizesCoding ctx.headers res then
      match readCapped engine.maxBodyBytes [] res.chunks with
      | (raw, false) =>
        let (headers, decoded) := decodedResponseBody codecs ctx.headers raw
        ⟨finish ((Http.statusCode ctx.status).getD 500) (engine.responseFields { ctx with headers := headers }) decoded
          []
          (emptyResponse 500), raw.length⟩
      | (raw, true) => ⟨textResponse 413 engine.codingTooLargeText, raw.length⟩
    else
      let headers := if observers.isEmpty then ctx.headers else removeHeader ctx.headers "content-length"
      let observers :=
        observers.map (StreamObserver.onResponseHead { ctx with tags := ctx.tags ++ [("streamed" : Str)] })
      ⟨finish ((Http.statusCode ctx.status).getD 500) (engine.responseFields { ctx with headers := headers })
        (StreamObserver.relayBody (StreamObserver.onChunk breakpoints) observers res.chunks).flatten []
          (emptyResponse 500),
        0⟩

/-- What has been read is within the cap; it is the whole body exactly where the body is. -/
theorem readCapped_spec {maxBytes : Nat} (raw : Bytes) (chunks : List Bytes) (h : raw.length ≤ maxBytes) :
    (readCapped maxBytes raw chunks).1.length ≤ maxBytes ∧
      (raw.length + chunks.flatten.length ≤ maxBytes →
        readCapped maxBytes raw chunks = (raw ++ chunks.flatten, false)) ∧
      (¬ raw.length + chunks.flatten.length ≤ maxBytes → (readCapped maxBytes raw chunks).2 = true) := by
  induction chunks generalizing raw with
  | nil =>
    refine ⟨h, ?_, ?_⟩
    · intro _
      simp [readCapped]
    · intro hover
      simp only [List.flatten_nil, List.length_nil] at hover
      omega
  | cons chunk chunks ih =>
    unfold readCapped
    rw [List.flatten_cons, List.length_append]
    by_cases hover : raw.length + chunk.length > maxBytes
    · rw [if_pos hover]
      exact ⟨h, fun hfits => by omega, fun _ => rfl⟩
    · rw [if_neg hover]
      have hraw : (raw ++ chunk).length = raw.length + chunk.length := List.length_append
      obtain ⟨h1, h2, h3⟩ := ih (raw ++ chunk) (by omega)
      refine ⟨h1, ?_, ?_⟩
      · intro hfits
        rw [h2 (by omega), List.append_assoc]
      · intro hnot
        exact h3 (by omega)

end ProxyEngine

/-! ### Relays without frame rules -/

namespace StreamObserver

open GrpcInspector

variable {breakpoints : FrameBreakpoints}

/-- An observer of gRPC messages for each of the two directions. -/
private def buffer : Direction → Observer → Bytes
  | .request, observer => observer.reqBuf
  | .response, observer => observer.resBuf

private def step (breakpoints : FrameBreakpoints) : Direction → StreamObserver → Bytes → StreamObserver × Option Bytes
  | .request => onRequestChunk breakpoints
  | .response => onChunk breakpoints

private theorem step_inspection (direction : Direction) (chunk : Bytes) :
    step breakpoints direction inspection chunk = (inspection, some chunk) := by
  cases direction <;> rfl

private theorem passChunk_cons {f : StreamObserver → Bytes → StreamObserver × Option Bytes}
    {observer observer' : StreamObserver} {chunk chunk' : Bytes} (h : f observer chunk = (observer', some chunk'))
    (observers : List StreamObserver) :
    passChunk f (observer :: observers) chunk =
      (observer' :: (passChunk f observers chunk').1, (passChunk f observers chunk').2) := by
  simp only [passChunk, h]

private theorem passChunk_inspections {observers : List StreamObserver} (h : ∀ o ∈ observers, o = inspection)
    (direction : Direction) (chunk : Bytes) :
    passChunk (step breakpoints direction) observers chunk = (observers, some chunk) := by
  induction observers with
  | nil => rfl
  | cons observer observers ih =>
    rw [h observer List.mem_cons_self, passChunk_cons (step_inspection direction chunk),
      ih fun o ho => h o (List.mem_cons_of_mem _ ho)]

private theorem flatten_filter_nonempty (out : Bytes) :
    ((some out).toList.filter fun bytes => !bytes.isEmpty).flatten = out := by
  cases out <;> simp

private theorem relayBody_inspections {observers : List StreamObserver} (h : ∀ o ∈ observers, o = inspection)
    (direction : Direction) (chunks : List Bytes) :
    (relayBody (step breakpoints direction) observers chunks).flatten = chunks.flatten := by
  induction chunks with
  | nil => rfl
  | cons chunk chunks ih =>
    unfold relayBody
    rw [passChunk_inspections h]
    dsimp only
    rw [List.flatten_append, flatten_filter_nonempty, ih, List.flatten_cons]

private theorem step_grpc (hrules : Breakpoints.hasFrameRules breakpoints.rules = false) (direction : Direction)
    (observer : Observer) (chunk : Bytes) :
    ∃ observer', buffer direction observer' = (splitter.drain (buffer direction observer ++ chunk)).2 ∧
      step breakpoints direction (grpc observer) chunk =
        (grpc observer', some ((splitter.drain (buffer direction observer ++ chunk)).1.flatMap encodeFrame)) := by
  have hrelay : ∀ (obs : Observer) (frames : List Frame),
      obs.relayFrames breakpoints direction frames = frames.flatMap encodeFrame := by
    intro obs frames
    unfold Observer.relayFrames Observer.pauseMessage
    rw [hrules]
    rfl
  cases direction with
  | request => exact ⟨{ observer with reqBuf := _ }, rfl, by rw [← hrelay observer]; rfl⟩
  | response => exact ⟨{ observer with resBuf := _ }, rfl, by rw [← hrelay observer]; rfl⟩

/-- An observer of messages passes on the whole frames of a body, encoded again. -/
private theorem relayBody_grpc (hrules : Breakpoints.hasFrameRules breakpoints.rules = false) (direction : Direction)
    {observers : List StreamObserver} (h : ∀ o ∈ observers, o = inspection) (observer : Observer)
    (chunks : List Bytes) :
    (relayBody (step breakpoints direction) (grpc observer :: observers) chunks).flatten =
      (splitter.run (buffer direction observer) chunks).1.flatten.flatMap encodeFrame := by
  induction chunks generalizing observer with
  | nil => rfl
  | cons chunk chunks ih =>
    obtain ⟨observer', hbuffer, hstep⟩ := step_grpc hrules direction observer chunk
    have hpass : passChunk (step breakpoints direction) (grpc observer :: observers) chunk =
        (grpc observer' :: observers,
          some ((splitter.drain (buffer direction observer ++ chunk)).1.flatMap encodeFrame)) := by
      rw [passChunk_cons hstep, passChunk_inspections h]
    unfold relayBody
    rw [hpass]
    dsimp only
    rw [List.flatten_append, flatten_filter_nonempty, ih observer', hbuffer]
    simp only [Framer.run, List.flatten_cons, List.flatMap_append]

/-- What is relayed of a body: whole gRPC frames for a gRPC exchange with a session, everything for any other. -/
def relayed (ctx : RequestContext) (body : Bytes) : Bytes :=
  if (GrpcInspector.streamObserver ctx).isSome then (splitter.drain body).1.flatMap encodeFrame else body

private theorem ofRequest_cases (ctx : RequestContext) :
    ∃ inspections : List StreamObserver, (∀ o ∈ inspections, o = inspection) ∧
      ofRequest ctx = ((GrpcInspector.streamObserver ctx).map grpc).toList ++ inspections := by
  refine ⟨_, ?_, by unfold ofRequest; rw [List.append_assoc]⟩
  intro o ho
  split at ho
  · cases ho
  · simpa using ho

private theorem streamObserver_fresh {ctx : RequestContext} {observer : Observer}
    (h : GrpcInspector.streamObserver ctx = some observer) (direction : Direction) :
    buffer direction observer = [] := by
  unfold GrpcInspector.streamObserver at h
  split at h
  · cases h
  · obtain ⟨sessionId, -, rfl⟩ := Option.map_eq_some_iff.1 h
    cases direction <;> rfl

private theorem relayBody_ofRequest (hrules : Breakpoints.hasFrameRules breakpoints.rules = false)
    (direction : Direction)
    (ctx : RequestContext) (f : StreamObserver → StreamObserver) (hinspection : f inspection = inspection)
    (hgrpc : ∀ observer, ∃ observer', f (grpc observer) = grpc observer' ∧
      buffer direction observer' = buffer direction observer) (chunks : List Bytes) :
    (relayBody (step breakpoints direction) ((ofRequest ctx).map f) chunks).flatten = relayed ctx chunks.flatten := by
  obtain ⟨inspections, hinspections, hlist⟩ := ofRequest_cases ctx
  have hmapped : ∀ o ∈ inspections.map f, o = inspection := by
    intro o ho
    obtain ⟨o', ho', rfl⟩ := List.mem_map.1 ho
    rw [hinspections o' ho', hinspection]
  unfold relayed
  rw [hlist, List.map_append]
  cases hobserver : GrpcInspector.streamObserver ctx with
  | none => exact relayBody_inspections hmapped direction chunks
  | some observer =>
    obtain ⟨observer', hf, hbuffer⟩ := hgrpc observer
    have hrun := @Framer.run_eq UInt8 Frame splitter [] rfl chunks
    have hfrom : buffer direction observer' = [] := by rw [hbuffer, streamObserver_fresh hobserver]
    have hrelay := relayBody_grpc hrules direction hmapped observer' chunks
    rw [hfrom] at hrelay
    have hframes : (splitter.run [] chunks).1.flatten = (splitter.drain chunks.flatten).1 := congrArg Prod.fst hrun
    rw [hframes] at hrelay
    simp only [Option.map_some, Option.toList_some, List.map_cons, List.map_nil, List.cons_append, List.nil_append, hf,
      Option.isSome_some, if_true]
    exact hrelay

/-- The request body which is relayed without frame rules. -/
theorem relayBody_request (hrules : Breakpoints.hasFrameRules breakpoints.rules = false) (ctx : RequestContext)
    (chunks : List Bytes) :
    (relayBody (onRequestChunk breakpoints) (ofRequest ctx) chunks).flatten = relayed ctx chunks.flatten := by
  have h := relayBody_ofRequest hrules .request ctx id rfl (fun observer => ⟨observer, rfl, rfl⟩) chunks
  rw [List.map_id] at h
  exact h

/-- The response body which is relayed without frame rules. -/
theorem relayBody_response (hrules : Breakpoints.hasFrameRules breakpoints.rules = false) (ctx : RequestContext)
    (res : ResponseContext) (chunks : List Bytes) :
    (relayBody (onChunk breakpoints) ((ofRequest ctx).map (onResponseHead res)) chunks).flatten =
      relayed ctx chunks.flatten :=
  relayBody_ofRequest hrules .response ctx (onResponseHead res) rfl
    (fun observer => ⟨observer.onResponseHead res, rfl, rfl⟩) chunks

theorem relayed_eq_iff (ctx : RequestContext) (body : Bytes) :
    relayed ctx body = body ↔ ((GrpcInspector.streamObserver ctx).isSome = true → WholeFrames body) := by
  unfold relayed
  by_cases hobserver : (GrpcInspector.streamObserver ctx).isSome = true
  · rw [if_pos hobserver, encode_drain_eq_iff]
    exact ⟨fun h _ => h, fun h => h hobserver⟩
  · rw [if_neg hobserver]
    exact ⟨fun _ h => absurd h hobserver, fun _ => rfl⟩

end StreamObserver

end Oproxy
