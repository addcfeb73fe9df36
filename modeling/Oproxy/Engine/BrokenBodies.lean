import Oproxy.Engine.Framing
import Oproxy.Engine.GrpcTrailers
import Oproxy.Engine.Recorders
import Oproxy.Engine.Stream
import Oproxy.Engine.TerminalGuard

/-!
# Bodies which break off (`core/engine/mod.rs`)

A response body comes in chunks, and ends cleanly or in an error.  Three loops read it: the buffered path takes an
error for an empty body, and the two streaming paths take it for the end.  Each path here gives what the client gets
beside the response which is recorded.
-/

namespace Oproxy

/-- A response body as it arrives. -/
structure ArrivingBody where
  chunks : List Bytes
  clean : Bool

/-- `Response::bytes`; none after an error. -/
def ArrivingBody.read (body : ArrivingBody) : Option Bytes := if body.clean then some body.chunks.flatten else none

/-- What the recorders of a response use: the session store, the time since the request, and how much the inspection
retains of a streamed body. -/
structure RecorderWorld where
  view : StoreView
  elapsedMs : Nat
  maxRetainedBodyBytes : Nat

/-- How a response comes to its session: the chain has stopped it, operations record it, or its body is dropped because
no head could be built. -/
inductive ResponseRecording where
  | stopped (ctx : ResponseContext) (message : Str)
  | recorded (ops : List WriteOp)
  | dropped

/-- The response side of an exchange: the context which the response chain has started from, what the client gets, and
how it is recorded. -/
structure Ending where
  started : ResponseContext
  response : ClientResponse
  recording : ResponseRecording

/-- What an exchange enqueues for its response: a guard, if there is one, records a failure where the response is
stopped, and the loss of the client where the body is dropped. -/
def Ending.ops (world : RecorderWorld) (guard : Option TerminalSessionGuard) (ending : Ending) : List WriteOp :=
  match ending.recording, guard with
  | .recorded ops, _ => ops
  | .stopped ctx message, some guard =>
    (guard.updateFromResponse ctx).recordFailure world.view 403 .responseMiddleware message world.elapsedMs
  | .dropped, some guard => (guard.updateFromResponse ending.started).drop world.view world.elapsedMs
  | _, none => []

/-- The observers of a request which are the inspection's: one of the inspection, one of the response pass. -/
def InspectionObserver.ofRequest (maxRetainedBodyBytes : Nat) (ctx : RequestContext) : List InspectionObserver :=
  if ctx.skipRecording then []
  else
    match ctx.sessionId with
    | none => []
    | some sessionId =>
      [InspectionObserver.new sessionId maxRetainedBodyBytes, InspectionObserver.new sessionId maxRetainedBodyBytes]

namespace ProxyEngine

/-! ### The three paths -/

section

variable (engine : ProxyEngine) (codecs : Codecs) (chain : List Middleware) (world : RecorderWorld) (fwd : Forwarded)
  (res : UpstreamResponse)

def completed (ctx : ResponseContext) : ResponseContext := ctx.pushFlow (.completed ctx.status world.elapsedMs)

/-- The body is read as a whole. -/
def endBuffered (body : ArrivingBody) : Ending :=
  let (headers, decoded) := decodedResponseBody codecs (responseHeaders res) (body.read.getD [])
  let started := responseContext fwd res headers decoded false
  match MiddlewareChain.executeResponse chain started with
  | (ctx, .proceed) =>
    ⟨started,
      finish ((Http.statusCode ctx.status).getD 500) (engine.responseFields ctx) ctx.body (grpcTrailers res ctx.status)
        (emptyResponse 500),
      .recorded (recordResponseWithOptionalSize world.view (completed world ctx) none)⟩
  | (ctx, .stopAndReturn) =>
    ⟨started, stoppedByMiddleware "Response",
      .stopped ctx "Response middleware stopped the response before terminal recording."⟩

/-- The bytes which have come when the response is recorded, and what is retained of them: those up to the declared
length, or all of them. -/
def teeRead (maxRetained : Nat) (expectedTotal : Option Nat) : Nat → Bytes → List Bytes → Nat × Bytes
  | total, retained, [] => (total, retained)
  | total, retained, chunk :: chunks =>
    let total := total + chunk.length
    let retained := retained ++ chunk.take (maxRetained - retained.length)
    if expectedTotal.any fun expected => total ≥ expected then (total, retained)
    else teeRead maxRetained expectedTotal total retained chunks

def expectedTotal : Option Nat :=
  if res.contentLength.getD 0 > 0 then some (res.contentLength.getD 0) else none

/-- The body is passed on as it comes, and a copy is recorded.  The loop ends with the chunks, whatever their end. -/
def endTeed (body : ArrivingBody) : Ending :=
  let started := responseContext fwd res (responseHeaders res) [] true
  match MiddlewareChain.executeResponse chain started with
  | (ctx, .proceed) =>
    let (total, retained) := teeRead engine.maxBodyBytes (expectedTotal res) 0 [] body.chunks
    ⟨started,
      finish ((Http.statusCode ctx.status).getD 500) (engine.responseFields ctx) body.chunks.flatten []
        (emptyResponse 500),
      if (builderHeaders (engine.responseFields ctx)).isSome then
        .recorded (recordResponseWithOptionalSize world.view
          (completed world { ctx with bodyMs := fwd.bodyMs, body := retained }) (some total))
      else .dropped⟩
  | (ctx, .stopAndReturn) =>
    ⟨started, stoppedByMiddleware "Response",
      .stopped ctx "Response middleware stopped the streamed response before terminal recording."⟩

/-- A body which is not streamed to the client goes through the response chain. -/
def endExchange (body : ArrivingBody) : Ending :=
  if engine.streamsResponse res then engine.endTeed chain world fwd res body
  else engine.endBuffered codecs chain world fwd res body

/-- A body with a coding: what has been read until the end is decoded. -/
def endCoded (ctx : ResponseContext) (body : ArrivingBody) : Ending :=
  match readCapped engine.maxBodyBytes [] body.chunks with
  | (raw, false) =>
    let (headers, decoded) := decodedResponseBody codecs ctx.headers raw
    let done := completed world
      { ctx with headers := headers, body := decoded, bodyMs := fwd.bodyMs, responseBodyObserverPending := false }
    ⟨streamContext fwd res,
      finish ((Http.statusCode done.status).getD 500) (engine.responseFields done) decoded [] (emptyResponse 500),
      .recorded ((InspectionObserver.ofRequest world.maxRetainedBodyBytes fwd.sent).flatMap fun obs =>
        ((obs.onResponseHead done).onChunk decoded).finish world.elapsedMs)⟩
  | (_, true) =>
    let done := completed world
      { ctx with
        status := 413
        headers := HeaderMap.new
        body := engine.codingTooLargeText.toUtf8
        bodyMs := fwd.bodyMs
        responseBodyObserverPending := false }
    ⟨streamContext fwd res, textResponse 413 engine.codingTooLargeText,
      .recorded (recordResponseWithOptionalSize world.view done none)⟩

/-- A body which is relayed through the observers; the loop ends with the chunks, whatever their end. -/
def endRelayed (breakpoints : GrpcInspector.FrameBreakpoints) (observers : List StreamObserver) (ctx : ResponseContext)
    (body : ArrivingBody) : Ending :=
  let ctx := { ctx with tags := ctx.tags ++ [("streamed" : Str)] }
  let relayed := StreamObserver.relayBody (StreamObserver.onChunk breakpoints)
    (observers.map (StreamObserver.onResponseHead ctx)) body.chunks
  let head := { ctx with
    headers := if observers.isEmpty then ctx.headers else removeHeader ctx.headers "content-length" }
  ⟨streamContext fwd res,
    finish ((Http.statusCode ctx.status).getD 500) (engine.responseFields head) relayed.flatten [] (emptyResponse 500),
    if (builderHeaders (engine.responseFields head)).isSome then
      .recorded ((InspectionObserver.ofRequest world.maxRetainedBodyBytes fwd.sent).flatMap fun obs =>
        (relayed.foldl InspectionObserver.onChunk (obs.onResponseHead ctx)).finish world.elapsedMs)
    else .dropped⟩

/-- The response side of `forward_stream`. -/
def endStream (breakpoints : GrpcInspector.FrameBreakpoints) (observers : List StreamObserver) (body : ArrivingBody) :
    Ending :=
  match MiddlewareChain.executeResponse chain (streamContext fwd res) with
  | (ctx, .proceed) =>
    if engine.normalizesCoding ctx.headers res then engine.endCoded codecs world fwd res ctx body
    else engine.endRelayed world fwd res breakpoints observers ctx body
  | (ctx, .stopAndReturn) =>
    ⟨streamContext fwd res, stoppedByMiddleware "Response",
      .stopped ctx "Response middleware stopped the streamed response before terminal recording."⟩

/-- A body which ends cleanly is delivered as before. -/
theorem endExchange_response (body : ArrivingBody) (hclean : body.clean = true) (hchunks : body.chunks = res.chunks) :
    (engine.endExchange codecs chain world fwd res body).response =
      (engine.deliverResponse codecs chain fwd res).response := by
  unfold endExchange deliverResponse
  by_cases hstreams : engine.streamsResponse res = true
  · rw [if_pos hstreams, if_pos hstreams]
    unfold endTeed
    rw [hchunks]
    dsimp only
    rcases MiddlewareChain.executeResponse chain (responseContext fwd res (responseHeaders res) [] true) with
      ⟨ctx, _ | _⟩ <;> rfl
  · rw [if_neg hstreams, if_neg hstreams]
    have hread : body.read.getD [] = res.body := by
      unfold ArrivingBody.read
      rw [if_pos hclean, hchunks]
      rfl
    unfold endBuffered
    rw [hread]
    dsimp only
    rcases MiddlewareChain.executeResponse chain (responseContext fwd res
      (decodedResponseBody codecs (responseHeaders res) res.body).1
      (decodedResponseBody codecs (responseHeaders res) res.body).2 false) with ⟨ctx, _ | _⟩ <;> rfl

theorem endStream_response (breakpoints : GrpcInspector.FrameBreakpoints) (observers : List StreamObserver)
    (body : ArrivingBody) (hchunks : body.chunks = res.chunks) :
    (engine.endStream codecs chain world fwd res breakpoints observers body).response =
      (engine.streamResponse codecs chain breakpoints observers fwd res).response := by
  unfold endStream streamResponse
  rcases MiddlewareChain.executeResponse chain (streamContext fwd res) with ⟨ctx, _ | _⟩
  · dsimp only
    split
    · unfold endCoded
      rw [hchunks]
      rcases readCapped engine.maxBodyBytes [] res.chunks with ⟨raw, _ | _⟩ <;> rfl
    · unfold endRelayed
      rw [hchunks]
      rfl
  · rfl

end

end ProxyEngine

/-- The response which an operation records. -/
def WriteOp.enqueuedResponse : WriteOp → Option ResponseContext
  | .recordResponse _ response => some response
  | .recordResponseWithMetrics _ response _ => some response
  | _ => none

namespace BrokenBodies

open ProxyEngine

/-- The trace ends in `Completed`. -/
def EndsCompleted (flow : List RequestFlowEvent) : Prop :=
  ∃ status latencyMs, flow.getLast? = some (.completed status latencyMs)

/-- The client does not get a body which ends well under the status of the upstream, and no trace which is recorded ends
in `Completed`. -/
structure Truthful (world : RecorderWorld) (guard : Option TerminalSessionGuard) (res : UpstreamResponse)
    (ending : Ending) : Prop where
  client : ¬ (ending.response.status = res.status ∧ Framing.Framed ending.response)
  session : ∀ op ∈ ending.ops world guard, ∀ response, op.enqueuedResponse = some response →
    ¬ EndsCompleted response.flow

/-! ### What hides a broken body -/

/-- The response goes out under the status of the upstream, with the length it declares. -/
def GoesOut (res : UpstreamResponse) (ctx : ResponseContext) (body : Bytes) : Prop :=
  if ∀ f ∈ ctx.headers.entries, FieldAllowed f then
    (Http.statusCode ctx.status).getD 500 = res.status ∧ ContentLength.Declares body.length ctx.headers
  else res.status = 500

/-- The session has no response yet. -/
def Awaits (view : StoreView) (sessionId : Option Str) : Prop :=
  ∃ id, sessionId = some id ∧ ∀ session, view.getSession id = some session → session.response = none

/-- There is room in the trace for one more event, or it ends in `Completed` already. -/
def TakesCompleted (flow : List RequestFlowEvent) : Prop := flow.length < maxFlowEvents ∨ EndsCompleted flow

/-- The trace is full, and ends in `Completed`. -/
def FullOfCompleted (flow : List RequestFlowEvent) : Prop :=
  maxFlowEvents ≤ flow.length ∧ EndsCompleted (flow.take maxFlowEvents)

/-! ### Traces -/

private theorem truncateFlowEvent_completed {event : RequestFlowEvent} {status latencyMs : Nat} :
    truncateFlowEvent event = .completed status latencyMs ↔ event = .completed status latencyMs := by
  cases event <;> simp [truncateFlowEvent]

theorem endsCompleted_completed (world : RecorderWorld) (ctx : ResponseContext) :
    EndsCompleted (completed world ctx).flow ↔ TakesCompleted ctx.flow := by
  unfold completed ResponseContext.pushFlow pushFlowEvent TakesCompleted
  by_cases hfull : ctx.flow.length ≥ maxFlowEvents
  · dsimp only
    rw [if_pos hfull]
    constructor
    · exact Or.inr
    · rintro (hroom | hends)
      · exact absurd hroom (Nat.not_lt.2 hfull)
      · exact hends
  · dsimp only
    rw [if_neg hfull]
    constructor
    · exact fun _ => Or.inl (Nat.lt_of_not_le hfull)
    · exact fun _ => ⟨ctx.status, world.elapsedMs, List.getLast?_concat⟩

/-- A second `Completed` makes no difference. -/
theorem takesCompleted_completed (world : RecorderWorld) (ctx : ResponseContext) :
    TakesCompleted (completed world ctx).flow ↔ TakesCompleted ctx.flow := by
  rw [← endsCompleted_completed world ctx]
  unfold TakesCompleted
  refine or_iff_right_of_imp fun hroom => ?_
  rw [endsCompleted_completed]
  -- an event is added and none is taken away
  refine Or.inl (Nat.lt_of_le_of_lt ?_ hroom)
  unfold completed ResponseContext.pushFlow pushFlowEvent
  dsimp only
  split <;> simp

/-- A trace which is put together again is cut, and its events are. -/
theorem extendFlow_flow (ctx : ResponseContext) (hempty : ctx.flow = []) (flow : List RequestFlowEvent) :
    (ctx.extendFlow flow).flow = (flow.take maxFlowEvents).map truncateFlowEvent := by
  have hfold : ∀ (flow : List RequestFlowEvent) (ctx : ResponseContext), ctx.flow.length ≤ maxFlowEvents →
      (flow.foldl ResponseContext.pushFlow ctx).flow =
        ctx.flow ++ (flow.take (maxFlowEvents - ctx.flow.length)).map truncateFlowEvent := by
    intro flow
    induction flow with
    | nil => simp
    | cons event flow ih =>
      intro ctx hle
      rw [List.foldl_cons]
      by_cases hfull : ctx.flow.length ≥ maxFlowEvents
      · have hsame : ctx.pushFlow event = ctx := by
          unfold ResponseContext.pushFlow pushFlowEvent
          rw [if_pos hfull]
        rw [hsame, ih ctx hle, Nat.sub_eq_zero_of_le hfull]
        simp
      · have hpushed : (ctx.pushFlow event).flow = ctx.flow ++ [truncateFlowEvent event] := by
          unfold ResponseContext.pushFlow pushFlowEvent
          rw [if_neg hfull]
        have hlength : (ctx.pushFlow event).flow.length = ctx.flow.length + 1 := by rw [hpushed]; simp
        obtain ⟨room, hroom⟩ : ∃ room, maxFlowEvents - ctx.flow.length = room + 1 :=
          ⟨maxFlowEvents - ctx.flow.length - 1, by omega⟩
        have hnext : maxFlowEvents - (ctx.pushFlow event).flow.length = room := by omega
        rw [ih (ctx.pushFlow event) (by omega), hnext, hpushed, hroom, List.take_succ_cons, List.map_cons,
          List.append_assoc]
        rfl
  unfold ResponseContext.extendFlow
  rw [hfold flow ctx (by rw [hempty]; exact Nat.zero_le _), hempty]
  rfl

/-- A failure is the last event of a trace, where there is room for it. -/
theorem endsCompleted_failed (ctx : ResponseContext) (hempty : ctx.flow = []) (flow : List RequestFlowEvent)
    (stage : FlowStage) (message : Str) :
    EndsCompleted ((ctx.extendFlow flow).pushFlow (.failed stage message)).flow ↔ FullOfCompleted flow := by
  unfold ResponseContext.pushFlow pushFlowEvent FullOfCompleted
  dsimp only
  rw [extendFlow_flow ctx hempty, List.length_map, List.length_take]
  by_cases hfull : maxFlowEvents ≤ flow.length
  · rw [if_pos (by omega)]
    unfold EndsCompleted
    simp only [List.getLast?_map, Option.map_eq_some_iff, truncateFlowEvent_completed, exists_eq_right, hfull, true_and]
  · rw [if_neg (by omega)]
    constructor
    · rintro ⟨status, latencyMs, hlast⟩
      rw [List.getLast?_concat] at hlast
      cases hlast
    · exact fun h => absurd h.1 hfull

/-! ### What is sent and what is recorded -/

variable {engine : ProxyEngine} {world : RecorderWorld} {fwd : Forwarded} {res : UpstreamResponse}

theorem goesOut_iff (ctx : ResponseContext) (body : Bytes) (trailers : Http.Headers) :
    ((finish ((Http.statusCode ctx.status).getD 500) (engine.responseFields ctx) body trailers
      (emptyResponse 500)).status =
        res.status ∧
      Framing.Framed
        (finish ((Http.statusCode ctx.status).getD 500) (engine.responseFields ctx) body trailers
          (emptyResponse 500))) ↔
      GoesOut res ctx body := by
  unfold GoesOut
  by_cases hallowed : ∀ f ∈ ctx.headers.entries, FieldAllowed f
  · obtain ⟨headers, hfinish, hvalues⟩ :=
      finish_responseFields engine hallowed ((Http.statusCode ctx.status).getD 500) body
      trailers (emptyResponse 500)
    have hlength := hvalues "content-length" ⟨by decide, by decide⟩ (by decide)
    rw [hfinish, if_pos hallowed]
    apply and_congr Iff.rfl
    unfold Framing.Framed ContentLength.Declares ContentLength.fields
    rw [hlength]
    constructor
    · intro h text htext
      exact ContentLength.declared_toUtf8.1 (h _ (List.mem_map_of_mem htext))
    · intro h v hv
      obtain ⟨text, htext, rfl⟩ := List.mem_map.1 hv
      exact ContentLength.declared_toUtf8.2 (h text htext)
  · have hfinish : finish ((Http.statusCode ctx.status).getD 500) (engine.responseFields ctx) body trailers
        (emptyResponse 500) = emptyResponse 500 := by
      unfold finish
      rw [builderHeaders_eq, if_neg fun h => hallowed ((responseFields_allowed engine).1 h)]
    rw [hfinish, if_neg hallowed]
    constructor
    · exact fun h => h.1.symm
    · intro h
      refine ⟨h.symm, ?_⟩
      intro v hv
      cases hv

/-- An answer of the engine's own declares no length. -/
theorem framed_textResponse (status : Nat) (text : Str) : Framing.Framed (textResponse status text) := by
  intro v hv
  have hnone : (textResponse status text).headers.getAll "content-length" = [] := by
    apply Http.Headers.getAll_eq_nil
    intro e he
    rw [List.mem_singleton.1 he]
    decide
  rw [hnone] at hv
  cases hv

theorem textResponse_goesOut (status : Nat) (text : Str) :
    ((textResponse status text).status = res.status ∧ Framing.Framed (textResponse status text)) ↔
      res.status = status := by
  rw [and_iff_left (framed_textResponse status text)]
  exact eq_comm

/-- No trace among the operations ends in `Completed`. -/
def Unfinished (ops : List WriteOp) : Prop :=
  ∀ op ∈ ops, ∀ response, op.enqueuedResponse = some response → ¬ EndsCompleted response.flow

theorem unfinished_append {ops ops' : List WriteOp} : Unfinished (ops ++ ops') ↔ Unfinished ops ∧ Unfinished ops' :=
  List.forall_mem_append

/-- A response is recorded with its trace; an annotation is none. -/
private theorem unfinished_recorded {id : Str} {response : ResponseContext} {metrics : InspectionMetrics} {empty : Bool}
    {tags : Option (List Str)} :
    Unfinished (.recordResponseWithMetrics id response metrics ::
        if empty = true then [] else [.annotate id none tags]) ↔
      ¬ EndsCompleted response.flow := by
  constructor
  · intro h
    exact h _ List.mem_cons_self response rfl
  · intro h op hop recorded hrecorded
    rcases List.mem_cons.1 hop with rfl | hop
    · cases hrecorded
      exact h
    · cases empty with
      | true => cases hop
      | false =>
        rw [if_neg Bool.false_ne_true, List.mem_singleton] at hop
        rw [hop] at hrecorded
        cases hrecorded

theorem unfinished_recordResponse (view : StoreView) (response : ResponseContext) (size : Option Nat) :
    Unfinished (recordResponseWithOptionalSize view response size) ↔
      ¬ (Awaits view response.sessionId ∧ EndsCompleted response.flow) := by
  have hnothing : ¬ Awaits view response.sessionId → (Unfinished [] ↔
      ¬ (Awaits view response.sessionId ∧ EndsCompleted response.flow)) := by
    intro hnot
    refine ⟨fun _ h => hnot h.1, fun _ op hop => ?_⟩
    cases hop
  unfold recordResponseWithOptionalSize
  cases hid : response.sessionId with
  | none =>
    rw [hid] at hnothing
    apply hnothing
    rintro ⟨id, hid, -⟩
    cases hid
  | some id =>
    rw [hid] at hnothing
    dsimp only
    cases hsession : view.getSession id with
    | none =>
      have hawaits : Awaits view (some id) := by
        refine ⟨id, rfl, fun session hstored => ?_⟩
        rw [hsession] at hstored
        cases hstored
      simp [Unfinished, WriteOp.enqueuedResponse, hawaits]
    | some session =>
      dsimp only
      by_cases hanswered : session.response.isSome = true
      · rw [if_pos hanswered]
        apply hnothing
        rintro ⟨id', hid', hopen⟩
        cases hid'
        rw [hopen session hsession] at hanswered
        cases hanswered
      · have hawaits : Awaits view (some id) := by
          refine ⟨id, rfl, fun session' hstored => ?_⟩
          rw [hsession] at hstored
          cases hstored
          simpa using hanswered
        rw [if_neg hanswered, unfinished_recorded]
        simp [hawaits]

theorem unfinished_recordFailure (guard : TerminalSessionGuard) (view : StoreView) (status : Nat) (stage : FlowStage)
    (message : Str) (latencyMs : Nat) :
    Unfinished (guard.recordFailure view status stage message latencyMs) ↔
      ¬ (Awaits view (some guard.sessionId) ∧ FullOfCompleted guard.flow) := by
  unfold TerminalSessionGuard.recordFailure
  by_cases hanswered : ((view.getSession guard.sessionId).bind fun session => session.response).isSome = true
  · rw [if_pos hanswered]
    refine ⟨fun _ h => ?_, fun _ op hop => by cases hop⟩
    obtain ⟨⟨id, hid, hopen⟩, -⟩ := h
    cases hid
    obtain ⟨answer, hanswer⟩ := Option.isSome_iff_exists.1 hanswered
    obtain ⟨session, hsession, hresponse⟩ := Option.bind_eq_some_iff.1 hanswer
    rw [hopen session hsession] at hresponse
    cases hresponse
  · have hawaits : Awaits view (some guard.sessionId) := by
      refine ⟨guard.sessionId, rfl, fun session hsession => ?_⟩
      rw [hsession] at hanswered
      simpa using hanswered
    rw [if_neg hanswered]
    have hfailed := endsCompleted_failed { ResponseContext.default with
      status := status
      body := message.toUtf8
      requestUri := guard.requestUri
      sessionId := some guard.sessionId
      ttfbMs := guard.ttfbMs
      requestHost := guard.requestHost
      requestMethod := guard.requestMethod
      protocol := guard.protocol
      protocolContext := guard.protocolContext } rfl guard.flow stage message
    simp [Unfinished, WriteOp.enqueuedResponse, hawaits, hfailed]

/-- What becomes of a guard without a session is nothing. -/
theorem unfinished_stopped (started ctx : ResponseContext) (response : ClientResponse) (text : Str)
    (guard : Option TerminalSessionGuard) :
    Unfinished (Ending.ops world guard ⟨started, response, .stopped ctx text⟩) ↔
      ¬ (Awaits world.view (guard.map TerminalSessionGuard.sessionId) ∧ FullOfCompleted ctx.flow) := by
  cases guard with
  | none =>
    refine ⟨fun _ h => ?_, fun _ op hop => by cases hop⟩
    obtain ⟨⟨id, hid, -⟩, -⟩ := h
    cases hid
  | some guard => exact unfinished_recordFailure _ _ _ _ _ _

theorem unfinished_dropped (started : ResponseContext) (response : ClientResponse)
    (guard : Option TerminalSessionGuard) :
    Unfinished (Ending.ops world guard ⟨started, response, .dropped⟩) ↔
      ¬ (Awaits world.view (guard.map TerminalSessionGuard.sessionId) ∧ FullOfCompleted started.flow) := by
  cases guard with
  | none =>
    refine ⟨fun _ h => ?_, fun _ op hop => by cases hop⟩
    obtain ⟨⟨id, hid, -⟩, -⟩ := h
    cases hid
  | some guard => exact unfinished_recordFailure _ _ _ _ _ _

theorem ops_recorded (started : ResponseContext) (response : ClientResponse) (ops : List WriteOp)
    (guard : Option TerminalSessionGuard) : Ending.ops world guard ⟨started, response, .recorded ops⟩ = ops := by
  unfold Ending.ops
  rfl

/-- What an observer records has the trace of the head, with `Completed` added to it. -/
theorem unfinished_finish {obs : InspectionObserver} {head : ResponseContext} (h : obs.responseHead = some head)
    (latencyMs : Nat) : Unfinished (obs.finish latencyMs) ↔ ¬ TakesCompleted head.flow := by
  unfold InspectionObserver.finish
  rw [h]
  dsimp only
  rw [unfinished_recorded]
  exact not_congr (endsCompleted_completed ⟨⟨fun _ => none, 0⟩, latencyMs, 0⟩ { head with body := obs.retained })

private theorem responseHead_foldl (chunks : List Bytes) (obs : InspectionObserver) :
    (chunks.foldl InspectionObserver.onChunk obs).responseHead = obs.responseHead := by
  induction chunks generalizing obs with
  | nil => rfl
  | cons chunk chunks ih => rw [List.foldl_cons, ih]; rfl

/-- Someone of the inspection watches the stream. -/
def Watched (sent : RequestContext) : Prop := sent.skipRecording = false ∧ sent.sessionId.isSome = true

theorem unfinished_observers (maxRetained latencyMs : Nat) (sent : RequestContext) (head : ResponseContext)
    (chunks : List Bytes) :
    Unfinished ((InspectionObserver.ofRequest maxRetained sent).flatMap fun obs =>
        (chunks.foldl InspectionObserver.onChunk (obs.onResponseHead head)).finish latencyMs) ↔
      ¬ (Watched sent ∧ TakesCompleted head.flow) := by
  have hone : ∀ obs : InspectionObserver, Unfinished
      ((chunks.foldl InspectionObserver.onChunk (obs.onResponseHead head)).finish latencyMs) ↔
        ¬ TakesCompleted head.flow := by
    intro obs
    exact unfinished_finish ((responseHead_foldl chunks _).trans rfl) latencyMs
  have hnothing : ¬ Watched sent → (Unfinished [] ↔ ¬ (Watched sent ∧ TakesCompleted head.flow)) := by
    intro hnot
    exact ⟨fun _ h => hnot h.1, fun _ op hop => by cases hop⟩
  unfold InspectionObserver.ofRequest
  by_cases hskip : sent.skipRecording = true
  · rw [if_pos hskip]
    apply hnothing
    rintro ⟨hrecorded, -⟩
    rw [hskip] at hrecorded
    cases hrecorded
  · rw [if_neg hskip]
    cases hid : sent.sessionId with
    | none =>
      apply hnothing
      rintro ⟨-, hsome⟩
      rw [hid] at hsome
      cases hsome
    | some id =>
      have hwatched : Watched sent := ⟨by simpa using hskip, by rw [hid]; rfl⟩
      simp only [List.flatMap_cons, List.flatMap_nil, List.append_nil]
      rw [unfinished_append, hone]
      simp [hwatched]

/-! ### The paths -/

variable (engine : ProxyEngine) (codecs : Codecs) (chain : List Middleware) (world : RecorderWorld) (fwd : Forwarded)
  (guard : Option TerminalSessionGuard) (res : UpstreamResponse)

/-- A response which the chain stops is forgiven where the upstream had not said 403 itself. -/
def StopHides (ctx : ResponseContext) : Prop :=
  res.status ≠ 403 ∧ ¬ (Awaits world.view (guard.map TerminalSessionGuard.sessionId) ∧ FullOfCompleted ctx.flow)

/-- The response chain, which is run on an empty body, gives out another status or a length which the body has not,
and there is no session to record or no room in its trace. -/
def BufferedHides : Prop :=
  let (headers, decoded) := decodedResponseBody codecs (responseHeaders res) []
  match MiddlewareChain.executeResponse chain (responseContext fwd res headers decoded false) with
  | (ctx, .proceed) => ¬ GoesOut res ctx ctx.body ∧ ¬ (Awaits world.view ctx.sessionId ∧ TakesCompleted ctx.flow)
  | (ctx, .stopAndReturn) => StopHides world guard res ctx

/-- The same of a body which is passed on; without a valid head nothing is read of it. -/
def TeedHides (arrived : Bytes) : Prop :=
  let started := responseContext fwd res (responseHeaders res) [] true
  match MiddlewareChain.executeResponse chain started with
  | (ctx, .proceed) =>
    ¬ GoesOut res ctx arrived ∧
      if ∀ f ∈ ctx.headers.entries, FieldAllowed f then ¬ (Awaits world.view ctx.sessionId ∧ TakesCompleted ctx.flow)
      else ¬ (Awaits world.view (guard.map TerminalSessionGuard.sessionId) ∧ FullOfCompleted started.flow)
  | (ctx, .stopAndReturn) => StopHides world guard res ctx

/-- The same of a body with a coding, which is decoded as far as it has come, or found too large before it breaks
off. -/
def CodedHides (ctx : ResponseContext) (chunks : List Bytes) : Prop :=
  match readCapped engine.maxBodyBytes [] chunks with
  | (raw, false) =>
    let (headers, decoded) := decodedResponseBody codecs ctx.headers raw
    ¬ GoesOut res { ctx with headers := headers } decoded ∧ ¬ (Watched fwd.sent ∧ TakesCompleted ctx.flow)
  | (_, true) => res.status ≠ 413 ∧ ¬ (Awaits world.view ctx.sessionId ∧ TakesCompleted ctx.flow)

/-- The same of a body which is relayed through the observers. -/
def RelayedHides (breakpoints : GrpcInspector.FrameBreakpoints) (observers : List StreamObserver)
    (ctx : ResponseContext)
    (chunks : List Bytes) : Prop :=
  let relayed := StreamObserver.relayBody (StreamObserver.onChunk breakpoints)
    (observers.map (StreamObserver.onResponseHead { ctx with tags := ctx.tags ++ [("streamed" : Str)] })) chunks
  let headers := if observers.isEmpty then ctx.headers else removeHeader ctx.headers "content-length"
  ¬ GoesOut res { ctx with headers := headers } relayed.flatten ∧
    if ∀ f ∈ headers.entries, FieldAllowed f then ¬ (Watched fwd.sent ∧ TakesCompleted ctx.flow)
    else ¬ (Awaits world.view (guard.map TerminalSessionGuard.sessionId) ∧ FullOfCompleted (streamContext fwd res).flow)

/-- Something else than the engine keeps a broken body of `handle_request_with_destination` from passing for a whole
one. -/
def ExchangeHides (chunks : List Bytes) : Prop :=
  if engine.streamsResponse res then TeedHides chain world fwd guard res chunks.flatten
  else BufferedHides codecs chain world fwd guard res

/-- Likewise of `forward_stream`. -/
def StreamHides (breakpoints : GrpcInspector.FrameBreakpoints) (observers : List StreamObserver) (chunks : List Bytes) :
    Prop :=
  match MiddlewareChain.executeResponse chain (streamContext fwd res) with
  | (ctx, .proceed) =>
    if engine.normalizesCoding ctx.headers res then CodedHides engine codecs world fwd res ctx chunks
    else RelayedHides world fwd guard res breakpoints observers ctx chunks
  | (ctx, .stopAndReturn) => StopHides world guard res ctx

section

variable {engine codecs chain world fwd guard res}

theorem truthful_iff_unfinished {ending : Ending} : Truthful world guard res ending ↔
    ¬ (ending.response.status = res.status ∧ Framing.Framed ending.response) ∧ Unfinished (ending.ops world guard) :=
  ⟨fun h => ⟨h.client, h.session⟩, fun h => ⟨h.1, h.2⟩⟩

theorem truthful_stopped (started ctx : ResponseContext) (text : Str) :
    Truthful world guard res ⟨started, stoppedByMiddleware "Response", .stopped ctx text⟩ ↔
      StopHides world guard res ctx := by
  rw [truthful_iff_unfinished, unfinished_stopped]
  exact and_congr (not_congr (textResponse_goesOut 403 _)) Iff.rfl

theorem builderHeaders_isSome (ctx : ResponseContext) :
    (builderHeaders (engine.responseFields ctx)).isSome = true ↔ ∀ f ∈ ctx.headers.entries, FieldAllowed f := by
  rw [builderHeaders_eq, ← responseFields_allowed engine]
  split <;> simp_all

theorem truthful_buffered {body : ArrivingBody} (hbroken : body.clean = false) :
    Truthful world guard res (engine.endBuffered codecs chain world fwd res body) ↔
      BufferedHides codecs chain world fwd guard res := by
  have hread : body.read.getD [] = [] := by
    unfold ArrivingBody.read
    rw [hbroken]
    rfl
  unfold endBuffered BufferedHides
  rw [hread]
  dsimp only
  rcases MiddlewareChain.executeResponse chain (responseContext fwd res
    (decodedResponseBody codecs (responseHeaders res) []).1
    (decodedResponseBody codecs (responseHeaders res) []).2 false) with ⟨ctx, _ | _⟩
  · dsimp only
    rw [truthful_iff_unfinished, ops_recorded, goesOut_iff, unfinished_recordResponse, endsCompleted_completed]
    rfl
  · exact truthful_stopped _ ctx _

theorem truthful_teed (body : ArrivingBody) :
    Truthful world guard res (engine.endTeed chain world fwd res body) ↔
      TeedHides chain world fwd guard res body.chunks.flatten := by
  unfold endTeed TeedHides
  dsimp only
  rcases MiddlewareChain.executeResponse chain (responseContext fwd res (responseHeaders res) [] true) with ⟨ctx, _ | _⟩
  · dsimp only
    rw [truthful_iff_unfinished, goesOut_iff]
    apply and_congr Iff.rfl
    by_cases hallowed : ∀ f ∈ ctx.headers.entries, FieldAllowed f
    · rw [if_pos hallowed, if_pos ((builderHeaders_isSome ctx).2 hallowed), ops_recorded, unfinished_recordResponse,
        endsCompleted_completed]
      rfl
    · rw [if_neg hallowed, if_neg (mt (builderHeaders_isSome ctx).1 hallowed)]
      exact unfinished_dropped _ _ guard
  · exact truthful_stopped _ ctx _

theorem truthful_coded (ctx : ResponseContext) (body : ArrivingBody) :
    Truthful world guard res (engine.endCoded codecs world fwd res ctx body) ↔
      CodedHides engine codecs world fwd res ctx body.chunks := by
  unfold endCoded CodedHides
  rcases readCapped engine.maxBodyBytes [] body.chunks with ⟨raw, _ | _⟩
  · dsimp only
    rw [truthful_iff_unfinished, ops_recorded, ← takesCompleted_completed world ctx]
    apply and_congr
    · exact not_congr (goesOut_iff _ _ _)
    · exact unfinished_observers world.maxRetainedBodyBytes world.elapsedMs fwd.sent _
        [(decodedResponseBody codecs ctx.headers raw).2]
  · dsimp only
    rw [truthful_iff_unfinished, ops_recorded, unfinished_recordResponse, endsCompleted_completed]
    exact and_congr (not_congr (textResponse_goesOut 413 _)) Iff.rfl

theorem truthful_relayed (breakpoints : GrpcInspector.FrameBreakpoints) (observers : List StreamObserver)
    (ctx : ResponseContext) (body : ArrivingBody) :
    Truthful world guard res (engine.endRelayed world fwd res breakpoints observers ctx body) ↔
      RelayedHides world fwd guard res breakpoints observers ctx body.chunks := by
  unfold endRelayed RelayedHides
  dsimp only
  generalize hheaders :
    (if observers.isEmpty = true then ctx.headers else removeHeader ctx.headers "content-length") = headers
  rw [truthful_iff_unfinished]
  apply and_congr
  · exact not_congr (goesOut_iff _ _ _)
  · by_cases hallowed : ∀ f ∈ headers.entries, FieldAllowed f
    · rw [if_pos hallowed, if_pos ((builderHeaders_isSome _).2 hallowed), ops_recorded]
      exact unfinished_observers _ _ fwd.sent _ _
    · rw [if_neg hallowed, if_neg (mt (builderHeaders_isSome _).1 hallowed)]
      exact unfinished_dropped _ _ guard

/-- A body which breaks off passes for a whole one, unless something else than the engine hides it. -/
theorem truthful_iff {body : ArrivingBody} (hbroken : body.clean = false) (breakpoints : GrpcInspector.FrameBreakpoints)
    (observers : List StreamObserver) :
    (Truthful world guard res (engine.endExchange codecs chain world fwd res body) ↔
        ExchangeHides engine codecs chain world fwd guard res body.chunks) ∧
      (Truthful world guard res (engine.endStream codecs chain world fwd res breakpoints observers body) ↔
        StreamHides engine codecs chain world fwd guard res breakpoints observers body.chunks) := by
  constructor
  · unfold endExchange ExchangeHides
    by_cases hstreams : engine.streamsResponse res = true
    · rw [if_pos hstreams, if_pos hstreams]
      exact truthful_teed body
    · rw [if_neg hstreams, if_neg hstreams]
      exact truthful_buffered hbroken
  · unfold endStream StreamHides
    rcases MiddlewareChain.executeResponse chain (streamContext fwd res) with ⟨ctx, _ | _⟩
    · dsimp only
      by_cases hcoding : engine.normalizesCoding ctx.headers res = true
      · rw [if_pos hcoding, if_pos hcoding]
        exact truthful_coded ctx body
      · rw [if_neg hcoding, if_neg hcoding]
        exact truthful_relayed breakpoints observers ctx body
    · exact truthful_stopped _ ctx _

end

/-! ### A download which breaks off after two bytes -/

private def downloadEngine : ProxyEngine := ⟨10485760, 524288, 8080, "127.0.0.1", [], none⟩

private def downloadCodecs : Codecs := ⟨fun _ => none, fun _ => none, fun _ => none, fun _ => none, fun _ => none⟩

private def downloadForward : Forwarded :=
  ⟨"http://files.test/data", "files.test", "GET", { RequestContext.default with sessionId := some "s" }, false, true, 1,
    1, 2⟩

private def download : UpstreamResponse :=
  { UpstreamResponse.plain with
    version := .http2
    headers := []
    contentLength := none
    chunks := [[100, 97], [116, 97]]
    headers_wf := Http.Headers.wellFormed_nil
    length_known := by decide }

private def chunkedDownload : UpstreamResponse :=
  { download with
    version := .http11
    headers := [("transfer-encoding", Str.toUtf8 "chunked")]
    headers_wf := by decide }

private def brokenDownload : ArrivingBody := ⟨[[100, 97]], false⟩

private def downloadWorld : RecorderWorld := ⟨⟨fun _ => none, 0⟩, 5, 1024⟩

private def downloadGuard : Option TerminalSessionGuard :=
  terminalGuardForRequest downloadForward.sent
    "Client closed the downstream connection before oproxy recorded a terminal response."

private def noFrameBreakpoints : GrpcInspector.FrameBreakpoints := ⟨fun _ => none, [], fun _ => .drop⟩

theorem truthful_iff_download :
    (Truthful downloadWorld downloadGuard download
      (downloadEngine.endExchange downloadCodecs [] downloadWorld downloadForward download brokenDownload) ↔
        ExchangeHides downloadEngine downloadCodecs [] downloadWorld downloadForward downloadGuard download
          [[100, 97]]) ∧
      (Truthful downloadWorld downloadGuard download
        (downloadEngine.endStream downloadCodecs [] downloadWorld downloadForward download
          noFrameBreakpoints [] brokenDownload) ↔
        StreamHides downloadEngine downloadCodecs [] downloadWorld downloadForward downloadGuard download
          noFrameBreakpoints []
          [[100, 97]]) :=
  truthful_iff rfl noFrameBreakpoints []

/-- The client gets a whole response with status 200 on each path: an empty body, or the first two bytes. -/
theorem not_truthful :
    ¬ Truthful downloadWorld downloadGuard download
        (downloadEngine.endExchange downloadCodecs [] downloadWorld downloadForward download brokenDownload) ∧
      ¬ Truthful downloadWorld downloadGuard chunkedDownload
        (downloadEngine.endExchange downloadCodecs [] downloadWorld downloadForward chunkedDownload brokenDownload) ∧
      ¬ Truthful downloadWorld downloadGuard download
        (downloadEngine.endStream downloadCodecs [] downloadWorld downloadForward download
        noFrameBreakpoints [] brokenDownload) := by
  refine ⟨fun h => h.client ?_, fun h => h.client ?_, fun h => h.client ?_⟩
  · decide
  · decide
  · decide

end BrokenBodies

end Oproxy
