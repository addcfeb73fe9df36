import Oproxy.Engine.BrokenBodies
import Oproxy.Lib.Run

/-!
# The acts of an exchange (`core/engine/mod.rs`)

`handle_request_with_destination` as the list of what it does to the session queue and to its terminal guard.  The
future of a request can be dropped between any two acts: then the acts up to there have been done, and a guard which is
still armed adds its record.
-/

namespace Oproxy

/-- What an exchange does to the session queue and to its guard. -/
inductive EngineAct where
  | enqueue (op : WriteOp)
  | arm (guard : Option TerminalSessionGuard)
  | updateFlow (flow : List RequestFlowEvent)
  | updateFromResponse (response : ResponseContext)
  | recordFailure (status : Nat) (stage : FlowStage) (message : Str)
  | disarm

/-- An exchange on its way: what it has enqueued, and its guard while that is armed. -/
structure EngineRun where
  ops : List WriteOp
  guard : Option TerminalSessionGuard

/-- What comes of a request which is sent: no response, or one with its body. -/
inductive UpstreamAnswer where
  | failure (cause : Str) (ttfbMs : Nat)
  | response (res : UpstreamResponse) (body : ArrivingBody) (ttfbMs bodyMs : Nat)

/-- What an exchange meets: the surroundings of the chain, what the plugins ask of the body, the observers of a stream,
the store as it shows itself when operations of this exchange have been enqueued, and the answer of the upstream. -/
structure EngineWorld where
  recording : RecordingWorld
  parse : Str → Option Url
  codecs : Codecs
  bodyHints : RequestHead → List BodyHint
  frames : GrpcInspector.FrameBreakpoints
  observers : RequestContext → List StreamObserver
  view : List WriteOp → StoreView
  elapsedMs : Nat
  maxRetainedBodyBytes : Nat
  answer : UpstreamAnswer

namespace EngineWorld

variable (world : EngineWorld)

def act (run : EngineRun) : EngineAct → EngineRun
  | .enqueue op => { run with ops := run.ops ++ [op] }
  | .arm guard => { run with guard := guard }
  | .updateFlow flow => { run with guard := run.guard.map fun guard => guard.updateFlow flow }
  | .updateFromResponse response => { run with guard := run.guard.map fun guard => guard.updateFromResponse response }
  | .recordFailure status stage message =>
    { ops := run.ops ++ (run.guard.map fun guard =>
        guard.recordFailure (world.view run.ops) status stage message world.elapsedMs).getD []
      guard := none }
  | .disarm => { run with guard := none }

/-- What has been enqueued when a run has ended. -/
def ended (run : EngineRun) : List WriteOp :=
  run.ops ++ (run.guard.map fun guard => guard.drop (world.view run.ops) world.elapsedMs).getD []

end EngineWorld

/-- Operations which are enqueued one by one. -/
def EngineAct.ofOps (ops : List WriteOp) : List EngineAct := ops.map EngineAct.enqueue

namespace ProxyEngine

open EngineAct

variable (engine : ProxyEngine) (world : EngineWorld) (rules : RecordingRules)

/-! ### The upstream does not answer -/

/-- The response which `record_forward_failure` starts the chain from. -/
def failedContext (head : RequestHead) (sent : RequestContext) (upstream : PreparedUpstream) (cause : Str)
    (ttfbMs : Nat) :
    ResponseContext :=
  ({ ResponseContext.default with
    status := 502
    body := Str.toUtf8 (("Proxy error: " : Str) ++ cause)
    requestUri := head.displayUri
    sessionId := upstream.sessionId
    ttfbMs := ttfbMs
    requestHost := head.host
    requestMethod := head.method
    protocolContext := upstream.protocolContext }.extendFlow sent.flow).pushFlow (.failed .forwarding cause)

/-- The response side of the chain with what it enqueues behind `before`.  The inspection has a say here, since the
engine has not told it that the recording is its own. -/
def failureChain (before : List WriteOp) :
    List (ResponseContext × List WriteOp → (ResponseContext × List WriteOp) × MiddlewareAction) :=
  let surroundings := world.recording.surroundings
  let inspection := fun (ctx, ops) =>
    let (ctx, recorded) := Inspection.onResponse (world.view (before ++ ops)) ctx
    ((ctx, ops ++ recorded), .proceed)
  [inspection,
   fun (ctx, ops) =>
    let (ctx, action) := LuaEngine.onResponse surroundings.vm rules.production.scripts ctx
    ((ctx, ops), action),
   inspection,
   fun (ctx, ops) =>
    let (ctx', action) := Breakpoints.onResponse surroundings.regex rules.production.breakpoints
      surroundings.onPausedResponse ctx
    ((ctx', ops ++ Breakpoints.responsePauseOps surroundings.regex rules.production.breakpoints
      world.recording.breakpointId ctx), action),
   fun (ctx, ops) =>
    let (ctx, action) := UnifiedRewrite.onResponse surroundings.regex rules.production.routing.rewrite ctx
    ((ctx, ops), action)]

/-- The response behind the chain, with what the chain enqueues; whether the chain has stopped makes no difference. -/
def failureRun (before : List WriteOp) (failed : ResponseContext) : ResponseContext × List WriteOp :=
  (MiddlewareChain.execute (failureChain world rules before) (failed, [])).1

/-- What `record_forward_failure` enqueues. -/
def failureOps (before : List WriteOp) (failed : ResponseContext) : List WriteOp :=
  let (ctx, ops) := failureRun world rules before failed
  ops ++ recordShortCircuitResponse (world.view (before ++ ops)) ctx

/-! ### The upstream answers -/

/-- The response side of the two kinds of exchange, where the store shows `view` when the response is recorded. -/
def ending (forwardClass : ForwardClass) (fwd : Forwarded) (res : UpstreamResponse) (body : ArrivingBody)
    (view : StoreView) : Ending :=
  let chain := rules.production.chain world.recording.surroundings
  let recorder : RecorderWorld := ⟨view, world.elapsedMs, world.maxRetainedBodyBytes⟩
  match forwardClass with
  | .buffered => engine.endExchange world.codecs chain recorder fwd res body
  | .streaming => engine.endStream world.codecs chain recorder fwd res world.frames (world.observers fwd.sent) body

/-- Behind the response chain the response is recorded and the guard disarmed, unless the chain stops the response or
no head can be built. -/
def respondActs (before : List WriteOp) (ending : StoreView → Ending) : List EngineAct :=
  let started := (ending (world.view before)).started
  let pauses := rules.responsePauseOps world.recording started
  .updateFromResponse started :: ofOps pauses ++
    match (ending (world.view (before ++ pauses))).recording with
    | .stopped ctx message => [.updateFromResponse ctx, .recordFailure 403 .responseMiddleware message]
    | .recorded ops => ofOps ops ++ [.disarm]
    | .dropped => []

/-! ### The whole exchange -/

section

variable (req : IncomingRequest) (mitmDestination : Option Str)

/-- What the response side gets of a request which has been sent. -/
def forwarded (sent : RequestContext) (ttfbMs bodyMs : Nat) : Forwarded :=
  let head := engine.buildRequestHead req mitmDestination
  { displayUri := head.displayUri
    host := head.host
    method := head.method
    sent := sent
    streamedUnbuffered := engine.requestStreamedUnbuffered req
    ownsRecording := true
    ttfbMs := ttfbMs
    bodyMs := bodyMs
    latencyMs := world.elapsedMs }

/-- What follows once the guard is armed; `after` is what the request chain has left. -/
def forwardActs (forwardClass : ForwardClass) (after : Recording) : List EngineAct :=
  let head := engine.buildRequestHead req mitmDestination
  match engine.prepareUpstream world.parse after.ctx req.uri head.reqUri with
  | (sent, .error refusal) =>
    [.updateFlow sent.flow,
     .recordFailure refusal.status .targetResolution
      "Target resolution failed before oproxy recorded an upstream response."]
  | (sent, .ok upstream) =>
    let sent := sent.pushFlow (.forwarded upstream.url)
    .updateFlow sent.flow ::
      match world.answer with
      | .failure cause ttfbMs =>
        ofOps (failureOps world rules after.ops (failedContext head sent upstream cause ttfbMs)) ++ [.disarm]
      | .response res body ttfbMs bodyMs =>
        respondActs world rules after.ops
          (engine.ending world rules forwardClass (engine.forwarded world req mitmDestination sent ttfbMs bodyMs) res
            body)

def guardMessage : ForwardClass → Str
  | .buffered => "Client closed the downstream connection before oproxy recorded a terminal response."
  | .streaming => "Client closed the downstream stream before oproxy recorded a terminal response."

/-- The answer of a middleware is recorded without a guard. -/
def exchangeActs (forwardClass : ForwardClass) (ctx : RequestContext) : List EngineAct :=
  let head := engine.buildRequestHead req mitmDestination
  match rules.run world.recording ctx with
  | (after, .proceed) =>
    ofOps after.ops ++ .arm (terminalGuardForRequest after.ctx (guardMessage forwardClass)) ::
      engine.forwardActs world rules req mitmDestination forwardClass after
  | (after, .stopAndReturn) =>
    match after.ctx.mockResponse with
    | some intercepted =>
      let pauses := rules.responsePauseOps world.recording
        (interceptedContext intercepted after.ctx head.displayUri head.host head.method true)
      ofOps (after.ops ++ rules.interceptedOps world.recording (world.view (after.ops ++ pauses)) intercepted after.ctx
        head.displayUri head.host head.method)
    | none => ofOps after.ops

/-- The class of an exchange and the context which its chain starts from; none where the request is refused before. -/
def startedExchange (body : ArrivingBody) : Option (ForwardClass × RequestContext) :=
  let head := engine.buildRequestHead req mitmDestination
  if req.method = ("CONNECT" : Str) then none
  else
    match (planExecution head.protocolContext (world.bodyHints head)).forwardClass with
    | .streaming => some (.streaming, requestContext head mitmDestination [])
    | .buffered =>
      if engine.requestStreamedUnbuffered req then some (.buffered, requestContext head mitmDestination [])
      else (body.read.filter fun bytes => bytes.length ≤ engine.maxBodyBytes).map fun bytes =>
        (.buffered, requestContext head mitmDestination bytes)

def handleActs (body : ArrivingBody) : List EngineAct :=
  match engine.startedExchange world req mitmDestination body with
  | none => []
  | some (forwardClass, ctx) => engine.exchangeActs world rules req mitmDestination forwardClass ctx

end

end ProxyEngine

namespace TerminalResponses

open EngineAct Machine

/-! ### Guards -/

variable {world : EngineWorld} {id : Str}

/-- The store shows no response of a session but one which this exchange has enqueued. -/
def Fresh (world : EngineWorld) (id : Str) : Prop :=
  ∀ ops session, (world.view ops).getSession id = some session → session.response.isSome = true →
    id ∈ respondedSessions ops

/-- A session has its response in the end: it has been recorded, or the guard is armed for it. -/
def Covered (id : Str) (run : EngineRun) : Prop :=
  id ∈ respondedSessions run.ops ∨ run.guard.map TerminalSessionGuard.sessionId = some id

/-- A session which this exchange has not answered the store shows without a response. -/
theorem Fresh.open (hfresh : Fresh world id) {ops : List WriteOp} (hops : id ∉ respondedSessions ops) :
    ∀ session, (world.view ops).getSession id = some session → session.response = none := by
  intro session hview
  by_contra hsome
  exact hops (hfresh ops session hview (Option.isSome_iff_ne_none.2 hsome))

/-- Where nothing is answered yet, only the guard covers a session. -/
theorem covered_iff_guard {run : EngineRun} (hrun : respondedSessions run.ops = []) :
    Covered id run ↔ run.guard.map TerminalSessionGuard.sessionId = some id := by
  unfold Covered
  rw [hrun]
  simp

theorem recordedRequests_recordFailure (guard : TerminalSessionGuard) (view : StoreView) (status : Nat)
    (stage : FlowStage) (message : Str) (latencyMs : Nat) :
    recordedRequests (guard.recordFailure view status stage message latencyMs) = [] := by
  unfold TerminalSessionGuard.recordFailure
  split <;> rfl

/-- A guard answers its session, unless the session has an answer. -/
theorem mem_respondedSessions_recordFailure (hfresh : Fresh world id) (guard : TerminalSessionGuard)
    (ops : List WriteOp) (status : Nat) (stage : FlowStage) (message : Str) (latencyMs : Nat) :
    id ∈ respondedSessions (ops ++ guard.recordFailure (world.view ops) status stage message latencyMs) ↔
      id ∈ respondedSessions ops ∨ guard.sessionId = id := by
  rw [respondedSessions_append, List.mem_append]
  unfold TerminalSessionGuard.recordFailure
  by_cases hanswered :
      (((world.view ops).getSession guard.sessionId).bind fun session => session.response).isSome = true
  · rw [if_pos hanswered]
    obtain ⟨response, hresponse⟩ := Option.isSome_iff_exists.1 hanswered
    obtain ⟨session, hsession, hshown⟩ := Option.bind_eq_some_iff.1 hresponse
    have hin : guard.sessionId = id → id ∈ respondedSessions ops := by
      rintro rfl
      exact hfresh ops session hsession (by rw [hshown]; rfl)
    constructor
    · rintro (h | h)
      · exact Or.inl h
      · cases h
    · rintro (h | h)
      · exact Or.inl h
      · exact Or.inl (hin h)
  · rw [if_neg hanswered]
    dsimp only
    rw [respondedSessions_recordResponseWithMetrics, respondedSessions_nil, List.mem_singleton]
    exact or_congr Iff.rfl eq_comm

theorem covered_recordFailure (hfresh : Fresh world id) (run : EngineRun) (status : Nat) (stage : FlowStage)
    (message : Str) : Covered id (world.act run (.recordFailure status stage message)) ↔ Covered id run := by
  obtain ⟨ops, guard⟩ := run
  cases guard with
  | none => simp [Covered, EngineWorld.act]
  | some guard =>
    have hrecorded := mem_respondedSessions_recordFailure hfresh guard ops status stage message world.elapsedMs
    simpa [Covered, EngineWorld.act] using hrecorded

/-- What is covered at the end of a run is answered. -/
theorem mem_respondedSessions_ended (hfresh : Fresh world id) (run : EngineRun) :
    id ∈ respondedSessions (world.ended run) ↔ Covered id run := by
  obtain ⟨ops, guard⟩ := run
  cases guard with
  | none => simp [Covered, EngineWorld.ended]
  | some guard =>
    have hrecorded := mem_respondedSessions_recordFailure hfresh guard ops 499 .forwarding guard.message world.elapsedMs
    simpa [Covered, EngineWorld.ended, TerminalSessionGuard.drop] using hrecorded

theorem recordedRequests_ended (run : EngineRun) : recordedRequests (world.ended run) = recordedRequests run.ops := by
  obtain ⟨ops, guard⟩ := run
  cases guard with
  | none => simp [EngineWorld.ended]
  | some guard =>
    simp [EngineWorld.ended, TerminalSessionGuard.drop, recordedRequests_recordFailure]

/-! ### Runs -/

theorem run_ofOps (ops : List WriteOp) (start : EngineRun) :
    run world.act start (ofOps ops) = ⟨start.ops ++ ops, start.guard⟩ := by
  unfold ofOps
  induction ops generalizing start with
  | nil => simp
  | cons op ops ih =>
    rw [List.map_cons, run_cons, ih]
    simp [EngineWorld.act]

theorem take_ofOps (ops : List WriteOp) (n : Nat) : (ofOps ops).take n = ofOps (ops.take n) := List.map_take.symm

/-- An act which records no request. -/
def RecordsNothing : EngineAct → Prop
  | .enqueue op => op.recordedRequest = none
  | _ => True

theorem recordedRequests_run {acts : List EngineAct} (hacts : ∀ a ∈ acts, RecordsNothing a) (start : EngineRun) :
    recordedRequests (run world.act start acts).ops = recordedRequests start.ops := by
  induction acts generalizing start with
  | nil => rfl
  | cons a acts ih =>
    rw [run_cons, ih fun b hb => hacts b (List.mem_cons_of_mem _ hb)]
    have ha := hacts a List.mem_cons_self
    cases a with
    | enqueue op =>
      have hop : op.recordedRequest = none := ha
      simp [EngineWorld.act, recordedRequests, hop]
    | recordFailure status stage message =>
      cases hguard : start.guard with
      | none => simp [EngineWorld.act, hguard]
      | some guard => simp [EngineWorld.act, hguard, recordedRequests_recordFailure]
    | arm guard => rfl
    | updateFlow flow => rfl
    | updateFromResponse response => rfl
    | disarm => rfl

/-- An act which answers no session and leaves the guard armed. -/
def Quiet : EngineAct → Prop
  | .enqueue op => op.respondsTo = none
  | .updateFlow _ => True
  | .updateFromResponse _ => True
  | _ => False

theorem run_quiet {acts : List EngineAct} (hacts : ∀ a ∈ acts, Quiet a) (start : EngineRun) :
    respondedSessions (run world.act start acts).ops = respondedSessions start.ops ∧
      (run world.act start acts).guard.map TerminalSessionGuard.sessionId =
        start.guard.map TerminalSessionGuard.sessionId := by
  induction acts generalizing start with
  | nil => exact ⟨rfl, rfl⟩
  | cons a acts ih =>
    obtain ⟨hresponded, hguard⟩ := ih (fun b hb => hacts b (List.mem_cons_of_mem _ hb)) (world.act start a)
    have ha := hacts a List.mem_cons_self
    rw [run_cons, hresponded, hguard]
    cases a with
    | enqueue op =>
      have hop : op.respondsTo = none := ha
      simp [EngineWorld.act, respondedSessions, hop]
    | updateFlow flow =>
      refine ⟨rfl, ?_⟩
      cases hstart : start.guard <;> simp [EngineWorld.act, hstart, TerminalSessionGuard.updateFlow]
    | updateFromResponse response =>
      refine ⟨rfl, ?_⟩
      cases hstart : start.guard <;> simp [EngineWorld.act, hstart, TerminalSessionGuard.updateFromResponse]
    | arm guard => exact ha.elim
    | recordFailure status stage message => exact ha.elim
    | disarm => exact ha.elim

theorem covered_quiet {acts : List EngineAct} (hacts : ∀ a ∈ acts, Quiet a) (start : EngineRun) :
    Covered id (run world.act start acts) ↔ Covered id start := by
  unfold Covered
  rw [(run_quiet hacts start).1, (run_quiet hacts start).2]

/-- A guard which records the failure covers what it has covered before, at each point. -/
theorem covered_failure (hfresh : Fresh world id) (acts : List EngineAct) (hacts : ∀ a ∈ acts, Quiet a) (status : Nat)
    (stage : FlowStage) (message : Str) (start : EngineRun) (n : Nat) :
    Covered id (run world.act start ((acts ++ [EngineAct.recordFailure status stage message]).take n)) ↔
      Covered id start := by
  have hbefore : Covered id (run world.act start (acts.take n)) ↔ Covered id start :=
    covered_quiet (fun a ha => hacts a (List.mem_of_mem_take ha)) start
  rw [run_take_append, ← hbefore]
  cases n - acts.length with
  | zero => rfl
  | succ m =>
    rw [List.take_succ_cons, List.take_nil, run_cons, run_nil]
    exact covered_recordFailure hfresh _ status stage message

/-- Where a response is recorded and the guard put away, the guard covers its session up to the end, and the recorded
sessions are covered from their recording on. -/
theorem covered_recording (world : EngineWorld) (id : Str) (acts : List EngineAct) (hacts : ∀ a ∈ acts, Quiet a)
    (ops : List WriteOp)
    (start : EngineRun) (hstart : respondedSessions start.ops = []) (n : Nat) :
    Covered id (run world.act start ((acts ++ (ofOps ops ++ [EngineAct.disarm])).take n)) ↔
      (start.guard.map TerminalSessionGuard.sessionId = some id ∧ n ≤ acts.length + ops.length) ∨
        id ∈ respondedSessions (ops.take (n - acts.length)) := by
  have hquiet := @run_quiet world (acts.take n) (fun a ha => hacts a (List.mem_of_mem_take ha)) start
  rw [run_take_append, run_take_append, take_ofOps, run_ofOps]
  have hlength : (ofOps ops).length = ops.length := List.length_map _
  rw [hlength]
  generalize run world.act start (acts.take n) = reached at hquiet
  obtain ⟨hresponded, hguard⟩ := hquiet
  rw [hstart] at hresponded
  rw [← hguard]
  by_cases hend : n ≤ acts.length + ops.length
  · -- the guard is still armed
    have hzero : n - acts.length - ops.length = 0 := by omega
    rw [hzero, List.take_zero, run_nil]
    unfold Covered
    rw [respondedSessions_append, hresponded, List.nil_append]
    constructor
    · rintro (h | h)
      · exact Or.inr h
      · exact Or.inl ⟨h, hend⟩
    · rintro (⟨h, -⟩ | h)
      · exact Or.inr h
      · exact Or.inl h
  · -- the last act has put it away
    obtain ⟨m, hm⟩ : ∃ m, n - acts.length - ops.length = m + 1 := ⟨n - acts.length - ops.length - 1, by omega⟩
    rw [hm, List.take_succ_cons, List.take_nil, run_cons, run_nil]
    unfold Covered EngineWorld.act
    rw [respondedSessions_append, hresponded, List.nil_append]
    constructor
    · rintro (h | h)
      · exact Or.inr h
      · cases h
    · rintro (⟨-, h⟩ | h)
      · exact absurd h hend
      · exact Or.inl h

end TerminalResponses

/-! ### Runs to the end -/

namespace ProxyEngine

open EngineAct Machine

variable {engine : ProxyEngine} {world : EngineWorld} {rules : RecordingRules} {view : StoreView}

/-- An exchange which its request chain ends enqueues what `execute_request_middleware` does. -/
theorem exchangeActs_of_stopped (hview : ∀ ops, world.view ops = view) {req : IncomingRequest}
    {mitmDestination : Option Str} {ctx : RequestContext}
    (hstopped : (rules.run world.recording ctx).2 = .stopAndReturn) (forwardClass : ForwardClass) :
    engine.exchangeActs world rules req mitmDestination forwardClass ctx =
      ofOps (rules.executeRequestMiddleware world.recording view ctx
        (engine.buildRequestHead req mitmDestination).displayUri (engine.buildRequestHead req mitmDestination).host
        (engine.buildRequestHead req mitmDestination).method).1.ops := by
  unfold exchangeActs RecordingRules.executeRequestMiddleware
  dsimp only
  generalize rules.run world.recording ctx = ran at hstopped
  obtain ⟨after, action⟩ := ran
  cases hstopped
  dsimp only
  cases after.ctx.mockResponse with
  | none => rfl
  | some intercepted =>
    dsimp only
    rw [hview]

/-- Where the upstream answers, the pauses are followed by what the ending enqueues. -/
theorem ended_respondActs (hview : ∀ ops, world.view ops = view) (forwardClass : ForwardClass) (fwd : Forwarded)
    (res : UpstreamResponse) (body : ArrivingBody) (start : EngineRun) :
    world.ended (run world.act start (respondActs world rules start.ops
        (engine.ending world rules forwardClass fwd res body))) =
      start.ops ++ rules.responsePauseOps world.recording
        (engine.ending world rules forwardClass fwd res body view).started ++
        (engine.ending world rules forwardClass fwd res body view).ops
          ⟨view, world.elapsedMs, world.maxRetainedBodyBytes⟩ start.guard := by
  obtain ⟨ops, guard⟩ := start
  unfold respondActs
  rw [hview]
  dsimp only
  rw [hview]
  rcases engine.ending world rules forwardClass fwd res body view with ⟨started, response, recording⟩
  dsimp only
  rw [List.cons_append, run_cons]
  have hpauses : ∀ acts, run world.act (world.act ⟨ops, guard⟩ (.updateFromResponse started))
      (ofOps (rules.responsePauseOps world.recording started) ++ acts) =
        run world.act ⟨ops ++ rules.responsePauseOps world.recording started,
          guard.map fun guard => guard.updateFromResponse started⟩ acts := by
    intro acts
    rw [run_append, TerminalResponses.run_ofOps]
    rfl
  rw [hpauses]
  cases recording with
  | dropped =>
    cases guard with
    | none => simp [EngineWorld.ended, Ending.ops]
    | some guard => simp [EngineWorld.ended, Ending.ops, hview]
  | recorded recorded =>
    dsimp only
    rw [run_append, TerminalResponses.run_ofOps]
    simp [EngineWorld.ended, EngineWorld.act, Ending.ops]
  | stopped ctx message =>
    cases guard with
    | none => simp [EngineWorld.ended, EngineWorld.act, Ending.ops]
    | some guard =>
      simp [EngineWorld.ended, EngineWorld.act, Ending.ops, hview, TerminalSessionGuard.updateFromResponse]

end ProxyEngine

end Oproxy
