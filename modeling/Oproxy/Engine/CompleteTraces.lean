import Oproxy.Engine.Traces

/-!
# Complete traces (`core/engine/mod.rs`)

A session which has its response shows one receipt, and at the end one terminal event, where there is room for that
event when it is pushed and nothing is pushed behind it.
-/

namespace Oproxy

namespace Traces

open Machine ProxyEngine EngineAct TerminalResponses

/-! ### When a trace is complete -/

section

variable (engine : ProxyEngine) (world : EngineWorld) (rules : RecordingRules) (req : IncomingRequest)
  (mitmDestination : Option Str)

/-- There is room for the event which ends a forwarded exchange, and nothing comes behind it: `Failed` is pushed before
the response chain where the send fails, and behind it, as `Completed` is, where the upstream answers. -/
def ForwardFits (after : Recording) (id : Str) : Prop :=
  let chain := rules.production.chain world.recording.surroundings
  let head := engine.buildRequestHead req mitmDestination
  match engine.prepareUpstream world.parse after.ctx req.uri head.reqUri with
  | (sent, .error _) => sent.flow.length < maxFlowEvents
  | (sent, .ok upstream) =>
    let sent := sent.pushFlow (.forwarded upstream.url)
    match world.answer with
    | .failure cause ttfbMs =>
      let failed := failedContext head sent upstream cause ttfbMs
      sent.flow.length < maxFlowEvents ∧
        (ShownOpen (world.view after.ops) failed.sessionId id ∨
          LeftAlone world.recording.surroundings rules.production failed)
    | .response res body ttfbMs bodyMs =>
      let fwd := engine.forwarded world req mitmDestination sent ttfbMs bodyMs
      (MiddlewareChain.executeResponse chain (startedContext engine world fwd res body .buffered)).1.flow.length <
        maxFlowEvents

/-- There is room for the terminal event of a run of `n` acts, and nothing comes behind it.  A guard which is armed when
the run ends records the session which has no response; where the request chain has stopped the request, one who answers
with an event has answered, and the response chain leaves that event alone. -/
def TerminalFits (ctx : RequestContext) (n : Nat) (id : Str) : Prop :=
  let head := engine.buildRequestHead req mitmDestination
  match rules.run world.recording ctx with
  | (after, .proceed) =>
    let reached := run world.act ⟨[], none⟩ ((engine.exchangeActs world rules req mitmDestination .buffered ctx).take n)
    (id ∉ respondedSessions reached.ops → ∀ guard, reached.guard = some guard → guard.flow.length < maxFlowEvents) ∧
      (id ∈ respondedSessions reached.ops → ForwardFits engine world rules req mitmDestination after id)
  | (after, .stopAndReturn) =>
    ∀ intercepted, after.ctx.mockResponse = some intercepted →
      AnswersWithEvent world.recording rules ctx ∧ onTheWay after.ctx.flow < maxFlowEvents ∧
        LeftAlone world.recording.surroundings rules.production
          (interceptedContext intercepted after.ctx head.displayUri head.host head.method true)

end

/-! ### The upstream answers -/

section

variable {engine : ProxyEngine} {world : EngineWorld} {rules : RecordingRules} {req : IncomingRequest}
  {mitmDestination : Option Str} {id : Str}

theorem responseContext_passing {fwd : Forwarded} (hsent : Passing fwd.sent.flow) (res : UpstreamResponse)
    (headers : HeaderMap) (body : Bytes) (streamed : Bool) :
    Passing (responseContext fwd res headers body streamed).flow := by
  have htagged : ∀ (response : ResponseContext) (request : RequestContext),
      (tagRewritten response request).flow = response.flow := by
    intro response request
    unfold tagRewritten
    split <;> rfl
  have hif : ∀ (c : Bool) (a b : ResponseContext), a.flow = b.flow → (if c = true then a else b).flow = b.flow := by
    intro c a b h
    cases c
    · rfl
    · exact h
  unfold responseContext
  dsimp only
  rw [htagged, hif]
  · exact (grows_push _ rfl rfl).passing (extendFlow_passing rfl hsent)
  · rfl

theorem startedContext_passing {fwd : Forwarded} (hsent : Passing fwd.sent.flow) (res : UpstreamResponse)
    (body : ArrivingBody) : Passing (startedContext engine world fwd res body .buffered).flow := by
  unfold startedContext exchangeContext
  dsimp only
  split
  · exact responseContext_passing hsent _ _ _ _
  · exact responseContext_passing hsent _ _ _ _

/-- What is recorded of a response is what the chain has left of it, with `Completed`; a response which the chain stops
is left to the guard as the chain has left it. -/
theorem ending_flow (fwd : Forwarded) (res : UpstreamResponse) (body : ArrivingBody) (view : StoreView) :
    let left := (MiddlewareChain.executeResponse (rules.production.chain world.recording.surroundings)
      (startedContext engine world fwd res body .buffered)).1
    match (engine.ending world rules .buffered fwd res body view).recording with
    | .stopped ctx _ => ctx = left
    | .recorded ops =>
      ∀ response ∈ answers id ops, response.flow = pushFlowEvent left.flow (.completed left.status world.elapsedMs)
    | .dropped => True := by
  unfold ending endExchange startedContext exchangeContext
  dsimp only
  by_cases hstreams : engine.streamsResponse res = true
  · simp only [if_pos hstreams]
    unfold endTeed
    dsimp only
    rcases MiddlewareChain.executeResponse (rules.production.chain world.recording.surroundings)
      (responseContext fwd res (responseHeaders res) [] true) with ⟨ctx, _ | _⟩
    · dsimp only
      split
      · rename_i heq
        split at heq <;> cases heq
      · rename_i ops heq
        split at heq
        · cases heq
          intro response hresponse
          rw [mem_answers_recordResponse hresponse]
          rfl
        · cases heq
      · trivial
    · rfl
  · simp only [if_neg hstreams]
    unfold endBuffered
    dsimp only
    rcases MiddlewareChain.executeResponse (rules.production.chain world.recording.surroundings)
      (responseContext fwd res (decodedResponseBody world.codecs (responseHeaders res) (body.read.getD [])).1
        (decodedResponseBody world.codecs (responseHeaders res) (body.read.getD [])).2 false) with ⟨ctx, _ | _⟩
    · intro response hresponse
      rw [mem_answers_recordResponse hresponse]
      rfl
    · rfl

theorem guard_updateFlow {acts : List EngineAct} {start : EngineRun} {flow : List RequestFlowEvent}
    {guard : TerminalSessionGuard}
    (h : (run world.act start (acts ++ [EngineAct.updateFlow flow])).guard = some guard) :
    guard.flow = flow := by
  rw [run_append, run_cons, run_nil] at h
  obtain ⟨armed, -, rfl⟩ := Option.map_eq_some_iff.1 h
  rfl

theorem guard_updateFromResponse {acts : List EngineAct} {start : EngineRun} {response : ResponseContext}
    {guard : TerminalSessionGuard}
    (h : (run world.act start (acts ++ [EngineAct.updateFromResponse response])).guard = some guard) :
    guard.flow = response.flow := by
  rw [run_append, run_cons, run_nil] at h
  obtain ⟨armed, -, rfl⟩ := Option.map_eq_some_iff.1 h
  rfl

/-- Where the upstream answers, what is recorded is ended if there was room behind the response chain. -/
theorem answers_respondActs (hwire : AnswersOnWire world.recording.surroundings) {fwd : Forwarded}
    (hsent : Passing fwd.sent.flow) (res : UpstreamResponse) (body : ArrivingBody) {start : EngineRun}
    (hstart : respondedSessions start.ops = []) (flow : List RequestFlowEvent) {n : Nat} {response : ResponseContext}
    (h : response ∈ answers id (run world.act start ((.updateFlow flow ::
      respondActs world rules start.ops (engine.ending world rules .buffered fwd res body)).take n)).ops) :
    Continues response.flow ∧ (Ends response.flow ↔
      (MiddlewareChain.executeResponse (rules.production.chain world.recording.surroundings)
        (startedContext engine world fwd res body .buffered)).1.flow.length < maxFlowEvents) := by
  have hleft := @executeResponse_passing _ rules.production hwire _
    (@startedContext_passing engine world fwd hsent res body)
  have hquiet := quiet_respondActs world rules flow (startedContext engine world fwd res body .buffered)
  unfold respondActs at h
  dsimp only at h
  rw [ending_started] at h
  have hending := @ending_flow engine world rules id fwd res body (world.view
    (start.ops ++ rules.responsePauseOps world.recording (startedContext engine world fwd res body .buffered)))
  generalize (engine.ending world rules .buffered fwd res body (world.view (start.ops ++
    rules.responsePauseOps world.recording (startedContext engine world fwd res body .buffered)))).recording = recording
    at h hending
  generalize (MiddlewareChain.executeResponse (rules.production.chain world.recording.surroundings)
    (startedContext engine world fwd res body .buffered)).1 = left at hleft hending ⊢
  cases recording with
  | stopped ctx message =>
    obtain rfl : ctx = left := hending
    dsimp only at h
    have hacts : EngineAct.updateFlow flow ::
      (.updateFromResponse (startedContext engine world fwd res body .buffered) ::
        ofOps (rules.responsePauseOps world.recording (startedContext engine world fwd res body .buffered)) ++
          [.updateFromResponse ctx, .recordFailure 403 .responseMiddleware message]) =
        (EngineAct.updateFlow flow :: .updateFromResponse (startedContext engine world fwd res body .buffered) ::
          ofOps (rules.responsePauseOps world.recording (startedContext engine world fwd res body .buffered)) ++
            [.updateFromResponse ctx]) ++ [.recordFailure 403 .responseMiddleware message] := by simp
    rw [hacts] at h
    have hlast : Quiet (.updateFromResponse ctx) := trivial
    obtain ⟨guard, ops, hguard, hin⟩ := answers_failing
      (List.forall_mem_append.2 ⟨fun a ha => (hquiet a ha).1, List.forall_mem_singleton.2 hlast⟩) hstart h
    have hflow := guard_updateFromResponse hguard
    rw [← hflow] at hleft ⊢
    exact answers_recordFailure hleft hin
  | recorded ops =>
    dsimp only at h hending
    have hrecorded := @answers_recording id world _ (fun a ha => (hquiet a ha).1) start hstart ops n
    rw [List.cons_append, List.cons_append] at hrecorded
    rw [List.cons_append, hrecorded] at h
    rw [hending response (answers_take_subset _ _ h)]
    exact ⟨continues_push hleft.continues rfl, ends_push_iff hleft rfl rfl⟩
  | dropped =>
    rw [List.append_nil, answers_quiet (fun a ha => (hquiet a (List.mem_of_mem_take ha)).1) hstart] at h
    cases h

/-! ### The engine behind the request chain -/

theorem prepareUpstream_flow (request : RequestContext) (parse : Str → Option Url) (uri : Http.Uri)
    (fallbackUri : Str) :
    Grows request.flow (engine.prepareUpstream parse request uri fallbackUri).1.flow := by
  have hsent : ∀ (c : Bool) (sent : RequestContext) (url : Str),
      Grows sent.flow (if c = true then sent.pushFlow (.targetSelected .originalHost url none none)
        else sent).flow := by
    intro c sent url
    cases c
    · exact Grows.refl _
    · exact grows_push _ rfl rfl
  unfold prepareUpstream
  dsimp only
  split
  · exact hsent _ { request with destination := none, headers := _ } _
  · split
    · exact hsent _ { request with destination := none, headers := _ } _
    · exact hsent _ { request with destination := none, headers := _ } _

theorem failedContext_ends (head : RequestHead) {sent : RequestContext} (hsent : Passing sent.flow)
    (upstream : PreparedUpstream) (cause : Str) (ttfbMs : Nat) :
    HandedOver (failedContext head sent upstream cause ttfbMs).flow ∧
      (Ends (failedContext head sent upstream cause ttfbMs).flow ↔ sent.flow.length < maxFlowEvents) :=
  ends_failed rfl hsent .forwarding cause

/-- What an exchange records behind its request chain is ended exactly where its event fits. -/
theorem answers_forwardActs (hwire : AnswersOnWire world.recording.surroundings)
    (hkeyed : ∀ ops id session, (world.view ops).getSession id = some session → session.id = id) {after : Recording}
    (hafter : Passing after.ctx.flow) (hnothing : respondedSessions after.ops = [])
    (guard : Option TerminalSessionGuard) {n : Nat} {response : ResponseContext} {rest : List ResponseContext}
    (h : answers id (run world.act ⟨after.ops, guard⟩
      ((engine.forwardActs world rules req mitmDestination .buffered after).take n)).ops = response :: rest) :
    Continues response.flow ∧
      (Ends response.flow ↔ ForwardFits engine world rules req mitmDestination after id) := by
  have hsent := (@prepareUpstream_flow engine after.ctx world.parse req.uri
    (engine.buildRequestHead req mitmDestination).reqUri).passing hafter
  have hin : response ∈ answers id (run world.act ⟨after.ops, guard⟩
      ((engine.forwardActs world rules req mitmDestination .buffered after).take n)).ops := by
    rw [h]
    exact List.mem_cons_self
  unfold forwardActs at h hin
  unfold ForwardFits
  dsimp only at h hin ⊢
  generalize engine.prepareUpstream world.parse after.ctx req.uri (engine.buildRequestHead req mitmDestination).reqUri =
    prepared at h hin hsent ⊢
  rcases prepared with ⟨sent, refusal | upstream⟩
  · dsimp only at hin hsent ⊢
    obtain ⟨armed, ops, harmed, hin⟩ := @answers_failing id world [.updateFlow sent.flow]
      (List.forall_mem_singleton.2 trivial) ⟨after.ops, guard⟩ hnothing _ _ _ n response hin
    have hflow := @guard_updateFlow world [] _ _ _ harmed
    rw [← hflow] at hsent ⊢
    exact answers_recordFailure hsent hin
  · dsimp only at h hin hsent ⊢
    have hforwarded : Passing (sent.pushFlow (.forwarded upstream.url)).flow := (grows_push _ rfl rfl).passing hsent
    cases hanswer : world.answer with
    | failure cause ttfbMs =>
      rw [hanswer] at h
      dsimp only at h ⊢
      have hunmarked := (unmarked_failedContext (engine.buildRequestHead req mitmDestination)
        (sent.pushFlow (.forwarded upstream.url)) upstream cause ttfbMs).1
      obtain ⟨hhanded, hends⟩ := failedContext_ends (engine.buildRequestHead req mitmDestination) hforwarded upstream
        cause ttfbMs
      generalize failedContext (engine.buildRequestHead req mitmDestination) (sent.pushFlow (.forwarded upstream.url))
        upstream cause ttfbMs = failed at h hunmarked hhanded hends ⊢
      have hrecorded := @answers_recording id world [.updateFlow (sent.pushFlow (.forwarded upstream.url)).flow]
        (List.forall_mem_singleton.2 trivial) ⟨after.ops, guard⟩ hnothing (failureOps world rules after.ops failed) n
      rw [List.singleton_append] at hrecorded
      rw [hrecorded] at h
      rcases answers_failureOps hkeyed hunmarked h with ⟨hshown, rfl⟩ | ⟨hhidden, rfl⟩
      · exact ⟨hhanded.continues, hends.trans (and_iff_left (Or.inl hshown)).symm⟩
      · rw [or_iff_right hhidden, ← hends]
        exact executeResponse_ends hwire hhanded
    | response res body ttfbMs bodyMs =>
      rw [hanswer] at hin
      exact answers_respondActs hwire hforwarded res body hnothing _ hin

/-- The guard of a forwarded exchange carries events on the way. -/
theorem carries_forwardActs (hwire : AnswersOnWire world.recording.surroundings) {after : Recording}
    (hafter : Passing after.ctx.flow) :
    ∀ a ∈ engine.forwardActs world rules req mitmDestination .buffered after, Carries a := by
  have hops : ∀ ops, ∀ a ∈ ofOps ops, Carries a := by
    intro ops a ha
    obtain ⟨op, -, rfl⟩ := List.mem_map.1 ha
    trivial
  have hsent := (@prepareUpstream_flow engine after.ctx world.parse req.uri
    (engine.buildRequestHead req mitmDestination).reqUri).passing hafter
  unfold forwardActs
  dsimp only
  generalize engine.prepareUpstream world.parse after.ctx req.uri (engine.buildRequestHead req mitmDestination).reqUri =
    prepared at hsent ⊢
  rcases prepared with ⟨sent, refusal | upstream⟩
  · exact List.forall_mem_cons.2 ⟨hsent, List.forall_mem_singleton.2 trivial⟩
  · have hforwarded : Passing (sent.pushFlow (.forwarded upstream.url)).flow := (grows_push _ rfl rfl).passing hsent
    refine List.forall_mem_cons.2 ⟨hforwarded, ?_⟩
    cases world.answer with
    | failure cause ttfbMs => exact List.forall_mem_append.2 ⟨hops _, List.forall_mem_singleton.2 trivial⟩
    | response res body ttfbMs bodyMs =>
      dsimp only
      generalize hfwd : engine.forwarded world req mitmDestination (sent.pushFlow (.forwarded upstream.url)) ttfbMs
        bodyMs = fwd
      have hfwdSent : Passing fwd.sent.flow := by
        rw [← hfwd]
        exact hforwarded
      have hstarted := @startedContext_passing engine world fwd hfwdSent res body
      have hleft := @executeResponse_passing _ rules.production hwire _ hstarted
      unfold respondActs
      dsimp only
      rw [ending_started]
      have hending := @ending_flow engine world rules [] fwd res body (world.view (after.ops ++
        rules.responsePauseOps world.recording (startedContext engine world fwd res body .buffered)))
      generalize (engine.ending world rules .buffered fwd res body (world.view (after.ops ++
        rules.responsePauseOps world.recording (startedContext engine world fwd res body .buffered)))).recording =
        recording at hending ⊢
      refine List.forall_mem_append.2 ⟨List.forall_mem_cons.2 ⟨hstarted, hops _⟩, ?_⟩
      cases recording with
      | stopped ctx message =>
        have hctx : Passing ctx.flow := by
          rw [show ctx = _ from hending]
          exact hleft
        exact List.forall_mem_cons.2 ⟨hctx, List.forall_mem_singleton.2 trivial⟩
      | recorded ops => exact List.forall_mem_append.2 ⟨hops _, List.forall_mem_singleton.2 trivial⟩
      | dropped => exact List.forall_mem_nil _

/-! ### A middleware answers -/

theorem answers_interceptedOps {view : StoreView} {intercepted : InterceptedResponse} {request : RequestContext}
    {displayUri host method : Str} {response : ResponseContext}
    (h : response ∈ answers id (rules.interceptedOps world.recording view intercepted request displayUri host method)) :
    response = (MiddlewareChain.executeResponse (rules.production.chain world.recording.surroundings)
      (interceptedContext intercepted request displayUri host method true)).1 := by
  have hpauses : ∀ response, answers id (rules.responsePauseOps world.recording response) = [] :=
    fun response => answers_of_none fun op hop => (responsePauseOps_quiet world.recording response op hop).2
  unfold RecordingRules.interceptedOps at h
  dsimp only at h
  rw [answers_append, hpauses, List.nil_append] at h
  rcases hrun : MiddlewareChain.executeResponse (rules.production.chain world.recording.surroundings)
    (interceptedContext intercepted request displayUri host method true) with ⟨ctx, _ | _⟩
  · rw [hrun] at h
    dsimp only at h
    rw [answers_append, List.mem_append] at h
    rcases h with h | h
    · rw [recordShortCircuitResponse_eq] at h
      exact mem_answers_recordResponse h
    · -- the event of the mock is no response
      split at h <;> cases h
  · rw [hrun] at h
    cases h

/-- What is recorded of the answer of a middleware is ended exactly where the middleware has pushed its event, and the
response chain leaves it alone. -/
theorem intercepted_ends (hwire : AnswersOnWire world.recording.surroundings) {request : RequestContext}
    (hrequest : HandedOver request.flow) (intercepted : InterceptedResponse) (displayUri host method : Str) :
    let started := interceptedContext intercepted request displayUri host method true
    let left := (MiddlewareChain.executeResponse (rules.production.chain world.recording.surroundings) started).1
    Continues left.flow ∧ (Ends left.flow ↔
      Ends request.flow ∧ LeftAlone world.recording.surroundings rules.production started) := by
  obtain ⟨hhanded, hends⟩ : HandedOver (interceptedContext intercepted request displayUri host method true).flow ∧
      (Ends (interceptedContext intercepted request displayUri host method true).flow ↔ Ends request.flow) :=
    extendFlow_handedOver rfl hrequest
  have hleft := @executeResponse_ends _ rules.production hwire _ hhanded
  rw [hends] at hleft
  exact hleft

/-! ### The whole exchange -/

theorem startedExchange_begins {body : ArrivingBody} {forwardClass : ForwardClass} {ctx : RequestContext}
    (h : engine.startedExchange world req mitmDestination body = some (forwardClass, ctx)) : Begins ctx.flow := by
  have hrequest : ∀ bytes, Begins
      (requestContext (engine.buildRequestHead req mitmDestination) mitmDestination bytes).flow :=
    fun bytes => ⟨_, [], rfl, rfl, rfl, passing_nil⟩
  unfold startedExchange at h
  dsimp only at h
  split at h
  · cases h
  · split at h
    · cases h
      exact hrequest []
    · split at h
      · cases h
        exact hrequest []
      · obtain ⟨bytes, -, heq⟩ := Option.map_eq_some_iff.1 h
        cases heq
        exact hrequest bytes

/-- A trace which is put together of a request and its response is complete if the request has not lost its receipt and
the response ends it. -/
theorem complete_iff_of_parts {ctx : RequestContext} {opened flow : List RequestFlowEvent} {fits : Prop}
    (hreopened : Reopened world.recording rules ctx id → Passing opened)
    (hbegins : ¬ Reopened world.recording rules ctx id → Begins opened) (hcontinues : Continues flow)
    (hends : Ends flow ↔ fits) :
    Complete (opened ++ flow) ↔ ¬ Reopened world.recording rules ctx id ∧ fits := by
  by_cases h : Reopened world.recording rules ctx id
  · exact iff_of_false (not_complete_of_passing (hreopened h) hcontinues) fun hfits => hfits.1 h
  · rw [complete_iff_ends (hbegins h) hcontinues, hends, and_iff_right h]

theorem not_answered_run (ctx : RequestContext) (n : Nat) (flow : List RequestFlowEvent) :
    SessionTrace.ofOps id ((rules.run world.recording ctx).1.ops.take n) ≠ some ⟨flow, true⟩ := by
  intro h
  have hnothing := respondedSessions_take_of_none
    (respondedSessions_eq_nil.1 (@RecordingRules.respondedSessions_run world.recording rules ctx)) n
  rw [← List.append_nil ((rules.run world.recording ctx).1.ops.take n)] at h
  obtain ⟨opened, response, rest, -, hanswers, -⟩ := ofOps_answered hnothing recordedRequests_nil h
  cases hanswers

/-- A run enqueues behind what has been enqueued before it. -/
theorem run_ops (acts : List EngineAct) (start : EngineRun) :
    ∃ added, (run world.act start acts).ops = start.ops ++ added := by
  induction acts generalizing start with
  | nil => exact ⟨[], (List.append_nil _).symm⟩
  | cons a acts ih =>
    have hone : ∃ added, (world.act start a).ops = start.ops ++ added := by
      cases a with
      | enqueue op => exact ⟨[op], rfl⟩
      | recordFailure status stage message => exact ⟨_, rfl⟩
      | _ => exact ⟨[], (List.append_nil _).symm⟩
    obtain ⟨first, hfirst⟩ := hone
    obtain ⟨added, hadded⟩ := ih (world.act start a)
    refine ⟨first ++ added, ?_⟩
    rw [run_cons, hadded, hfirst, List.append_assoc]

/-- Behind the request chain a session gets its response from a recorder, or from the guard at the end of the run. -/
theorem complete_forward_iff (hwire : AnswersOnWire world.recording.surroundings)
    (hkeyed : ∀ ops id session, (world.view ops).getSession id = some session → session.id = id) {after : Recording}
    (hafter : ∀ trace, SessionTrace.ofOps id after.ops = some trace → Passing after.ctx.flow)
    (hnothing : respondedSessions after.ops = []) (n : Nat) {flow : List RequestFlowEvent} {message : Str}
    {reached : EngineRun} (hreached : reached = run world.act ⟨after.ops, terminalGuardForRequest after.ctx message⟩
      ((engine.forwardActs world rules req mitmDestination .buffered after).take n))
    (h : SessionTrace.ofOps id (world.ended reached) = some ⟨flow, true⟩) :
    ∃ opened response, SessionTrace.ofOps id after.ops = some ⟨opened, false⟩ ∧ flow = opened ++ response ∧
      Continues response ∧ (Ends response ↔
        (id ∉ respondedSessions reached.ops → ∀ guard, reached.guard = some guard → guard.flow.length < maxFlowEvents) ∧
        (id ∈ respondedSessions reached.ops → ForwardFits engine world rules req mitmDestination after id)) := by
  have hrecords : recordedRequests reached.ops = recordedRequests after.ops := by
    rw [hreached]
    exact recordedRequests_run (fun a ha => recordsNothing_forward after a (List.mem_of_mem_take ha)) _
  obtain ⟨added, hadded⟩ : ∃ added, reached.ops = after.ops ++ added := by
    rw [hreached]
    exact run_ops _ _
  have hended : world.ended reached =
      after.ops ++ (added ++ (reached.guard.map fun guard => guard.drop (world.view reached.ops) world.elapsedMs).getD
        []) := by
    unfold EngineWorld.ended
    rw [hadded, List.append_assoc]
  have hbehind : recordedRequests (added ++
      (reached.guard.map fun guard => guard.drop (world.view reached.ops) world.elapsedMs).getD []) = [] := by
    have hall := @recordedRequests_ended world reached
    rw [hended, hrecords, recordedRequests_append] at hall
    exact List.append_right_eq_self.1 hall
  rw [hended] at h
  obtain ⟨opened, response, rest, hopened, hanswers, hflow⟩ := ofOps_answered hnothing hbehind h
  have hpassing := hafter _ hopened
  refine ⟨opened, response.flow, hopened, hflow, ?_⟩
  have hbefore : answers id after.ops = [] := answers_of_none (respondedSessions_eq_nil.1 hnothing)
  have hsame : answers id added = answers id reached.ops := by rw [hadded, answers_append, hbefore, List.nil_append]
  rw [answers_append, hsame] at hanswers
  -- the response was recorded on the way, or the guard records a failure at the end
  by_cases hin : id ∈ respondedSessions reached.ops
  · cases hfirst : answers id reached.ops with
    | nil => exact absurd hin (answers_eq_nil_iff.1 hfirst)
    | cons first others =>
      rw [hfirst] at hanswers
      obtain ⟨rfl, -⟩ := List.cons.inj hanswers
      rw [hreached] at hfirst
      have hfits := answers_forwardActs hwire hkeyed hpassing hnothing _ hfirst
      simpa [hin] using hfits
  · rw [answers_eq_nil_iff.2 hin, List.nil_append] at hanswers
    cases hguard : reached.guard with
    | none =>
      rw [hguard] at hanswers
      cases hanswers
    | some guard =>
      rw [hguard, Option.map_some, Option.getD_some] at hanswers
      have hdrop : response ∈ answers id (guard.drop (world.view reached.ops) world.elapsedMs) := by
        rw [hanswers]
        exact List.mem_cons_self
      have harmed : ∀ guard, terminalGuardForRequest after.ctx message = some guard → Passing guard.flow := by
        intro guard hguard
        obtain ⟨sessionId, -, rfl⟩ := Option.map_eq_some_iff.1 hguard
        exact hpassing
      rw [hreached] at hguard
      have hcarried := guard_passing (fun a ha => carries_forwardActs hwire hpassing a (List.mem_of_mem_take ha)) harmed
        guard hguard
      simpa [hin] using answers_recordFailure hcarried hdrop

/-- What a run of an exchange leaves of a session which has its response. -/
theorem complete_ended_iff (hwire : AnswersOnWire world.recording.surroundings)
    (hkeyed : ∀ ops id session, (world.view ops).getSession id = some session → session.id = id) {ctx : RequestContext}
    (hctx : Begins ctx.flow) (n : Nat) {flow : List RequestFlowEvent}
    (h : SessionTrace.ofOps id (world.ended (run world.act ⟨[], none⟩
      ((engine.exchangeActs world rules req mitmDestination .buffered ctx).take n))) = some ⟨flow, true⟩) :
    Complete flow ↔ ¬ Reopened world.recording rules ctx id ∧
      TerminalFits engine world rules req mitmDestination ctx n id := by
  have hnothing : respondedSessions (rules.run world.recording ctx).1.ops = [] :=
    RecordingRules.respondedSessions_run ctx
  have hunanswered := @not_answered_run world rules id ctx n flow
  have hopened : ∀ trace, SessionTrace.ofOps id (rules.run world.recording ctx).1.ops = some trace → _ :=
    fun trace htrace => opened_run hwire hctx htrace
  unfold TerminalFits
  dsimp only
  rcases hrun : rules.run world.recording ctx with ⟨after, _ | _⟩
  · rw [hrun] at hnothing hunanswered hopened
    dsimp only at hnothing hunanswered hopened ⊢
    have hlength : (ofOps after.ops).length = after.ops.length := List.length_map _
    have hacts : engine.exchangeActs world rules req mitmDestination .buffered ctx =
        ofOps after.ops ++ .arm (terminalGuardForRequest after.ctx (guardMessage .buffered)) ::
          engine.forwardActs world rules req mitmDestination .buffered after := by
      unfold exchangeActs
      rw [hrun]
    rw [hacts, run_take_append, take_ofOps, run_ofOps, hlength, List.nil_append] at h
    rw [hacts, run_take_append, take_ofOps, run_ofOps, hlength, List.nil_append]
    cases hn : n - after.ops.length with
    | zero =>
      -- the run ends before the guard is armed
      rw [hn, List.take_zero, run_nil] at h
      unfold EngineWorld.ended at h
      rw [Option.map_none, Option.getD_none, List.append_nil] at h
      exact absurd h hunanswered
    | succ k =>
      have hall : after.ops.take n = after.ops := List.take_of_length_le (by omega)
      rw [hn, List.take_succ_cons, run_cons, hall] at h
      rw [List.take_succ_cons, run_cons, hall]
      have harm : world.act ⟨after.ops, none⟩ (.arm (terminalGuardForRequest after.ctx (guardMessage .buffered))) =
        ⟨after.ops, terminalGuardForRequest after.ctx (guardMessage .buffered)⟩ := rfl
      rw [harm] at h ⊢
      obtain ⟨opened, response, hopen, rfl, hcontinues, hends⟩ := complete_forward_iff hwire hkeyed
        (fun trace htrace => (hopened trace htrace).2.2) hnothing k rfl h
      obtain ⟨hreopened, hbegins, -⟩ := hopened _ hopen
      exact complete_iff_of_parts hreopened hbegins hcontinues hends
  · rw [hrun] at hnothing hunanswered hopened
    dsimp only at hnothing hunanswered hopened ⊢
    cases hmock : after.ctx.mockResponse with
    | none =>
      have hacts : engine.exchangeActs world rules req mitmDestination .buffered ctx = ofOps after.ops := by
        unfold exchangeActs
        rw [hrun]
        dsimp only
        rw [hmock]
      rw [hacts, take_ofOps, run_ofOps, List.nil_append] at h
      unfold EngineWorld.ended at h
      rw [Option.map_none, Option.getD_none, List.append_nil] at h
      exact absurd h hunanswered
    | some intercepted =>
      have hacts : ∃ view, engine.exchangeActs world rules req mitmDestination .buffered ctx =
          ofOps (after.ops ++ rules.interceptedOps world.recording view intercepted after.ctx
            (engine.buildRequestHead req mitmDestination).displayUri (engine.buildRequestHead req mitmDestination).host
            (engine.buildRequestHead req mitmDestination).method) := by
        unfold exchangeActs
        rw [hrun]
        dsimp only
        rw [hmock]
        exact ⟨_, rfl⟩
      obtain ⟨view, hacts⟩ := hacts
      rw [hacts, take_ofOps, run_ofOps, List.nil_append] at h
      unfold EngineWorld.ended at h
      rw [Option.map_none, Option.getD_none, List.append_nil, List.take_append] at h
      have hquiet : respondedSessions (after.ops.take n) = [] :=
        respondedSessions_take_of_none (respondedSessions_eq_nil.1 hnothing) n
      have hrecords := @RecordingRules.recordedRequests_interceptedOps world.recording rules view intercepted after.ctx
        (engine.buildRequestHead req mitmDestination).displayUri (engine.buildRequestHead req mitmDestination).host
        (engine.buildRequestHead req mitmDestination).method
      rw [recordedRequests_eq_nil] at hrecords
      obtain ⟨opened, response, rest, hopen, hanswers, rfl⟩ := ofOps_answered hquiet
        (recordedRequests_eq_nil.2 fun op hop => hrecords op (List.mem_of_mem_take hop)) h
      -- the chain has been through when its answer is recorded
      have hall : after.ops.take n = after.ops := by
        refine List.take_of_length_le (Nat.le_of_not_lt fun hlt => ?_)
        rw [Nat.sub_eq_zero_of_le (Nat.le_of_lt hlt), List.take_zero] at hanswers
        cases hanswers
      rw [hall] at hopen
      obtain ⟨hreopened, hbegins, hleaves⟩ := hopened _ hopen
      have hin : response ∈ answers id (rules.interceptedOps world.recording view intercepted after.ctx
          (engine.buildRequestHead req mitmDestination).displayUri (engine.buildRequestHead req mitmDestination).host
          (engine.buildRequestHead req mitmDestination).method) :=
        answers_take_subset _ _ (by rw [hanswers]; exact List.mem_cons_self)
      rw [answers_interceptedOps hin]
      obtain ⟨hcontinues, hends⟩ := @intercepted_ends world rules hwire after.ctx hleaves intercepted
        (engine.buildRequestHead req mitmDestination).displayUri (engine.buildRequestHead req mitmDestination).host
        (engine.buildRequestHead req mitmDestination).method
      -- a session which is shown has been enqueued by the request chain
      have hops : after.ops ≠ [] := by
        intro hnone
        rw [hnone] at hopen
        cases hopen
      rw [run_ends_iff hwire hrun hops, and_assoc] at hends
      refine complete_iff_of_parts hreopened hbegins hcontinues (hends.trans ?_)
      simp

/-- What the store shows of a session which has its response is a complete trace exactly where the session has not been
opened again, and its terminal event fits.  The exchange may break off behind any number of acts, and operations of
others may come between its own. -/
theorem complete_iff (hwire : AnswersOnWire world.recording.surroundings)
    (hkeyed : ∀ ops id session, (world.view ops).getSession id = some session → session.id = id) {body : ArrivingBody}
    {ctx : RequestContext} (hstarted : engine.startedExchange world req mitmDestination body = some (.buffered, ctx))
    (n : Nat) {s : SessionStore} (hs : s.exchanges.get? id = none) {ts : List TimedOp}
    (hbrings : ∀ t ∈ ts, ¬ t.op.Brings id)
    (hts : (ts.map TimedOp.op).filter (WriteOp.concerns id) = (world.ended (run world.act ⟨[], none⟩
      ((engine.handleActs world rules req mitmDestination body).take n))).filter (WriteOp.concerns id))
    {exchange : Exchange} (hexchange : (run SessionStore.step s ts).exchanges.get? id = some exchange)
    (hresponse : exchange.response.isSome = true) :
    Complete exchange.flow ↔ ¬ Reopened world.recording rules ctx id ∧
      TerminalFits engine world rules req mitmDestination ctx n id := by
  have hacts : engine.handleActs world rules req mitmDestination body =
      engine.exchangeActs world rules req mitmDestination .buffered ctx := by
    unfold handleActs
    rw [hstarted]
  have hshown := SessionTrace.shows_run hs hbrings hts exchange hexchange
  have htrace : exchange.trace = ⟨exchange.flow, true⟩ := by
    unfold Exchange.trace
    rw [hresponse]
  rw [htrace, hacts] at hshown
  exact complete_ended_iff hwire hkeyed (startedExchange_begins hstarted) n hshown

end

/-! ### A mock behind which a rule rewrites -/

private def mockedRequest : IncomingRequest := .plain

private def mockingEngine : ProxyEngine := ⟨10485760, 524288, 8080, "127.0.0.1", [], none⟩

/-- One mock, and one rule which marks every response. -/
private def mockingRules : RecordingRules where
  filter := ⟨.disabled, []⟩
  production :=
    { routing := { RoutingRules.empty with
        rewrite := [⟨"mark", "mark", true, Location.default, .response, [.setHeader "x-marked" "1"]⟩] }
      breakpoints := []
      mapLocal := []
      mocks := [⟨"mock", "mock", true, Location.default, none, [⟨200, IndexMap.empty, "ok"⟩], 0⟩]
      scripts := [] }

private def mockingWorld : EngineWorld where
  recording :=
    { surroundings := Surroundings.bare
      lowercase := Str.toAsciiLowercase
      inspect := fun _ => ⟨none, none, none⟩
      breakpointId := "bp"
      inspectionId := "inspection"
      responsePassId := "pass" }
  parse := fun _ => none
  codecs := ⟨fun _ => none, fun _ => none, fun _ => none, fun _ => none, fun _ => none⟩
  bodyHints := fun _ => [.fullBody]
  frames := ⟨fun _ => none, [], fun _ => .drop⟩
  observers := StreamObserver.ofRequest
  view := fun _ => ⟨fun _ => none, 0⟩
  elapsedMs := 5
  maxRetainedBodyBytes := 1024
  answer := .failure "connection refused" 3

private theorem mocking_answersOnWire : AnswersOnWire mockingWorld.recording.surroundings where
  request := fun _ _ h => by cases h
  response := fun _ _ h => by cases h

private def mockedOps : List WriteOp :=
  mockingWorld.ended (run mockingWorld.act ⟨[], none⟩
    ((mockingEngine.handleActs mockingWorld mockingRules mockedRequest none ⟨[], true⟩).take 10))

private def mockedStore : SessionStore :=
  run SessionStore.step (SessionStore.empty 10 usizeMax) (mockedOps.map fun op => ⟨fun _ => 0, op⟩)

private theorem mocked_isSome : (mockedStore.exchanges.get? "inspection").isSome = true := by decide +kernel

/-- The receipt and the match of the mock are followed by `ShortCircuited`, and by the two events of the rule. -/
private theorem mocked_flow : ((mockedStore.exchanges.get? "inspection").get mocked_isSome).flow.map
    (fun e => (e.isReceived, e.isTerminal)) =
      [(true, false), (false, false), (false, true), (false, false), (false, false)] := by decide +kernel

private theorem mocked_responds :
    ((mockedStore.exchanges.get? "inspection").get mocked_isSome).response.isSome = true := by
  decide +kernel

private def importsNothing : WriteOp → Bool
  | .importSessions _ => false
  | .loadData _ => false
  | _ => true

private theorem mocked_brings_nothing : ∀ op ∈ mockedOps, ¬ op.Brings "inspection" := by
  have hall : mockedOps.all importsNothing = true := by decide +kernel
  intro op hop hbrings
  have hone := List.all_eq_true.1 hall op hop
  cases op with
  | importSessions exchanges => cases hone
  | loadData map => cases hone
  | _ => exact hbrings.elim

theorem complete_iff_mocked :
    ∃ ctx exchange, mockingEngine.startedExchange mockingWorld mockedRequest none ⟨[], true⟩ = some (.buffered, ctx) ∧
      mockedStore.exchanges.get? "inspection" = some exchange ∧
      (Complete exchange.flow ↔ ¬ Reopened mockingWorld.recording mockingRules ctx "inspection" ∧
        TerminalFits mockingEngine mockingWorld mockingRules mockedRequest none ctx 10 "inspection") := by
  have hexchange := (Option.some_get mocked_isSome).symm
  have hts : ((mockedOps.map fun op => (⟨fun _ => 0, op⟩ : TimedOp)).map TimedOp.op) = mockedOps := by
    rw [List.map_map]
    exact List.map_id mockedOps
  refine ⟨_, _, rfl, hexchange, ?_⟩
  refine complete_iff mocking_answersOnWire (fun _ _ _ h => by cases h) rfl 10 rfl ?_
    (congrArg (List.filter (WriteOp.concerns "inspection")) hts) hexchange mocked_responds
  intro t ht
  obtain ⟨op, hop, rfl⟩ := List.mem_map.1 ht
  exact mocked_brings_nothing op hop

/-- The trace of a mocked request does not end in its terminal event where a rule rewrites the response of the mock. -/
theorem not_complete :
    AnswersOnWire mockingWorld.recording.surroundings ∧
      ∃ exchange, mockedStore.exchanges.get? "inspection" = some exchange ∧ exchange.response.isSome = true ∧
        ¬ Complete exchange.flow := by
  refine ⟨mocking_answersOnWire, _, (Option.some_get mocked_isSome).symm, mocked_responds, fun h => ?_⟩
  obtain ⟨event, hlast, hterminal⟩ := h.last
  have hflow := congrArg List.getLast? mocked_flow
  rw [List.getLast?_map, hlast] at hflow
  have heq : (event.isReceived, event.isTerminal) = (false, false) := Option.some.inj hflow
  have hpassing : event.isTerminal = false := congrArg Prod.snd heq
  rw [hterminal] at hpassing
  cases hpassing

end Traces

end Oproxy
