import Oproxy.ControlPlane.Forward

/-!
# What the errors of Compose say (`control_plane/forward.rs`)

A refusal says that no session was recorded, and a session which was recorded gets a response.  Three steps behind the
recording of the session break this: the second parser of the URL, the egress check of the resolved target, and the
client request of a WebSocket.  A fourth way is a breakpoint: a request which the operator has modified has lost its
session, and the chain opens a second one.
-/

namespace Oproxy

namespace Forward

/-! ### What an exchange enqueues -/

/-- A refusal has recorded nothing, and every recorded session has a response. -/
structure Honest (ops : List WriteOp) (refused : Prop) : Prop where
  refusal : refused → recordedRequests ops = []
  answered : ∀ entry ∈ recordedRequests ops, entry.1 ∈ respondedSessions ops

def Refused (result : Except ForwardFailure ForwardResp) : Prop :=
  ∃ error, result = .error (.badRequest error) ∨ result = .error (.egressBlocked error)

def RefusedWs (result : Except ForwardWsFailure ForwardWsResp) : Prop :=
  ∃ error, result = .error (.badRequest error) ∨ result = .error (.egressBlocked error)

theorem honest_nil (refused : Prop) : Honest [] refused := ⟨fun _ => rfl, by simp⟩

variable {world : ComposeWorld}

/-- Operations which record nothing. -/
private def Silent (ops : List WriteOp) : Prop := recordedRequests ops = []

private theorem silent_annotateOps (id : Str) (note : Option Str) (tags : Option (List Str)) :
    Silent (annotateOps id note tags) ∧ respondedSessions (annotateOps id note tags) = [] := by
  unfold annotateOps Silent
  split <;> exact ⟨rfl, rfl⟩

theorem recordedRequests_openingOps (req : ForwardReq) (url : Url) :
    recordedRequests (openingOps world req url) = [(world.sessionId, requestContext world req url)] := by
  unfold openingOps
  rw [recordedRequests_recordRequest, recordedRequests_append, (silent_annotateOps _ _ _).1]
  split <;> rfl

theorem respondedSessions_openingOps (req : ForwardReq) (url : Url) :
    respondedSessions (openingOps world req url) = [] := by
  have hannotate := (silent_annotateOps world.sessionId req.note req.tags).2
  unfold openingOps
  show respondedSessions (_ ++ _) = []
  rw [respondedSessions_append, hannotate]
  split <;> rfl

/-- What the exchange with the upstream enqueues is the response of the session. -/
theorem perform_ops (req : ForwardReq) (url : Url) (request : Option ClientRequest) :
    recordedRequests (perform world req url request).1 = [] ∧
      respondedSessions (perform world req url request).1 = [world.sessionId] := by
  have hmessages : ∀ messages : List (Bool × Nat), ∀ ops,
      recordedRequests (messages.map (fun m => .appendEvent world.sessionId
        (.grpcMessage "response" (grpcMessage "response" m.1 m.2))) ++ ops) = recordedRequests ops ∧
      respondedSessions (messages.map (fun m => .appendEvent world.sessionId
        (.grpcMessage "response" (grpcMessage "response" m.1 m.2))) ++ ops) = respondedSessions ops := by
    intro messages ops
    induction messages with
    | nil => exact ⟨rfl, rfl⟩
    | cons m messages ih => exact ih
  unfold perform
  split
  · dsimp only
    rw [(hmessages _ _).1, (hmessages _ _).2]
    exact ⟨rfl, rfl⟩
  · exact ⟨rfl, rfl⟩

theorem perform_not_refused (req : ForwardReq) (url : Url) (request : Option ClientRequest) :
    ¬ Refused (perform world req url request).2 := by
  rintro ⟨error, h⟩
  unfold perform at h
  split at h
  · rcases h with h | h <;> cases h
  · rcases h with h | h <;> cases h

/-! ### A modified request -/

/-- The operator's answer to a paused request is a request without a session, which goes on. -/
structure Replaced (world : RecordingWorld) (rules : RecordingRules) (start ctx : RequestContext)
    (rule : BreakpointRule) (modified : RequestContext) : Prop where
  admitted : rules.admitted world start = (ctx, .proceed)
  pauses : Breakpoints.firstMatch world.surroundings.regex rules.production.breakpoints .request
    (MatchTarget.fromRequest ctx) = some rule
  answer : world.surroundings.onPausedRequest
    (Breakpoints.shown world.surroundings.freshId rule ctx).takeFlow.2 = .modifyRequest modified
  opens : Inspection.opens modified = true

/-- Behind the breakpoints only a modified request is without a session. -/
theorem opens_paused_iff {recording : RecordingWorld} {rules : RecordingRules} {start ctx : RequestContext}
    (hadmitted : rules.admitted recording start = (ctx, .proceed)) (hsession : start.sessionId.isSome = true) :
    (∃ ctx', rules.paused recording ctx = (ctx', .proceed) ∧ Inspection.opens ctx' = true) ↔
      ∃ rule modified, Replaced recording rules start ctx rule modified := by
  have hkept : ctx.sessionId.isSome = true := by
    rw [(RecordingRules.admitted_channel hadmitted).1]
    exact hsession
  have hclosed : ∀ after : RequestContext, after.sessionId.isSome = true → Inspection.opens after = false := by
    intro after hsome
    unfold Inspection.opens
    rw [Option.isNone_eq_false_iff.2 hsome, Bool.false_and]
  have hpaused : rules.paused recording ctx = Breakpoints.onRequest recording.surroundings.regex
      rules.production.breakpoints recording.surroundings.onPausedRequest recording.surroundings.freshId ctx := rfl
  rw [hpaused]
  cases hmatch : Breakpoints.firstMatch recording.surroundings.regex rules.production.breakpoints .request
      (MatchTarget.fromRequest ctx) with
  | none =>
    rw [Breakpoints.onRequest_of_none hmatch]
    constructor
    · rintro ⟨_, heq, hopens⟩
      cases heq
      rw [hclosed ctx hkept] at hopens
      cases hopens
    · rintro ⟨rule, modified, hreplaced⟩
      have hpauses := hreplaced.pauses
      rw [hmatch] at hpauses
      cases hpauses
  | some rule =>
    constructor
    · rintro ⟨_, heq, hopens⟩
      rcases (Breakpoints.onRequest_of_some hmatch).1 heq with ⟨-, rfl⟩ | ⟨modified, hanswer, rfl⟩
      · rw [hclosed _ rfl] at hopens
        cases hopens
      · exact ⟨rule, modified, hadmitted, hmatch, hanswer, hopens⟩
    · rintro ⟨rule', modified, hreplaced⟩
      have hpauses := hreplaced.pauses
      rw [hmatch] at hpauses
      cases hpauses
      exact ⟨_, (Breakpoints.onRequest_of_some hmatch).2 (Or.inr ⟨modified, hreplaced.answer, rfl⟩), hreplaced.opens⟩

/-- At some breakpoint the operator has answered with a request without a session. -/
def Detached (world : RecordingWorld) (rules : RecordingRules) (start : RequestContext) : Prop :=
  ∃ ctx rule modified, Replaced world rules start ctx rule modified

/-- The sessions of a run which starts with a session: that one, and a second one for a modified request. -/
theorem session_of_recorded {recording : RecordingWorld} {rules : RecordingRules} {start : RequestContext} {id : Str}
    (hsession : start.sessionId = some id) {entry : Str × RequestContext}
    (hentry : entry ∈ recordedRequests (rules.run recording start).1.ops) :
    entry.1 = id ∨ (entry.1 = recording.inspectionId ∧ Detached recording rules start) := by
  obtain ⟨ctx, hadmitted, hpause | ⟨ctx', hpaused, hinspected⟩⟩ :=
    (RecordingRules.mem_recordedRequests_run start entry).1 hentry
  · have hctx : ctx.sessionId = some id := (RecordingRules.admitted_channel hadmitted).1.trans hsession
    unfold RecordingRules.pause Breakpoints.recordedOnRequest at hpause
    rw [Breakpoints.recordedRequests_pauseOps, Option.mem_toList, Option.map_eq_some_iff] at hpause
    obtain ⟨rule, -, rfl⟩ := hpause
    left
    unfold Breakpoints.pausedSession
    rw [hctx]
    rfl
  · unfold RecordingRules.inspected at hinspected
    rw [Inspection.recordedRequests_onRequest] at hinspected
    split at hinspected
    · rename_i hopens
      have hsome : start.sessionId.isSome = true := by
        rw [hsession]
        rfl
      obtain ⟨rule, modified, hreplaced⟩ := (opens_paused_iff hadmitted hsome).1 ⟨ctx', hpaused, hopens⟩
      rw [List.mem_singleton.1 hinspected]
      exact Or.inr ⟨rfl, ctx, rule, modified, hreplaced⟩
    · cases hinspected

theorem recorded_of_detached {recording : RecordingWorld} {rules : RecordingRules} {start : RequestContext} {id : Str}
    (hsession : start.sessionId = some id) (h : Detached recording rules start) :
    ∃ request, (recording.inspectionId, request) ∈ recordedRequests (rules.run recording start).1.ops := by
  obtain ⟨ctx, rule, modified, hreplaced⟩ := h
  have hsome : start.sessionId.isSome = true := by
    rw [hsession]
    rfl
  obtain ⟨ctx', hpaused, hopens⟩ := (opens_paused_iff hreplaced.admitted hsome).2 ⟨rule, modified, hreplaced⟩
  obtain ⟨request, hrequest⟩ : ∃ request,
      (recording.inspectionId, request) ∈ recordedRequests (RecordingRules.inspected recording ctx').2 := by
    unfold RecordingRules.inspected
    rw [Inspection.recordedRequests_onRequest,
      if_pos (show Inspection.opens (RecordingRules.inspectors recording ctx').1 = true from hopens)]
    exact ⟨_, List.mem_singleton_self _⟩
  exact ⟨request, (RecordingRules.mem_recordedRequests_run start _).2
    ⟨ctx, hreplaced.admitted, Or.inr ⟨ctx', hpaused, hrequest⟩⟩⟩

/-! ### When the errors are honest -/

/-- The condition on a request which goes through the rules.  A request which a breakpoint has detached from its
session is answered by a middleware, and the response chain lets the answer pass under the second session.  The
second parser reads the URL of a request which goes on, and its target passes the second check. -/
structure Settles (world : ComposeWorld) (req : ForwardReq) (url : Url) : Prop where
  attached : Detached world.recording world.rules (requestContext world req url) →
    ∃ after intercepted response,
      world.rules.run world.recording (requestContext world req url) = (after, .stopAndReturn) ∧
      after.ctx.mockResponse = some intercepted ∧
      MiddlewareChain.executeResponse (world.rules.production.chain world.recording.surroundings)
        (ProxyEngine.interceptedContext intercepted after.ctx req.url (requestContext world req url).host
          (requestContext world req url).method true) = (response, .proceed) ∧
      response.sessionId = some world.recording.inspectionId
  routable : ∀ after, world.rules.run world.recording (requestContext world req url) = (after, .proceed) →
    ∃ uri, world.parseUri req.url = .ok uri ∧
      ∀ sent upstream resolved, world.engine.prepareUpstream (fun text => (world.parse text).toOption) after.ctx uri
        req.url = (sent, .ok upstream) →
        world.parse upstream.url = .ok resolved → checkEgress world 1 resolved = .ok ()

section Http

variable {req : ForwardReq} {url : Url}

/-- An exchange which ends with a response of its session is honest exactly where the second session, if there is
one, has its response. -/
theorem honest_closed_iff (hfresh : world.recording.inspectionId ≠ world.sessionId) {mid closing : List WriteOp}
    {refused : Prop}
    (hmid : recordedRequests mid =
      recordedRequests (world.rules.run world.recording (requestContext world req url)).1.ops)
    (hclosing : recordedRequests closing = [] ∧ respondedSessions closing = [world.sessionId]) (hresult : ¬ refused) :
    Honest (openingOps world req url ++ mid ++ closing) refused ↔
      (Detached world.recording world.rules (requestContext world req url) →
        world.recording.inspectionId ∈ respondedSessions mid) := by
  have hsession : (requestContext world req url).sessionId = some world.sessionId := rfl
  have hrecorded : recordedRequests (openingOps world req url ++ mid ++ closing) =
      (world.sessionId, requestContext world req url) :: recordedRequests mid := by
    rw [recordedRequests_append, recordedRequests_append, recordedRequests_openingOps, hclosing.1, List.append_nil]
    rfl
  have hresponded : respondedSessions (openingOps world req url ++ mid ++ closing) =
      respondedSessions mid ++ [world.sessionId] := by
    rw [respondedSessions_append, respondedSessions_append, respondedSessions_openingOps, hclosing.2, List.nil_append]
  constructor
  · intro h hdetached
    obtain ⟨request, hrequest⟩ := recorded_of_detached hsession hdetached
    have hanswered := h.answered (world.recording.inspectionId, request) (by
      rw [hrecorded, hmid]
      exact List.mem_cons_of_mem _ hrequest)
    rw [hresponded, List.mem_append, List.mem_singleton] at hanswered
    exact hanswered.resolve_right hfresh
  · intro h
    refine ⟨fun hrefused => absurd hrefused hresult, ?_⟩
    intro entry hentry
    rw [hrecorded, hmid] at hentry
    rw [hresponded, List.mem_append, List.mem_singleton]
    rcases List.mem_cons.1 hentry with rfl | hentry
    · exact Or.inr rfl
    · rcases session_of_recorded hsession hentry with heq | ⟨heq, hdetached⟩
      · exact Or.inr heq
      · rw [heq]
        exact Or.inl (h hdetached)

/-- A refusal behind the recording is not honest. -/
theorem not_honest_of_opening {mid : List WriteOp} {refused : Prop} (hresult : refused) :
    ¬ Honest (openingOps world req url ++ mid) refused := by
  intro h
  have hnone := h.refusal hresult
  rw [recordedRequests_append, recordedRequests_openingOps] at hnone
  cases hnone

/-! An exchange behind the recording ends as its target is resolved. -/

theorem forwardHttpExchange_of_failed {ops : List WriteOp} {failure : ForwardFailure}
    (hvalid : validate world req = .ok url) (hresolve : resolveTarget world req url = (ops, .failed failure)) :
    forwardHttpExchange world req = (openingOps world req url ++ ops, .error failure) := by
  unfold forwardHttpExchange
  simp only [hvalid, hresolve]

theorem forwardHttpExchange_of_answered {ops : List WriteOp} {response : ClientResponse}
    (hvalid : validate world req = .ok url) (hresolve : resolveTarget world req url = (ops, .answered response)) :
    forwardHttpExchange world req =
      (openingOps world req url ++ ops ++ (shortCircuitToForwardResp world req response).1,
        .ok (shortCircuitToForwardResp world req response).2) := by
  unfold forwardHttpExchange
  simp only [hvalid, hresolve]

theorem forwardHttpExchange_of_handed {ops : List WriteOp} {request : Option ClientRequest}
    (hvalid : validate world req = .ok url) (hresolve : resolveTarget world req url = (ops, .handed request)) :
    forwardHttpExchange world req =
      (openingOps world req url ++ ops ++ (perform world req url request).1, (perform world req url request).2) := by
  unfold forwardHttpExchange
  simp only [hvalid, hresolve]

/-- A request which goes out as it was composed is honest. -/
theorem honest_literal (hliteral : req.applyProxyRules = false) (hvalid : validate world req = .ok url) :
    Honest (forwardHttpExchange world req).1 (Refused (forwardHttpExchange world req).2) := by
  have hresolve : resolveTarget world req url =
      ([], .handed ((literalHeaders req).map (buildRequest req req.url))) := by
    unfold resolveTarget
    rw [hliteral]
    rfl
  have hperform := @perform_ops world req url ((literalHeaders req).map (buildRequest req req.url))
  rw [forwardHttpExchange_of_handed hvalid hresolve, List.append_nil]
  refine ⟨fun hrefused => absurd hrefused (perform_not_refused req url _), ?_⟩
  rw [recordedRequests_append, recordedRequests_openingOps, hperform.1, respondedSessions_append,
    respondedSessions_openingOps, hperform.2]
  intro entry hentry
  rw [List.mem_singleton.1 hentry]
  exact List.mem_singleton_self _

theorem shortCircuit_ops (req : ForwardReq) (response : ClientResponse) :
    recordedRequests (shortCircuitToForwardResp world req response).1 = [] ∧
      respondedSessions (shortCircuitToForwardResp world req response).1 = [world.sessionId] := ⟨rfl, rfl⟩

theorem not_refused_ok (resp : ForwardResp) : ¬ Refused (.ok resp) := by
  rintro ⟨error, h | h⟩ <;> cases h

/-- A request which a middleware has answered. -/
theorem honest_stopped_iff (hfresh : world.recording.inspectionId ≠ world.sessionId)
    (hopen : ∀ session, world.view.getSession world.recording.inspectionId = some session → session.response = none)
    (hrules : req.applyProxyRules = true) (hvalid : validate world req = .ok url) {after : Recording}
    (hrun : world.rules.run world.recording (requestContext world req url) = (after, .stopAndReturn)) :
    Honest (forwardHttpExchange world req).1 (Refused (forwardHttpExchange world req).2) ↔ Settles world req url := by
  have hroutable : ∀ after', world.rules.run world.recording (requestContext world req url) = (after', .proceed) →
      False := by
    intro after' h
    rw [hrun] at h
    cases h
  have hsilent : respondedSessions after.ops = [] := by
    have h := @RecordingRules.respondedSessions_run world.recording world.rules (requestContext world req url)
    rw [hrun] at h
    exact h
  -- without an answer of its own the engine responds, and no response chain runs
  cases hanswer : after.ctx.mockResponse with
  | none =>
    have hresolve : resolveTarget world req url =
        (after.ops, .answered (ProxyEngine.stoppedByMiddleware "Request")) := by
      unfold resolveTarget
      simp only [hrules, if_true, RecordingRules.executeRequestMiddleware, hrun, hanswer]
    rw [forwardHttpExchange_of_answered hvalid hresolve,
      honest_closed_iff hfresh (by rw [hrun]) (shortCircuit_ops req _) (not_refused_ok _), hsilent]
    constructor
    · intro h
      exact ⟨fun hdetached => absurd (h hdetached) List.not_mem_nil,
        fun after' hproceed => absurd hproceed (hroutable after')⟩
    · intro h hdetached
      obtain ⟨after', intercepted, response, hrun', hsome, -⟩ := h.attached hdetached
      rw [hrun] at hrun'
      cases hrun'
      rw [hanswer] at hsome
      cases hsome
  | some intercepted =>
    have hmiddleware : world.rules.executeRequestMiddleware world.recording world.view (requestContext world req url)
        req.url (requestContext world req url).host (requestContext world req url).method =
        (⟨after.ctx, after.ops ++ world.rules.interceptedOps world.recording world.view intercepted after.ctx req.url
          (requestContext world req url).host (requestContext world req url).method⟩,
          some (ProxyEngine.respondToIntercepted (world.rules.production.chain world.recording.surroundings) intercepted
            after.ctx req.url (requestContext world req url).host (requestContext world req url).method true)) := by
      unfold RecordingRules.executeRequestMiddleware
      simp only [hrun, hanswer]
    have hresolve : resolveTarget world req url =
        (after.ops ++ world.rules.interceptedOps world.recording world.view intercepted after.ctx req.url
          (requestContext world req url).host (requestContext world req url).method,
          .answered (ProxyEngine.respondToIntercepted (world.rules.production.chain world.recording.surroundings)
            intercepted after.ctx req.url (requestContext world req url).host (requestContext world req url).method
            true)) := by
      unfold resolveTarget
      simp only [hrules, if_true, hmiddleware]
    rw [forwardHttpExchange_of_answered hvalid hresolve, honest_closed_iff hfresh (by
        rw [hrun, recordedRequests_append, RecordingRules.recordedRequests_interceptedOps, List.append_nil])
      (shortCircuit_ops req _) (not_refused_ok _), respondedSessions_append, hsilent, List.nil_append,
      RecordingRules.mem_respondedSessions_interceptedOps hopen]
    constructor
    · intro h
      refine ⟨?_, fun after' hproceed => absurd hproceed (hroutable after')⟩
      intro hdetached
      obtain ⟨response, hresponse, hid⟩ := h hdetached
      exact ⟨after, intercepted, response, hrun, hanswer, hresponse, hid⟩
    · intro h hdetached
      obtain ⟨after', intercepted', response, hrun', hanswer', hresponse, hid⟩ := h.attached hdetached
      rw [hrun] at hrun'
      cases hrun'
      rw [hanswer] at hanswer'
      cases hanswer'
      exact ⟨response, hresponse, hid⟩

/-- A request which goes on to target resolution is not detached, where it settles. -/
private theorem settles_of_proceed {after : Recording}
    (hrun : world.rules.run world.recording (requestContext world req url) = (after, .proceed)) :
    Settles world req url ↔
      ¬ Detached world.recording world.rules (requestContext world req url) ∧
        ∃ uri, world.parseUri req.url = .ok uri ∧
          ∀ sent upstream resolved, world.engine.prepareUpstream (fun text => (world.parse text).toOption) after.ctx uri
            req.url = (sent, .ok upstream) →
            world.parse upstream.url = .ok resolved → checkEgress world 1 resolved = .ok () := by
  constructor
  · intro h
    refine ⟨?_, h.routable after hrun⟩
    intro hdetached
    obtain ⟨after', -, -, hrun', -⟩ := h.attached hdetached
    rw [hrun] at hrun'
    cases hrun'
  · rintro ⟨hattached, hroutable⟩
    refine ⟨fun hdetached => absurd hdetached hattached, ?_⟩
    intro after' hrun'
    rw [hrun] at hrun'
    cases hrun'
    exact hroutable

/-- A request which the rules let pass. -/
theorem resolveTarget_of_proceed {after : Recording} (hrules : req.applyProxyRules = true)
    (hmiddleware : world.rules.executeRequestMiddleware world.recording world.view (requestContext world req url)
      req.url
      (requestContext world req url).host (requestContext world req url).method = (after, none)) :
    resolveTarget world req url =
      match world.parseUri req.url with
      | .error e => (after.ops, .failed (.badRequest (("Invalid URL for routing resolution: " : Str) ++ e)))
      | .ok uri =>
        match world.engine.prepareUpstream (fun text => (world.parse text).toOption) after.ctx uri req.url with
        | (_, .error refusal) => (after.ops, .answered (ProxyEngine.Refusal.response refusal))
        | (_, .ok upstream) =>
          match world.parse upstream.url with
          | .error _ => (after.ops, .handed (some (buildRequest req upstream.url upstream.headers)))
          | .ok resolved =>
            match checkEgress world 1 resolved with
            | .error e => (after.ops, .failed (.egressBlocked e))
            | .ok () => (after.ops, .handed (some (buildRequest req upstream.url upstream.headers))) := by
  unfold resolveTarget
  rw [if_pos hrules]
  dsimp only
  rewrite [hmiddleware]
  rfl

theorem honest_proceeding_iff (hfresh : world.recording.inspectionId ≠ world.sessionId)
    (hrules : req.applyProxyRules = true) (hvalid : validate world req = .ok url) {after : Recording}
    (hrun : world.rules.run world.recording (requestContext world req url) = (after, .proceed)) :
    Honest (forwardHttpExchange world req).1 (Refused (forwardHttpExchange world req).2) ↔ Settles world req url := by
  have hmid : recordedRequests after.ops =
      recordedRequests (world.rules.run world.recording (requestContext world req url)).1.ops := by rw [hrun]
  have hsilent : respondedSessions after.ops = [] := by
    have h := @RecordingRules.respondedSessions_run world.recording world.rules (requestContext world req url)
    rw [hrun] at h
    exact h
  have hmiddleware : world.rules.executeRequestMiddleware world.recording world.view (requestContext world req url)
      req.url (requestContext world req url).host (requestContext world req url).method = (after, none) := by
    unfold RecordingRules.executeRequestMiddleware
    simp only [hrun]
  -- behind the chain an exchange either ends with a response of its session or with a refusal
  have hclosed : ∀ closing result, recordedRequests closing = [] ∧ respondedSessions closing = [world.sessionId] →
      ¬ Refused result → forwardHttpExchange world req = (openingOps world req url ++ after.ops ++ closing, result) →
      (Honest (forwardHttpExchange world req).1 (Refused (forwardHttpExchange world req).2) ↔
        ¬ Detached world.recording world.rules (requestContext world req url)) := by
    intro closing result hclosing hresult heq
    rw [heq, honest_closed_iff hfresh hmid hclosing hresult, hsilent]
    exact ⟨fun h hdetached => absurd (h hdetached) List.not_mem_nil, fun h hdetached => absurd hdetached h⟩
  -- a refusal behind the chain always leaves the session which opened the exchange
  have hrefused : ∀ failure, Refused (.error failure) → resolveTarget world req url = (after.ops, .failed failure) →
      ¬ Honest (forwardHttpExchange world req).1 (Refused (forwardHttpExchange world req).2) := by
    intro failure hresult hresolve
    rw [forwardHttpExchange_of_failed hvalid hresolve]
    exact not_honest_of_opening hresult
  have hresolve := resolveTarget_of_proceed hrules hmiddleware
  rw [settles_of_proceed hrun]
  cases huri : world.parseUri req.url with
  | error e =>
    rw [huri] at hresolve
    constructor
    · exact fun h => absurd h (hrefused _ ⟨_, Or.inl rfl⟩ hresolve)
    · rintro ⟨-, uri, heq, -⟩
      cases heq
  | ok uri =>
    rw [huri] at hresolve
    -- where the target passes the second check, or there is none, only a detached request is left without an answer
    have hpasses : (∀ sent upstream resolved, world.engine.prepareUpstream (fun text => (world.parse text).toOption)
        after.ctx uri req.url = (sent, .ok upstream) → world.parse upstream.url = .ok resolved →
        checkEgress world 1 resolved = .ok ()) →
        (Honest (forwardHttpExchange world req).1 (Refused (forwardHttpExchange world req).2) ↔
          ¬ Detached world.recording world.rules (requestContext world req url)) →
        (Honest (forwardHttpExchange world req).1 (Refused (forwardHttpExchange world req).2) ↔
          ¬ Detached world.recording world.rules (requestContext world req url) ∧
            ∃ uri', (Except.ok uri : Except Str Http.Uri) = .ok uri' ∧
              ∀ sent upstream resolved, world.engine.prepareUpstream (fun text => (world.parse text).toOption) after.ctx
                uri' req.url = (sent, .ok upstream) →
                world.parse upstream.url = .ok resolved → checkEgress world 1 resolved = .ok ()) := by
      intro hegress hiff
      rw [hiff]
      exact ⟨fun h => ⟨h, uri, rfl, hegress⟩, fun h => h.1⟩
    rcases htarget : world.engine.prepareUpstream (fun text => (world.parse text).toOption) after.ctx uri req.url with
      ⟨sent, refusal | upstream⟩
    · dsimp only at hresolve
      rw [htarget] at hresolve
      refine hpasses ?_ (hclosed _ _ (shortCircuit_ops req _) (not_refused_ok _)
        (forwardHttpExchange_of_answered hvalid hresolve))
      intro sent' upstream resolved heq
      rw [htarget] at heq
      cases heq
    · dsimp only at hresolve
      rw [htarget] at hresolve
      dsimp only at hresolve
      have hhanded : resolveTarget world req url =
          (after.ops, .handed (some (buildRequest req upstream.url upstream.headers))) →
          (Honest (forwardHttpExchange world req).1 (Refused (forwardHttpExchange world req).2) ↔
            ¬ Detached world.recording world.rules (requestContext world req url)) := by
        intro heq
        exact hclosed _ _ (perform_ops req url _) (perform_not_refused req url _)
          (forwardHttpExchange_of_handed hvalid heq)
      -- a resolved target which does not parse is sent to the client without the second check
      cases hparse : world.parse upstream.url with
      | error e =>
        rw [hparse] at hresolve
        refine hpasses ?_ (hhanded hresolve)
        intro sent' upstream' resolved heq hresolved
        rw [htarget] at heq
        cases heq
        rw [hparse] at hresolved
        cases hresolved
      | ok resolved =>
        rw [hparse] at hresolve
        dsimp only at hresolve
        cases hegress : checkEgress world 1 resolved with
        | error e =>
          rw [hegress] at hresolve
          constructor
          · exact fun h => absurd h (hrefused _ ⟨e, Or.inr rfl⟩ hresolve)
          · rintro ⟨-, uri', heq, hroutable⟩
            cases heq
            have hpass := hroutable sent upstream resolved htarget hparse
            rw [hegress] at hpass
            cases hpass
        | ok passed =>
          rw [hegress] at hresolve
          refine hpasses ?_ (hhanded hresolve)
          intro sent' upstream' resolved' heq hresolved
          rw [htarget] at heq
          cases heq
          rw [hparse] at hresolved
          cases hresolved
          exact hegress

theorem honest_http_iff (hfresh : world.recording.inspectionId ≠ world.sessionId)
    (hopen : ∀ session, world.view.getSession world.recording.inspectionId = some session → session.response = none)
    (req : ForwardReq) :
    Honest (forwardHttpExchange world req).1 (Refused (forwardHttpExchange world req).2) ↔
      ∀ url, validate world req = .ok url → req.applyProxyRules = true → Settles world req url := by
  cases hvalid : validate world req with
  | error failure =>
    constructor
    · intro _ url heq
      cases heq
    · intro _
      unfold forwardHttpExchange
      rw [hvalid]
      exact honest_nil _
  | ok url =>
    have honly : (∀ url', (Except.ok url : Except ForwardFailure Url) = .ok url' → req.applyProxyRules = true →
        Settles world req url') ↔ (req.applyProxyRules = true → Settles world req url) := by
      constructor
      · exact fun h => h url rfl
      · intro h url' heq
        cases heq
        exact h
    rw [honly]
    cases hrules : req.applyProxyRules with
    | false => exact ⟨fun _ h => absurd h (by decide), fun _ => honest_literal hrules hvalid⟩
    | true =>
      rcases hrun : world.rules.run world.recording (requestContext world req url) with ⟨after, _ | _⟩
      · rw [honest_proceeding_iff hfresh hrules hvalid hrun]
        exact ⟨fun h _ => h, fun h => h rfl⟩
      · rw [honest_stopped_iff hfresh hopen hrules hvalid hrun]
        exact ⟨fun h _ => h, fun h => h rfl⟩

end Http

/-! ### WebSocket -/

section WebSocket

variable (req : ForwardWsReq)

private theorem recordWsMessage_ops (time : Timestamp) (direction : WsDirection) (message : WsMessage) :
    Silent (recordWsMessage world time direction message).1 ∧
      respondedSessions (recordWsMessage world time direction message).1 = [] := by
  unfold recordWsMessage Silent
  cases recordedMessage message <;> exact ⟨rfl, rfl⟩

private theorem sendFrames_ops (upstream : WsUpstream) (i : Nat) (frames : List ForwardWsFrameReq) :
    Silent (sendFrames world upstream i frames).1 ∧ respondedSessions (sendFrames world upstream i frames).1 = [] := by
  induction frames generalizing i with
  | nil => exact ⟨rfl, rfl⟩
  | cons frame frames ih =>
    have hrecord := @recordWsMessage_ops world (world.frameTime i) .clientToServer (websocketMessage frame)
    have hnext := ih (i + 1)
    unfold sendFrames
    dsimp only
    cases upstream.sendError i with
    | some error => exact hrecord
    | none =>
      unfold Silent at hrecord hnext ⊢
      dsimp only
      rw [recordedRequests_append, respondedSessions_append, hrecord.1, hrecord.2, hnext.1, hnext.2]
      exact ⟨rfl, rfl⟩

private theorem collectReplies_ops (sent count : Nat) (replies : List WsReply) :
    Silent (collectReplies world sent count replies).1 ∧
      respondedSessions (collectReplies world sent count replies).1 = [] := by
  induction replies generalizing count with
  | nil => exact ⟨rfl, rfl⟩
  | cons reply replies ih =>
    cases reply with
    | error error => exact ⟨rfl, rfl⟩
    | message message =>
      have hrecord := @recordWsMessage_ops world (world.frameTime (sent + count)) .serverToClient message
      have hnext := ih (count + 1)
      unfold collectReplies
      dsimp only
      split
      · exact hrecord
      · split
        · exact hrecord
        · unfold Silent at hrecord hnext ⊢
          dsimp only
          rw [recordedRequests_append, respondedSessions_append, hrecord.1, hrecord.2, hnext.1, hnext.2]
          exact ⟨rfl, rfl⟩

/-- An exchange over a connection ends with a response of its session, and is never refused. -/
theorem wsExchange_ops (url : Url) (upstream : WsUpstream) :
    recordedRequests (wsExchange world req url upstream).1 = [] ∧
      respondedSessions (wsExchange world req url upstream).1 = [world.sessionId] ∧
      ¬ RefusedWs (wsExchange world req url upstream).2 := by
  have hsent := @sendFrames_ops world upstream 0 req.frames
  have hreceived := @collectReplies_ops world req.frames.length 0 upstream.replies
  unfold Silent at hsent hreceived
  unfold wsExchange
  rcases hsend : sendFrames world upstream 0 req.frames with ⟨ops, sent, _ | error⟩
  · rw [hsend] at hsent
    rcases hcollect : collectReplies world req.frames.length 0 upstream.replies with ⟨ops', received, _ | error⟩
    · rw [hcollect] at hreceived
      dsimp only at hsent hreceived ⊢
      simp only [recordedRequests_append, respondedSessions_append, hsent.1, hsent.2, hreceived.1, hreceived.2]
      refine ⟨rfl, rfl, ?_⟩
      rintro ⟨error, h | h⟩ <;> cases h
    · rw [hcollect] at hreceived
      dsimp only at hsent hreceived ⊢
      simp only [recordedRequests_append, respondedSessions_append, hsent.1, hsent.2, hreceived.1, hreceived.2]
      refine ⟨rfl, rfl, ?_⟩
      rintro ⟨error, h | h⟩ <;> cases h
  · rw [hsend] at hsent
    dsimp only at hsent ⊢
    simp only [recordedRequests_append, respondedSessions_append, hsent.1, hsent.2]
    refine ⟨rfl, rfl, ?_⟩
    rintro ⟨error, h | h⟩ <;> cases h

theorem honest_ws_iff :
    Honest (forwardWebsocketExchange world req).1 (RefusedWs (forwardWebsocketExchange world req).2) ↔
      ∀ url, validateWs world req = .ok url → ∃ headers, world.intoClientRequest req.url = .ok headers := by
  cases hvalid : validateWs world req with
  | error failure =>
    constructor
    · intro _ url heq
      cases heq
    · intro _
      unfold forwardWebsocketExchange
      rw [hvalid]
      exact honest_nil _
  | ok url =>
    have hannotate := silent_annotateOps world.sessionId req.note req.tags
    unfold Silent at hannotate
    cases hrequest : world.intoClientRequest req.url with
    | error e =>
      have hexchange : forwardWebsocketExchange world req =
          (.recordRequest world.sessionId (wsRequestContext world req url) .adminForward ::
            annotateOps world.sessionId req.note req.tags, .error (.badRequest e)) := by
        unfold forwardWebsocketExchange
        simp only [hvalid, hrequest]
      rw [hexchange]
      constructor
      · intro h
        have hnone := h.refusal ⟨e, Or.inl rfl⟩
        cases hnone
      · intro h
        obtain ⟨headers, heq⟩ := h url rfl
        cases heq
    | ok headers =>
      refine ⟨fun _ _ _ => ⟨headers, rfl⟩, fun _ => ?_⟩
      -- once the handshake request is built, refused and finished connections both close the session
      obtain ⟨closing, result, hclosing, hresponded, hresult, hexchange⟩ : ∃ closing result,
          recordedRequests closing = [] ∧ respondedSessions closing = [world.sessionId] ∧ ¬ RefusedWs result ∧
          forwardWebsocketExchange world req =
            (.recordRequest world.sessionId (wsRequestContext world req url) .adminForward ::
              annotateOps world.sessionId req.note req.tags ++ closing, result) := by
        unfold forwardWebsocketExchange
        simp only [hvalid, hrequest]
        cases world.connect (handshakeHeaders req headers) with
        | error error =>
          refine ⟨_, _, rfl, rfl, ?_, rfl⟩
          rintro ⟨error', h | h⟩ <;> cases h
        | ok upstream =>
          have hops := @wsExchange_ops world req url upstream
          exact ⟨_, _, hops.1, hops.2.1, hops.2.2, rfl⟩
      rw [hexchange]
      refine ⟨fun hrefused => absurd hrefused hresult, ?_⟩
      rw [List.cons_append, recordedRequests_recordRequest, recordedRequests_append, hannotate.1, hclosing]
      intro entry hentry
      rw [List.mem_singleton.1 hentry]
      show world.sessionId ∈ respondedSessions (annotateOps world.sessionId req.note req.tags ++ closing)
      rw [respondedSessions_append, hannotate.2, hresponded]
      exact List.mem_singleton_self _

end WebSocket

/-- The ids of new sessions are new: they differ, and no session of the store has one with a response. -/
structure FreshIds (world : ComposeWorld) : Prop where
  distinct : world.recording.inspectionId ≠ world.sessionId
  unanswered : ∀ session, world.view.getSession world.recording.inspectionId = some session → session.response = none

theorem composeErrors_iff (hfresh : FreshIds world) (req : ForwardReq) (reqWs : ForwardWsReq) :
    (Honest (forwardHttpExchange world req).1 (Refused (forwardHttpExchange world req).2) ↔
      ∀ url, validate world req = .ok url → req.applyProxyRules = true → Settles world req url) ∧
    (Honest (forwardWebsocketExchange world reqWs).1 (RefusedWs (forwardWebsocketExchange world reqWs).2) ↔
      ∀ url, validateWs world reqWs = .ok url → ∃ headers, world.intoClientRequest reqWs.url = .ok headers) :=
  ⟨honest_http_iff hfresh.distinct hfresh.unanswered req, honest_ws_iff reqWs⟩

/-! ### A blank in the path -/

private def blankUrl (scheme : String) : Url := .ofHost scheme "api.test" "/a%20b" (Eq.refl true)

/-- The URL library takes a blank in a path, the HTTP library does not. -/
private def blankWorld : ComposeWorld where
  recording := ⟨Surroundings.bare, Str.toAsciiLowercase, fun _ => ⟨none, none, none⟩, "bp", "inspection", "pass"⟩
  rules := ⟨⟨.disabled, []⟩, ProductionRules.empty⟩
  engine := ⟨10485760, 524288, 8080, "127.0.0.1", [], none⟩
  policy := ⟨false⟩
  parse text :=
    if text = ("http://api.test/a b" : Str) then .ok (blankUrl "http")
    else if text = ("ws://api.test/a b" : Str) then .ok (blankUrl "ws")
    else .error "relative URL without a base"
  parseUri _ := .error "invalid uri character"
  setScheme _ _ := some (blankUrl "http")
  intoClientRequest _ := .error "invalid uri character"
  resolve _ _ _ := none
  addressText _ := []
  sessionId := "compose"
  send _ := .error ⟨"connection refused", 1⟩
  builderFailure := ⟨"builder error", 0⟩
  connect _ := .error "connection refused"
  view := ⟨fun _ => none, 0⟩
  frameTime _ := 0
  wsLatencyMs := 0

private def blankRequest : ForwardReq :=
  ⟨.http, "GET", "http://api.test/a b", IndexMap.empty, none, none, none, true⟩

private def blankWsRequest : ForwardWsReq := ⟨"ws://api.test/a b", IndexMap.empty, [], none, none⟩

private def literalRequest : ForwardReq :=
  ⟨.http, "GET", "http://api.test/a b", IndexMap.empty, none, none, none, false⟩

private theorem freshIds_blankWorld : FreshIds blankWorld where
  distinct := by
    show ("inspection" : Str) ≠ ("compose" : Str)
    decide
  unanswered := by
    intro session h
    have hnone : (none : Option Exchange) = some session := h
    cases hnone

/-- What is sent as it was composed is not read a second time. -/
theorem composeErrors_literal :
    Honest (forwardHttpExchange blankWorld literalRequest).1
      (Refused (forwardHttpExchange blankWorld literalRequest).2) :=
  (composeErrors_iff freshIds_blankWorld literalRequest blankWsRequest).1.2 fun _ _ hrules =>
    absurd (hrules : false = true) (by decide)

/-- Both requests are refused behind the recording of their sessions. -/
theorem not_composeErrors :
    ¬ Honest (forwardHttpExchange blankWorld blankRequest).1 (Refused (forwardHttpExchange blankWorld blankRequest).2) ∧
      ¬ Honest (forwardWebsocketExchange blankWorld blankWsRequest).1
        (RefusedWs (forwardWebsocketExchange blankWorld blankWsRequest).2) := by
  constructor
  · intro h
    have hnone := h.refusal ⟨_, Or.inl rfl⟩
    exact absurd (congrArg List.length hnone) (by decide +kernel)
  · intro h
    have hnone := h.refusal ⟨_, Or.inl rfl⟩
    exact absurd (congrArg List.length hnone) (by decide +kernel)

end Forward

end Oproxy
