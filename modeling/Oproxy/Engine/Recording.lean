import Oproxy.Engine.Exchange
import Oproxy.Engine.Production
import Oproxy.Middleware.Plugins.CaptureFilter
import Oproxy.Session.Store

/-!
# What the chain records (`middleware/plugins/inspection.rs`, `middleware/plugins/breakpoints.rs`)

Two middlewares enqueue sessions while a request goes through the chain: the breakpoints, which show the paused
request, and the inspection, which records a request that has no session yet.  The chain here is the whole request
side in the order in which the proxy registers it, and a run of it gives the operations it enqueues.
-/

namespace Oproxy

/-! ### What an operation says of sessions -/

/-- The session and the request which an operation records. -/
def WriteOp.recordedRequest : WriteOp → Option (Str × RequestContext)
  | .recordRequest id request _ => some (id, request)
  | _ => none

/-- The session to which an operation gives its response. -/
def WriteOp.respondsTo : WriteOp → Option Str
  | .recordResponse id _ => some id
  | .recordResponseWithMetrics id _ _ => some id
  | _ => none

def recordedRequests (ops : List WriteOp) : List (Str × RequestContext) := ops.filterMap WriteOp.recordedRequest

def respondedSessions (ops : List WriteOp) : List Str := ops.filterMap WriteOp.respondsTo

@[simp] theorem recordedRequests_nil : recordedRequests [] = [] := rfl

@[simp] theorem recordedRequests_append (ops ops' : List WriteOp) :
    recordedRequests (ops ++ ops') = recordedRequests ops ++ recordedRequests ops' := List.filterMap_append

@[simp] theorem respondedSessions_nil : respondedSessions [] = [] := rfl

@[simp] theorem respondedSessions_append (ops ops' : List WriteOp) :
    respondedSessions (ops ++ ops') = respondedSessions ops ++ respondedSessions ops' := List.filterMap_append

theorem recordedRequests_eq_nil {ops : List WriteOp} :
    recordedRequests ops = [] ↔ ∀ op ∈ ops, op.recordedRequest = none := List.filterMap_eq_nil_iff

theorem respondedSessions_eq_nil {ops : List WriteOp} :
    respondedSessions ops = [] ↔ ∀ op ∈ ops, op.respondsTo = none := List.filterMap_eq_nil_iff

@[simp] theorem recordedRequests_recordRequest (id : Str) (request : RequestContext) (source : SessionSource)
    (ops : List WriteOp) :
    recordedRequests (.recordRequest id request source :: ops) = (id, request) :: recordedRequests ops := rfl

@[simp] theorem respondedSessions_recordResponse (id : Str) (response : ResponseContext) (ops : List WriteOp) :
    respondedSessions (.recordResponse id response :: ops) = id :: respondedSessions ops := rfl

@[simp] theorem respondedSessions_recordResponseWithMetrics (id : Str) (response : ResponseContext)
    (metrics : InspectionMetrics) (ops : List WriteOp) :
    respondedSessions (.recordResponseWithMetrics id response metrics :: ops) = id :: respondedSessions ops := rfl

/-! ### Steps with a record -/

/-- A context on its way through the chain, with the operations enqueued so far. -/
structure Recording where
  ctx : RequestContext
  ops : List WriteOp

namespace Recording

/-- A middleware which enqueues operations. -/
def step (middleware : RequestContext → (RequestContext × MiddlewareAction) × List WriteOp) (r : Recording) :
    Recording × MiddlewareAction :=
  let ((ctx, action), ops) := middleware r.ctx
  (⟨ctx, r.ops ++ ops⟩, action)

/-- A middleware which enqueues nothing. -/
def plain (middleware : RequestContext → RequestContext × MiddlewareAction) :
    Recording → Recording × MiddlewareAction :=
  step fun ctx => (middleware ctx, [])

theorem step_eq (middleware : RequestContext → (RequestContext × MiddlewareAction) × List WriteOp) (r : Recording) :
    step middleware r = (⟨(middleware r.ctx).1.1, r.ops ++ (middleware r.ctx).2⟩, (middleware r.ctx).1.2) := rfl

theorem plain_eq (middleware : RequestContext → RequestContext × MiddlewareAction) (r : Recording) :
    plain middleware r = (⟨(middleware r.ctx).1, r.ops⟩, (middleware r.ctx).2) := by
  unfold plain
  rw [step_eq, List.append_nil]

end Recording

namespace MiddlewareChain

/-- A pass over two parts of a chain. -/
theorem execute_append {σ : Type} (before after : List (σ → σ × MiddlewareAction)) (state : σ) :
    execute (before ++ after) state =
      match execute before state with
      | (state', .proceed) => execute after state'
      | (state', .stopAndReturn) => (state', .stopAndReturn) := by
  induction before generalizing state with
  | nil => rfl
  | cons step before ih =>
    simp only [List.cons_append, execute]
    rcases step state with ⟨state', _ | _⟩
    · exact ih state'
    · rfl

/-- Middlewares which enqueue nothing leave the record as it is. -/
theorem execute_plain (middlewares : List (RequestContext → RequestContext × MiddlewareAction)) (r : Recording) :
    execute (middlewares.map Recording.plain) r =
      (⟨(execute middlewares r.ctx).1, r.ops⟩, (execute middlewares r.ctx).2) := by
  induction middlewares generalizing r with
  | nil => rfl
  | cons middleware middlewares ih =>
    simp only [List.map_cons, execute, Recording.plain_eq]
    rcases middleware r.ctx with ⟨ctx, _ | _⟩
    · exact ih ⟨ctx, r.ops⟩
    · rfl

end MiddlewareChain

/-! ### Breakpoints and inspection -/

namespace Breakpoints

/-- The session under which a paused request is shown. -/
def pausedSession (freshId : Str) (ctx : RequestContext) : Str := ctx.sessionId.getD freshId

/-- A request as it is recorded when a rule pauses it. -/
def shown (freshId : Str) (rule : BreakpointRule) (ctx : RequestContext) : RequestContext :=
  let ctx := { ctx with sessionId := some (pausedSession freshId ctx) }
  (ctx.pushFlow (.ruleMatched .breakpoint rule.id "breakpoint")).pushFlow
    (.ruleApplied .breakpoint rule.id "breakpoint" "paused request")

/-- What a pause of a request enqueues; `breakpointId` is the id under which the pause waits for its answer. -/
def pauseOps (regex : RegexEngine) (rules : List BreakpointRule) (freshId breakpointId : Str) (ctx : RequestContext) :
    List WriteOp :=
  match firstMatch regex rules .request (MatchTarget.fromRequest ctx) with
  | none => []
  | some rule =>
    let sessionId := pausedSession freshId ctx
    [.recordRequest sessionId (shown freshId rule ctx) .proxy, .markPaused sessionId,
      .appendEvent sessionId (.breakpointPaused breakpointId), .clearPaused sessionId]

theorem recordedRequests_pauseOps (regex : RegexEngine) (rules : List BreakpointRule) (freshId breakpointId : Str)
    (ctx : RequestContext) :
    recordedRequests (pauseOps regex rules freshId breakpointId ctx) =
      ((firstMatch regex rules .request (MatchTarget.fromRequest ctx)).map fun rule =>
        (pausedSession freshId ctx, shown freshId rule ctx)).toList := by
  unfold pauseOps
  cases firstMatch regex rules .request (MatchTarget.fromRequest ctx) <;> rfl

/-- A paused request with what is enqueued for it. -/
def recordedOnRequest (regex : RegexEngine) (rules : List BreakpointRule) (answer : RequestContext → BreakpointAnswer)
    (freshId breakpointId : Str) (ctx : RequestContext) : (RequestContext × MiddlewareAction) × List WriteOp :=
  (onRequest regex rules answer freshId ctx, pauseOps regex rules freshId breakpointId ctx)

/-- What a pause of a response enqueues. -/
def responsePauseOps (regex : RegexEngine) (rules : List BreakpointRule) (breakpointId : Str) (ctx : ResponseContext) :
    List WriteOp :=
  match firstMatch regex rules .response (MatchTarget.fromResponse ctx), ctx.sessionId with
  | some _, some sessionId =>
    [.markPaused sessionId, .appendEvent sessionId (.breakpointPaused breakpointId), .clearPaused sessionId]
  | _, _ => []

theorem onRequest_of_none {regex : RegexEngine} {rules : List BreakpointRule}
    {answer : RequestContext → BreakpointAnswer}
    {freshId : Str} {ctx : RequestContext} (h : firstMatch regex rules .request (MatchTarget.fromRequest ctx) = none) :
    onRequest regex rules answer freshId ctx = (ctx, .proceed) := by
  unfold onRequest
  rw [h]

/-- A paused request goes on as the operator says; what he is shown has a session. -/
theorem onRequest_of_firstMatch {regex : RegexEngine} {rules : List BreakpointRule}
    {answer : RequestContext → BreakpointAnswer} {freshId : Str} {ctx : RequestContext} {rule : BreakpointRule}
    (h : firstMatch regex rules .request (MatchTarget.fromRequest ctx) = some rule) :
    onRequest regex rules answer freshId ctx =
      match answer (shown freshId rule ctx).takeFlow.2 with
      | .proceed => ((shown freshId rule ctx).takeFlow.2.pushFlow
          (.ruleApplied .breakpoint rule.id "breakpoint" "continued request"), .proceed)
      | .modifyRequest newCtx => (newCtx.pushFlow
          (.ruleApplied .breakpoint rule.id "breakpoint" "modified request and continued"), .proceed)
      | .modifyResponse _ => ((shown freshId rule ctx).takeFlow.2, .stopAndReturn)
      | .drop => ((shown freshId rule ctx).takeFlow.2, .stopAndReturn)
      | .closed => ((shown freshId rule ctx).takeFlow.2, .stopAndReturn)
      | .timedOut => (({ (shown freshId rule ctx).takeFlow.2 with mockResponse := some timeoutResponse }).pushFlow
          (.shortCircuited .breakpointTimeout 504 (some rule.id) (some "breakpoint")), .stopAndReturn) := by
  unfold onRequest
  rw [h]
  rfl

theorem onRequest_of_some {regex : RegexEngine} {rules : List BreakpointRule}
    {answer : RequestContext → BreakpointAnswer}
    {freshId : Str} {ctx ctx' : RequestContext} {rule : BreakpointRule}
    (h : firstMatch regex rules .request (MatchTarget.fromRequest ctx) = some rule) :
    onRequest regex rules answer freshId ctx = (ctx', .proceed) ↔
      (answer (shown freshId rule ctx).takeFlow.2 = .proceed ∧
        ctx' = (shown freshId rule ctx).takeFlow.2.pushFlow
          (.ruleApplied .breakpoint rule.id "breakpoint" "continued request")) ∨
      ∃ modified, answer (shown freshId rule ctx).takeFlow.2 = .modifyRequest modified ∧
        ctx' = modified.pushFlow (.ruleApplied .breakpoint rule.id "breakpoint" "modified request and continued") := by
  rw [onRequest_of_firstMatch h]
  cases answer (shown freshId rule ctx).takeFlow.2 <;> simp [eq_comm]

theorem respondedSessions_pauseOps (regex : RegexEngine) (rules : List BreakpointRule) (freshId breakpointId : Str)
    (ctx : RequestContext) : respondedSessions (pauseOps regex rules freshId breakpointId ctx) = [] := by
  unfold pauseOps
  split <;> rfl

theorem recordedRequests_responsePauseOps (regex : RegexEngine) (rules : List BreakpointRule) (breakpointId : Str)
    (ctx : ResponseContext) : recordedRequests (responsePauseOps regex rules breakpointId ctx) = [] := by
  unfold responsePauseOps
  split <;> rfl

theorem respondedSessions_responsePauseOps (regex : RegexEngine) (rules : List BreakpointRule) (breakpointId : Str)
    (ctx : ResponseContext) : respondedSessions (responsePauseOps regex rules breakpointId ctx) = [] := by
  unfold responsePauseOps
  split <;> rfl

end Breakpoints

namespace Inspection

/-- Internal engine headers that must never appear in session recordings. -/
def internalHeaders : List String :=
  ["x-oproxy-session-id", "x-oproxy-destination", "x-oproxy-mock-response", "x-oproxy-tags",
   "x-oproxy-grpc-direction", "x-oproxy-grpc-compressed", "x-oproxy-frame-direction", "x-oproxy-frame-opcode",
   "x-oproxy-admin-token"]

def stripInternalHeaders (headers : HeaderMap) : HeaderMap :=
  headers.retain fun name _ => !(internalHeaders.map String.toList).contains name.trim.toAsciiLowercase

/-- Whether a context is to get a session. -/
def opens (ctx : RequestContext) : Bool := ctx.sessionId.isNone && !ctx.skipRecording

/-- A context with its new session; what the inspectors have found goes to the session. -/
def opened (freshId : Str) (ctx : RequestContext) : RequestContext :=
  { ctx with inspector := ⟨none, none, none⟩, sessionId := some freshId }

def inspectorOps (freshId : Str) (inspector : InspectorData) : List WriteOp :=
  if inspector.jwt.isSome || inspector.graphql.isSome || inspector.grpc.isSome then
    [.updateInspectorData freshId inspector]
  else []

/-- `freshId` is the id of the session which is made up where the context has none. -/
def onRequest (freshId : Str) (ctx : RequestContext) : (RequestContext × MiddlewareAction) × List WriteOp :=
  if ctx.sessionId.isSome then ((ctx, .proceed), [])
  else if ctx.skipRecording then ((ctx, .proceed), [])
  else
    let recorded := { opened freshId ctx with headers := stripInternalHeaders ctx.headers }
    (((opened freshId ctx).takeFlow.2, .proceed),
      .recordRequest freshId recorded .proxy :: inspectorOps freshId ctx.inspector)

theorem onRequest_of_opens {freshId : Str} {ctx : RequestContext} (h : opens ctx = true) :
    onRequest freshId ctx = (((opened freshId ctx).takeFlow.2, .proceed),
      .recordRequest freshId { opened freshId ctx with headers := stripInternalHeaders ctx.headers } .proxy ::
        inspectorOps freshId ctx.inspector) := by
  unfold opens at h
  rw [Bool.and_eq_true, Option.isNone_iff_eq_none, Bool.not_eq_true'] at h
  unfold onRequest
  rw [h.1, h.2]
  rfl

theorem onRequest_of_not_opens {freshId : Str} {ctx : RequestContext} (h : opens ctx = false) :
    onRequest freshId ctx = ((ctx, .proceed), []) := by
  unfold opens at h
  unfold onRequest
  cases hsession : ctx.sessionId with
  | some id => rfl
  | none =>
    rw [hsession] at h
    have hskip : ctx.skipRecording = true := by simpa using h
    rw [hskip]
    rfl

theorem recordedRequests_onRequest (freshId : Str) (ctx : RequestContext) :
    recordedRequests (onRequest freshId ctx).2 =
      if opens ctx then [(freshId, { opened freshId ctx with headers := stripInternalHeaders ctx.headers })]
      else [] := by
  cases hopens : opens ctx with
  | false =>
    rw [onRequest_of_not_opens hopens]
    rfl
  | true =>
    rw [onRequest_of_opens hopens]
    unfold inspectorOps
    split <;> rfl

theorem respondedSessions_onRequest (freshId : Str) (ctx : RequestContext) :
    respondedSessions (onRequest freshId ctx).2 = [] := by
  cases hopens : opens ctx with
  | false => rw [onRequest_of_not_opens hopens, respondedSessions_nil]
  | true =>
    rw [onRequest_of_opens hopens]
    unfold inspectorOps
    split <;> rfl

end Inspection

/-! ### The whole chain -/

/-- What the recording chain uses of the world outside: what the plugins use, the lower-casing of text, what the JWT,
GraphQL and gRPC inspectors find in a request, and the ids which are made up on the way. -/
structure RecordingWorld where
  surroundings : Surroundings
  lowercase : Str → Str
  inspect : RequestContext → InspectorData
  breakpointId : Str
  inspectionId : Str
  responsePassId : Str

structure RecordingRules where
  filter : CaptureFilterConfig
  production : ProductionRules

namespace RecordingRules

variable (world : RecordingWorld) (rules : RecordingRules)

/-- The middlewares before the breakpoints.  Throttling, which has its place among them, only delays. -/
def admission : List (RequestContext → RequestContext × MiddlewareAction) :=
  [AccessControl.onRequest world.surroundings.regex rules.production.routing.access,
   CaptureFilter.onRequest world.lowercase rules.filter,
   DnsOverride.onRequest rules.production.routing.dns,
   MapRemote.onRequest world.surroundings.regex rules.production.routing.mapRemote,
   UnifiedRewrite.onRequest world.surroundings.regex rules.production.routing.rewrite]

def pause : RequestContext → (RequestContext × MiddlewareAction) × List WriteOp :=
  Breakpoints.recordedOnRequest world.surroundings.regex rules.production.breakpoints
    world.surroundings.onPausedRequest world.surroundings.freshId world.breakpointId

/-- The three inspectors. -/
def inspectors (ctx : RequestContext) : RequestContext × MiddlewareAction :=
  ({ ctx with inspector := world.inspect ctx }, .proceed)

/-- The middlewares behind the inspection. -/
def answering : List (RequestContext → RequestContext × MiddlewareAction) :=
  [MapLocal.onRequest world.surroundings.fs world.surroundings.regex world.surroundings.dirs rules.production.mapLocal,
   Mock.onRequest world.surroundings.regex world.surroundings.decodeBase64 rules.production.mocks,
   LuaEngine.onRequest world.surroundings.vm rules.production.scripts]

/-- The request side of the chain, in its order. -/
def chain : List (Recording → Recording × MiddlewareAction) :=
  (rules.admission world).map Recording.plain ++
    [Recording.step (rules.pause world), Recording.plain (inspectors world),
     Recording.step (Inspection.onRequest world.inspectionId)] ++
    (rules.answering world).map Recording.plain ++
    [Recording.step (Inspection.onRequest world.responsePassId)]

def run (ctx : RequestContext) : Recording × MiddlewareAction := MiddlewareChain.execute (rules.chain world) ⟨ctx, []⟩

/-- The context at the breakpoints, where a request gets that far. -/
def admitted (ctx : RequestContext) : RequestContext × MiddlewareAction :=
  MiddlewareChain.execute (rules.admission world) ctx

/-- The context behind the breakpoints. -/
def paused (ctx : RequestContext) : RequestContext × MiddlewareAction := (rules.pause world ctx).1

/-- The context behind the inspection, with what the inspection enqueues. -/
def inspected (ctx : RequestContext) : (RequestContext × MiddlewareAction) × List WriteOp :=
  Inspection.onRequest world.inspectionId (inspectors world ctx).1

/-- What becomes of a context behind the inspection. -/
def answered (ctx : RequestContext) : RequestContext × MiddlewareAction :=
  MiddlewareChain.execute (rules.answering world) ctx

variable {world rules}

/-- The context at the breakpoints has the session of the request, and the filter's mark for the host which the
request came with. -/
theorem admitted_channel {ctx ctx₁ : RequestContext} (h : rules.admitted world ctx = (ctx₁, .proceed)) :
    ctx₁.sessionId = ctx.sessionId ∧
      ctx₁.skipRecording = (rules.filter.shouldSkip world.lowercase ctx.host || ctx.skipRecording) := by
  have hrest : ∀ marked : RequestContext,
      (MiddlewareChain.execute [DnsOverride.onRequest rules.production.routing.dns,
        MapRemote.onRequest world.surroundings.regex rules.production.routing.mapRemote,
        UnifiedRewrite.onRequest world.surroundings.regex rules.production.routing.rewrite] marked).1.sessionId =
          marked.sessionId ∧
      (MiddlewareChain.execute [DnsOverride.onRequest rules.production.routing.dns,
        MapRemote.onRequest world.surroundings.regex rules.production.routing.mapRemote,
        UnifiedRewrite.onRequest world.surroundings.regex rules.production.routing.rewrite] marked).1.skipRecording =
          marked.skipRecording := by
    intro marked
    refine MiddlewareChain.execute_induction (P := fun after : RequestContext => after.sessionId = marked.sessionId ∧
      after.skipRecording = marked.skipRecording) ?_ ⟨rfl, rfl⟩
    intro step hstep after hafter
    simp only [List.mem_cons, List.not_mem_nil, or_false] at hstep
    rcases hstep with rfl | rfl | rfl
    · rw [DnsOverride.onRequest_frame]
      exact hafter
    · rw [MapRemote.onRequest_frame]
      exact hafter
    · have hkept := UnifiedRewrite.onRequest_channel world.surroundings.regex rules.production.routing.rewrite after
      exact ⟨hkept.1.trans hafter.1, hkept.2.1.trans hafter.2⟩
  unfold admitted admission at h
  rcases AccessControl.onRequest_cases world.surroundings.regex rules.production.routing.access ctx with hcase | hcase
  · have hmarked :=
      hrest { ctx with skipRecording := rules.filter.shouldSkip world.lowercase ctx.host || ctx.skipRecording }
    unfold MiddlewareChain.execute at h
    rw [hcase] at h
    dsimp only at h
    unfold MiddlewareChain.execute at h
    rw [CaptureFilter.onRequest_eq] at h
    dsimp only at h
    rw [h] at hmarked
    exact hmarked
  · unfold MiddlewareChain.execute at h
    rw [hcase] at h
    cases h

theorem inspected_proceeds (ctx : RequestContext) : (inspected world ctx).1.2 = .proceed := by
  unfold inspected Inspection.onRequest
  split
  · rfl
  · split <;> rfl

/-- Behind the inspection no context asks for a session. -/
theorem not_opens_inspected (ctx : RequestContext) : Inspection.opens (inspected world ctx).1.1 = false := by
  unfold inspected
  cases hopens : Inspection.opens (inspectors world ctx).1 with
  | false => rw [Inspection.onRequest_of_not_opens hopens, hopens]
  | true =>
    rw [Inspection.onRequest_of_opens hopens]
    rfl

/-- The middlewares behind the inspection leave the session as it is. -/
theorem opens_answered (ctx : RequestContext) :
    Inspection.opens (rules.answered world ctx).1 = Inspection.opens ctx := by
  have hkept : (rules.answered world ctx).1.sessionId = ctx.sessionId ∧
      (rules.answered world ctx).1.skipRecording = ctx.skipRecording := by
    refine MiddlewareChain.execute_induction (P := fun after : RequestContext => after.sessionId = ctx.sessionId ∧
      after.skipRecording = ctx.skipRecording) ?_ ⟨rfl, rfl⟩
    intro step hstep after hafter
    unfold answering at hstep
    simp only [List.mem_cons, List.not_mem_nil, or_false] at hstep
    rcases hstep with rfl | rfl | rfl
    · have h := MapLocal.onRequest_channel world.surroundings.fs world.surroundings.regex world.surroundings.dirs
        rules.production.mapLocal after
      exact ⟨h.1.trans hafter.1, h.2.1.trans hafter.2⟩
    · have h := Mock.onRequest_channel world.surroundings.regex world.surroundings.decodeBase64 rules.production.mocks
        after
      exact ⟨h.1.trans hafter.1, h.2.1.trans hafter.2⟩
    · have h := LuaEngine.onRequest_channel world.surroundings.vm rules.production.scripts after
      exact ⟨h.1.trans hafter.1, h.2.1.trans hafter.2⟩
  unfold Inspection.opens
  rw [hkept.1, hkept.2]

/-- A run, stage by stage. -/
theorem run_eq (ctx : RequestContext) :
    rules.run world ctx =
      match rules.admitted world ctx with
      | (ctx, .stopAndReturn) => (⟨ctx, []⟩, .stopAndReturn)
      | (ctx, .proceed) =>
        match rules.paused world ctx with
        | (ctx', .stopAndReturn) => (⟨ctx', (rules.pause world ctx).2⟩, .stopAndReturn)
        | (ctx', .proceed) =>
          (⟨(rules.answered world (inspected world ctx').1.1).1, (rules.pause world ctx).2 ++ (inspected world ctx').2⟩,
            (rules.answered world (inspected world ctx').1.1).2) := by
  -- behind the first inspection the chain records nothing more
  have hplain : ∀ ctx₁ : RequestContext, ∀ ops, MiddlewareChain.execute ((rules.answering world).map Recording.plain ++
      [Recording.step (Inspection.onRequest world.responsePassId)]) ⟨(inspected world ctx₁).1.1, ops⟩ =
        (⟨(rules.answered world (inspected world ctx₁).1.1).1, ops⟩,
          (rules.answered world (inspected world ctx₁).1.1).2) := by
    intro ctx₁ ops
    rw [MiddlewareChain.execute_append, MiddlewareChain.execute_plain]
    -- the second pass of the inspection finds a session, or a context which is not to be recorded
    have hkept : Inspection.opens (rules.answered world (inspected world ctx₁).1.1).1 = false := by
      rw [opens_answered, not_opens_inspected]
    unfold answered at hkept ⊢
    rcases hrun : MiddlewareChain.execute (rules.answering world) (inspected world ctx₁).1.1 with ⟨ctx₂, _ | _⟩
    · rw [hrun] at hkept
      simp only [MiddlewareChain.execute, Recording.step_eq, Inspection.onRequest_of_not_opens hkept, List.append_nil]
    · rfl
  unfold run chain
  rw [List.append_assoc, List.append_assoc, MiddlewareChain.execute_append, MiddlewareChain.execute_plain]
  unfold admitted
  rcases MiddlewareChain.execute (rules.admission world) ctx with ⟨ctx₁, _ | _⟩
  · have hpause : Recording.step (rules.pause world) ⟨ctx₁, []⟩ =
        (⟨(rules.paused world ctx₁).1, (rules.pause world ctx₁).2⟩, (rules.paused world ctx₁).2) := by
      rw [Recording.step_eq, List.nil_append]
      rfl
    simp only [List.cons_append, List.nil_append, MiddlewareChain.execute, hpause]
    rcases rules.paused world ctx₁ with ⟨ctx₂, _ | _⟩
    · have hinspectors : Recording.plain (inspectors world) ⟨ctx₂, (rules.pause world ctx₁).2⟩ =
          (⟨(inspectors world ctx₂).1, (rules.pause world ctx₁).2⟩, .proceed) := Recording.plain_eq _ _
      have hinspection : Recording.step (Inspection.onRequest world.inspectionId)
          ⟨(inspectors world ctx₂).1, (rules.pause world ctx₁).2⟩ =
            (⟨(inspected world ctx₂).1.1, (rules.pause world ctx₁).2 ++ (inspected world ctx₂).2⟩, .proceed) := by
        have hproceeds : (inspected world ctx₂).1.2 = .proceed := inspected_proceeds ctx₂
        rw [Recording.step_eq, ← hproceeds]
        rfl
      simp only [hinspectors, hinspection]
      exact hplain ctx₂ _
    · rfl
  · rfl

/-- What a run records is recorded at a breakpoint or by the inspection. -/
theorem mem_recordedRequests_run (ctx : RequestContext) (entry : Str × RequestContext) :
    entry ∈ recordedRequests (rules.run world ctx).1.ops ↔
      ∃ ctx₁, rules.admitted world ctx = (ctx₁, .proceed) ∧
        (entry ∈ recordedRequests (rules.pause world ctx₁).2 ∨
          ∃ ctx₂, rules.paused world ctx₁ = (ctx₂, .proceed) ∧
            entry ∈ recordedRequests (inspected world ctx₂).2) := by
  rw [run_eq]
  rcases rules.admitted world ctx with ⟨ctx₁, _ | _⟩
  · rcases hpaused : rules.paused world ctx₁ with ⟨ctx₂, _ | _⟩
    · simp only [hpaused, recordedRequests_append, List.mem_append]
      constructor
      · rintro (h | h)
        · exact ⟨ctx₁, rfl, Or.inl h⟩
        · exact ⟨ctx₁, rfl, Or.inr ⟨ctx₂, hpaused, h⟩⟩
      · rintro ⟨ctx₁', heq, h⟩
        cases heq
        rcases h with h | ⟨ctx₂', heq, h⟩
        · exact Or.inl h
        · rw [hpaused] at heq
          cases heq
          exact Or.inr h
    · simp only [hpaused]
      constructor
      · exact fun h => ⟨ctx₁, rfl, Or.inl h⟩
      · rintro ⟨ctx₁', heq, h⟩
        cases heq
        rcases h with h | ⟨ctx₂', heq, -⟩
        · exact h
        · rw [hpaused] at heq
          cases heq
  · simp

/-- A run gives no session its response. -/
theorem respondedSessions_run (ctx : RequestContext) : respondedSessions (rules.run world ctx).1.ops = [] := by
  have hpause : ∀ ctx₁, respondedSessions (rules.pause world ctx₁).2 = [] := by
    intro ctx₁
    exact Breakpoints.respondedSessions_pauseOps _ _ _ _ _
  have hinspected : ∀ ctx₂, respondedSessions (inspected world ctx₂).2 = [] := by
    intro ctx₂
    exact Inspection.respondedSessions_onRequest _ _
  rw [run_eq]
  rcases rules.admitted world ctx with ⟨ctx₁, _ | _⟩
  · rcases hpaused : rules.paused world ctx₁ with ⟨ctx₂, _ | _⟩
    · simp only [hpaused, respondedSessions_append, hpause, hinspected, List.append_nil]
    · simp only [hpaused, hpause]
  · rfl

end RecordingRules

/-! ### Answers of the engine's own -/

/-- What the session store shows of its sessions, and the clock. -/
structure StoreView where
  getSession : Str → Option Exchange
  now : Timestamp

namespace ProxyEngine

/-- What the response chain starts from where a middleware has answered. -/
def interceptedContext (intercepted : InterceptedResponse) (request : RequestContext) (displayUri host method : Str)
    (ownsRecording : Bool) : ResponseContext :=
  { ResponseContext.default with
    status := intercepted.status
    headers := intercepted.headers
    body := intercepted.body
    requestUri := displayUri
    sessionId := request.sessionId
    tags := intercepted.tags
    requestHost := host
    requestMethod := method
    protocolContext := request.protocolContext
    terminalRecordingPending := ownsRecording }.extendFlow request.flow

theorem respondToIntercepted_context (chain : List Middleware) (intercepted : InterceptedResponse)
    (request : RequestContext) (displayUri host method : Str) (ownsRecording : Bool) :
    respondToIntercepted chain intercepted request displayUri host method ownsRecording =
      match MiddlewareChain.executeResponse chain
        (interceptedContext intercepted request displayUri host method ownsRecording) with
      | (ctx, .proceed) =>
        finish ((Http.statusCode ctx.status).getD 200) ctx.headers.entries ctx.body [] (textResponse 500 "mock error")
      | (_, .stopAndReturn) => stoppedByMiddleware "Response" := rfl

/-- The size of a response: what its head declares where there is no body. -/
def recordedResponseSize (response : ResponseContext) : Nat :=
  if response.body.isEmpty then
    ((headerValue response.headers "content-length").bind (Str.parseUnsigned usizeMax)).getD 0
  else response.body.length

/-- The milliseconds between two points in time, as a `u64`. -/
def latencyMs (now timestamp : Timestamp) : Nat := (Int.tdiv (now - timestamp) 1000000 % 2 ^ 64).toNat

/-- The tags of a session with those of its response. -/
def mergeTags (existing tags : List Str) : List Str := tags.foldl UnifiedRewrite.pushTagOnce existing

def recordShortCircuitResponse (view : StoreView) (response : ResponseContext) : List WriteOp :=
  match response.sessionId with
  | none => []
  | some sessionId =>
    match view.getSession sessionId with
    | none => [.recordResponse sessionId response]
    | some session =>
      if session.response.isSome then []
      else
        let metrics : InspectionMetrics :=
          { latencyMs := latencyMs view.now session.timestamp
            requestSizeBytes := session.request.body.length
            responseSizeBytes := recordedResponseSize response
            statusCode := response.status
            ttfbMs := response.ttfbMs
            bodyMs := response.bodyMs
            dnsMs := none
            tcpConnectMs := none
            tlsMs := none
            protocol := none }
        .recordResponseWithMetrics sessionId response metrics ::
          if response.tags.isEmpty then []
          else [.annotate sessionId none (some (mergeTags session.tags response.tags))]

end ProxyEngine

namespace RecordingRules

variable (world : RecordingWorld) (rules : RecordingRules)

/-- What the pause of a response enqueues; the scripts are in front of the breakpoints. -/
def responsePauseOps (response : ResponseContext) : List WriteOp :=
  match LuaEngine.onResponse world.surroundings.vm rules.production.scripts response with
  | (ctx, .proceed) =>
    Breakpoints.responsePauseOps world.surroundings.regex rules.production.breakpoints world.breakpointId ctx
  | (_, .stopAndReturn) => []

/-- What `respond_to_intercepted` enqueues. -/
def interceptedOps (view : StoreView) (intercepted : InterceptedResponse) (request : RequestContext)
    (displayUri host method : Str) : List WriteOp :=
  let response := ProxyEngine.interceptedContext intercepted request displayUri host method true
  rules.responsePauseOps world response ++
    match MiddlewareChain.executeResponse (rules.production.chain world.surroundings) response with
    | (ctx, .proceed) =>
      ProxyEngine.recordShortCircuitResponse view ctx ++
        match ctx.sessionId, intercepted.servedMock with
        | some sessionId, some servedMock =>
          [.appendEvent sessionId (.mockServed servedMock.ruleId servedMock.behavior)]
        | _, _ => []
    | (_, .stopAndReturn) => []

/-- `execute_request_middleware`: what is left of the request, and the answer where the chain has one. -/
def executeRequestMiddleware (view : StoreView) (ctx : RequestContext) (displayUri host method : Str) :
    Recording × Option ClientResponse :=
  match rules.run world ctx with
  | (after, .proceed) => (after, none)
  | (after, .stopAndReturn) =>
    match after.ctx.mockResponse with
    | some intercepted =>
      (⟨after.ctx, after.ops ++ rules.interceptedOps world view intercepted after.ctx displayUri host method⟩,
        some (ProxyEngine.respondToIntercepted (rules.production.chain world.surroundings) intercepted after.ctx
          displayUri host method true))
    | none => (after, some (ProxyEngine.stoppedByMiddleware "Request"))

variable {world rules}

/-- A response which is recorded records no request. -/
theorem recordedRequests_recordShortCircuitResponse (view : StoreView) (response : ResponseContext) :
    recordedRequests (ProxyEngine.recordShortCircuitResponse view response) = [] := by
  unfold ProxyEngine.recordShortCircuitResponse
  split
  · rfl
  · split
    · rfl
    · split
      · rfl
      · dsimp only
        split <;> rfl

theorem recordedRequests_interceptedOps (view : StoreView) (intercepted : InterceptedResponse)
    (request : RequestContext) (displayUri host method : Str) :
    recordedRequests (rules.interceptedOps world view intercepted request displayUri host method) = [] := by
  have hpause : ∀ response, recordedRequests (rules.responsePauseOps world response) = [] := by
    intro response
    unfold responsePauseOps
    split
    · exact Breakpoints.recordedRequests_responsePauseOps _ _ _ _
    · rfl
  unfold interceptedOps
  rw [recordedRequests_append, hpause, List.nil_append]
  split
  · rw [recordedRequests_append, recordedRequests_recordShortCircuitResponse, List.nil_append]
    split <;> rfl
  · rfl

/-- A session without a response gets the one which is recorded for it. -/
theorem mem_respondedSessions_recordShortCircuitResponse {view : StoreView} {id : Str}
    (hopen : ∀ session, view.getSession id = some session → session.response = none) (response : ResponseContext) :
    id ∈ respondedSessions (ProxyEngine.recordShortCircuitResponse view response) ↔ response.sessionId = some id := by
  unfold ProxyEngine.recordShortCircuitResponse
  cases hsession : response.sessionId with
  | none => simp
  | some sessionId =>
    dsimp only
    rw [Option.some.injEq]
    cases hview : view.getSession sessionId with
    | none =>
      dsimp only
      rw [respondedSessions_recordResponse, respondedSessions_nil, List.mem_singleton]
      exact eq_comm
    | some session =>
      dsimp only
      by_cases hresponse : session.response.isSome = true
      · rw [if_pos hresponse]
        constructor
        · intro h
          cases h
        · intro heq
          rw [heq] at hview
          rw [hopen session hview] at hresponse
          cases hresponse
      · rw [if_neg hresponse]
        have htags : ∀ c : Bool, ∀ annotation, respondedSessions (if c = true then []
            else [WriteOp.annotate sessionId none annotation]) = [] := by
          intro c annotation
          cases c <;> rfl
        rw [respondedSessions_recordResponseWithMetrics, htags, List.mem_singleton]
        exact eq_comm

/-- An answer of a middleware's own reaches a session exactly where the response chain lets it pass under that
session. -/
theorem mem_respondedSessions_interceptedOps {view : StoreView} {id : Str}
    (hopen : ∀ session, view.getSession id = some session → session.response = none) (intercepted : InterceptedResponse)
    (request : RequestContext) (displayUri host method : Str) :
    id ∈ respondedSessions (rules.interceptedOps world view intercepted request displayUri host method) ↔
      ∃ response, MiddlewareChain.executeResponse (rules.production.chain world.surroundings)
        (ProxyEngine.interceptedContext intercepted request displayUri host method true) = (response, .proceed) ∧
          response.sessionId = some id := by
  have hpause : ∀ response, respondedSessions (rules.responsePauseOps world response) = [] := by
    intro response
    unfold responsePauseOps
    split
    · exact Breakpoints.respondedSessions_responsePauseOps _ _ _ _
    · rfl
  have hserved : ∀ response : ResponseContext, respondedSessions (match response.sessionId, intercepted.servedMock with
      | some sessionId, some servedMock =>
        [.appendEvent sessionId (.mockServed servedMock.ruleId servedMock.behavior)]
      | _, _ => []) = [] := by
    intro response
    split <;> rfl
  unfold interceptedOps
  rw [respondedSessions_append, hpause, List.nil_append]
  rcases MiddlewareChain.executeResponse (rules.production.chain world.surroundings)
    (ProxyEngine.interceptedContext intercepted request displayUri host method true) with ⟨response, _ | _⟩
  · dsimp only
    rw [respondedSessions_append, hserved, List.append_nil, mem_respondedSessions_recordShortCircuitResponse hopen]
    constructor
    · exact fun h => ⟨response, rfl, h⟩
    · rintro ⟨_, heq, h⟩
      cases heq
      exact h
  · dsimp only
    constructor
    · intro h
      cases h
    · rintro ⟨_, heq, -⟩
      cases heq

/-- An answer of a middleware's own records no further request. -/
theorem recordedRequests_executeRequestMiddleware (view : StoreView) (ctx : RequestContext)
    (displayUri host method : Str) :
    recordedRequests (rules.executeRequestMiddleware world view ctx displayUri host method).1.ops =
      recordedRequests (rules.run world ctx).1.ops := by
  unfold executeRequestMiddleware
  rcases rules.run world ctx with ⟨after, _ | _⟩
  · rfl
  · dsimp only
    split
    · rw [recordedRequests_append, recordedRequests_interceptedOps, List.append_nil]
    · rfl

end RecordingRules

end Oproxy
