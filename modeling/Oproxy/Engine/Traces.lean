import Oproxy.Engine.TerminalResponses
import Oproxy.Middleware.ContextWire
import Oproxy.Middleware.Traces
import Oproxy.Session.Traces

/-!
# The trace of an exchange (`core/engine/mod.rs`)

The request side of a trace is recorded with the request, the rest with the response.  What comes behind the request
chain pushes the events of the engine on the rest, and each of the three recorders of a response pushes or hands over
its terminal event.
-/

namespace Oproxy

namespace Traces

open Machine ProxyEngine EngineAct TerminalResponses

/-! ### What is recorded for a session -/

/-- The response which an operation records under an id. -/
def recordedUnder (id : Str) : WriteOp → Option ResponseContext
  | .recordResponse id' response => if id' = id then some response else none
  | .recordResponseWithMetrics id' response _ => if id' = id then some response else none
  | _ => none

def answers (id : Str) (ops : List WriteOp) : List ResponseContext := ops.filterMap (recordedUnder id)

variable {id : Str}

@[simp] theorem answers_nil : answers id [] = [] := rfl

@[simp] theorem answers_append (ops ops' : List WriteOp) :
    answers id (ops ++ ops') = answers id ops ++ answers id ops' :=
  List.filterMap_append

theorem mem_answers {response : ResponseContext} {ops : List WriteOp} :
    response ∈ answers id ops ↔ ∃ op ∈ ops, recordedUnder id op = some response := List.mem_filterMap

@[simp] theorem recordedUnder_recordResponse {id' : Str} {recorded response : ResponseContext} :
    recordedUnder id (.recordResponse id' recorded) = some response ↔ id' = id ∧ recorded = response :=
  Option.ite_none_right_eq_some.trans (and_congr_right fun _ => Option.some_inj)

@[simp] theorem recordedUnder_recordResponseWithMetrics {id' : Str} {recorded response : ResponseContext}
    {metrics : InspectionMetrics} :
    recordedUnder id (.recordResponseWithMetrics id' recorded metrics) = some response ↔
      id' = id ∧ recorded = response :=
  Option.ite_none_right_eq_some.trans (and_congr_right fun _ => Option.some_inj)

theorem recordedUnder_isSome_iff (op : WriteOp) : (recordedUnder id op).isSome = true ↔ op.respondsTo = some id := by
  cases op with
  | recordResponse id' response => by_cases h : id' = id <;> simp [recordedUnder, WriteOp.respondsTo, h]
  | recordResponseWithMetrics id' response metrics =>
    by_cases h : id' = id <;> simp [recordedUnder, WriteOp.respondsTo, h]
  | _ => simp [recordedUnder, WriteOp.respondsTo]

theorem answers_eq_nil_iff {ops : List WriteOp} : answers id ops = [] ↔ id ∉ respondedSessions ops := by
  unfold answers respondedSessions
  rw [List.filterMap_eq_nil_iff, List.mem_filterMap]
  constructor
  · rintro h ⟨op, hop, hid⟩
    have hnone := h op hop
    rw [← Option.not_isSome_iff_eq_none, recordedUnder_isSome_iff] at hnone
    exact hnone hid
  · intro h op hop
    rw [← Option.not_isSome_iff_eq_none, recordedUnder_isSome_iff]
    exact fun hid => h ⟨op, hop, hid⟩

theorem answers_of_none {ops : List WriteOp} (h : ∀ op ∈ ops, op.respondsTo = none) : answers id ops = [] := by
  rw [answers_eq_nil_iff, respondedSessions_eq_nil.2 h]
  exact List.not_mem_nil

theorem answers_take_subset (ops : List WriteOp) (n : Nat) : answers id (ops.take n) ⊆ answers id ops := by
  have hsplit := @answers_append id (ops.take n) (ops.drop n)
  rw [List.take_append_drop] at hsplit
  rw [hsplit]
  exact List.subset_append_left _ _

/-- Behind a request the first response is what counts. -/
theorem run_answers {ops : List WriteOp} (hops : recordedRequests ops = []) (opened : List RequestFlowEvent) :
    run (SessionTrace.step id) (some ⟨opened, false⟩) ops =
      match answers id ops with
      | [] => some ⟨opened, false⟩
      | response :: _ => some ⟨opened ++ response.flow, true⟩ := by
  have hanswered : ∀ (ops : List WriteOp) (flow : List RequestFlowEvent), recordedRequests ops = [] →
      run (SessionTrace.step id) (some ⟨flow, true⟩) ops = some ⟨flow, true⟩ := by
    intro ops flow
    induction ops with
    | nil => exact fun _ => rfl
    | cons op ops ih =>
      intro hops
      rw [recordedRequests_eq_nil, List.forall_mem_cons, ← recordedRequests_eq_nil] at hops
      have hkept : SessionTrace.step id (some ⟨flow, true⟩) op = some ⟨flow, true⟩ := by
        cases op with
        | recordRequest id' request source => cases hops.1
        | recordResponse id' response => exact ite_self _
        | recordResponseWithMetrics id' response metrics => exact ite_self _
        | _ => rfl
      rw [run_cons, hkept, ih hops.2]
  induction ops with
  | nil => rfl
  | cons op ops ih =>
    rw [recordedRequests_eq_nil, List.forall_mem_cons, ← recordedRequests_eq_nil] at hops
    rw [run_cons]
    cases hunder : recordedUnder id op with
    | some response =>
      have hfirst : answers id (op :: ops) = response :: answers id ops := List.filterMap_cons_some hunder
      have hstep : SessionTrace.step id (some ⟨opened, false⟩) op = some ⟨opened ++ response.flow, true⟩ := by
        cases op with
        | recordResponse id' response' =>
          obtain ⟨hid, heq⟩ := recordedUnder_recordResponse.1 hunder
          rw [← heq]
          exact if_pos hid
        | recordResponseWithMetrics id' response' metrics =>
          obtain ⟨hid, heq⟩ := recordedUnder_recordResponseWithMetrics.1 hunder
          rw [← heq]
          exact if_pos hid
        | _ => cases hunder
      rw [hstep, hanswered ops _ hops.2, hfirst]
    | none =>
      have hfirst : answers id (op :: ops) = answers id ops := List.filterMap_cons_none hunder
      have hstep : SessionTrace.step id (some ⟨opened, false⟩) op = some ⟨opened, false⟩ := by
        cases op with
        | recordRequest id' request source => cases hops.1
        | recordResponse id' response' => exact if_neg (by simpa [recordedUnder] using hunder)
        | recordResponseWithMetrics id' response' metrics => exact if_neg (by simpa [recordedUnder] using hunder)
        | _ => rfl
      rw [hstep, ih hops.2, hfirst]

/-- A trace with its response is that of the request and of the first response. -/
theorem ofOps_answered {before after : List WriteOp} (hbefore : respondedSessions before = [])
    (hafter : recordedRequests after = []) {flow : List RequestFlowEvent}
    (h : SessionTrace.ofOps id (before ++ after) = some ⟨flow, true⟩) :
    ∃ opened response rest, SessionTrace.ofOps id before = some ⟨opened, false⟩ ∧
      answers id after = response :: rest ∧ flow = opened ++ response.flow := by
  -- before the first response a trace stays unanswered, also when it is opened anew
  have hopen : ∀ (ops : List WriteOp) (trace : Option SessionTrace), respondedSessions ops = [] →
      (∀ t, trace = some t → t.answered = false) →
      ∀ t, run (SessionTrace.step id) trace ops = some t → t.answered = false := by
    intro ops
    induction ops with
    | nil => exact fun _ _ h => h
    | cons op ops ih =>
      intro trace hops htrace
      rw [respondedSessions_eq_nil, List.forall_mem_cons, ← respondedSessions_eq_nil] at hops
      refine ih _ hops.2 fun t ht => ?_
      cases op with
      | recordRequest id' request source =>
        have hstep : SessionTrace.step id trace (.recordRequest id' request source) =
          if id' = id then some ⟨request.flow, false⟩ else trace := rfl
        rw [hstep] at ht
        split at ht
        · cases ht
          rfl
        · exact htrace t ht
      | recordResponse id' response => cases hops.1
      | recordResponseWithMetrics id' response metrics => cases hops.1
      | _ => exact htrace t ht
  -- a trace is opened by a recorded request only
  have hnever : ∀ ops : List WriteOp, recordedRequests ops = [] → run (SessionTrace.step id) none ops = none := by
    intro ops
    induction ops with
    | nil => exact fun _ => rfl
    | cons op ops ih =>
      intro hops
      rw [recordedRequests_eq_nil, List.forall_mem_cons, ← recordedRequests_eq_nil] at hops
      have hnone : SessionTrace.step id none op = none := by
        cases op with
        | recordRequest id' request source => cases hops.1
        | recordResponse id' response => exact ite_self _
        | recordResponseWithMetrics id' response metrics => exact ite_self _
        | _ => rfl
      rw [run_cons, hnone, ih hops.2]
  unfold SessionTrace.ofOps at h ⊢
  rw [run_append] at h
  cases hrun : run (SessionTrace.step id) none before with
  | none =>
    rw [hrun, hnever after hafter] at h
    cases h
  | some trace =>
    obtain ⟨opened, answered⟩ := trace
    obtain rfl : answered = false := hopen before none hbefore (by simp) _ hrun
    rw [hrun, run_answers hafter] at h
    cases hanswers : answers id after with
    | nil =>
      rw [hanswers] at h
      cases h
    | cons response rest =>
      rw [hanswers] at h
      cases h
      exact ⟨opened, response, rest, rfl, rfl, rfl⟩

/-! ### The request side -/

/-- What the operator sends back comes as JSON, in which a context has no trace. -/
structure AnswersOnWire (world : Surroundings) : Prop where
  request : ∀ ctx modified, world.onPausedRequest ctx = .modifyRequest modified →
    ∃ wire : RequestContextWire, modified = wire.toContext
  response : ∀ ctx modified, world.onPausedResponse ctx = .modifyResponse modified →
    ∃ wire : ResponseContextWire, modified = wire.toContext

/-- The operator has modified a paused request, which then has no session, and the inspection has opened one again. -/
def Reopened (world : RecordingWorld) (rules : RecordingRules) (ctx : RequestContext) (id : Str) : Prop :=
  ∃ arrived left, rules.admitted world ctx = (arrived, .proceed) ∧
    (Breakpoints.firstMatch world.surroundings.regex rules.production.breakpoints .request
      (MatchTarget.fromRequest arrived)).isSome = true ∧
    rules.paused world arrived = (left, .proceed) ∧
    Inspection.opens (RecordingRules.inspectors world left).1 = true ∧ id = world.inspectionId

/-- The map-local rules and the mocks, which stand before the scripts. -/
def served (world : RecordingWorld) (rules : RecordingRules) (ctx : RequestContext) :
    RequestContext × MiddlewareAction :=
  MiddlewareChain.execute
    [MapLocal.onRequest world.surroundings.fs world.surroundings.regex world.surroundings.dirs
      rules.production.mapLocal,
     Mock.onRequest world.surroundings.regex world.surroundings.decodeBase64 rules.production.mocks] ctx

/-- The pause of a request has timed out, or a map-local rule or a mock answers it: those who answer with an event. -/
def AnswersWithEvent (world : RecordingWorld) (rules : RecordingRules) (ctx : RequestContext) : Prop :=
  ∃ arrived, rules.admitted world ctx = (arrived, .proceed) ∧
    ((∃ rule, Breakpoints.firstMatch world.surroundings.regex rules.production.breakpoints .request
        (MatchTarget.fromRequest arrived) = some rule ∧
      world.surroundings.onPausedRequest (Breakpoints.shown world.surroundings.freshId rule arrived).takeFlow.2 =
        .timedOut) ∨
      ∃ left, rules.paused world arrived = (left, .proceed) ∧
        (served world rules (RecordingRules.inspected world left).1.1).2 = .stopAndReturn)

/-- A trace which a middleware hands over with its answer. -/
def HandedOver (flow : List RequestFlowEvent) : Prop := Passing flow ∨ Ends flow ∧ flow.length ≤ maxFlowEvents

/-- What a stage of the request chain leaves of events on the way. -/
def Leaves : RequestContext × MiddlewareAction → Prop
  | (after, .proceed) => Passing after.flow
  | (after, .stopAndReturn) => HandedOver after.flow

theorem handedOver_push {flow : List RequestFlowEvent} (hflow : Passing flow) {e : RequestFlowEvent}
    (hr : e.isReceived = false) (ht : e.isTerminal = true) : HandedOver (pushFlowEvent flow e) := by
  by_cases hroom : flow.length < maxFlowEvents
  · refine Or.inr ⟨(ends_push_iff hflow hr ht).2 hroom, ?_⟩
    rw [pushFlowEvent_of_room hroom, List.length_append, List.length_singleton]
    exact hroom
  · rw [pushFlowEvent_of_full (Nat.le_of_not_lt hroom)]
    exact Or.inl hflow

theorem HandedOver.continues {flow : List RequestFlowEvent} (h : HandedOver flow) : Continues flow := by
  rcases h with hpassing | ⟨hends, -⟩
  · exact hpassing.continues
  · exact hends.continues

theorem Answering.leaves {flow : List RequestFlowEvent} (hflow : Passing flow)
    {result : RequestContext × MiddlewareAction} (h : Answering flow result) : Leaves result := by
  obtain ⟨after, _ | _⟩ := result
  · exact h.passing hflow
  · obtain ⟨before, event, hbefore, hr, ht, heq⟩ := h
    unfold Leaves
    dsimp only
    rw [heq]
    exact handedOver_push (hbefore.passing hflow) hr ht

theorem Answering.ends_iff {flow : List RequestFlowEvent} (hflow : Passing flow) {after : RequestContext}
    (h : Answering flow (after, .stopAndReturn)) : Ends after.flow ↔ onTheWay after.flow < maxFlowEvents := by
  obtain ⟨before, event, hbefore, hr, ht, heq⟩ := h
  rw [heq]
  exact ends_pushed_iff (hbefore.passing hflow) hr ht

section

variable {world : RecordingWorld} {rules : RecordingRules}

theorem admitted_flow {ctx arrived : RequestContext} (h : rules.admitted world ctx = (arrived, .proceed)) :
    Grows ctx.flow arrived.flow := by
  refine MiddlewareChain.execute_proceed_induction (P := fun after : RequestContext => Grows ctx.flow after.flow) ?_
    (Grows.refl _) h
  intro step hstep after after' hafter heq
  unfold RecordingRules.admission at hstep
  simp only [List.mem_cons, List.not_mem_nil, or_false] at hstep
  rcases hstep with rfl | rfl | rfl | rfl | rfl
  · have hflow := access_flow world.surroundings.regex rules.production.routing.access after
    rw [heq] at hflow
    dsimp only at hflow
    rw [hflow]
    exact hafter
  · rw [CaptureFilter.onRequest_eq] at heq
    cases heq
    exact hafter
  · have hframe := DnsOverride.onRequest_frame rules.production.routing.dns after
    rw [heq] at hframe
    dsimp only at hframe
    rw [hframe]
    exact hafter
  · have hflow := mapRemote_flow world.surroundings.regex rules.production.routing.mapRemote after
    rw [heq] at hflow
    exact hafter.trans hflow
  · exact hafter.trans (rewrite_flow heq)

/-- A paused request comes back without the events before the pause. -/
theorem paused_leaves (hwire : AnswersOnWire world.surroundings) {arrived : RequestContext} {rule : BreakpointRule}
    (hmatch : Breakpoints.firstMatch world.surroundings.regex rules.production.breakpoints .request
      (MatchTarget.fromRequest arrived) = some rule) : Leaves (rules.paused world arrived) := by
  have hshown : Passing (Breakpoints.shown world.surroundings.freshId rule arrived).takeFlow.2.flow := passing_nil
  have heq : rules.paused world arrived = Breakpoints.onRequest world.surroundings.regex rules.production.breakpoints
    world.surroundings.onPausedRequest world.surroundings.freshId arrived := rfl
  rw [heq]
  rcases hrun : Breakpoints.onRequest world.surroundings.regex rules.production.breakpoints
    world.surroundings.onPausedRequest world.surroundings.freshId arrived with ⟨left, _ | _⟩
  · rcases (Breakpoints.onRequest_of_some hmatch).1 hrun with ⟨-, rfl⟩ | ⟨modified, hanswer, rfl⟩
    · exact (grows_push _ rfl rfl).passing hshown
    · obtain ⟨wire, rfl⟩ := hwire.request _ _ hanswer
      exact (grows_push _ rfl rfl).passing passing_nil
  · unfold Breakpoints.onRequest at hrun
    rw [hmatch] at hrun
    dsimp only at hrun
    split at hrun
    · cases hrun
    · cases hrun
    · cases hrun
      exact Or.inl passing_nil
    · cases hrun
      exact Or.inl passing_nil
    · cases hrun
      exact Or.inl passing_nil
    · cases hrun
      exact handedOver_push passing_nil rfl rfl

theorem leaves_execute {steps : List (RequestContext → RequestContext × MiddlewareAction)}
    (h : ∀ step ∈ steps, ∀ ctx : RequestContext, Passing ctx.flow → Leaves (step ctx)) {ctx : RequestContext}
    (hctx : Passing ctx.flow) : Leaves (MiddlewareChain.execute steps ctx) := by
  induction steps generalizing ctx with
  | nil => exact hctx
  | cons step steps ih =>
    have hstep := h step List.mem_cons_self ctx hctx
    unfold MiddlewareChain.execute
    rcases hrun : step ctx with ⟨after, _ | _⟩
    · rw [hrun] at hstep
      exact ih (fun s hs => h s (List.mem_cons_of_mem _ hs)) hstep
    · rw [hrun] at hstep
      exact hstep

/-- The middlewares behind the inspection hand over what they add to a trace. -/
theorem answered_leaves {ctx : RequestContext} (hctx : Passing ctx.flow) : Leaves (rules.answered world ctx) := by
  refine leaves_execute ?_ hctx
  intro step hstep ctx hctx
  unfold RecordingRules.answering at hstep
  simp only [List.mem_cons, List.not_mem_nil, or_false] at hstep
  rcases hstep with rfl | rfl | rfl
  · exact Answering.leaves hctx (mapLocal_flow _ _ _ _ ctx)
  · exact Answering.leaves hctx (mock_flow _ _ _ ctx)
  · have hflow := scripts_flow world.surroundings.vm rules.production.scripts ctx
    rw [← hflow] at hctx
    rcases hrun : LuaEngine.onRequest world.surroundings.vm rules.production.scripts ctx with ⟨after, _ | _⟩
    · rw [hrun] at hctx
      exact hctx
    · rw [hrun] at hctx
      exact Or.inl hctx

theorem run_pauseOps (regex : RegexEngine) (rules : List BreakpointRule) (freshId breakpointId : Str)
    (arrived : RequestContext) (trace : Option SessionTrace) :
    run (SessionTrace.step id) trace (Breakpoints.pauseOps regex rules freshId breakpointId arrived) =
      match Breakpoints.firstMatch regex rules .request (MatchTarget.fromRequest arrived) with
      | none => trace
      | some rule =>
        if Breakpoints.pausedSession freshId arrived = id then
          some ⟨(Breakpoints.shown freshId rule arrived).flow, false⟩
        else trace := by
  unfold Breakpoints.pauseOps
  cases Breakpoints.firstMatch regex rules .request (MatchTarget.fromRequest arrived) <;> rfl

theorem run_inspectedOps (left : RequestContext) (trace : Option SessionTrace) :
    run (SessionTrace.step id) trace (RecordingRules.inspected world left).2 =
      if Inspection.opens (RecordingRules.inspectors world left).1 = true ∧ id = world.inspectionId then
        some ⟨left.flow, false⟩
      else trace := by
  have hrest : ∀ (freshId : Str) (inspector : InspectorData) (trace : Option SessionTrace),
      run (SessionTrace.step id) trace (Inspection.inspectorOps freshId inspector) = trace := by
    intro freshId inspector trace
    unfold Inspection.inspectorOps
    split <;> rfl
  unfold RecordingRules.inspected
  by_cases hopens : Inspection.opens (RecordingRules.inspectors world left).1 = true
  · rw [Inspection.onRequest_of_opens hopens]
    dsimp only
    rw [run_cons, hrest]
    by_cases hid : id = world.inspectionId
    · rw [if_pos ⟨hopens, hid⟩]
      exact if_pos hid.symm
    · rw [if_neg fun h => hid h.2]
      exact if_neg (Ne.symm hid)
  · rw [Inspection.onRequest_of_not_opens ((Bool.not_eq_true _).mp hopens), if_neg fun h => hopens h.1]
    rfl

/-- The inspection takes the events before it where it opens a session, and leaves them else. -/
theorem inspected_passing {left : RequestContext}
    (h : Inspection.opens (RecordingRules.inspectors world left).1 = true ∨ Passing left.flow) :
    Passing (RecordingRules.inspected world left).1.1.flow := by
  unfold RecordingRules.inspected
  by_cases hopens : Inspection.opens (RecordingRules.inspectors world left).1 = true
  · rw [Inspection.onRequest_of_opens hopens]
    exact passing_nil
  · rw [Inspection.onRequest_of_not_opens ((Bool.not_eq_true _).mp hopens)]
    exact h.resolve_left hopens

/-- A session which the request chain has recorded starts with the receipt of the request, unless it is opened again;
what the chain hands on behind it are events on the way. -/
theorem opened_run (hwire : AnswersOnWire world.surroundings) {ctx : RequestContext} (hctx : Begins ctx.flow)
    {trace : SessionTrace} (h : SessionTrace.ofOps id (rules.run world ctx).1.ops = some trace) :
    (Reopened world rules ctx id → Passing trace.flow) ∧ (¬ Reopened world rules ctx id → Begins trace.flow) ∧
      Leaves ((rules.run world ctx).1.ctx, (rules.run world ctx).2) := by
  unfold SessionTrace.ofOps at h
  rw [RecordingRules.run_eq] at h ⊢
  rcases hadmitted : rules.admitted world ctx with ⟨arrived, _ | _⟩
  · have harrived : Begins arrived.flow := (admitted_flow hadmitted).begins hctx
    have hops : (rules.pause world arrived).2 = Breakpoints.pauseOps world.surroundings.regex
      rules.production.breakpoints world.surroundings.freshId world.breakpointId arrived := rfl
    rw [hadmitted] at h
    cases hmatch : Breakpoints.firstMatch world.surroundings.regex rules.production.breakpoints .request
      (MatchTarget.fromRequest arrived) with
    | none =>
      have hpaused : rules.paused world arrived = (arrived, .proceed) := Breakpoints.onRequest_of_none hmatch
      have hnever : ¬ Reopened world rules ctx id := by
        rintro ⟨arrived', left, heq, hsome, -⟩
        rw [hadmitted] at heq
        cases heq
        rw [hmatch] at hsome
        cases hsome
      dsimp only at h ⊢
      rw [hpaused] at h ⊢
      dsimp only at h ⊢
      rw [run_append, hops, run_pauseOps, hmatch, run_inspectedOps] at h
      split at h
      · rename_i hopens
        cases h
        exact ⟨fun hreopened => absurd hreopened hnever, fun _ => harrived,
          answered_leaves (inspected_passing (Or.inl hopens.1))⟩
      · cases h
    | some rule =>
      -- the breakpoint opens the trace before the inspection, which may open it once more
      have hleaves := paused_leaves hwire hmatch
      have hshown : Begins (Breakpoints.shown world.surroundings.freshId rule arrived).flow :=
        ((grows_push _ rfl rfl).trans (grows_push _ rfl rfl)).begins harrived
      dsimp only at h ⊢
      rcases hpaused : rules.paused world arrived with ⟨left, _ | _⟩
      · rw [hpaused] at h hleaves
        dsimp only at h ⊢
        rw [run_append, hops, run_pauseOps, hmatch, run_inspectedOps] at h
        have hafter : Leaves (rules.answered world (RecordingRules.inspected world left).1.1) :=
          answered_leaves (inspected_passing (Or.inr hleaves))
        split at h
        · rename_i hopens
          cases h
          have hreopened : Reopened world rules ctx id :=
            ⟨arrived, left, hadmitted, by rw [hmatch]; rfl, hpaused, hopens.1, hopens.2⟩
          exact ⟨fun _ => hleaves, fun hnever => absurd hreopened hnever, hafter⟩
        · rename_i hopens
          have hnever : ¬ Reopened world rules ctx id := by
            rintro ⟨arrived', left', heq, -, heq', hreopens⟩
            rw [hadmitted] at heq
            cases heq
            rw [hpaused] at heq'
            cases heq'
            exact hopens hreopens
          dsimp only at h
          split at h
          · cases h
            exact ⟨fun hreopened => absurd hreopened hnever, fun _ => hshown, hafter⟩
          · cases h
      · rw [hpaused] at h hleaves
        dsimp only at h ⊢
        rw [hops, run_pauseOps, hmatch] at h
        have hnever : ¬ Reopened world rules ctx id := by
          rintro ⟨arrived', left', heq, -, heq', -⟩
          rw [hadmitted] at heq
          cases heq
          rw [hpaused] at heq'
          cases heq'
        dsimp only at h
        split at h
        · cases h
          exact ⟨fun hreopened => absurd hreopened hnever, fun _ => hshown, hleaves⟩
        · cases h
  · -- what is stopped here is not recorded at all
    rw [hadmitted] at h
    cases h

/-- Where the operator or the clock ends a pause, only the clock leaves an event. -/
theorem paused_ends_iff {arrived left : RequestContext} {rule : BreakpointRule}
    (hmatch : Breakpoints.firstMatch world.surroundings.regex rules.production.breakpoints .request
      (MatchTarget.fromRequest arrived) = some rule) (h : rules.paused world arrived = (left, .stopAndReturn)) :
    Ends left.flow ↔ world.surroundings.onPausedRequest
      (Breakpoints.shown world.surroundings.freshId rule arrived).takeFlow.2 = .timedOut ∧
        onTheWay left.flow < maxFlowEvents := by
  have heq : rules.paused world arrived = Breakpoints.onRequest world.surroundings.regex rules.production.breakpoints
    world.surroundings.onPausedRequest world.surroundings.freshId arrived := rfl
  rw [heq, Breakpoints.onRequest_of_firstMatch hmatch] at h
  cases hanswer : world.surroundings.onPausedRequest
    (Breakpoints.shown world.surroundings.freshId rule arrived).takeFlow.2 with
  | proceed | modifyRequest _ =>
    rw [hanswer] at h
    cases h
  | modifyResponse _ | drop | closed =>
    rw [hanswer] at h
    cases h
    exact iff_of_false passing_nil.not_ends fun htimed => by cases htimed.1
  | timedOut =>
    rw [hanswer] at h
    cases h
    rw [and_iff_right rfl]
    exact ends_pushed_iff passing_nil rfl rfl

/-- Behind the inspection the scripts alone answer without an event. -/
theorem answered_ends_iff {ctx after : RequestContext} (hctx : Passing ctx.flow)
    (h : rules.answered world ctx = (after, .stopAndReturn)) :
    Ends after.flow ↔ (served world rules ctx).2 = .stopAndReturn ∧ onTheWay after.flow < maxFlowEvents := by
  have hlocal := mapLocal_flow world.surroundings.fs world.surroundings.regex world.surroundings.dirs
    rules.production.mapLocal ctx
  unfold RecordingRules.answered RecordingRules.answering at h
  unfold served
  unfold MiddlewareChain.execute at h ⊢
  rcases hrun : MapLocal.onRequest world.surroundings.fs world.surroundings.regex world.surroundings.dirs
    rules.production.mapLocal ctx with ⟨left, _ | _⟩
  · rw [hrun] at h hlocal
    have hleft : Passing left.flow := Grows.passing hlocal hctx
    have hmock := mock_flow world.surroundings.regex world.surroundings.decodeBase64 rules.production.mocks left
    dsimp only at h ⊢
    unfold MiddlewareChain.execute at h ⊢
    rcases hmocked : Mock.onRequest world.surroundings.regex world.surroundings.decodeBase64 rules.production.mocks left
      with ⟨handed, _ | _⟩
    · -- a script has answered
      rw [hmocked] at h hmock
      have hflow := scripts_flow world.surroundings.vm rules.production.scripts handed
      have hhanded : Passing handed.flow := Grows.passing hmock hleft
      dsimp only at h ⊢
      unfold MiddlewareChain.execute at h ⊢
      rcases hscript : LuaEngine.onRequest world.surroundings.vm rules.production.scripts handed with ⟨ended, _ | _⟩
      · rw [hscript] at h
        cases h
      · rw [hscript] at h hflow
        cases h
        rw [← hflow] at hhanded
        exact iff_of_false hhanded.not_ends fun hstops => by cases hstops.1
    · rw [hmocked] at h hmock
      cases h
      rw [and_iff_right rfl]
      exact Answering.ends_iff hleft hmock
  · rw [hrun] at h hlocal
    cases h
    rw [and_iff_right rfl]
    exact Answering.ends_iff hctx hlocal

/-- A trace which a middleware hands over with its answer is ended where the answer comes with an event, and there was
room for the event.  A request which is answered before anything has been enqueued has no session. -/
theorem run_ends_iff (hwire : AnswersOnWire world.surroundings) {ctx : RequestContext} {after : Recording}
    (hrun : rules.run world ctx = (after, .stopAndReturn)) (hops : after.ops ≠ []) :
    Ends after.ctx.flow ↔ AnswersWithEvent world rules ctx ∧ onTheWay after.ctx.flow < maxFlowEvents := by
  rw [RecordingRules.run_eq] at hrun
  unfold AnswersWithEvent
  rcases hadmitted : rules.admitted world ctx with ⟨arrived, _ | _⟩
  · rw [hadmitted] at hrun
    dsimp only at hrun
    have hpauses : (rules.pause world arrived).2 = Breakpoints.pauseOps world.surroundings.regex
      rules.production.breakpoints world.surroundings.freshId world.breakpointId arrived := rfl
    rcases hpaused : rules.paused world arrived with ⟨left, _ | _⟩
    · rw [hpaused] at hrun
      dsimp only at hrun
      rcases hanswered : rules.answered world (RecordingRules.inspected world left).1.1 with ⟨ended, action⟩
      rw [hanswered] at hrun
      cases hrun
      -- the trace is open, by the inspection or by the breakpoint before it
      have hleft : Inspection.opens (RecordingRules.inspectors world left).1 = true ∨ Passing left.flow := by
        cases hmatch : Breakpoints.firstMatch world.surroundings.regex rules.production.breakpoints .request
          (MatchTarget.fromRequest arrived) with
        | none =>
          refine Or.inl (by_contra fun hclosed => hops ?_)
          dsimp only
          rw [hpauses]
          unfold Breakpoints.pauseOps RecordingRules.inspected
          rw [hmatch, Inspection.onRequest_of_not_opens ((Bool.not_eq_true _).mp hclosed)]
          rfl
        | some rule =>
          have hleaves := paused_leaves hwire hmatch
          rw [hpaused] at hleaves
          exact Or.inr hleaves
      refine (answered_ends_iff (inspected_passing hleft) hanswered).trans (and_congr_left' ?_)
      constructor
      · intro hserved
        exact ⟨arrived, rfl, Or.inr ⟨left, hpaused, hserved⟩⟩
      · rintro ⟨arrived', heq, ⟨rule, hmatch, htimed⟩ | ⟨left', hleft', hserved⟩⟩
        · cases heq
          have hstops : rules.paused world arrived = _ := Breakpoints.onRequest_of_firstMatch hmatch
          rw [hpaused, htimed] at hstops
          cases hstops
        · cases heq
          rw [hpaused] at hleft'
          cases hleft'
          exact hserved
    · -- stopped at the breakpoint
      rw [hpaused] at hrun
      cases hrun
      cases hmatch : Breakpoints.firstMatch world.surroundings.regex rules.production.breakpoints .request
        (MatchTarget.fromRequest arrived) with
      | none =>
        have hgoes : rules.paused world arrived = (arrived, .proceed) := Breakpoints.onRequest_of_none hmatch
        rw [hpaused] at hgoes
        cases hgoes
      | some rule =>
        refine (paused_ends_iff hmatch hpaused).trans (and_congr_left' ?_)
        constructor
        · intro htimed
          exact ⟨arrived, rfl, Or.inl ⟨rule, hmatch, htimed⟩⟩
        · rintro ⟨arrived', heq, ⟨rule', hmatch', htimed⟩ | ⟨left', hleft', -⟩⟩
          · cases heq
            rw [hmatch] at hmatch'
            cases hmatch'
            exact htimed
          · cases heq
            rw [hpaused] at hleft'
            cases hleft'
  · rw [hadmitted] at hrun
    cases hrun
    exact absurd rfl hops

end

/-! ### The response chain -/

/-- The rewrite rules add nothing to the trace of a response. -/
def RewritesNothing (regex : RegexEngine) (rules : List RewriteRuleSet) (ctx : ResponseContext) : Prop :=
  rules.filter (UnifiedRewrite.appliesToResponse regex (MatchTarget.fromResponse ctx)) = [] ∨
    maxFlowEvents ≤ ctx.flow.length

/-- The response chain leaves the trace of a response as it is: the operator does not put another response in its place,
and no rewrite rule notes that it applies. -/
def LeftAlone (world : Surroundings) (rules : ProductionRules) (ctx : ResponseContext) : Prop :=
  let scripted := (LuaEngine.onResponse world.vm rules.scripts ctx).1
  match Breakpoints.firstMatch world.regex rules.breakpoints .response (MatchTarget.fromResponse scripted) with
  | none => RewritesNothing world.regex rules.routing.rewrite scripted
  | some _ =>
    match world.onPausedResponse scripted with
    | .proceed => RewritesNothing world.regex rules.routing.rewrite scripted
    | .modifyResponse _ => False
    | _ => True

section

variable {world : Surroundings} {rules : ProductionRules}

theorem rewritten_flow (regex : RegexEngine) (rules : List RewriteRuleSet) (ctx : ResponseContext) :
    Grows ctx.flow (UnifiedRewrite.onResponse regex rules ctx).1.flow ∧
      ((UnifiedRewrite.onResponse regex rules ctx).1.flow = ctx.flow ↔ RewritesNothing regex rules ctx) :=
  ⟨responseLoop_flow regex _ ctx, responseLoop_flow_eq_iff regex _ ctx⟩

/-- Behind the response chain a trace is the one before it, or a longer one, or that of another response. -/
theorem executeResponse_flow (hwire : AnswersOnWire world) (ctx : ResponseContext) :
    let left := (MiddlewareChain.executeResponse (rules.chain world) ctx).1
    Grows ctx.flow left.flow ∧ (left.flow = ctx.flow ↔ LeftAlone world rules ctx) ∨
      Passing left.flow ∧ ¬ LeftAlone world rules ctx := by
  obtain ⟨hscripted, hproceeds⟩ := scripts_response world.vm rules.scripts ctx
  rw [ProductionRules.executeResponse_chain]
  unfold LeftAlone
  dsimp only
  unfold MiddlewareChain.execute
  rcases hscripts : LuaEngine.onResponse world.vm rules.scripts ctx with ⟨scripted, action⟩
  rw [hscripts] at hscripted hproceeds
  dsimp only at hscripted hproceeds
  cases hproceeds
  rw [← hscripted]
  have hrewritten : ∀ ctx : ResponseContext, MiddlewareChain.execute
      [UnifiedRewrite.onResponse world.regex rules.routing.rewrite] ctx =
        ((UnifiedRewrite.onResponse world.regex rules.routing.rewrite ctx).1, .proceed) := fun _ => rfl
  dsimp only
  unfold MiddlewareChain.execute Breakpoints.onResponse
  cases Breakpoints.firstMatch world.regex rules.breakpoints .response (MatchTarget.fromResponse scripted) with
  | none =>
    dsimp only
    rw [hrewritten]
    exact Or.inl (rewritten_flow world.regex rules.routing.rewrite scripted)
  | some rule =>
    dsimp only
    cases hanswer : world.onPausedResponse scripted with
    | proceed =>
      dsimp only
      rw [hrewritten]
      exact Or.inl (rewritten_flow world.regex rules.routing.rewrite scripted)
    | modifyResponse modified =>
      obtain ⟨wire, rfl⟩ := hwire.response _ _ hanswer
      dsimp only
      rw [hrewritten]
      exact Or.inr ⟨(rewritten_flow world.regex rules.routing.rewrite wire.toContext).1.passing passing_nil, not_false⟩
    | modifyRequest modified => exact Or.inl ⟨Grows.refl _, iff_of_true rfl trivial⟩
    | drop => exact Or.inl ⟨Grows.refl _, iff_of_true rfl trivial⟩
    | closed => exact Or.inl ⟨Grows.refl _, iff_of_true rfl trivial⟩
    | timedOut => exact Or.inl ⟨Grows.refl _, iff_of_true rfl trivial⟩

theorem executeResponse_passing (hwire : AnswersOnWire world) {ctx : ResponseContext} (hctx : Passing ctx.flow) :
    Passing (MiddlewareChain.executeResponse (rules.chain world) ctx).1.flow := by
  rcases @executeResponse_flow world rules hwire ctx with ⟨hgrows, -⟩ | ⟨hpassing, -⟩
  · exact hgrows.passing hctx
  · exact hpassing

/-- A trace which is handed over is ended behind the response chain where it has been ended, and is left alone. -/
theorem executeResponse_ends (hwire : AnswersOnWire world) {ctx : ResponseContext} (hctx : HandedOver ctx.flow) :
    let left := (MiddlewareChain.executeResponse (rules.chain world) ctx).1
    Continues left.flow ∧ (Ends left.flow ↔ Ends ctx.flow ∧ LeftAlone world rules ctx) := by
  rcases hctx with hpassing | ⟨hends, -⟩
  · have hleft := @executeResponse_passing world rules hwire ctx hpassing
    exact ⟨hleft.continues, iff_of_false hleft.not_ends fun h => hpassing.not_ends h.1⟩
  · rcases @executeResponse_flow world rules hwire ctx with ⟨hgrows, hleft⟩ | ⟨hpassing, hreplaced⟩
    · exact ⟨hgrows.continues hends.continues, ((hends.grows_iff hgrows).trans hleft).trans (and_iff_right hends).symm⟩
    · exact ⟨hpassing.continues, iff_of_false hpassing.not_ends fun h => hreplaced h.2⟩

end

/-! ### What the recorders add -/

/-- A trace which the response side takes over. -/
theorem extendFlow_passing {ctx : ResponseContext} (hempty : ctx.flow = []) {flow : List RequestFlowEvent}
    (hflow : Passing flow) : Passing (ctx.extendFlow flow).flow := by
  rw [BrokenBodies.extendFlow_flow ctx hempty]
  intro e he
  obtain ⟨e', he', rfl⟩ := List.mem_map.1 he
  have := hflow e' (List.mem_of_mem_take he')
  simpa using this

theorem length_extendFlow {ctx : ResponseContext} (hempty : ctx.flow = []) (flow : List RequestFlowEvent) :
    (ctx.extendFlow flow).flow.length < maxFlowEvents ↔ flow.length < maxFlowEvents := by
  rw [BrokenBodies.extendFlow_flow ctx hempty, List.length_map, List.length_take]
  omega

/-- A trace which has been handed over is taken over as a whole. -/
theorem extendFlow_handedOver {ctx : ResponseContext} (hempty : ctx.flow = []) {flow : List RequestFlowEvent}
    (hflow : HandedOver flow) :
    HandedOver (ctx.extendFlow flow).flow ∧ (Ends (ctx.extendFlow flow).flow ↔ Ends flow) := by
  rcases hflow with hpassing | ⟨hends, hlength⟩
  · have hextended := extendFlow_passing hempty hpassing
    exact ⟨Or.inl hextended, iff_of_false hextended.not_ends hpassing.not_ends⟩
  · have hextended : Ends (ctx.extendFlow flow).flow := by
      rw [BrokenBodies.extendFlow_flow ctx hempty, List.take_of_length_le hlength]
      obtain ⟨before, event, rfl, hbefore, hr, ht⟩ := hends
      refine ⟨before.map truncateFlowEvent, truncateFlowEvent event, by simp, ?_, by simpa using hr, by simpa using ht⟩
      intro e he
      obtain ⟨e', he', rfl⟩ := List.mem_map.1 he
      simpa using hbefore e' he'
    refine ⟨Or.inr ⟨hextended, ?_⟩, iff_of_true hextended hends⟩
    rw [BrokenBodies.extendFlow_flow ctx hempty, List.length_map, List.length_take]
    exact Nat.min_le_left _ _

/-- A failure ends a trace where there is room for it. -/
theorem ends_failed {ctx : ResponseContext} (hempty : ctx.flow = []) {flow : List RequestFlowEvent}
    (hflow : Passing flow)
    (stage : FlowStage) (message : Str) :
    HandedOver ((ctx.extendFlow flow).pushFlow (.failed stage message)).flow ∧
      (Ends ((ctx.extendFlow flow).pushFlow (.failed stage message)).flow ↔ flow.length < maxFlowEvents) := by
  have hextended := extendFlow_passing hempty hflow
  exact ⟨handedOver_push hextended rfl rfl, (ends_push_iff hextended rfl rfl).trans (length_extendFlow hempty flow)⟩

theorem answers_recordFailure {guard : TerminalSessionGuard} (hflow : Passing guard.flow) {view : StoreView}
    {status : Nat}
    {stage : FlowStage} {message : Str} {latencyMs : Nat} {response : ResponseContext}
    (h : response ∈ answers id (guard.recordFailure view status stage message latencyMs)) :
    Continues response.flow ∧ (Ends response.flow ↔ guard.flow.length < maxFlowEvents) := by
  unfold TerminalSessionGuard.recordFailure at h
  split at h
  · cases h
  · obtain ⟨op, hop, hunder⟩ := mem_answers.1 h
    rw [List.mem_singleton.1 hop, recordedUnder_recordResponseWithMetrics] at hunder
    rw [← hunder.2]
    refine And.imp_left HandedOver.continues ?_
    exact ends_failed rfl hflow stage message

theorem mem_answers_recordResponse {view : StoreView} {recorded response : ResponseContext} {size : Option Nat}
    (h : response ∈ answers id (recordResponseWithOptionalSize view recorded size)) : response = recorded := by
  obtain ⟨op, hop, hunder⟩ := mem_answers.1 h
  unfold recordResponseWithOptionalSize at hop
  split at hop
  · cases hop
  · split at hop
    · rw [List.mem_singleton.1 hop, recordedUnder_recordResponse] at hunder
      exact hunder.2.symm
    · split at hop
      · cases hop
      · rcases List.mem_cons.1 hop with rfl | hop
        · rw [recordedUnder_recordResponseWithMetrics] at hunder
          exact hunder.2.symm
        · split at hop
          · cases hop
          · rw [List.mem_singleton.1 hop] at hunder
            cases hunder

/-! ### The upstream does not answer -/

/-- The store shows a session without a response. -/
def ShownOpen (view : StoreView) (session : Option Str) (id : Str) : Prop :=
  session = some id ∧ ∃ exchange, view.getSession id = some exchange ∧ exchange.response = none

section

variable {world : EngineWorld} {rules : RecordingRules}

/-- A pass of the inspection records the response for the session which the store shows open, and no other. -/
theorem answers_inspection (hkeyed : ∀ ops id session, (world.view ops).getSession id = some session → session.id = id)
    {ctx : ResponseContext} (hctx : Unmarked ctx) (ops : List WriteOp) :
    (ShownOpen (world.view ops) ctx.sessionId id ∧
        ∃ metrics, (Inspection.onResponse (world.view ops) ctx).2 = [.recordResponseWithMetrics id ctx metrics]) ∨
      ¬ ShownOpen (world.view ops) ctx.sessionId id ∧
        answers id (Inspection.onResponse (world.view ops) ctx).2 = [] ∧
        (ctx.sessionId = some id → (Inspection.onResponse (world.view ops) ctx).2 = []) := by
  obtain ⟨metrics, heq⟩ := inspection_onResponse hctx (world.view ops)
  rw [heq]
  cases hshown : ctx.sessionId.bind (world.view ops).getSession with
  | none =>
    refine Or.inr ⟨?_, rfl, fun _ => rfl⟩
    rintro ⟨hsession, exchange, hview, -⟩
    rw [hsession, Option.bind_some, hview] at hshown
    cases hshown
  | some session =>
    obtain ⟨sessionId, hsession, hview⟩ := Option.bind_eq_some_iff.1 hshown
    have hid := hkeyed ops sessionId session hview
    dsimp only
    by_cases hanswered : session.response.isSome = true
    · rw [if_pos hanswered]
      refine Or.inr ⟨?_, rfl, fun _ => rfl⟩
      rintro ⟨hsession', exchange, hview', hopen⟩
      rw [hsession, Option.some.injEq] at hsession'
      rw [hsession', hview', Option.some.injEq] at hview
      rw [← hview, hopen] at hanswered
      cases hanswered
    · rw [if_neg hanswered, hid]
      by_cases hsame : sessionId = id
      · rw [hsame] at hsession hview ⊢
        exact Or.inl ⟨⟨hsession, session, hview, Option.not_isSome_iff_eq_none.1 hanswered⟩, _, rfl⟩
      · have hother : ctx.sessionId ≠ some id := by
          rw [hsession, ne_eq, Option.some.injEq]
          exact hsame
        refine Or.inr ⟨fun h => hother h.1, ?_, fun h => absurd h hother⟩
        rw [answers_eq_nil_iff, respondedSessions_recordResponseWithMetrics, respondedSessions_nil, List.mem_singleton]
        exact Ne.symm hsame

/-- Where a request cannot be sent, the inspection records the failure for a session which the store shows open, and the
engine what the response chain has left of it else. -/
theorem answers_failureOps
    (hkeyed : ∀ ops id session, (world.view ops).getSession id = some session → session.id = id)
    {failed : ResponseContext} (hfailed : Unmarked failed) {before : List WriteOp} {n : Nat}
    {response : ResponseContext}
    {rest : List ResponseContext}
    (h : answers id ((failureOps world rules before failed).take n) = response :: rest) :
    (ShownOpen (world.view before) failed.sessionId id ∧ response = failed) ∨
      ¬ ShownOpen (world.view before) failed.sessionId id ∧
        response = (MiddlewareChain.executeResponse (rules.production.chain world.recording.surroundings)
          failed).1 := by
  obtain ⟨hscripted, hsession⟩ := unmarked_scripts world.recording.surroundings.vm rules.production.scripts hfailed
  have hquiet : answers id (rules.responsePauseOps world.recording failed) = [] :=
    answers_of_none fun op hop => (responsePauseOps_quiet world.recording failed op hop).2
  unfold failureOps at h
  rw [failureRun_eq hfailed before] at h
  dsimp only at h
  rcases @answers_inspection id world hkeyed failed hfailed before
    with ⟨hshown, metrics, hfirst⟩ | ⟨hhidden, hfirst, hnothing⟩
  · refine Or.inl ⟨hshown, ?_⟩
    unfold inspectionOps at h
    dsimp only at h
    cases n with
    | zero => cases h
    | succ n =>
      have hhead : recordedUnder id (.recordResponseWithMetrics id failed metrics) = some failed := if_pos rfl
      rw [hfirst, List.singleton_append, List.cons_append, List.cons_append, List.take_succ_cons] at h
      unfold answers at h
      rw [List.filterMap_cons_some hhead] at h
      exact (List.cons.inj h).1.symm
  · refine Or.inr ⟨hhidden, ?_⟩
    -- what the first pass has not recorded the second does not record
    have hsecond : answers id (inspectionOps world rules before failed).2 = [] := by
      rcases @answers_inspection id world hkeyed _ hscripted
          (before ++ (inspectionOps world rules before failed).1) with
        ⟨⟨hid, hopen⟩, -⟩ | ⟨-, hnone, -⟩
      · rw [hsession] at hid
        have hsame : (inspectionOps world rules before failed).1 = [] := hnothing hid
        rw [hsame, List.append_nil] at hopen
        exact absurd ⟨hid, hopen⟩ hhidden
      · exact hnone
    have hin : response ∈ answers id ((inspectionOps world rules before failed).1 ++
        (inspectionOps world rules before failed).2 ++ rules.responsePauseOps world.recording failed ++
        recordShortCircuitResponse (world.view (before ++ ((inspectionOps world rules before failed).1 ++
          (inspectionOps world rules before failed).2 ++ rules.responsePauseOps world.recording failed)))
          (MiddlewareChain.executeResponse (rules.production.chain world.recording.surroundings) failed).1) :=
      answers_take_subset _ n (by rw [h]; exact List.mem_cons_self)
    have hfirst : answers id (inspectionOps world rules before failed).1 = [] := hfirst
    rw [answers_append, answers_append, answers_append, hfirst, hsecond, hquiet, List.nil_append, List.nil_append,
      List.nil_append, recordShortCircuitResponse_eq] at hin
    exact mem_answers_recordResponse hin

/-! ### Runs -/

/-- An act which carries events on the way to the guard. -/
def Carries : EngineAct → Prop
  | .arm guard => ∀ armed, guard = some armed → Passing armed.flow
  | .updateFlow flow => Passing flow
  | .updateFromResponse response => Passing response.flow
  | _ => True

theorem guard_passing {acts : List EngineAct} (hacts : ∀ a ∈ acts, Carries a) {start : EngineRun}
    (hstart : ∀ guard, start.guard = some guard → Passing guard.flow) :
    ∀ guard, (run world.act start acts).guard = some guard → Passing guard.flow := by
  induction acts generalizing start with
  | nil => exact hstart
  | cons a acts ih =>
    refine ih (fun b hb => hacts b (List.mem_cons_of_mem _ hb)) ?_
    have ha := hacts a List.mem_cons_self
    intro guard hguard
    cases a with
    | enqueue op => exact hstart guard hguard
    | arm armed => exact ha guard hguard
    | updateFlow flow =>
      obtain ⟨armed, -, rfl⟩ := Option.map_eq_some_iff.1 hguard
      exact ha
    | updateFromResponse response =>
      obtain ⟨armed, -, rfl⟩ := Option.map_eq_some_iff.1 hguard
      exact ha
    | recordFailure status stage message => cases hguard
    | disarm => cases hguard

theorem answers_quiet {acts : List EngineAct} (hacts : ∀ a ∈ acts, Quiet a) {start : EngineRun}
    (hstart : respondedSessions start.ops = []) : answers id (run world.act start acts).ops = [] := by
  rw [answers_eq_nil_iff, (run_quiet hacts start).1, hstart]
  exact List.not_mem_nil

/-- A guard which records a failure behind quiet acts records it with the trace which the last of them has given it. -/
theorem answers_failing {acts : List EngineAct} (hacts : ∀ a ∈ acts, Quiet a) {start : EngineRun}
    (hstart : respondedSessions start.ops = []) {status : Nat} {stage : FlowStage} {message : Str} {n : Nat}
    {response : ResponseContext}
    (h : response ∈ answers id (run world.act start
      ((acts ++ [EngineAct.recordFailure status stage message]).take n)).ops) :
    ∃ guard ops, (run world.act start acts).guard = some guard ∧
      response ∈ answers id (guard.recordFailure (world.view ops) status stage message world.elapsedMs) := by
  have hbefore : ∀ k, answers id (run world.act start (acts.take k)).ops = [] :=
    fun k => answers_quiet (fun a ha => hacts a (List.mem_of_mem_take ha)) hstart
  rw [run_take_append] at h
  cases hn : n - acts.length with
  | zero =>
    rw [hn, List.take_zero, run_nil, hbefore] at h
    cases h
  | succ k =>
    have hall : acts.take n = acts := List.take_of_length_le (by omega)
    have hnone := hbefore n
    rw [hn, List.take_succ_cons, List.take_nil, run_cons, run_nil, hall] at h
    rw [hall] at hnone
    generalize run world.act start acts = reached at h hnone ⊢
    obtain ⟨ops, guard⟩ := reached
    cases guard with
    | none =>
      rw [EngineWorld.act, answers_append, hnone] at h
      cases h
    | some guard =>
      rw [EngineWorld.act, answers_append, hnone] at h
      exact ⟨guard, ops, rfl, h⟩

/-- Operations which are enqueued behind quiet acts. -/
theorem answers_recording {acts : List EngineAct} (hacts : ∀ a ∈ acts, Quiet a) {start : EngineRun}
    (hstart : respondedSessions start.ops = []) (ops : List WriteOp) (n : Nat) :
    answers id (run world.act start ((acts ++ (ofOps ops ++ [EngineAct.disarm])).take n)).ops =
      answers id (ops.take (n - acts.length)) := by
  have hbefore : answers id (run world.act start (acts.take n)).ops = [] :=
    answers_quiet (fun a ha => hacts a (List.mem_of_mem_take ha)) hstart
  have hdisarm : ∀ (reached : EngineRun) k, (run world.act reached ([EngineAct.disarm].take k)).ops = reached.ops := by
    intro reached k
    cases k with
    | zero => rfl
    | succ k => rw [List.take_succ_cons, List.take_nil, run_cons, run_nil]; rfl
  rw [run_take_append, run_take_append, hdisarm, take_ofOps, run_ofOps]
  dsimp only
  rw [answers_append, hbefore, List.nil_append]

end

end Traces

end Oproxy
