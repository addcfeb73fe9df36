import Oproxy.Engine.Acts

/-!
# What the recorders of an exchange answer (`core/engine/mod.rs`)

Three ends of an exchange record a response: the response side of an upstream answer, the failure of a send, and the
answer of a middleware.  For each, the session which is answered and the point from which on it is.
-/

namespace Oproxy

namespace TerminalResponses

open ProxyEngine EngineAct

variable {world : EngineWorld} {id : Str}

/-! ### Recorders -/

theorem respondedSessions_take_of_none {ops : List WriteOp} (hops : ∀ op ∈ ops, op.respondsTo = none) (n : Nat) :
    respondedSessions (ops.take n) = [] := respondedSessions_eq_nil.2 fun op hop => hops op (List.mem_of_mem_take hop)

/-- Operations which answer a session, and no other, with the first of them. -/
def AnswersFirst (id : Str) (session : Option Str) (ops : List WriteOp) : Prop :=
  ∀ n, id ∈ respondedSessions (ops.take n) ↔ 0 < n ∧ session = some id

theorem answersFirst_cons (op : WriteOp) {ops : List WriteOp}
    (hops : ∀ op' ∈ ops, op'.respondsTo = none ∨ op'.respondsTo = op.respondsTo) :
    AnswersFirst id op.respondsTo (op :: ops) := by
  intro n
  cases n with
  | zero => simp
  | succ n =>
    rw [List.take_succ_cons]
    unfold respondedSessions
    rw [List.mem_filterMap]
    constructor
    · rintro ⟨op', hop', hid⟩
      refine ⟨Nat.succ_pos n, ?_⟩
      rcases List.mem_cons.1 hop' with rfl | hin
      · exact hid
      · rcases hops op' (List.mem_of_mem_take hin) with hnone | hsame
        · rw [hnone] at hid
          cases hid
        · rw [← hsame]
          exact hid
    · rintro ⟨-, hid⟩
      exact ⟨op, List.mem_cons_self, hid⟩

theorem answersFirst_nil {session : Option Str} (h : session ≠ some id) : AnswersFirst id session [] := by
  intro n
  simp [h]

theorem answersFirst_recordResponse {view : StoreView}
    (hopen : ∀ session, view.getSession id = some session → session.response = none) (response : ResponseContext)
    (size : Option Nat) : AnswersFirst id response.sessionId (recordResponseWithOptionalSize view response size) := by
  unfold recordResponseWithOptionalSize
  cases hsession : response.sessionId with
  | none => exact answersFirst_nil (by simp)
  | some sessionId =>
    dsimp only
    cases hview : view.getSession sessionId with
    | none => exact answersFirst_cons (.recordResponse sessionId response) (by simp)
    | some session =>
      dsimp only
      by_cases hanswered : session.response.isSome = true
      · rw [if_pos hanswered]
        refine answersFirst_nil fun heq => ?_
        cases heq
        rw [hopen session hview] at hanswered
        cases hanswered
      · rw [if_neg hanswered]
        refine answersFirst_cons (.recordResponseWithMetrics sessionId response _) fun op hop => Or.inl ?_
        split at hop
        · cases hop
        · rw [List.mem_singleton.1 hop]
          rfl

/-- The session under which the observers of the inspection record, if there are any. -/
def watchedSession (sent : RequestContext) : Option Str := if sent.skipRecording then none else sent.sessionId

theorem answersFirst_observers (maxRetained latencyMs : Nat) (sent : RequestContext) (head : ResponseContext)
    (chunks : List Bytes) :
    AnswersFirst id (watchedSession sent) ((InspectionObserver.ofRequest maxRetained sent).flatMap fun obs =>
      (chunks.foldl InspectionObserver.onChunk (obs.onResponseHead head)).finish latencyMs) := by
  have hkept : ∀ (chunks : List Bytes) (obs : InspectionObserver),
      (chunks.foldl InspectionObserver.onChunk obs).responseHead = obs.responseHead ∧
        (chunks.foldl InspectionObserver.onChunk obs).sessionId = obs.sessionId := by
    intro chunks
    induction chunks with
    | nil => exact fun obs => ⟨rfl, rfl⟩
    | cons chunk chunks ih =>
      intro obs
      rw [List.foldl_cons, (ih _).1, (ih _).2]
      exact ⟨rfl, rfl⟩
  -- one observer records under its session, and annotates it
  have hone : ∀ obs : InspectionObserver, ∃ response metrics rest,
      (chunks.foldl InspectionObserver.onChunk (obs.onResponseHead head)).finish latencyMs =
        .recordResponseWithMetrics obs.sessionId response metrics :: rest ∧ ∀ op ∈ rest, op.respondsTo = none := by
    intro obs
    have hhead := (hkept chunks (obs.onResponseHead head)).1
    have hsession := (hkept chunks (obs.onResponseHead head)).2
    unfold InspectionObserver.finish
    rw [hhead, hsession]
    refine ⟨_, _, _, rfl, ?_⟩
    intro op hop
    split at hop
    · cases hop
    · rw [List.mem_singleton.1 hop]
      rfl
  unfold watchedSession InspectionObserver.ofRequest
  by_cases hskip : sent.skipRecording = true
  · rw [if_pos hskip, if_pos hskip]
    exact answersFirst_nil (by simp)
  · rw [if_neg hskip, if_neg hskip]
    cases hsession : sent.sessionId with
    | none => exact answersFirst_nil (by simp)
    | some sessionId =>
      obtain ⟨response, metrics, rest, hfinish, hrest⟩ := hone (InspectionObserver.new sessionId maxRetained)
      have hnew : (InspectionObserver.new sessionId maxRetained).sessionId = sessionId := rfl
      rw [hnew] at hfinish
      simp only [List.flatMap_cons, List.flatMap_nil, List.append_nil, hfinish, List.cons_append]
      refine answersFirst_cons (.recordResponseWithMetrics sessionId response metrics) ?_
      intro op hop
      rcases List.mem_append.1 hop with h | h
      · exact Or.inl (hrest op h)
      · rcases List.mem_cons.1 h with rfl | h
        · exact Or.inr rfl
        · exact Or.inl (hrest op h)

theorem recordedRequest_recordResponse (view : StoreView) (response : ResponseContext) (size : Option Nat) :
    ∀ op ∈ recordResponseWithOptionalSize view response size, op.recordedRequest = none := by
  intro op hop
  unfold recordResponseWithOptionalSize at hop
  split at hop
  · cases hop
  · split at hop
    · rw [List.mem_singleton.1 hop]
      rfl
    · split at hop
      · cases hop
      · rcases List.mem_cons.1 hop with rfl | h
        · rfl
        · split at h
          · cases h
          · rw [List.mem_singleton.1 h]
            rfl

theorem recordedRequest_observers (observers : List InspectionObserver) (head : ResponseContext) (chunks : List Bytes)
    (latencyMs : Nat) : ∀ op ∈ observers.flatMap fun obs =>
      (chunks.foldl InspectionObserver.onChunk (obs.onResponseHead head)).finish latencyMs,
        op.recordedRequest = none := by
  intro op hop
  obtain ⟨obs, -, hop⟩ := List.mem_flatMap.1 hop
  unfold InspectionObserver.finish at hop
  split at hop
  · cases hop
  · rcases List.mem_cons.1 hop with rfl | h
    · rfl
    · split at h
      · cases h
      · rw [List.mem_singleton.1 h]
        rfl

/-! ### The upstream answers -/

section

variable (engine : ProxyEngine) (world : EngineWorld) (rules : RecordingRules) (fwd : Forwarded)
  (res : UpstreamResponse)
  (body : ArrivingBody)

/-- The context which the response chain of a buffered exchange starts from. -/
def exchangeContext : ResponseContext :=
  if engine.streamsResponse res then responseContext fwd res (responseHeaders res) [] true
  else
    let (headers, decoded) := decodedResponseBody world.codecs (responseHeaders res) (body.read.getD [])
    responseContext fwd res headers decoded false

/-- The context which the response chain starts from. -/
def startedContext : ForwardClass → ResponseContext
  | .buffered => exchangeContext engine world fwd res body
  | .streaming => streamContext fwd res

/-- The session under which a response is recorded which the chain has let pass; none where no head can be built. -/
def recordedUnder (forwardClass : ForwardClass) (ctx : ResponseContext) : Option (Option Str) :=
  match forwardClass with
  | .buffered =>
    if engine.streamsResponse res && !decide (∀ f ∈ ctx.headers.entries, FieldAllowed f) then none
      else some ctx.sessionId
  | .streaming =>
    if engine.normalizesCoding ctx.headers res then
      some (if (readCapped engine.maxBodyBytes [] body.chunks).2 then ctx.sessionId else watchedSession fwd.sent)
    else
      let headers :=
        if (world.observers fwd.sent).isEmpty then ctx.headers else removeHeader ctx.headers "content-length"
      if ∀ f ∈ headers.entries, FieldAllowed f then some (watchedSession fwd.sent) else none

variable {engine world rules fwd res body}

theorem ending_started (forwardClass : ForwardClass) (view : StoreView) :
    (engine.ending world rules forwardClass fwd res body view).started =
      startedContext engine world fwd res body forwardClass := by
  cases forwardClass with
  | buffered =>
    unfold ending startedContext exchangeContext endExchange
    dsimp only
    by_cases hstreams : engine.streamsResponse res = true
    · rw [if_pos hstreams, if_pos hstreams]
      unfold endTeed
      dsimp only
      split <;> rfl
    · rw [if_neg hstreams, if_neg hstreams]
      unfold endBuffered
      dsimp only
      split <;> rfl
  | streaming =>
    unfold ending startedContext endStream
    dsimp only
    split
    · split
      · unfold endCoded
        split <;> rfl
      · rfl
    · rfl

theorem ending_stopped {forwardClass : ForwardClass} {ctx : ResponseContext}
    (h : MiddlewareChain.executeResponse (rules.production.chain world.recording.surroundings)
      (startedContext engine world fwd res body forwardClass) = (ctx, .stopAndReturn)) (view : StoreView) :
    ∃ message, (engine.ending world rules forwardClass fwd res body view).recording = .stopped ctx message := by
  cases forwardClass with
  | buffered =>
    unfold startedContext exchangeContext at h
    unfold ending endExchange
    dsimp only at h ⊢
    by_cases hstreams : engine.streamsResponse res = true
    · rw [if_pos hstreams] at h ⊢
      unfold endTeed
      dsimp only
      rw [h]
      exact ⟨_, rfl⟩
    · rw [if_neg hstreams] at h ⊢
      unfold endBuffered
      dsimp only
      rw [h]
      exact ⟨_, rfl⟩
  | streaming =>
    unfold startedContext at h
    unfold ending endStream
    dsimp only at h ⊢
    rw [h]
    exact ⟨_, rfl⟩

theorem ending_dropped {forwardClass : ForwardClass} {ctx : ResponseContext}
    (h : MiddlewareChain.executeResponse (rules.production.chain world.recording.surroundings)
      (startedContext engine world fwd res body forwardClass) = (ctx, .proceed))
    (hunder : recordedUnder engine world fwd res body forwardClass ctx = none) (view : StoreView) :
    (engine.ending world rules forwardClass fwd res body view).recording = .dropped := by
  cases forwardClass with
  | buffered =>
    unfold recordedUnder at hunder
    dsimp only at hunder
    split at hunder
    · rename_i hbroken
      rw [Bool.and_eq_true, Bool.not_eq_true', decide_eq_false_iff_not] at hbroken
      obtain ⟨hstreams, hallowed⟩ := hbroken
      unfold startedContext exchangeContext at h
      dsimp only at h
      rw [if_pos hstreams] at h
      unfold ending endExchange
      dsimp only
      rw [if_pos hstreams]
      unfold endTeed
      dsimp only
      rw [h]
      dsimp only
      rw [if_neg (mt (BrokenBodies.builderHeaders_isSome ctx).1 hallowed)]
    · cases hunder
  | streaming =>
    unfold recordedUnder at hunder
    dsimp only at hunder
    split at hunder
    · cases hunder
    · rename_i hcoding
      unfold startedContext at h
      dsimp only at h
      unfold ending endStream
      dsimp only
      rw [h]
      dsimp only
      rw [if_neg hcoding]
      unfold endRelayed
      dsimp only
      generalize (if (world.observers fwd.sent).isEmpty = true then ctx.headers
        else removeHeader ctx.headers "content-length") = headers at hunder ⊢
      by_cases hallowed : ∀ f ∈ headers.entries, FieldAllowed f
      · rw [if_pos hallowed] at hunder
        cases hunder
      · rw [if_neg (mt (BrokenBodies.builderHeaders_isSome _).1 hallowed)]

theorem ending_recorded {forwardClass : ForwardClass} {ctx : ResponseContext} {session : Option Str}
    (h : MiddlewareChain.executeResponse (rules.production.chain world.recording.surroundings)
      (startedContext engine world fwd res body forwardClass) = (ctx, .proceed))
    (hunder : recordedUnder engine world fwd res body forwardClass ctx = some session) (view : StoreView) (id : Str) :
    ∃ ops, (engine.ending world rules forwardClass fwd res body view).recording = .recorded ops ∧
      (∀ op ∈ ops, op.recordedRequest = none) ∧
      ((∀ exchange, view.getSession id = some exchange → exchange.response = none) → AnswersFirst id session ops) := by
  cases forwardClass with
  | buffered =>
    unfold startedContext exchangeContext at h
    unfold recordedUnder at hunder
    unfold ending endExchange
    dsimp only at h hunder ⊢
    -- a response may be streamed on the buffered path as well
    by_cases hstreams : engine.streamsResponse res = true
    · rw [if_pos hstreams] at h ⊢
      rw [hstreams, Bool.true_and] at hunder
      split at hunder
      · cases hunder
      · rename_i hallowed
        rw [Bool.not_eq_true', decide_eq_false_iff_not, not_not] at hallowed
        cases hunder
        unfold endTeed
        dsimp only
        rw [h]
        dsimp only
        rw [if_pos ((BrokenBodies.builderHeaders_isSome ctx).2 hallowed)]
        exact ⟨_, rfl, recordedRequest_recordResponse _ _ _, fun hopen => answersFirst_recordResponse hopen _ _⟩
    · rw [if_neg hstreams] at h ⊢
      rw [(Bool.not_eq_true _).mp hstreams, Bool.false_and] at hunder
      cases hunder
      unfold endBuffered
      dsimp only
      rw [h]
      exact ⟨_, rfl, recordedRequest_recordResponse _ _ _, fun hopen => answersFirst_recordResponse hopen _ _⟩
  | streaming =>
    unfold startedContext at h
    unfold recordedUnder at hunder
    unfold ending endStream
    dsimp only at h hunder ⊢
    rw [h]
    dsimp only
    -- a coded body is read whole, to be decoded, and any other is relayed
    by_cases hcoding : engine.normalizesCoding ctx.headers res = true
    · rw [if_pos hcoding] at hunder ⊢
      cases hunder
      unfold endCoded
      rcases readCapped engine.maxBodyBytes [] body.chunks with ⟨raw, _ | _⟩
      · exact ⟨_, rfl, recordedRequest_observers _ _ [(decodedResponseBody world.codecs ctx.headers raw).2] _,
          fun _ => answersFirst_observers _ _ fwd.sent _ [(decodedResponseBody world.codecs ctx.headers raw).2]⟩
      · exact ⟨_, rfl, recordedRequest_recordResponse _ _ _, fun hopen => answersFirst_recordResponse hopen _ _⟩
    · rw [if_neg hcoding] at hunder ⊢
      unfold endRelayed
      dsimp only
      generalize (if (world.observers fwd.sent).isEmpty = true then ctx.headers
        else removeHeader ctx.headers "content-length") = headers at hunder ⊢
      by_cases hallowed : ∀ f ∈ headers.entries, FieldAllowed f
      · rw [if_pos hallowed] at hunder
        cases hunder
        rw [if_pos ((BrokenBodies.builderHeaders_isSome _).2 hallowed)]
        exact ⟨_, rfl, recordedRequest_observers _ _ _ _, fun _ => answersFirst_observers _ _ fwd.sent _ _⟩
      · rw [if_neg hallowed] at hunder
        cases hunder

end

/-! ### The upstream does not answer -/

section

variable {rules : RecordingRules}

/-- A pause of a response neither records a request nor answers one. -/
theorem responsePauseOps_quiet (recording : RecordingWorld) (response : ResponseContext) :
    ∀ op ∈ rules.responsePauseOps recording response, op.recordedRequest = none ∧ op.respondsTo = none := by
  intro op hop
  unfold RecordingRules.responsePauseOps at hop
  split at hop
  · unfold Breakpoints.responsePauseOps at hop
    split at hop
    · simp only [List.mem_cons, List.not_mem_nil, or_false] at hop
      rcases hop with rfl | rfl | rfl <;> exact ⟨rfl, rfl⟩
    · cases hop
  · cases hop

/-- A response of which nobody has said that its recording is his, and which has no tags. -/
structure Unmarked (ctx : ResponseContext) : Prop where
  engine : ctx.terminalRecordingPending = false
  observer : ctx.responseBodyObserverPending = false
  tags : ctx.tags = []

theorem unmarked_failedContext (head : RequestHead) (sent : RequestContext) (upstream : PreparedUpstream) (cause : Str)
    (ttfbMs : Nat) : Unmarked (failedContext head sent upstream cause ttfbMs) ∧
      (failedContext head sent upstream cause ttfbMs).sessionId = upstream.sessionId := by
  unfold failedContext
  rw [ResponseContext.extendFlow_frame]
  exact ⟨⟨rfl, rfl, rfl⟩, rfl⟩

theorem unmarked_scripts (vm : LuaVm) (scripts : List LuaScript) {ctx : ResponseContext} (h : Unmarked ctx) :
    Unmarked (LuaEngine.onResponse vm scripts ctx).1 ∧
      (LuaEngine.onResponse vm scripts ctx).1.sessionId = ctx.sessionId := by
  unfold LuaEngine.onResponse
  split
  · exact ⟨h, rfl⟩
  · exact ⟨⟨h.engine, h.observer, h.tags⟩, rfl⟩

/-- The inspection leaves such a response as it is, and records it if the store shows an open session. -/
theorem inspection_onResponse {ctx : ResponseContext} (hctx : Unmarked ctx) (view : StoreView) :
    ∃ metrics : Exchange → InspectionMetrics, Inspection.onResponse view ctx =
      match ctx.sessionId.bind view.getSession with
      | none => (ctx, [])
      | some session =>
        if session.response.isSome then (ctx, [])
        else (ctx, [.recordResponseWithMetrics session.id ctx (metrics session)]) := by
  obtain ⟨hengine, hobserver, htags⟩ := hctx
  cases ctx
  dsimp only at hengine hobserver htags
  subst hengine hobserver htags
  exact ⟨_, rfl⟩

theorem inspection_frame {ctx : ResponseContext} (hctx : Unmarked ctx) (view : StoreView) :
    (Inspection.onResponse view ctx).1 = ctx ∧
      ∀ op ∈ (Inspection.onResponse view ctx).2, op.recordedRequest = none := by
  obtain ⟨metrics, heq⟩ := inspection_onResponse hctx view
  rw [heq]
  split
  · exact ⟨rfl, by simp⟩
  · split
    · exact ⟨rfl, by simp⟩
    · refine ⟨rfl, ?_⟩
      intro op hop
      rw [List.mem_singleton.1 hop]
      rfl

/-- It answers the session of the response if the store shows it. -/
theorem answersFirst_inspection
    (hkeyed : ∀ ops id session, (world.view ops).getSession id = some session → session.id = id)
    {ctx : ResponseContext} (hctx : Unmarked ctx) {ops : List WriteOp} (hfresh : Fresh world id)
    (hops : id ∉ respondedSessions ops) :
    AnswersFirst id (ctx.sessionId.filter fun sessionId => ((world.view ops).getSession sessionId).isSome)
      (Inspection.onResponse (world.view ops) ctx).2 := by
  obtain ⟨metrics, heq⟩ := inspection_onResponse hctx (world.view ops)
  rw [heq]
  cases hsession : ctx.sessionId with
  | none => exact answersFirst_nil (by simp)
  | some sessionId =>
    rw [Option.bind_some]
    cases hview : (world.view ops).getSession sessionId with
    | none => exact answersFirst_nil (by simp [Option.filter, hview])
    | some session =>
      dsimp only
      by_cases hanswered : session.response.isSome = true
      · rw [if_pos hanswered]
        apply answersFirst_nil
        simp only [Option.filter, hview, Option.isSome_some, if_true, ne_eq, Option.some.injEq]
        rintro rfl
        exact hops (hfresh ops session hview hanswered)
      · rw [if_neg hanswered]
        simp only [Option.filter, hview, Option.isSome_some, if_true]
        rw [← hkeyed ops sessionId session hview]
        exact answersFirst_cons (.recordResponseWithMetrics session.id ctx _) (by simp)

/-- What the two passes of the inspection enqueue. -/
def inspectionOps (world : EngineWorld) (rules : RecordingRules) (before : List WriteOp) (failed : ResponseContext) :
    List WriteOp × List WriteOp :=
  let scripted := (LuaEngine.onResponse world.recording.surroundings.vm rules.production.scripts failed).1
  let first := (Inspection.onResponse (world.view before) failed).2
  (first, (Inspection.onResponse (world.view (before ++ first)) scripted).2)

theorem failureRun_eq {failed : ResponseContext} (hfailed : Unmarked failed) (before : List WriteOp) :
    failureRun world rules before failed =
      ((MiddlewareChain.executeResponse (rules.production.chain world.recording.surroundings) failed).1,
        (inspectionOps world rules before failed).1 ++ (inspectionOps world rules before failed).2 ++
          rules.responsePauseOps world.recording failed) := by
  have hproceeds := ContentLength.onResponse_scripts_proceeds world.recording.surroundings.vm rules.production.scripts
    failed
  have hunmarked := (unmarked_scripts world.recording.surroundings.vm rules.production.scripts hfailed).1
  unfold failureRun failureChain inspectionOps RecordingRules.responsePauseOps
  rw [ProductionRules.executeResponse_chain]
  rcases hscripts : LuaEngine.onResponse world.recording.surroundings.vm rules.production.scripts failed with
    ⟨scripted, action⟩
  rw [hscripts] at hproceeds hunmarked
  cases hproceeds
  have hfirst := (inspection_frame hfailed (world.view before)).1
  have hsecond := (inspection_frame hunmarked
    (world.view (before ++ (Inspection.onResponse (world.view before) failed).2))).1
  simp only [MiddlewareChain.execute, List.append_nil, List.nil_append, hfirst, hscripts, hsecond]
  rcases Breakpoints.onResponse world.recording.surroundings.regex rules.production.breakpoints
    world.recording.surroundings.onPausedResponse scripted with ⟨left, _ | _⟩
  · dsimp only
    rcases UnifiedRewrite.onResponse world.recording.surroundings.regex rules.production.routing.rewrite left with
      ⟨rewritten, _ | _⟩ <;> rfl
  · rfl

theorem filter_shown_iff (view : StoreView) (session : Option Str) :
    (session.filter fun sessionId => (view.getSession sessionId).isSome) = some id ↔
      session = some id ∧ (view.getSession id).isSome = true := Option.filter_eq_some_iff

/-- A session which the store does not show is not answered by the first inspection. -/
theorem inspectionOps_of_unseen {failed : ResponseContext} (hfailed : Unmarked failed) {before : List WriteOp}
    (hid : failed.sessionId = some id) (hunseen : (world.view before).getSession id = none) :
    (inspectionOps world rules before failed).1 = [] := by
  unfold inspectionOps Inspection.onResponse
  rw [hfailed.engine, hfailed.observer, hid]
  simp [hunseen]

/-- When the upstream fails, the inspection answers the session if the store shows it, and the engine answers the
session which the response chain has left. -/
theorem mem_respondedSessions_failureOps
    (hkeyed : ∀ ops id session, (world.view ops).getSession id = some session → session.id = id)
    (hfresh : Fresh world id) {failed : ResponseContext} (hfailed : Unmarked failed) {before : List WriteOp}
    (hbefore : respondedSessions before = []) (n : Nat) :
    id ∈ respondedSessions ((failureOps world rules before failed).take n) ↔
      (0 < n ∧ failed.sessionId = some id ∧ ((world.view before).getSession id).isSome = true) ∨
        ((failureRun world rules before failed).2.length < n ∧
          (MiddlewareChain.executeResponse (rules.production.chain world.recording.surroundings) failed).1.sessionId =
            some id) := by
  obtain ⟨hscripted, hsession⟩ := unmarked_scripts world.recording.surroundings.vm rules.production.scripts hfailed
  have hunseen : failed.sessionId = some id → (world.view before).getSession id = none →
      (inspectionOps world rules before failed).1 = [] := inspectionOps_of_unseen hfailed
  have hfirst : AnswersFirst id (failed.sessionId.filter fun sessionId =>
    ((world.view before).getSession sessionId).isSome)
      (inspectionOps world rules before failed).1 :=
    answersFirst_inspection hkeyed hfailed hfresh (by rw [hbefore]; exact List.not_mem_nil)
  have hsecond : id ∉ respondedSessions (before ++ (inspectionOps world rules before failed).1) →
      AnswersFirst id (failed.sessionId.filter fun sessionId =>
        ((world.view (before ++ (inspectionOps world rules before failed).1)).getSession sessionId).isSome)
        (inspectionOps world rules before failed).2 := by
    rw [← hsession]
    exact answersFirst_inspection hkeyed hscripted hfresh
  have hquiet : ∀ op ∈ rules.responsePauseOps world.recording failed, op.respondsTo = none :=
    fun op hop => (responsePauseOps_quiet world.recording failed op hop).2
  unfold failureOps
  rw [failureRun_eq hfailed before]
  dsimp only
  generalize inspectionOps world rules before failed = inspected at hunseen hfirst hsecond ⊢
  obtain ⟨first, second⟩ := inspected
  dsimp only at hunseen hfirst hsecond ⊢
  generalize rules.responsePauseOps world.recording failed = pauses at hquiet ⊢
  generalize (MiddlewareChain.executeResponse (rules.production.chain world.recording.surroundings) failed).1 = final
  rw [List.take_append, respondedSessions_append, List.mem_append, List.take_append, List.take_append,
    respondedSessions_append, respondedSessions_append, respondedSessions_take_of_none hquiet, List.append_nil,
    List.mem_append, hfirst, filter_shown_iff]
  by_cases hshown : failed.sessionId = some id ∧ ((world.view before).getSession id).isSome = true
  · -- the first inspection answers at once, and nothing is enqueued before it
    rw [and_iff_left hshown]
    constructor
    · rintro ((h | h) | h)
      · exact Or.inl h
      · refine Or.inl (Nat.pos_of_ne_zero fun hzero => ?_)
        simp [hzero] at h
      · refine Or.inl (Nat.pos_of_ne_zero fun hzero => ?_)
        simp [hzero] at h
    · rintro (h | ⟨h, -⟩)
      · exact Or.inl (Or.inl h)
      · exact Or.inl (Or.inl (Nat.lt_of_le_of_lt (Nat.zero_le _) h))
  · have hfirstNone : id ∉ respondedSessions first := by
      intro hin
      have htaken := (hfirst first.length).1 (by rwa [List.take_length])
      exact hshown ((filter_shown_iff _ _).1 htaken.2)
    have hsecond := hsecond (by rw [respondedSessions_append, hbefore]; exact hfirstNone)
    -- a session which the store does not show to the first inspection it does not show to the second
    have hsecondNone : ∀ k, id ∉ respondedSessions (second.take k) := by
      intro k hin
      obtain ⟨-, hvisible⟩ := (hsecond k).1 hin
      obtain ⟨hid, hlate⟩ := (filter_shown_iff _ _).1 hvisible
      have hnone : (world.view before).getSession id = none := by
        by_contra hsome
        exact hshown ⟨hid, Option.isSome_iff_ne_none.2 hsome⟩
      rw [hunseen hid hnone, List.append_nil, hnone] at hlate
      cases hlate
    have hunanswered : id ∉ respondedSessions (before ++ (first ++ second ++ pauses)) := by
      rw [respondedSessions_append, respondedSessions_append, respondedSessions_append, hbefore,
        respondedSessions_eq_nil.2 hquiet, List.nil_append, List.append_nil, List.mem_append]
      rintro (h | h)
      · exact hfirstNone h
      · exact hsecondNone second.length (by rwa [List.take_length])
    rw [recordShortCircuitResponse_eq, answersFirst_recordResponse (hfresh.open hunanswered) final none]
    constructor
    · rintro ((h | h) | ⟨hlt, h⟩)
      · exact Or.inl h
      · exact absurd h (hsecondNone _)
      · exact Or.inr ⟨by omega, h⟩
    · rintro (h | ⟨hlt, h⟩)
      · exact Or.inl (Or.inl h)
      · exact Or.inr ⟨by omega, h⟩

/-- What is enqueued for a failure records no request. -/
theorem recordedRequest_failureOps {failed : ResponseContext} (hfailed : Unmarked failed) (before : List WriteOp) :
    ∀ op ∈ failureOps world rules before failed, op.recordedRequest = none := by
  have hscripted := (unmarked_scripts world.recording.surroundings.vm rules.production.scripts hfailed).1
  intro op hop
  unfold failureOps at hop
  rw [failureRun_eq hfailed before] at hop
  dsimp only at hop
  rcases List.mem_append.1 hop with hop | hop
  · rcases List.mem_append.1 hop with hop | hop
    · rcases List.mem_append.1 hop with hop | hop
      · exact (inspection_frame hfailed _).2 op hop
      · exact (inspection_frame hscripted _).2 op hop
    · exact (responsePauseOps_quiet world.recording failed op hop).1
  · rw [recordShortCircuitResponse_eq] at hop
    exact recordedRequest_recordResponse _ _ _ op hop

/-! ### A middleware answers -/

/-- The answer of a middleware is recorded behind the response chain, if that lets it pass. -/
theorem mem_respondedSessions_take_interceptedOps {world : RecordingWorld} {view : StoreView}
    (hopen : ∀ session, view.getSession id = some session → session.response = none) (intercepted : InterceptedResponse)
    (request : RequestContext) (displayUri host method : Str) (n : Nat) :
    id ∈ respondedSessions ((rules.interceptedOps world view intercepted request displayUri host method).take n) ↔
      (rules.responsePauseOps world (interceptedContext intercepted request displayUri host method true)).length < n ∧
        ∃ response, MiddlewareChain.executeResponse (rules.production.chain world.surroundings)
          (interceptedContext intercepted request displayUri host method true) = (response, .proceed) ∧
            response.sessionId = some id := by
  have hpauses : ∀ response k, respondedSessions ((rules.responsePauseOps world response).take k) = [] :=
    fun response => respondedSessions_take_of_none fun op hop => (responsePauseOps_quiet world response op hop).2
  unfold RecordingRules.interceptedOps
  dsimp only
  rw [List.take_append, respondedSessions_append, hpauses, List.nil_append]
  rcases MiddlewareChain.executeResponse (rules.production.chain world.surroundings)
    (interceptedContext intercepted request displayUri host method true) with ⟨response, _ | _⟩
  · dsimp only
    rw [List.take_append, respondedSessions_append, List.mem_append, or_iff_left, recordShortCircuitResponse_eq,
      answersFirst_recordResponse hopen response none]
    constructor
    · rintro ⟨hlt, hid⟩
      exact ⟨by omega, response, rfl, hid⟩
    · rintro ⟨hlt, response', heq, hid⟩
      cases heq
      exact ⟨by omega, hid⟩
    · -- the event of the mock answers nothing
      intro hin
      rw [respondedSessions_take_of_none] at hin
      · cases hin
      · intro op hop
        split at hop
        · rw [List.mem_singleton.1 hop]
          rfl
        · cases hop
  · dsimp only
    constructor
    · intro h
      simp at h
    · rintro ⟨-, response', heq, -⟩
      cases heq

end

end TerminalResponses

end Oproxy
