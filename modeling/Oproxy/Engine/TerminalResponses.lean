import Oproxy.Engine.RecordedAnswers

/-!
# Every recorded request gets a response (`core/engine/mod.rs`)

A session which an exchange has recorded is answered by the guard, as long as that is armed for it, or by what has been
recorded as its response.  The guard is armed when the request chain is through, long after the breakpoints and the
inspection have recorded the request, and is put away when a response has been recorded, under whatever session.
-/

namespace Oproxy

open Machine

/-- Every session which is recorded has its response. -/
def EveryRequestAnswered (ops : List WriteOp) : Prop :=
  ∀ id ∈ (recordedRequests ops).map Prod.fst, id ∈ respondedSessions ops

namespace TerminalResponses

open ProxyEngine EngineAct

/-- The store shows its sessions under their ids, and the ids which an exchange makes up are new. -/
structure MakesUpIds (world : EngineWorld) : Prop where
  keyed : ∀ ops id session, (world.view ops).getSession id = some session → session.id = id
  paused : Fresh world world.recording.surroundings.freshId
  inspected : Fresh world world.recording.inspectionId

variable {world : EngineWorld} {id : Str}

/-! ### The request chain -/

theorem recordedRequests_take_cons {op : WriteOp} {ops : List WriteOp} (hops : ∀ op ∈ ops, op.recordedRequest = none)
    (n : Nat) : recordedRequests ((op :: ops).take n) = if 0 < n then op.recordedRequest.toList else [] := by
  cases n with
  | zero => rfl
  | succ n =>
    have hrest : recordedRequests (ops.take n) = [] :=
      recordedRequests_eq_nil.2 fun op hop => hops op (List.mem_of_mem_take hop)
    rw [if_pos (Nat.succ_pos n), List.take_succ_cons]
    unfold recordedRequests at hrest ⊢
    rw [List.filterMap_cons, hrest]
    cases op.recordedRequest <;> rfl

/-- The first `n` acts of an exchange go beyond the pause of a request. -/
def PauseOver (world : RecordingWorld) (rules : RecordingRules) (arrived : RequestContext) (n : Nat) : Prop :=
  (rules.pause world arrived).2.length < n

/-- A session is recorded by the first acts of an exchange: where a rule pauses the request, and where the inspection
opens a session behind the breakpoints. -/
def RecordedWithin (world : RecordingWorld) (rules : RecordingRules) (ctx : RequestContext) (n : Nat) (id : Str) :
    Prop :=
  ∃ arrived, rules.admitted world ctx = (arrived, .proceed) ∧
    ((Breakpoints.firstMatch world.surroundings.regex rules.production.breakpoints .request
        (MatchTarget.fromRequest arrived)).isSome = true ∧ id = world.surroundings.freshId ∧ 0 < n ∨
      ∃ left, rules.paused world arrived = (left, .proceed) ∧
        Inspection.opens (RecordingRules.inspectors world left).1 = true ∧ id = world.inspectionId ∧
        PauseOver world rules arrived n)

/-- A request is recorded as soon as a rule pauses it. -/
theorem recordedRequests_take_pause {world : RecordingWorld} {rules : RecordingRules} {arrived : RequestContext}
    (hsession : arrived.sessionId = none) (n : Nat) :
    id ∈ (recordedRequests ((rules.pause world arrived).2.take n)).map Prod.fst ↔
      (Breakpoints.firstMatch world.surroundings.regex rules.production.breakpoints .request
        (MatchTarget.fromRequest arrived)).isSome = true ∧ id = world.surroundings.freshId ∧ 0 < n := by
  have hfresh : Breakpoints.pausedSession world.surroundings.freshId arrived = world.surroundings.freshId := by
    unfold Breakpoints.pausedSession
    rw [hsession]
    rfl
  have hops : (rules.pause world arrived).2 = Breakpoints.pauseOps world.surroundings.regex rules.production.breakpoints
    world.surroundings.freshId world.breakpointId arrived := rfl
  rw [hops]
  unfold Breakpoints.pauseOps
  split
  · rename_i hmatch
    simp [hmatch]
  · rename_i rule hmatch
    dsimp only
    rw [hfresh, recordedRequests_take_cons (by simp [WriteOp.recordedRequest]), hmatch]
    split <;> simp_all [WriteOp.recordedRequest]

/-- Behind the breakpoints a request is recorded as soon as the inspection opens a session. -/
theorem recordedRequests_take_inspected {world : RecordingWorld} (left : RequestContext) (n : Nat) :
    id ∈ (recordedRequests ((RecordingRules.inspected world left).2.take n)).map Prod.fst ↔
      Inspection.opens (RecordingRules.inspectors world left).1 = true ∧ id = world.inspectionId ∧ 0 < n := by
  unfold RecordingRules.inspected
  by_cases hopens : Inspection.opens (RecordingRules.inspectors world left).1 = true
  · have hrest : ∀ op ∈ Inspection.inspectorOps world.inspectionId (RecordingRules.inspectors world left).1.inspector,
        op.recordedRequest = none := by
      intro op hop
      unfold Inspection.inspectorOps at hop
      split at hop
      · rw [List.mem_singleton.1 hop]
        rfl
      · cases hop
    rw [Inspection.onRequest_of_opens hopens]
    dsimp only
    rw [recordedRequests_take_cons hrest]
    split <;> simp_all [WriteOp.recordedRequest]
  · rw [Inspection.onRequest_of_not_opens ((Bool.not_eq_true _).mp hopens)]
    simp [hopens]

theorem recordedRequests_take_run {world : RecordingWorld} {rules : RecordingRules} {ctx : RequestContext}
    (hsession : ctx.sessionId = none) (n : Nat) :
    id ∈ (recordedRequests ((rules.run world ctx).1.ops.take n)).map Prod.fst ↔
      RecordedWithin world rules ctx n id := by
  unfold RecordedWithin PauseOver
  rw [RecordingRules.run_eq]
  rcases hadmitted : rules.admitted world ctx with ⟨arrived, _ | _⟩
  · have harrived := (RecordingRules.admitted_channel hadmitted).1.trans hsession
    rcases hpaused : rules.paused world arrived with ⟨left, _ | _⟩
    · dsimp only
      rw [hpaused]
      dsimp only
      rw [List.take_append, recordedRequests_append, List.map_append, List.mem_append,
        recordedRequests_take_pause harrived, recordedRequests_take_inspected]
      constructor
      · rintro (h | ⟨hopens, hid, hlt⟩)
        · exact ⟨arrived, rfl, Or.inl h⟩
        · exact ⟨arrived, rfl, Or.inr ⟨left, hpaused, hopens, hid, by omega⟩⟩
      · rintro ⟨arrived', heq, h⟩
        cases heq
        rcases h with h | ⟨left', heq, hopens, hid, hlt⟩
        · exact Or.inl h
        · rw [hpaused] at heq
          cases heq
          exact Or.inr ⟨hopens, hid, by omega⟩
    · dsimp only
      rw [hpaused]
      dsimp only
      rw [recordedRequests_take_pause harrived]
      constructor
      · exact fun h => ⟨arrived, rfl, Or.inl h⟩
      · rintro ⟨arrived', heq, h⟩
        cases heq
        rcases h with h | ⟨left', heq, -⟩
        · exact h
        · rw [hpaused] at heq
          cases heq
  · simp

/-! ### When a session is answered -/

section

variable (engine : ProxyEngine) (world : EngineWorld) (rules : RecordingRules) (req : IncomingRequest)
  (mitmDestination : Option Str) (forwardClass : ForwardClass)

/-- How far a run has come when it ends: the request chain or the answer of a middleware is under way; the guard is
armed and nothing is recorded as the response; a response is recorded and the guard still armed; everything is done. -/
inductive Progress where
  | asking
  | guarded
  | recording
  | over

/-- The run has recorded its response. -/
def Progress.Recorded (progress : Progress) : Prop := progress = .recording ∨ progress = .over

/-- Behind the request chain, the acts before the one which records a response; none where it is left to the guard. -/
def recordingAct (after : Recording) : Option Nat :=
  let chain := rules.production.chain world.recording.surroundings
  let head := engine.buildRequestHead req mitmDestination
  match engine.prepareUpstream world.parse after.ctx req.uri head.reqUri with
  | (_, .error _) => none
  | (sent, .ok upstream) =>
    let sent := sent.pushFlow (.forwarded upstream.url)
    match world.answer with
    | .failure cause ttfbMs =>
      some (1 + (failureRun world rules after.ops (failedContext head sent upstream cause ttfbMs)).2.length)
    | .response res body ttfbMs bodyMs =>
      let fwd := engine.forwarded world req mitmDestination sent ttfbMs bodyMs
      let started := startedContext engine world fwd res body forwardClass
      match MiddlewareChain.executeResponse chain started with
      | (_, .stopAndReturn) => none
      | (ctx, .proceed) =>
        (recordedUnder engine world fwd res body forwardClass ctx).map fun _ =>
          2 + (rules.responsePauseOps world.recording started).length

/-- How far a run has come with `m` acts behind the arming of the guard. -/
def forwardProgress (after : Recording) (m : Nat) : Progress :=
  if (engine.forwardActs world rules req mitmDestination forwardClass after).length ≤ m then .over
  else if (recordingAct engine world rules req mitmDestination forwardClass after).any fun k => decide (k < m) then
    .recording
  else .guarded

/-- How far a run has come with `n` acts. -/
def progress (ctx : RequestContext) (n : Nat) : Progress :=
  let head := engine.buildRequestHead req mitmDestination
  match rules.run world.recording ctx with
  | (after, .proceed) =>
    if n ≤ after.ops.length then .asking
    else forwardProgress engine world rules req mitmDestination forwardClass after (n - after.ops.length - 1)
  | (after, .stopAndReturn) =>
    let pauses := (after.ctx.mockResponse.map fun intercepted => rules.responsePauseOps world.recording
      (interceptedContext intercepted after.ctx head.displayUri head.host head.method true)).getD []
    if n ≤ after.ops.length + pauses.length then .asking else .over

/-- Behind the request chain, which has left `after`, a session is answered where the guard is armed for it and not yet
put away, or a response has been recorded under it. -/
def AnsweredForward (after : Recording) (progress : Progress) (id : Str) : Prop :=
  let chain := rules.production.chain world.recording.surroundings
  let head := engine.buildRequestHead req mitmDestination
  let guarded := after.ctx.sessionId = some id
  match engine.prepareUpstream world.parse after.ctx req.uri head.reqUri with
  | (_, .error _) => guarded
  | (sent, .ok upstream) =>
    let sent := sent.pushFlow (.forwarded upstream.url)
    match world.answer with
    | .failure cause ttfbMs =>
      guarded ∧ (progress ≠ .over ∨ ((world.view after.ops).getSession id).isSome = true) ∨
        progress.Recorded ∧
          (MiddlewareChain.executeResponse chain (failedContext head sent upstream cause ttfbMs)).1.sessionId = some id
    | .response res body ttfbMs bodyMs =>
      let fwd := engine.forwarded world req mitmDestination sent ttfbMs bodyMs
      match MiddlewareChain.executeResponse chain (startedContext engine world fwd res body forwardClass) with
      | (_, .stopAndReturn) => guarded
      | (ctx, .proceed) =>
        match recordedUnder engine world fwd res body forwardClass ctx with
        | none => guarded
        | some session => guarded ∧ progress ≠ .over ∨ progress.Recorded ∧ session = some id

/-- A session is answered when the run ends with `n` acts.  Without a guard it is answered by the response of a
middleware, which the response chain lets pass. -/
def Answered (ctx : RequestContext) (n : Nat) (id : Str) : Prop :=
  let head := engine.buildRequestHead req mitmDestination
  let progress := progress engine world rules req mitmDestination forwardClass ctx n
  progress ≠ .asking ∧
    match rules.run world.recording ctx with
    | (after, .proceed) => AnsweredForward engine world rules req mitmDestination forwardClass after progress id
    | (after, .stopAndReturn) =>
      ∃ intercepted response, after.ctx.mockResponse = some intercepted ∧
        MiddlewareChain.executeResponse (rules.production.chain world.recording.surroundings)
          (interceptedContext intercepted after.ctx head.displayUri head.host head.method true) = (response, .proceed) ∧
        response.sessionId = some id

variable {engine world rules req mitmDestination forwardClass}

theorem forwardProgress_ne_asking (after : Recording) (m : Nat) :
    forwardProgress engine world rules req mitmDestination forwardClass after m ≠ .asking := by
  unfold forwardProgress
  split
  · nofun
  · split <;> nofun

theorem forwardProgress_over_iff (after : Recording) (m : Nat) :
    forwardProgress engine world rules req mitmDestination forwardClass after m = .over ↔
      (engine.forwardActs world rules req mitmDestination forwardClass after).length ≤ m := by
  unfold forwardProgress
  split
  · rename_i hover
    exact iff_of_true rfl hover
  · rename_i hover
    refine iff_of_false ?_ hover
    split <;> nofun

/-- A run has recorded its response when it has come beyond the act which records it. -/
theorem forwardProgress_recorded_iff {after : Recording} {k : Nat}
    (hk : recordingAct engine world rules req mitmDestination forwardClass after = some k)
    (hbefore : k < (engine.forwardActs world rules req mitmDestination forwardClass after).length) (m : Nat) :
    (forwardProgress engine world rules req mitmDestination forwardClass after m).Recorded ↔ k < m := by
  unfold Progress.Recorded forwardProgress
  rw [hk]
  simp only [Option.any_some, decide_eq_true_eq]
  split
  · rename_i hover
    exact iff_of_true (Or.inr rfl) (Nat.lt_of_lt_of_le hbefore hover)
  · split
    · rename_i hlt
      exact iff_of_true (Or.inl rfl) hlt
    · rename_i hlt
      exact iff_of_false (by rintro (h | h) <;> cases h) hlt

theorem prepareUpstream_session {parse : Str → Option Url} {request sent : RequestContext} {uri : Http.Uri}
    {fallbackUri : Str} {prepared : PreparedUpstream}
    (h : engine.prepareUpstream parse request uri fallbackUri = (sent, .ok prepared)) :
    prepared.sessionId = request.sessionId := by
  unfold prepareUpstream at h
  dsimp only at h
  split at h
  · cases h
  · split at h
    · cases h
    · cases h
      rfl

theorem quiet_ofOps {ops : List WriteOp} (hops : ∀ op ∈ ops, op.respondsTo = none) : ∀ a ∈ ofOps ops, Quiet a := by
  intro a ha
  obtain ⟨op, hop, rfl⟩ := List.mem_map.1 ha
  exact hops op hop

theorem guard_session (ctx : RequestContext) (message : Str) :
    (terminalGuardForRequest ctx message).map TerminalSessionGuard.sessionId = ctx.sessionId := by
  unfold terminalGuardForRequest
  rw [Option.map_map]
  exact Option.map_id'

theorem recordsNothing_ofOps {ops : List WriteOp} (hops : ∀ op ∈ ops, op.recordedRequest = none) :
    ∀ a ∈ ofOps ops, RecordsNothing a := by
  intro a ha
  obtain ⟨op, hop, rfl⟩ := List.mem_map.1 ha
  exact hops op hop

/-- Up to the recording of a response nothing is recorded or answered, and the guard stays armed. -/
theorem quiet_respondActs (world : EngineWorld) (rules : RecordingRules) (flow : List RequestFlowEvent)
    (started : ResponseContext) :
    ∀ a ∈ EngineAct.updateFlow flow :: .updateFromResponse started ::
      ofOps (rules.responsePauseOps world.recording started), Quiet a ∧ RecordsNothing a := by
  have hpauses := @responsePauseOps_quiet rules world.recording started
  intro a ha
  rcases List.mem_cons.1 ha with rfl | ha
  · exact ⟨trivial, trivial⟩
  · rcases List.mem_cons.1 ha with rfl | ha
    · exact ⟨trivial, trivial⟩
    · exact ⟨quiet_ofOps (fun op hop => (hpauses op hop).2) a ha,
        recordsNothing_ofOps (fun op hop => (hpauses op hop).1) a ha⟩

section

variable {fwd : Forwarded} {res : UpstreamResponse} {body : ArrivingBody} {ctx : ResponseContext}

theorem respondActs_stopped
    (hchain : MiddlewareChain.executeResponse (rules.production.chain world.recording.surroundings)
      (startedContext engine world fwd res body forwardClass) = (ctx, .stopAndReturn)) (before : List WriteOp) :
    ∃ text, respondActs world rules before (engine.ending world rules forwardClass fwd res body) =
      .updateFromResponse (startedContext engine world fwd res body forwardClass) ::
        ofOps (rules.responsePauseOps world.recording (startedContext engine world fwd res body forwardClass)) ++
          [.updateFromResponse ctx, .recordFailure 403 .responseMiddleware text] := by
  unfold respondActs
  dsimp only
  rw [ending_started]
  obtain ⟨text, hstopped⟩ := ending_stopped hchain (world.view (before ++ rules.responsePauseOps world.recording
    (startedContext engine world fwd res body forwardClass)))
  rw [hstopped]
  exact ⟨text, rfl⟩

theorem respondActs_dropped
    (hchain : MiddlewareChain.executeResponse (rules.production.chain world.recording.surroundings)
      (startedContext engine world fwd res body forwardClass) = (ctx, .proceed))
    (hunder : recordedUnder engine world fwd res body forwardClass ctx = none) (before : List WriteOp) :
    respondActs world rules before (engine.ending world rules forwardClass fwd res body) =
      .updateFromResponse (startedContext engine world fwd res body forwardClass) ::
        ofOps (rules.responsePauseOps world.recording (startedContext engine world fwd res body forwardClass)) := by
  unfold respondActs
  dsimp only
  rw [ending_started, ending_dropped hchain hunder]
  exact List.append_nil _

theorem respondActs_recorded {session : Option Str}
    (hchain : MiddlewareChain.executeResponse (rules.production.chain world.recording.surroundings)
      (startedContext engine world fwd res body forwardClass) = (ctx, .proceed))
    (hunder : recordedUnder engine world fwd res body forwardClass ctx = some session) (before : List WriteOp)
    (id : Str) :
    ∃ ops, respondActs world rules before (engine.ending world rules forwardClass fwd res body) =
        .updateFromResponse (startedContext engine world fwd res body forwardClass) ::
          ofOps (rules.responsePauseOps world.recording (startedContext engine world fwd res body forwardClass)) ++
            (ofOps ops ++ [.disarm]) ∧
      (∀ op ∈ ops, op.recordedRequest = none) ∧
      (Fresh world id → id ∉ respondedSessions before → AnswersFirst id session ops) := by
  unfold respondActs
  dsimp only
  rw [ending_started]
  obtain ⟨ops, hops, hrecorded, hanswers⟩ := ending_recorded hchain hunder (world.view (before ++
    rules.responsePauseOps world.recording (startedContext engine world fwd res body forwardClass))) id
  rw [hops]
  refine ⟨ops, rfl, hrecorded, fun hfresh hbefore => hanswers (hfresh.open ?_)⟩
  rw [respondedSessions_append, respondedSessions_eq_nil.2 fun op hop =>
    (responsePauseOps_quiet world.recording _ op hop).2,
    List.append_nil]
  exact hbefore

/-- Where the upstream answers, the guard covers its session until a response has been recorded. -/
theorem covered_respondActs (hfresh : Fresh world id) (start : EngineRun) (hstart : respondedSessions start.ops = [])
    (flow : List RequestFlowEvent) (m : Nat) :
    Covered id (run world.act start ((.updateFlow flow ::
        respondActs world rules start.ops (engine.ending world rules forwardClass fwd res body)).take m)) ↔
      match MiddlewareChain.executeResponse (rules.production.chain world.recording.surroundings)
        (startedContext engine world fwd res body forwardClass) with
      | (_, .stopAndReturn) => Covered id start
      | (ctx, .proceed) =>
        match recordedUnder engine world fwd res body forwardClass ctx with
        | none => Covered id start
        | some session =>
          Covered id start ∧ m ≤ (respondActs world rules start.ops
              (engine.ending world rules forwardClass fwd res body)).length ∨
            session = some id ∧ 2 + (rules.responsePauseOps world.recording
              (startedContext engine world fwd res body forwardClass)).length < m := by
  have hquiet := quiet_respondActs world rules flow (startedContext engine world fwd res body forwardClass)
  rcases hchain : MiddlewareChain.executeResponse (rules.production.chain world.recording.surroundings)
    (startedContext engine world fwd res body forwardClass) with ⟨ctx, _ | _⟩
  · dsimp only
    cases hunder : recordedUnder engine world fwd res body forwardClass ctx with
    | none =>
      rw [respondActs_dropped hchain hunder]
      exact covered_quiet (fun a ha => (hquiet a (List.mem_of_mem_take ha)).1) start
    | some session =>
      obtain ⟨ops, hacts, -, hanswers⟩ := respondActs_recorded hchain hunder start.ops id
      have hrecording := covered_recording world id _ (fun a ha => (hquiet a ha).1) ops start hstart m
      rw [hanswers hfresh (by rw [hstart]; exact List.not_mem_nil)] at hrecording
      rw [hacts]
      refine hrecording.trans ?_
      rw [← covered_iff_guard hstart]
      simp only [List.length_cons, List.length_nil, List.length_append, ofOps, List.length_map]
      constructor
      · rintro (⟨h, hle⟩ | ⟨hlt, hid⟩)
        · exact Or.inl ⟨h, by omega⟩
        · exact Or.inr ⟨hid, by omega⟩
      · rintro (⟨h, hle⟩ | ⟨hid, hlt⟩)
        · exact Or.inl ⟨h, by omega⟩
        · exact Or.inr ⟨by omega, hid⟩
  · dsimp only
    -- the guard records the failure itself, under what the stopped chain has left
    obtain ⟨text, hacts⟩ := respondActs_stopped hchain start.ops
    generalize startedContext engine world fwd res body forwardClass = started at hquiet hacts
    have hstop : ∀ a ∈ (EngineAct.updateFlow flow :: .updateFromResponse started ::
        ofOps (rules.responsePauseOps world.recording started)) ++ [.updateFromResponse ctx], Quiet a := by
      rw [List.forall_mem_append]
      exact ⟨fun a ha => (hquiet a ha).1, by simp [Quiet]⟩
    have hfailure := covered_failure hfresh _ hstop 403 .responseMiddleware text start m
    rw [List.append_assoc] at hfailure
    rw [hacts]
    exact hfailure

end

/-- Behind the request chain a run covers what is answered there. -/
theorem covered_forward (hkeyed : ∀ ops id session, (world.view ops).getSession id = some session → session.id = id)
    (hfresh : Fresh world id) {after : Recording} (hafter : respondedSessions after.ops = []) (message : Str)
    (m : Nat) :
    Covered id (run world.act ⟨after.ops, terminalGuardForRequest after.ctx message⟩
      ((engine.forwardActs world rules req mitmDestination forwardClass after).take m)) ↔
        AnsweredForward engine world rules req mitmDestination forwardClass after
          (forwardProgress engine world rules req mitmDestination forwardClass after m) id := by
  have hguard : ((⟨after.ops, terminalGuardForRequest after.ctx message⟩ : EngineRun).guard.map
      TerminalSessionGuard.sessionId = some id) ↔ after.ctx.sessionId = some id := by
    rw [guard_session]
  have hcovered : Covered id ⟨after.ops, terminalGuardForRequest after.ctx message⟩ ↔ after.ctx.sessionId = some id :=
    (covered_iff_guard hafter).trans hguard
  have hover := @forwardProgress_over_iff engine world rules req mitmDestination forwardClass after m
  have hrecorded : ∀ k, recordingAct engine world rules req mitmDestination forwardClass after = some k →
      k < (engine.forwardActs world rules req mitmDestination forwardClass after).length →
        ((forwardProgress engine world rules req mitmDestination forwardClass after m).Recorded ↔ k < m) :=
    fun k hk hbefore => forwardProgress_recorded_iff hk hbefore m
  generalize forwardProgress engine world rules req mitmDestination forwardClass after m = progress at hover hrecorded ⊢
  unfold recordingAct at hrecorded
  unfold forwardActs at hover hrecorded ⊢
  unfold AnsweredForward
  dsimp only at hover hrecorded ⊢
  -- the forwarding refuses the request, fails upstream or has a response
  rcases hprepared : engine.prepareUpstream world.parse after.ctx req.uri
    (engine.buildRequestHead req mitmDestination).reqUri with ⟨sent, refusal | upstream⟩
  · rw [← hcovered]
    exact covered_failure hfresh [.updateFlow sent.flow] (by simp [Quiet]) refusal.status _ _ _ _
  · rw [hprepared] at hover hrecorded
    dsimp only at hover hrecorded ⊢
    cases hanswer : world.answer with
    | failure cause ttfbMs =>
      rw [hanswer] at hover hrecorded
      dsimp only at hover hrecorded ⊢
      generalize hfailed : failedContext (engine.buildRequestHead req mitmDestination)
        (sent.pushFlow (.forwarded upstream.url)) upstream cause ttfbMs = failed at hover hrecorded ⊢
      obtain ⟨hunmarked, hsession⟩ := unmarked_failedContext (engine.buildRequestHead req mitmDestination)
        (sent.pushFlow (.forwarded upstream.url)) upstream cause ttfbMs
      rw [hfailed] at hunmarked hsession
      rw [prepareUpstream_session hprepared] at hsession
      have hrecording := covered_recording world id
        [.updateFlow (sent.pushFlow (.forwarded upstream.url)).flow] (by simp [Quiet])
        (failureOps world rules after.ops failed) ⟨after.ops, terminalGuardForRequest after.ctx message⟩ hafter m
      rw [mem_respondedSessions_failureOps hkeyed hfresh hunmarked hafter, hguard, hsession] at hrecording
      have hshorter : (failureRun world rules after.ops failed).2.length ≤
          (failureOps world rules after.ops failed).length := by
        unfold failureOps
        rw [List.length_append]
        exact Nat.le_add_right _ _
      have hpast := hrecorded _ rfl (by simp [ofOps]; omega)
      refine hrecording.trans ?_
      rw [hpast, Ne, hover]
      simp only [List.length_cons, List.length_nil, List.length_append, ofOps, List.length_map]
      constructor
      · rintro (⟨hguarded, hle⟩ | ⟨hlt, hid, hshown⟩ | ⟨hlt, hid⟩)
        · exact Or.inl ⟨hguarded, Or.inl (by omega)⟩
        · exact Or.inl ⟨hid, Or.inr hshown⟩
        · exact Or.inr ⟨by omega, hid⟩
      · rintro (⟨hguarded, hle | hshown⟩ | ⟨hlt, hid⟩)
        · exact Or.inl ⟨hguarded, by omega⟩
        · -- the guard is armed until the inspection has answered
          by_cases hstarted : 0 < m - 1
          · exact Or.inr (Or.inl ⟨hstarted, hguarded, hshown⟩)
          · exact Or.inl ⟨hguarded, by omega⟩
        · exact Or.inr (Or.inr ⟨by omega, hid⟩)
    | response res body ttfbMs bodyMs =>
      rw [hanswer] at hover hrecorded
      dsimp only at hover hrecorded ⊢
      refine (covered_respondActs hfresh _ hafter _ _).trans ?_
      generalize engine.forwarded world req mitmDestination (sent.pushFlow (.forwarded upstream.url)) ttfbMs bodyMs =
        fwd
        at hover hrecorded ⊢
      rcases hchain : MiddlewareChain.executeResponse (rules.production.chain world.recording.surroundings)
        (startedContext engine world fwd res body forwardClass) with ⟨ctx, _ | _⟩
      · rw [hchain] at hrecorded
        dsimp only at hrecorded ⊢
        cases hunder : recordedUnder engine world fwd res body forwardClass ctx with
        | none => exact hcovered
        | some session =>
          rw [hunder] at hrecorded
          obtain ⟨ops, hacts, -⟩ := respondActs_recorded hchain hunder after.ops id
          have hpast := hrecorded _ rfl (by rw [hacts]; simp [ofOps]; omega)
          dsimp only
          rw [hcovered, hpast, Ne, hover, List.length_cons]
          constructor
          · rintro (⟨hguarded, hle⟩ | ⟨hid, hlt⟩)
            · exact Or.inl ⟨hguarded, by omega⟩
            · exact Or.inr ⟨hlt, hid⟩
          · rintro (⟨hguarded, hle⟩ | ⟨hlt, hid⟩)
            · exact Or.inl ⟨hguarded, by omega⟩
            · exact Or.inr ⟨hid, hlt⟩
      · exact hcovered

/-- A run covers what is answered. -/
theorem covered_exchange (hkeyed : ∀ ops id session, (world.view ops).getSession id = some session → session.id = id)
    (hfresh : Fresh world id) (ctx : RequestContext) (n : Nat) :
    Covered id (run world.act ⟨[], none⟩
      ((engine.exchangeActs world rules req mitmDestination forwardClass ctx).take n)) ↔
        Answered engine world rules req mitmDestination forwardClass ctx n id := by
  have hnothing : respondedSessions (rules.run world.recording ctx).1.ops = [] :=
    RecordingRules.respondedSessions_run ctx
  have htaken : ∀ k, respondedSessions ((rules.run world.recording ctx).1.ops.take k) = [] :=
    respondedSessions_take_of_none (respondedSessions_eq_nil.1 hnothing)
  unfold exchangeActs Answered progress
  dsimp only
  generalize rules.run world.recording ctx = ran at hnothing htaken ⊢
  rcases ran with ⟨after, _ | _⟩
  · dsimp only at hnothing htaken ⊢
    have hlength : (ofOps after.ops).length = after.ops.length := List.length_map _
    rw [run_take_append, take_ofOps, run_ofOps, hlength, List.nil_append]
    -- the guard is armed by the act behind those of the chain
    by_cases hn : n ≤ after.ops.length
    · have hzero : n - after.ops.length = 0 := by omega
      rw [hzero, List.take_zero, run_nil, if_pos hn]
      refine iff_of_false ?_ fun h => h.1 rfl
      rw [covered_iff_guard (htaken n)]
      simp
    · obtain ⟨k, hk⟩ : ∃ k, n - after.ops.length = k + 1 := ⟨n - after.ops.length - 1, by omega⟩
      have hforward := @covered_forward id engine world rules req mitmDestination forwardClass hkeyed hfresh after
        hnothing (guardMessage forwardClass) k
      rw [if_neg hn, hk, Nat.add_sub_cancel, and_iff_right (forwardProgress_ne_asking after k), ← hforward,
        List.take_succ_cons, run_cons, List.take_of_length_le (Nat.le_of_not_le hn)]
      rfl
  · dsimp only at hnothing htaken ⊢
    cases after.ctx.mockResponse with
    | none =>
      dsimp only
      rw [take_ofOps, run_ofOps]
      refine iff_of_false ?_ (by simp)
      rw [List.nil_append, covered_iff_guard (htaken n)]
      simp
    | some intercepted =>
      dsimp only
      rw [Option.map_some, Option.getD_some]
      have hunanswered : ∀ pauses : List WriteOp, (∀ op ∈ pauses, op.respondsTo = none) →
          id ∉ respondedSessions (after.ops ++ pauses) := by
        intro pauses hpauses
        rw [respondedSessions_append, hnothing, respondedSessions_eq_nil.2 hpauses]
        exact List.not_mem_nil
      rw [take_ofOps, run_ofOps, List.nil_append]
      unfold Covered
      rw [List.take_append, respondedSessions_append, htaken, List.nil_append,
        mem_respondedSessions_take_interceptedOps (hfresh.open (hunanswered _ fun op hop =>
          (responsePauseOps_quiet world.recording _ op hop).2))]
      constructor
      · rintro (⟨hlt, response, hchain, hid⟩ | h)
        · rw [if_neg (by omega)]
          exact ⟨nofun, intercepted, response, rfl, hchain, hid⟩
        · cases h
      · rintro ⟨hreached, intercepted', response, heq, hchain, hid⟩
        cases heq
        split at hreached
        · exact absurd rfl hreached
        · exact Or.inl ⟨by omega, response, hchain, hid⟩

/-! ### What is recorded -/

/-- Behind the request chain no request is recorded. -/
theorem recordsNothing_forward (after : Recording) :
    ∀ a ∈ engine.forwardActs world rules req mitmDestination forwardClass after, RecordsNothing a := by
  unfold forwardActs
  dsimp only
  rcases engine.prepareUpstream world.parse after.ctx req.uri (engine.buildRequestHead req mitmDestination).reqUri with
    ⟨sent, refusal | upstream⟩
  · simp [RecordsNothing]
  · dsimp only
    rw [List.forall_mem_cons]
    refine ⟨trivial, ?_⟩
    cases world.answer with
    | failure cause ttfbMs =>
      dsimp only
      rw [List.forall_mem_append]
      have hunmarked := (unmarked_failedContext (engine.buildRequestHead req mitmDestination)
        (sent.pushFlow (.forwarded upstream.url)) upstream cause ttfbMs).1
      exact ⟨recordsNothing_ofOps (recordedRequest_failureOps hunmarked after.ops), by simp [RecordsNothing]⟩
    | response res body ttfbMs bodyMs =>
      dsimp only
      generalize engine.forwarded world req mitmDestination (sent.pushFlow (.forwarded upstream.url)) ttfbMs bodyMs =
        fwd
      have hquiet := quiet_respondActs world rules [] (startedContext engine world fwd res body forwardClass)
      rw [List.forall_mem_cons] at hquiet
      rcases hchain : MiddlewareChain.executeResponse (rules.production.chain world.recording.surroundings)
        (startedContext engine world fwd res body forwardClass) with ⟨ctx, _ | _⟩
      · cases hunder : recordedUnder engine world fwd res body forwardClass ctx with
        | none =>
          rw [respondActs_dropped hchain hunder]
          exact fun a ha => (hquiet.2 a ha).2
        | some session =>
          obtain ⟨ops, hacts, hrecorded, -⟩ := respondActs_recorded hchain hunder after.ops []
          rw [hacts, List.forall_mem_append, List.forall_mem_append]
          exact ⟨fun a ha => (hquiet.2 a ha).2, recordsNothing_ofOps hrecorded, by simp [RecordsNothing]⟩
      · obtain ⟨text, hacts⟩ := respondActs_stopped hchain after.ops
        rw [hacts, List.forall_mem_append]
        exact ⟨fun a ha => (hquiet.2 a ha).2, by simp [RecordsNothing]⟩

/-- An exchange records what its request chain records. -/
theorem recordedRequests_exchange (ctx : RequestContext) (n : Nat) :
    recordedRequests (world.ended (run world.act ⟨[], none⟩
      ((engine.exchangeActs world rules req mitmDestination forwardClass ctx).take n))) =
        recordedRequests ((rules.run world.recording ctx).1.ops.take n) := by
  have hrest : ∀ (ops : List WriteOp) (rest : List EngineAct), (∀ a ∈ rest, RecordsNothing a) →
      recordedRequests (run world.act ⟨[], none⟩ ((ofOps ops ++ rest).take n)).ops = recordedRequests (ops.take n) := by
    intro ops rest hrest
    rw [run_take_append, recordedRequests_run fun a ha => hrest a (List.mem_of_mem_take ha), take_ofOps, run_ofOps,
      List.nil_append]
  rw [recordedRequests_ended]
  unfold exchangeActs
  dsimp only
  rcases rules.run world.recording ctx with ⟨after, _ | _⟩
  · apply hrest
    rw [List.forall_mem_cons]
    exact ⟨trivial, recordsNothing_forward after⟩
  · dsimp only
    cases after.ctx.mockResponse with
    | none =>
      have hnone := hrest after.ops [] (by simp)
      rw [List.append_nil] at hnone
      exact hnone
    | some intercepted =>
      dsimp only
      have hsplit : ∀ ops ops' : List WriteOp, ofOps (ops ++ ops') = ofOps ops ++ ofOps ops' :=
        fun ops ops' => List.map_append
      rw [hsplit]
      apply hrest
      apply recordsNothing_ofOps
      exact recordedRequests_eq_nil.1 (RecordingRules.recordedRequests_interceptedOps _ _ _ _ _ _)

theorem startedExchange_session {body : ArrivingBody} {ctx : RequestContext}
    (h : engine.startedExchange world req mitmDestination body = some (forwardClass, ctx)) : ctx.sessionId = none := by
  unfold startedExchange at h
  dsimp only at h
  split at h
  · cases h
  · split at h
    · cases h
      rfl
    · split at h
      · cases h
        rfl
      · obtain ⟨bytes, -, heq⟩ := Option.map_eq_some_iff.1 h
        cases heq
        rfl

/-- Wherever a run ends, every session which it has recorded has its response exactly where each is answered at that
point. -/
theorem everyRequestAnswered_iff (hids : MakesUpIds world) (engine : ProxyEngine) (rules : RecordingRules)
    (req : IncomingRequest) (mitmDestination : Option Str) (body : ArrivingBody) (n : Nat) :
    EveryRequestAnswered (world.ended (run world.act ⟨[], none⟩
      ((engine.handleActs world rules req mitmDestination body).take n))) ↔
        ∀ forwardClass ctx, engine.startedExchange world req mitmDestination body = some (forwardClass, ctx) →
          ∀ id, RecordedWithin world.recording rules ctx n id →
            Answered engine world rules req mitmDestination forwardClass ctx n id := by
  unfold EveryRequestAnswered handleActs
  cases hstarted : engine.startedExchange world req mitmDestination body with
  | none => simp [EngineWorld.ended]
  | some started =>
    obtain ⟨forwardClass, ctx⟩ := started
    dsimp only
    rw [recordedRequests_exchange]
    have hone : ∀ id, RecordedWithin world.recording rules ctx n id →
        (id ∈ respondedSessions (world.ended (run world.act ⟨[], none⟩
          ((engine.exchangeActs world rules req mitmDestination forwardClass ctx).take n))) ↔
            Answered engine world rules req mitmDestination forwardClass ctx n id) := by
      intro id hrecorded
      have hfresh : Fresh world id := by
        obtain ⟨arrived, -, ⟨-, rfl, -⟩ | ⟨left, -, -, rfl, -⟩⟩ := hrecorded
        · exact hids.paused
        · exact hids.inspected
      rw [mem_respondedSessions_ended hfresh, covered_exchange hids.keyed hfresh]
    constructor
    · intro h forwardClass' ctx' heq id hrecorded
      cases heq
      exact (hone id hrecorded).1 (h id ((recordedRequests_take_run (startedExchange_session hstarted) n).2 hrecorded))
    · intro h id hin
      have hrecorded := (recordedRequests_take_run (startedExchange_session hstarted) n).1 hin
      exact (hone id hrecorded).2 (h forwardClass ctx rfl id hrecorded)

end

/-! ### A paused request -/

private def pausedUpload : IncomingRequest :=
  { IncomingRequest.plain with
    method := "POST"
    method_token := Http.isToken_post }

private def pausingEngine : ProxyEngine := ⟨10485760, 524288, 8080, "127.0.0.1", [], none⟩

private def pausingRules : RecordingRules :=
  ⟨⟨.disabled, []⟩, ⟨RoutingRules.empty, [⟨"bp", Location.default, .request, .head, true⟩], [], [], []⟩⟩

/-- The operator answers a paused request; the store shows nothing. -/
private def pausingWorld (answer : BreakpointAnswer) : EngineWorld where
  recording :=
    { surroundings := { Surroundings.bare with onPausedRequest := fun _ => answer }
      lowercase := Str.toAsciiLowercase
      inspect := fun _ => ⟨none, none, none⟩
      breakpointId := "bp"
      inspectionId := "inspection"
      responsePassId := "pass" }
  parse := fun _ => none
  codecs := ⟨fun _ => none, fun _ => none, fun _ => none, fun _ => none, fun _ => none⟩
  bodyHints := fun _ => [.fullBody]
  frames := ⟨fun _ => none, [], fun _ => .drop⟩
  observers := StreamObserver.ofRequest
  view := fun _ => ⟨fun _ => none, 0⟩
  elapsedMs := 5
  maxRetainedBodyBytes := 1024
  answer := .failure "connection refused" 3

private theorem pausing_makesUpIds (answer : BreakpointAnswer) : MakesUpIds (pausingWorld answer) where
  keyed := fun _ _ _ h => by cases h
  paused := fun _ _ h => by cases h
  inspected := fun _ _ h => by cases h

theorem everyRequestAnswered_iff_dropped :
    EveryRequestAnswered ((pausingWorld .drop).ended (run (pausingWorld .drop).act ⟨[], none⟩
      ((pausingEngine.handleActs (pausingWorld .drop) pausingRules pausedUpload none ⟨[], true⟩).take 4))) ↔
        ∀ forwardClass ctx, pausingEngine.startedExchange (pausingWorld .drop) pausedUpload none ⟨[], true⟩ =
            some (forwardClass, ctx) →
          ∀ id, RecordedWithin (pausingWorld .drop).recording pausingRules ctx 4 id →
            Answered pausingEngine (pausingWorld .drop) pausingRules pausedUpload none forwardClass ctx 4 id :=
  everyRequestAnswered_iff (pausing_makesUpIds .drop) pausingEngine pausingRules pausedUpload none ⟨[], true⟩ 4

/-- A request which the operator drops has no response when the exchange has returned, and neither has one whose client
goes away while it is paused. -/
theorem not_everyRequestAnswered :
    MakesUpIds (pausingWorld .drop) ∧
      ¬ EveryRequestAnswered ((pausingWorld .drop).ended (run (pausingWorld .drop).act ⟨[], none⟩
        (pausingEngine.handleActs (pausingWorld .drop) pausingRules pausedUpload none ⟨[], true⟩))) ∧
      ¬ EveryRequestAnswered ((pausingWorld .proceed).ended (run (pausingWorld .proceed).act ⟨[], none⟩
        ((pausingEngine.handleActs (pausingWorld .proceed) pausingRules pausedUpload none ⟨[], true⟩).take 3))) := by
  refine ⟨pausing_makesUpIds .drop, fun h => ?_, fun h => ?_⟩
  · exact absurd (h "id" (by decide)) (by decide)
  · exact absurd (h "id" (by decide)) (by decide)

end TerminalResponses

end Oproxy
