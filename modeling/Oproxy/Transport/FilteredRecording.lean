import Oproxy.Transport.TunnelSessions
import Oproxy.Transport.WebSocket

/-!
# The capture filter on every path

The filter marks a context in the chain, for the host which the request came with, and one middleware reads the mark.
The breakpoints record whatever they pause, a later middleware may give the request another host, and the upgrades and
the tunnels record outside the chain.
-/

namespace Oproxy

/-! ### HTTP -/

/-- What an HTTP exchange may enqueue behind the request chain: the response of a guard, a pause of its response, its
response, and what the inspection of its messages has found. -/
inductive LaterRecording where
  | guarded (guard : TerminalSessionGuard) (view : StoreView) (status : Nat) (stage : FlowStage) (message : Str)
      (latencyMs : Nat)
  | paused (response : ResponseContext)
  | responded (view : StoreView) (response : ResponseContext)
  | inspected (sessionId : Str) (events : List SessionEvent) (data : InspectorData)

def LaterRecording.ops (world : RecordingWorld) (rules : RecordingRules) : LaterRecording → List WriteOp
  | .guarded guard view status stage message latencyMs => guard.recordFailure view status stage message latencyMs
  | .paused response => rules.responsePauseOps world response
  | .responded view response => ProxyEngine.recordShortCircuitResponse view response
  | .inspected sessionId events data =>
    events.map (fun event => .appendEvent sessionId event) ++ [.updateInspectorData sessionId data]

/-- An HTTP exchange; the body is empty where it is streamed. -/
structure HttpInteraction where
  engine : ProxyEngine
  req : IncomingRequest
  mitmDestination : Option Str
  body : Bytes
  view : StoreView
  later : List LaterRecording

namespace HttpInteraction

variable (world : RecordingWorld) (rules : RecordingRules) (http : HttpInteraction)

def head : RequestHead := http.engine.buildRequestHead http.req http.mitmDestination

/-- The context which the chain starts from. -/
def start : RequestContext := ProxyEngine.requestContext http.head http.mitmDestination http.body

def ops : List WriteOp :=
  (rules.executeRequestMiddleware world http.view http.start http.head.displayUri http.head.host
    http.head.method).1.ops ++ http.later.flatMap (LaterRecording.ops world rules)

end HttpInteraction

/-- What a client does, with what the world makes of it. -/
inductive Interaction where
  | exchange (http : HttpInteraction)
  | webSocket (world : WebSocket.WebSocketWorld) (req : IncomingRequest) (mitmDestination : Option Str)
      (run : WebSocket.WebSocketRun)
  | connect (world : Connect.ConnectWorld) (authority : Str) (run : Connect.ConnectRun)
  | socks5 (world : Socks5.Socks5World) (run : Socks5.Socks5Run)

def Interaction.ops (world : RecordingWorld) (rules : RecordingRules) : Interaction → List WriteOp
  | .exchange http => http.ops world rules
  | .webSocket upgrades req mitmDestination run => WebSocket.handleWebsocket upgrades req mitmDestination run
  | .connect tunnels authority run => Connect.handleConnect tunnels authority run
  | .socks5 service run => Socks5.serveConnection service run

/-- No host which is to be skipped is the host of a recorded request. -/
def HonoursFilter (skip : Str → Bool) (ops : List WriteOp) : Prop :=
  ∀ entry ∈ recordedRequests ops, skip entry.2.host = false

/-- Where all requests are recorded under one host, it is the host that matters. -/
private theorem honoursFilter_iff_of_host {skip : Str → Bool} {ops : List WriteOp} {host : Str} {records : Prop}
    (hhost : ∀ entry ∈ recordedRequests ops, entry.2.host = host) (hrecords : recordedRequests ops ≠ [] ↔ records) :
    HonoursFilter skip ops ↔ (records → skip host = false) := by
  constructor
  · intro h hrec
    obtain ⟨entry, hentry⟩ := List.exists_mem_of_ne_nil _ (hrecords.2 hrec)
    rw [← hhost entry hentry]
    exact h entry hentry
  · intro h entry hentry
    rw [hhost entry hentry]
    exact h (hrecords.1 (List.ne_nil_of_mem hentry))

namespace HttpInteraction

variable {world : RecordingWorld} {rules : RecordingRules}

/-- What comes behind the request chain records no request. -/
private theorem recordedRequests_later (later : LaterRecording) : recordedRequests (later.ops world rules) = [] := by
  cases later with
  | guarded guard view status stage message latencyMs =>
    show recordedRequests (guard.recordFailure view status stage message latencyMs) = []
    unfold TerminalSessionGuard.recordFailure
    split <;> rfl
  | paused response =>
    show recordedRequests (rules.responsePauseOps world response) = []
    unfold RecordingRules.responsePauseOps
    split
    · exact Breakpoints.recordedRequests_responsePauseOps _ _ _ _
    · rfl
  | responded view response => exact RecordingRules.recordedRequests_recordShortCircuitResponse view response
  | inspected sessionId events data =>
    show recordedRequests (events.map (fun event => .appendEvent sessionId event) ++ [_]) = []
    rw [recordedRequests_append]
    induction events with
    | nil => rfl
    | cons event events ih => exact ih

theorem recordedRequests_ops (http : HttpInteraction) :
    recordedRequests (http.ops world rules) = recordedRequests (rules.run world http.start).1.ops := by
  have hlater : recordedRequests (http.later.flatMap (LaterRecording.ops world rules)) = [] := by
    induction http.later with
    | nil => rfl
    | cons later rest ih => rw [List.flatMap_cons, recordedRequests_append, recordedRequests_later, ih, List.append_nil]
  unfold ops
  rw [recordedRequests_append, hlater, List.append_nil, RecordingRules.recordedRequests_executeRequestMiddleware]

/-- Where no rule pauses a request, its host is to be skipped only where the host it came with is.  Where a rule does,
its host is not to be skipped, and neither is that of a request without a session which the operator sends back. -/
def KeepsFilter (world : RecordingWorld) (rules : RecordingRules) (http : HttpInteraction) : Prop :=
  ∀ ctx, rules.admitted world http.start = (ctx, .proceed) →
    match Breakpoints.firstMatch world.surroundings.regex rules.production.breakpoints .request
        (MatchTarget.fromRequest ctx) with
    | none =>
      rules.filter.shouldSkip world.lowercase ctx.host = true →
        rules.filter.shouldSkip world.lowercase http.start.host = true
    | some rule =>
      rules.filter.shouldSkip world.lowercase ctx.host = false ∧
        ∀ modified, world.surroundings.onPausedRequest
            (Breakpoints.shown world.surroundings.freshId rule ctx).takeFlow.2 = .modifyRequest modified →
          Inspection.opens modified = true → rules.filter.shouldSkip world.lowercase modified.host = false

private theorem start_session (http : HttpInteraction) :
    http.start.sessionId = none ∧ http.start.skipRecording = false := ⟨rfl, rfl⟩

/-- What a pause records has the host of the context. -/
private theorem forall_pause_iff (skip : Str → Bool) (ctx : RequestContext) :
    (∀ entry ∈ recordedRequests (rules.pause world ctx).2, skip entry.2.host = false) ↔
      ∀ rule, Breakpoints.firstMatch world.surroundings.regex rules.production.breakpoints .request
        (MatchTarget.fromRequest ctx) = some rule → skip ctx.host = false := by
  have hops : recordedRequests (rules.pause world ctx).2 = _ :=
    Breakpoints.recordedRequests_pauseOps world.surroundings.regex rules.production.breakpoints
      world.surroundings.freshId world.breakpointId ctx
  rw [hops]
  cases Breakpoints.firstMatch world.surroundings.regex rules.production.breakpoints .request
      (MatchTarget.fromRequest ctx) with
  | none => simp
  | some rule =>
    constructor
    · intro h _ _
      exact h (_, Breakpoints.shown world.surroundings.freshId rule ctx) (List.mem_singleton_self _)
    · intro h entry hentry
      have heq : entry = (_, Breakpoints.shown world.surroundings.freshId rule ctx) := List.mem_singleton.1 hentry
      rw [heq]
      exact h rule rfl

/-- What the inspection records has the host of the context. -/
private theorem forall_inspected_iff (skip : Str → Bool) (ctx : RequestContext) :
    (∀ entry ∈ recordedRequests (RecordingRules.inspected world ctx).2, skip entry.2.host = false) ↔
      (Inspection.opens ctx = true → skip ctx.host = false) := by
  have hopens : Inspection.opens (RecordingRules.inspectors world ctx).1 = Inspection.opens ctx := rfl
  unfold RecordingRules.inspected
  rw [Inspection.recordedRequests_onRequest, hopens]
  cases Inspection.opens ctx with
  | false => simp
  | true =>
    constructor
    · intro h _
      exact h _ (List.mem_singleton_self _)
    · intro h entry hentry
      have heq := List.mem_singleton.1 hentry
      rw [heq]
      exact h rfl

/-- The context which an operator's answer leaves has a session, unless it is one of his own. -/
private theorem forall_answered_iff {rule : BreakpointRule} {ctx : RequestContext} (skip : Str → Bool)
    (hrule : Breakpoints.firstMatch world.surroundings.regex rules.production.breakpoints .request
      (MatchTarget.fromRequest ctx) = some rule) :
    (∀ after, rules.paused world ctx = (after, .proceed) → Inspection.opens after = true → skip after.host = false) ↔
      ∀ modified, world.surroundings.onPausedRequest
          (Breakpoints.shown world.surroundings.freshId rule ctx).takeFlow.2 = .modifyRequest modified →
        Inspection.opens modified = true → skip modified.host = false := by
  constructor
  · intro h modified hanswer hopens
    exact h (modified.pushFlow (.ruleApplied .breakpoint rule.id "breakpoint" "modified request and continued"))
      ((Breakpoints.onRequest_of_some hrule).2 (Or.inr ⟨modified, hanswer, rfl⟩)) hopens
  · intro h after hpaused hopens
    rcases (Breakpoints.onRequest_of_some hrule).1 hpaused with ⟨-, rfl⟩ | ⟨modified, hanswer, rfl⟩
    · -- what the operator was shown has the session of the pause
      cases hopens
    · exact h modified hanswer hopens

theorem honoursFilter_iff (http : HttpInteraction) :
    HonoursFilter (rules.filter.shouldSkip world.lowercase) (http.ops world rules) ↔ http.KeepsFilter world rules := by
  -- a session is opened at the pause or by the inspection after it, and nowhere else
  have hstages : HonoursFilter (rules.filter.shouldSkip world.lowercase) (http.ops world rules) ↔
      ∀ ctx, rules.admitted world http.start = (ctx, .proceed) →
        (∀ entry ∈ recordedRequests (rules.pause world ctx).2,
          rules.filter.shouldSkip world.lowercase entry.2.host = false) ∧
        ∀ after, rules.paused world ctx = (after, .proceed) →
          ∀ entry ∈ recordedRequests (RecordingRules.inspected world after).2,
            rules.filter.shouldSkip world.lowercase entry.2.host = false := by
    unfold HonoursFilter
    rw [recordedRequests_ops]
    constructor
    · intro h ctx hadmitted
      refine ⟨fun entry hentry => ?_, fun after hpaused entry hentry => ?_⟩
      · exact h entry ((RecordingRules.mem_recordedRequests_run _ _).2 ⟨ctx, hadmitted, Or.inl hentry⟩)
      · exact h entry ((RecordingRules.mem_recordedRequests_run _ _).2
          ⟨ctx, hadmitted, Or.inr ⟨after, hpaused, hentry⟩⟩)
    · intro h entry hentry
      obtain ⟨ctx, hadmitted, hpause | ⟨after, hpaused, hinspected⟩⟩ :=
        (RecordingRules.mem_recordedRequests_run _ _).1 hentry
      · exact (h ctx hadmitted).1 entry hpause
      · exact (h ctx hadmitted).2 after hpaused entry hinspected
  rw [hstages]
  unfold KeepsFilter
  apply forall_congr'
  intro ctx
  apply forall_congr'
  intro hadmitted
  rw [forall_pause_iff]
  simp only [forall_inspected_iff]
  cases hrule : Breakpoints.firstMatch world.surroundings.regex rules.production.breakpoints .request
      (MatchTarget.fromRequest ctx) with
  | none =>
    -- the context is inspected as it is, under the mark of the filter
    have hchannel := RecordingRules.admitted_channel hadmitted
    have hpaused : rules.paused world ctx = (ctx, .proceed) := Breakpoints.onRequest_of_none hrule
    have hopens : Inspection.opens ctx = !rules.filter.shouldSkip world.lowercase http.start.host := by
      unfold Inspection.opens
      rw [hchannel.1, hchannel.2, http.start_session.1, http.start_session.2, Bool.or_false]
      rfl
    constructor
    · intro h hskip
      have hkept := h.2 ctx hpaused
      rw [hopens, hskip] at hkept
      by_contra hstart
      have hstart : rules.filter.shouldSkip world.lowercase http.start.host = false := by simpa using hstart
      rw [hstart] at hkept
      cases hkept rfl
    · intro h
      refine ⟨fun rule hsome => ?_, fun after hafter hopensAfter => ?_⟩
      · cases hsome
      · rw [hpaused] at hafter
        cases hafter
        rw [hopens] at hopensAfter
        by_contra hskip
        have hskip : rules.filter.shouldSkip world.lowercase ctx.host = true := by simpa using hskip
        rw [h hskip] at hopensAfter
        cases hopensAfter
  | some rule =>
    rw [forall_answered_iff _ hrule]
    constructor
    · intro h
      exact ⟨h.1 rule rfl, h.2⟩
    · intro h
      exact ⟨fun _ _ => h.1, h.2⟩

end HttpInteraction

/-! ### Upgrades and tunnels -/

namespace WebSocket

theorem honoursFilter_iff (skip : Str → Bool) (world : WebSocketWorld) (req : IncomingRequest)
    (mitmDestination : Option Str) (run : WebSocketRun) :
    HonoursFilter skip (handleWebsocket world req mitmDestination run) ↔
      (recordsUpgrade world req mitmDestination run = true →
        skip (WebSocketRequest.prepare req mitmDestination).host = false) := by
  apply honoursFilter_iff_of_host
  · intro entry hentry
    rw [recordedRequests_handleWebsocket] at hentry
    split at hentry
    · rw [List.mem_singleton.1 hentry]
      rfl
    · cases hentry
  · rw [recordedRequests_handleWebsocket]
    cases recordsUpgrade world req mitmDestination run <;> simp

end WebSocket

namespace Connect

variable {world : ConnectWorld}

private theorem recordedRequests_tunnelOps (target : ConnectTarget) (dial : Awaited Dial) :
    recordedRequests (tunnelOps world target dial) = [] := by
  unfold tunnelOps
  split
  · rfl
  · rfl
  · rfl
  · split <;> rfl

/-- A run records one request for its authority, or none. -/
theorem recordedRequests_handleConnect (authority : Str) (run : ConnectRun) :
    (Records world run ∧ ∃ scheme, recordedRequests (handleConnect world authority run) =
        [(world.sessionId, connectRequestContext (resolve world.dns authority) scheme)]) ∨
      (¬ Records world run ∧ recordedRequests (handleConnect world authority run) = []) := by
  cases hmitm : world.isMitm with
  | false =>
    refine Or.inl ⟨Or.inl hmitm, "https", ?_⟩
    rw [handleConnect_of_plain authority run hmitm, recordedRequests_append]
    rcases run.upgrade with (error | _) | _
    · rfl
    · dsimp only
      rw [recordedRequests_tunnelOps]
      rfl
    · rfl
  | true =>
    rcases handleConnect_of_mitm authority run hmitm with
      ⟨first, rest, hupgrade, hpeek, hfirst, hops⟩ | ⟨hrecords, hops⟩
    · refine Or.inl ⟨Or.inr ⟨hupgrade, first, rest, hpeek, hfirst⟩, "http", ?_⟩
      rw [hops, recordedRequests_append, recordedRequests_tunnelOps]
      rfl
    · rw [hops]
      exact Or.inr ⟨hrecords, rfl⟩

theorem honoursFilter_iff (skip : Str → Bool) (authority : Str) (run : ConnectRun) :
    HonoursFilter skip (handleConnect world authority run) ↔ (Records world run → skip authority = false) := by
  rcases @recordedRequests_handleConnect world authority run with ⟨hrecords, scheme, hrec⟩ | ⟨hrecords, hrec⟩
  · apply honoursFilter_iff_of_host
    · intro entry hentry
      rw [hrec] at hentry
      rw [List.mem_singleton.1 hentry]
      rfl
    · rw [hrec]
      exact ⟨fun _ => hrecords, fun _ => by simp⟩
  · unfold HonoursFilter
    rw [hrec]
    exact ⟨fun _ h => absurd h hrecords, fun _ entry h => by cases h⟩

end Connect

namespace Socks5

variable {world : Socks5World}

/-- Whether a connection to a target gets a session: a mock decides on it, or it is tunnelled. -/
def Records (world : Socks5World) (run : Socks5Run) (target : Socks5Target) : Prop :=
  match tunnelDecisionFor world.regex world.mockRules target with
  | some (_, _, delayMs) => 0 < delayMs → run.delay = .ready ()
  | none => shouldIntercept world target = false

private theorem recordedRequests_drop (guard : Option TerminalSessionGuard) (view : StoreView) (latencyMs : Nat) :
    recordedRequests ((guard.map fun guard => guard.drop view latencyMs).getD []) = [] := by
  cases guard with
  | none => rfl
  | some guard =>
    rw [Option.map_some, Option.getD_some]
    unfold TerminalSessionGuard.drop TerminalSessionGuard.recordFailure
    split <;> rfl

private theorem recordedRequests_closed (view : StoreView) (sessionId : Str) (bytesUp bytesDown : Nat) :
    recordedRequests (recordSocks5TunnelClosed view sessionId bytesUp bytesDown) = [] := by
  unfold recordSocks5TunnelClosed
  split <;> rfl

/-- A tunnel records its own request. -/
theorem recordedRequests_serveTunnel (run : Socks5Run) (target : Socks5Target) :
    recordedRequests (serveTunnel world run target) = [(world.tunnelSessionId, tunnelRequestContext world target)] := by
  have hopened : recordedRequests (recordSocks5TunnelOpened world target) =
      [(world.tunnelSessionId, tunnelRequestContext world target)] := rfl
  unfold serveTunnel
  dsimp only
  split
  · exact hopened
  · split
    · rw [recordedRequests_append, hopened, recordedRequests_drop, List.append_nil]
    · split
      · rw [recordedRequests_append, hopened, recordedRequests_drop, List.append_nil]
      · rw [recordedRequests_append, hopened, recordedRequests_closed, List.append_nil]

private theorem recordedRequests_serveTarget (run : Socks5Run) (target : Socks5Target) :
    recordedRequests (serveTarget world run target) =
      if shouldIntercept world target then [] else [(world.tunnelSessionId, tunnelRequestContext world target)] := by
  unfold serveTarget
  split
  · rfl
  · exact recordedRequests_serveTunnel run target

/-- All requests of a connection have the host of its target. -/
private theorem honoursFilter_serve (skip : Str → Bool) {run : Socks5Run} {target : Socks5Target}
    (h : run.handshake = .ready (some target)) :
    HonoursFilter skip (serveConnection world run) ↔
      (Records world run (resolveTarget world.dns target) → skip (resolveTarget world.dns target).host = false) := by
  have hserved : ∀ entry ∈ recordedRequests (serveTarget world run (resolveTarget world.dns target)),
      entry.2.host = (resolveTarget world.dns target).host := by
    intro entry hentry
    rw [recordedRequests_serveTarget] at hentry
    split at hentry
    · cases hentry
    · rw [List.mem_singleton.1 hentry]
      rfl
  unfold Records
  cases hdecision : tunnelDecisionFor world.regex world.mockRules (resolveTarget world.dns target) with
  | none =>
    rw [serveConnection_of_undecided h hdecision]
    apply honoursFilter_iff_of_host hserved
    rw [recordedRequests_serveTarget]
    cases shouldIntercept world (resolveTarget world.dns target) <;> simp
  | some decision =>
    obtain ⟨ruleId, allow, delayMs⟩ := decision
    by_cases hdelay : 0 < delayMs → run.delay = .ready ()
    · rw [serveConnection_of_served h hdecision hdelay]
      apply honoursFilter_iff_of_host
      · intro entry hentry
        rw [recordedRequests_append] at hentry
        rcases List.mem_append.1 hentry with hmock | htarget
        · rw [List.mem_singleton.1 hmock]
          rfl
        · cases allow with
          | false => cases htarget
          | true => exact hserved entry htarget
      · rw [recordedRequests_append]
        exact ⟨fun _ => hdelay, fun _ => List.append_ne_nil_of_left_ne_nil (List.cons_ne_nil _ _) _⟩
    · have hpositive : 0 < delayMs := (Classical.not_imp.1 hdelay).1
      have hstopped : run.delay = .stopped := by
        rcases hawait : run.delay with ⟨⟩ | _
        · exact absurd hawait (Classical.not_imp.1 hdelay).2
        · rfl
      rw [serveConnection_of_stopped h hdecision hpositive hstopped]
      exact ⟨fun _ hrecords => absurd hrecords hdelay, fun _ entry hentry => by cases hentry⟩

theorem honoursFilter_iff (skip : Str → Bool) (run : Socks5Run) :
    HonoursFilter skip (serveConnection world run) ↔
      ∀ target, run.handshake = .ready (some target) → Records world run (resolveTarget world.dns target) →
        skip (resolveTarget world.dns target).host = false := by
  by_cases htarget : ∃ target, run.handshake = .ready (some target)
  · obtain ⟨target, h⟩ := htarget
    rw [honoursFilter_serve skip h]
    constructor
    · intro hkept target' h'
      rw [h] at h'
      cases h'
      exact hkept
    · intro hkept
      exact hkept target h
  · rw [serveConnection_of_no_target (not_exists.1 htarget)]
    exact ⟨fun _ target h => absurd ⟨target, h⟩ htarget, fun _ entry h => (by cases h)⟩

end Socks5

/-! ### Every path -/

/-- The interactions which keep the filter, path by path. -/
def Interaction.KeepsFilter (world : RecordingWorld) (rules : RecordingRules) : Interaction → Prop
  | .exchange http => http.KeepsFilter world rules
  | .webSocket upgrades req mitmDestination run =>
    WebSocket.recordsUpgrade upgrades req mitmDestination run = true →
      rules.filter.shouldSkip world.lowercase (WebSocketRequest.prepare req mitmDestination).host = false
  | .connect tunnels authority run =>
    Connect.Records tunnels run → rules.filter.shouldSkip world.lowercase authority = false
  | .socks5 service run =>
    ∀ target, run.handshake = .ready (some target) →
      Socks5.Records service run (Socks5.resolveTarget service.dns target) →
        rules.filter.shouldSkip world.lowercase (Socks5.resolveTarget service.dns target).host = false

/-- Exactly when an interaction honours the filter. -/
theorem interaction_honoursFilter_iff (world : RecordingWorld) (rules : RecordingRules) (interaction : Interaction) :
    HonoursFilter (rules.filter.shouldSkip world.lowercase) (interaction.ops world rules) ↔
      interaction.KeepsFilter world rules := by
  cases interaction with
  | exchange http => exact http.honoursFilter_iff
  | webSocket upgrades req mitmDestination run => exact WebSocket.honoursFilter_iff _ upgrades req mitmDestination run
  | connect tunnels authority run => exact Connect.honoursFilter_iff _ authority run
  | socks5 service run => exact Socks5.honoursFilter_iff _ run

/-! ### A host which is to be skipped -/

private def quietWorld : RecordingWorld where
  surroundings := Surroundings.bare
  lowercase := Str.toAsciiLowercase
  inspect _ := ⟨none, none, none⟩
  breakpointId := "bp"
  inspectionId := "inspection"
  responsePassId := "pass"

/-- A denied host, and a breakpoint which pauses each request. -/
private def denyingRules : RecordingRules :=
  ⟨⟨.denylist, ["secret.test"]⟩,
    { ProductionRules.empty with breakpoints := [⟨"r", Location.default, .request, .head, true⟩] }⟩

private def secretRequest (upgrade : Http.Headers)
    (h : Http.Headers.WellFormed ((("host" : Str), Str.toUtf8 "secret.test") :: upgrade)) : IncomingRequest where
  method := "GET"
  uri := .root
  version := .http11
  headers := ("host", Str.toUtf8 "secret.test") :: upgrade
  peer := none
  connection := none
  method_token := Http.isToken_get
  headers_wf := h

private def secretExchange : Interaction :=
  .exchange
    { engine := ⟨10485760, 524288, 8080, "127.0.0.1", [], none⟩
      req := secretRequest [] (by decide)
      mitmDestination := none
      body := []
      view := ⟨fun _ => none, 0⟩
      later := [] }

private def secretUpgrade : Interaction :=
  .webSocket ⟨[], ⟨fun _ => none, [], fun _ => .proceed⟩, false, "w", "b", fun key => key⟩
    (secretRequest [("upgrade", Str.toUtf8 "websocket")] (by decide)) none
    ⟨some none, .ready (.ok ()), fun _ => ⟨.ready (), 0, true⟩, []⟩

/-- A denied host is recorded where a breakpoint pauses its request, where it is upgraded, and where it is tunnelled. -/
theorem not_honoursFilter :
    ¬ HonoursFilter (denyingRules.filter.shouldSkip quietWorld.lowercase) (secretExchange.ops quietWorld denyingRules) ∧
      ¬ HonoursFilter (denyingRules.filter.shouldSkip quietWorld.lowercase)
        (secretUpgrade.ops quietWorld denyingRules) ∧
      ¬ HonoursFilter (denyingRules.filter.shouldSkip quietWorld.lowercase)
        (Connect.handleConnect plainConnectWorld "secret.test:443" stoppedConnectRun) ∧
      ¬ HonoursFilter (denyingRules.filter.shouldSkip quietWorld.lowercase)
        (Socks5.serveConnection plainSocks5World
          { refusedSocks5Run with handshake := .ready (some ⟨"secret.test", 5432⟩) }) := by
  refine ⟨?_, ?_, ?_, ?_⟩
  · intro h
    have hkept := (HttpInteraction.honoursFilter_iff _).1 h _ rfl
    have hskip : denyingRules.filter.shouldSkip quietWorld.lowercase "secret.test" = false := hkept.1
    revert hskip
    decide +kernel
  · intro h
    have hskip := h _ (List.mem_singleton_self _)
    revert hskip
    decide +kernel
  · intro h
    have hskip := h _ (List.mem_singleton_self _)
    revert hskip
    decide +kernel
  · intro h
    have hskip := h _ (List.mem_singleton_self _)
    revert hskip
    decide +kernel

end Oproxy
