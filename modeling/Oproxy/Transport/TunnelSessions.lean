import Oproxy.Transport.Connect
import Oproxy.Transport.Socks5

/-!
# What the sessions of tunnels say

Both kinds of tunnel fold errors into the values of success: a relay which has failed is recorded with no bytes, and
a SOCKS5 tunnel whose upstream was never reached with a status of 200.  A CONNECT which is stopped and a SOCKS5
tunnel which a mock has decided on leave their sessions open.
-/

namespace Oproxy

/-! ### CONNECT -/

namespace Connect

/-- A connection attempt which comes to an end, and a relay which ends cleanly or has moved nothing. -/
def EndsCleanly : Awaited Dial → Prop
  | .stopped => False
  | .ready (.connected relay) =>
    relay.ending = .closed ∨ (relay.ending = .failed ∧ relay.bytesUp = 0 ∧ relay.bytesDown = 0)
  | .ready _ => True

variable {world : ConnectWorld}

private theorem recordTunnelOutcome_iff {opening : List WriteOp} (h : Opening world.sessionId opening)
    (target : ConnectTarget) (connection : Option Relay) (outcome : TunnelOutcome) :
    TellTruth (opening ++ recordTunnelOutcome world target outcome) connection ↔
      match outcome with
      | .connected bytesUp bytesDown => connection.isSome = true ∧ (bytesUp, bytesDown) = relayedBytes connection
      | .unreachable _ => (0, 0) = relayedBytes connection
      | .timedOut => (0, 0) = relayedBytes connection := by
  cases outcome with
  | connected bytesUp bytesDown =>
    rw [h.tellTruth_iff rfl rfl rfl]
    exact ⟨fun h => ⟨h.1 rfl, h.2⟩, fun h => ⟨fun _ => h.1, h.2⟩⟩
  | unreachable error =>
    rw [h.tellTruth_iff rfl rfl rfl]
    exact ⟨fun h => h.2, fun h => ⟨fun hstatus => absurd hstatus (by show ¬ (502 = 200); decide), h⟩⟩
  | timedOut =>
    rw [h.tellTruth_iff rfl rfl rfl]
    exact ⟨fun h => h.2, fun h => ⟨fun hstatus => absurd hstatus (by show ¬ (504 = 200); decide), h⟩⟩

private theorem tunnelOps_iff {opening : List WriteOp} (h : Opening world.sessionId opening) (target : ConnectTarget)
    (dial : Awaited Dial) :
    TellTruth (opening ++ tunnelOps world target dial) dial.established ↔ EndsCleanly dial := by
  rcases dial with ⟨relay | error | _⟩ | _
  · -- a connection, by the end of its relay
    cases hending : relay.ending with
    | closed =>
      have hops : tunnelOps world target (.ready (.connected relay)) =
          recordTunnelOutcome world target (.connected relay.bytesUp relay.bytesDown) := by
        simp only [tunnelOps, Relay.copyBidirectional, hending, Option.getD_some]
      rw [hops]
      exact (recordTunnelOutcome_iff h target (some relay) _).trans ⟨fun _ => Or.inl hending, fun _ => ⟨rfl, rfl⟩⟩
    -- copy_bidirectional loses its counts with the error
    | failed =>
      have hops : tunnelOps world target (.ready (.connected relay)) =
          recordTunnelOutcome world target (.connected 0 0) := by
        simp only [tunnelOps, Relay.copyBidirectional, hending, Option.getD_none]
      rw [hops]
      apply (recordTunnelOutcome_iff h target (some relay) _).trans
      constructor
      · intro hcounts
        have hrelayed : ((0, 0) : Nat × Nat) = (relay.bytesUp, relay.bytesDown) := hcounts.2
        rw [Prod.mk.injEq] at hrelayed
        exact Or.inr ⟨hending, hrelayed.1.symm, hrelayed.2.symm⟩
      · rintro (hclosed | ⟨-, hup, hdown⟩)
        · rw [hending] at hclosed
          cases hclosed
        · refine ⟨rfl, ?_⟩
          show (0, 0) = (relay.bytesUp, relay.bytesDown)
          rw [hup, hdown]
    | stopped =>
      have hops : tunnelOps world target (.ready (.connected relay)) = [] := by
        simp only [tunnelOps, Relay.copyBidirectional, hending]
      rw [hops, List.append_nil]
      constructor
      · intro htruth
        exact absurd htruth h.not_tellTruth
      · intro hends
        rcases hends with hclosed | ⟨hfailed, -⟩
        · rw [hending] at hclosed
          cases hclosed
        · rw [hending] at hfailed
          cases hfailed
  · exact (recordTunnelOutcome_iff h target none (.unreachable error)).trans ⟨fun _ => trivial, fun _ => rfl⟩
  · exact (recordTunnelOutcome_iff h target none .timedOut).trans ⟨fun _ => trivial, fun _ => rfl⟩
  · have hops : tunnelOps world target .stopped = [] := rfl
    rw [hops, List.append_nil]
    exact ⟨fun htruth => absurd htruth h.not_tellTruth, False.elim⟩

private theorem opening_connect (target : ConnectTarget) (scheme : Str) :
    Opening world.sessionId [.recordRequest world.sessionId (connectRequestContext target scheme) .proxy] :=
  ⟨⟨_, rfl⟩, rfl, rfl⟩

/-- A CONNECT which may not intercept. -/
private theorem connect_iff_of_plain (authority : Str) (run : ConnectRun) (hmitm : world.isMitm = false) :
    TellTruth (handleConnect world authority run) run.dial.established ↔
      run.upgrade = .ready (.ok ()) ∧ EndsCleanly run.dial := by
  have hopening := @opening_connect world (resolve world.dns authority) "https"
  rw [handleConnect_of_plain authority run hmitm]
  rcases hupgrade : run.upgrade with (error | _) | _
  · rw [List.append_nil]
    exact ⟨fun htruth => absurd htruth hopening.not_tellTruth, fun h => by cases h.1⟩
  · rw [tunnelOps_iff hopening]
    exact ⟨fun h => ⟨rfl, h⟩, fun h => h.2⟩
  · rw [List.append_nil]
    exact ⟨fun htruth => absurd htruth hopening.not_tellTruth, fun h => by cases h.1⟩

theorem handleConnect_tellTruth_iff (authority : Str) (run : ConnectRun) :
    TellTruth (handleConnect world authority run) run.dial.established ↔
      (Records world run → run.upgrade = .ready (.ok ()) ∧ EndsCleanly run.dial) := by
  cases hmitm : world.isMitm with
  | false =>
    rw [connect_iff_of_plain authority run hmitm]
    exact ⟨fun h _ => h, fun h => h (Or.inl hmitm)⟩
  | true =>
    rcases handleConnect_of_mitm authority run hmitm with
      ⟨first, rest, hupgrade, hpeek, hfirst, hops⟩ | ⟨hrecords, hops⟩
    · rw [hops, tunnelOps_iff (opening_connect _ _)]
      exact ⟨fun h _ => ⟨hupgrade, h⟩, fun h => (h (Or.inr ⟨hupgrade, first, rest, hpeek, hfirst⟩)).2⟩
    · rw [hops]
      exact ⟨fun _ h => absurd h hrecords, fun _ => tellTruth_nil _⟩

end Connect

/-! ### SOCKS5 -/

namespace Socks5

/-- The connection of a run with what was relayed over it: nothing, where the client did not take the reply. -/
def Socks5Run.connection (run : Socks5Run) : Option Relay :=
  run.dial.established.map fun relay =>
    match run.successReply with
    | .ready (.ok ()) => relay
    | _ => ⟨[], .closed⟩

/-- A run which is stopped while its tunnel is open. -/
def Socks5Run.IsStopped (run : Socks5Run) : Prop :=
  match run.dial with
  | .stopped => True
  | .ready (.connected relay) =>
    match run.successReply with
    | .stopped => True
    | .ready (.ok ()) => relay.ending = .stopped
    | .ready (.error ()) => False
  | .ready _ => run.failureReply = .stopped

variable (world : Socks5World)

/-- The guard was made, the session has no response yet, and the sizes which the guard will say are the right ones. -/
def GuardTells (run : Socks5Run) (view : StoreView) : Prop :=
  (view.getSession world.tunnelSessionId).isSome = true ∧
    ((run.atDrop.getSession world.tunnelSessionId).bind fun session => session.response).isSome = false ∧
    (((run.atDrop.getSession world.tunnelSessionId).map fun session => session.request.body.length).getD 0,
      guardMessage.toUtf8.length) = relayedBytes run.connection

/-- The tunnel has been connected and its session is found at its end; a relay which has failed has moved nothing. -/
def CloseTells (run : Socks5Run) (view : StoreView) : Prop :=
  (view.getSession world.tunnelSessionId).isSome = true ∧
    ∃ relay, run.connection = some relay ∧ (relay.ending = .closed ∨ (relay.bytesUp = 0 ∧ relay.bytesDown = 0))

/-- A tunnel which is closed by its guard where the run is stopped, and by its end otherwise. -/
def TunnelTells (run : Socks5Run) : Prop :=
  ∃ view, run.guardFlush = .ready view ∧
    ((run.IsStopped ∧ GuardTells world run view) ∨
      (¬ run.IsStopped ∧ match run.closeFlush with
        | .stopped => GuardTells world run view
        | .ready view => CloseTells world run view))

/-- No mock decides on the target, unless the run is stopped before the decision is taken. -/
def Tells (run : Socks5Run) (target : Socks5Target) : Prop :=
  match tunnelDecisionFor world.regex world.mockRules target with
  | some (_, _, delayMs) => 0 < delayMs ∧ run.delay = .stopped
  | none => shouldIntercept world target = false → TunnelTells world run

variable {world}

private theorem opening_tunnel (target : Socks5Target) :
    Opening world.tunnelSessionId (recordSocks5TunnelOpened world target) :=
  ⟨⟨_, rfl⟩, rfl, rfl⟩

/-- The result of a tunnel, by whether the run is stopped. -/
private theorem tunnelWithConnectTimeout_cases (run : Socks5Run) :
    (run.IsStopped ∧ tunnelWithConnectTimeout run = .stopped) ∨
      (¬ run.IsStopped ∧ ∃ result, tunnelWithConnectTimeout run = .ready result ∧
        ∀ relay, run.connection = some relay →
          (result = some (relay.bytesUp, relay.bytesDown) ∧ relay.ending = .closed) ∨
          (result = none ∧ (relay.ending = .closed → relay.bytesUp = 0 ∧ relay.bytesDown = 0))) := by
  unfold Socks5Run.IsStopped tunnelWithConnectTimeout Socks5Run.connection
  rcases run.dial with ⟨relay | error | _⟩ | _
  · rcases run.successReply with (_ | _) | _
    · right
      refine ⟨not_false, none, rfl, ?_⟩
      intro relay' h
      cases h
      exact Or.inr ⟨rfl, fun _ => ⟨rfl, rfl⟩⟩
    · dsimp only [Awaited.established, Option.map_some]
      unfold Relay.copyBidirectional
      cases hending : relay.ending with
      | closed =>
        right
        refine ⟨by simp, _, rfl, ?_⟩
        rintro relay' ⟨⟩
        exact Or.inl ⟨rfl, hending⟩
      | failed =>
        right
        refine ⟨by simp, _, rfl, ?_⟩
        rintro relay' ⟨⟩
        refine Or.inr ⟨rfl, fun hclosed => ?_⟩
        rw [hending] at hclosed
        cases hclosed
      | stopped => exact Or.inl ⟨rfl, rfl⟩
    · exact Or.inl ⟨trivial, rfl⟩
  · rcases run.failureReply with _ | _
    · right
      exact ⟨by simp, none, rfl, fun relay h => by cases h⟩
    · exact Or.inl ⟨rfl, rfl⟩
  · rcases run.failureReply with _ | _
    · right
      exact ⟨by simp, none, rfl, fun relay h => by cases h⟩
    · exact Or.inl ⟨rfl, rfl⟩
  · exact Or.inl ⟨trivial, rfl⟩

/-- What a guard leaves behind. -/
private theorem dropped_iff (target : Socks5Target) (run : Socks5Run) (view : StoreView) :
    TellTruth (recordSocks5TunnelOpened world target ++
        (((terminalGuardForSocks5Tunnel view world.tunnelSessionId).map fun guard =>
          guard.drop run.atDrop world.latencyMs).getD [])) run.connection ↔ GuardTells world run view := by
  have hopening := @opening_tunnel world target
  unfold GuardTells terminalGuardForSocks5Tunnel
  cases hsession : view.getSession world.tunnelSessionId with
  | none =>
    rw [Option.map_none, Option.map_none, Option.getD_none, List.append_nil]
    exact ⟨fun htruth => absurd htruth hopening.not_tellTruth, fun h => by cases h.1⟩
  | some session =>
    rw [Option.map_some, Option.map_some, Option.getD_some]
    unfold TerminalSessionGuard.drop TerminalSessionGuard.recordFailure
    dsimp only
    cases hresponse :
        ((run.atDrop.getSession world.tunnelSessionId).bind fun session => session.response).isSome with
    | true =>
      rw [if_pos rfl, List.append_nil]
      exact ⟨fun htruth => absurd htruth hopening.not_tellTruth, fun h => by cases h.2.1⟩
    | false =>
      rw [if_neg Bool.false_ne_true, hopening.tellTruth_iff rfl rfl rfl]
      constructor
      · intro h
        exact ⟨rfl, rfl, h.2⟩
      · intro h
        refine ⟨fun hstatus => ?_, h.2.2⟩
        rw [ResponseContext.extendFlow_frame] at hstatus
        have habsurd : (499 : Nat) = 200 := hstatus
        omega

/-- What the end of a tunnel leaves behind. -/
private theorem closed_iff (target : Socks5Target) (run : Socks5Run) (view : StoreView) (bytesUp bytesDown : Nat) :
    TellTruth (recordSocks5TunnelOpened world target ++
        recordSocks5TunnelClosed view world.tunnelSessionId bytesUp bytesDown) run.connection ↔
      (view.getSession world.tunnelSessionId).isSome = true ∧ run.connection.isSome = true ∧
        (bytesUp, bytesDown) = relayedBytes run.connection := by
  have hopening := @opening_tunnel world target
  unfold recordSocks5TunnelClosed
  cases hsession : view.getSession world.tunnelSessionId with
  | none =>
    dsimp only
    rw [List.append_nil]
    exact ⟨fun htruth => absurd htruth hopening.not_tellTruth, fun h => by cases h.1⟩
  | some session =>
    dsimp only
    rw [hopening.tellTruth_iff rfl rfl rfl]
    exact ⟨fun h => ⟨rfl, h.1 rfl, h.2⟩, fun h => ⟨fun _ => h.2.1, h.2.2⟩⟩

private theorem serveTunnel_iff (target : Socks5Target) (run : Socks5Run) :
    TellTruth (serveTunnel world run target) run.connection ↔ TunnelTells world run := by
  have hopening := @opening_tunnel world target
  unfold TunnelTells
  cases hguard : run.guardFlush with
  | stopped =>
    have hops : serveTunnel world run target = recordSocks5TunnelOpened world target := by
      simp only [serveTunnel, hguard]
    rw [hops]
    exact ⟨fun htruth => absurd htruth hopening.not_tellTruth, fun ⟨view, h, _⟩ => by cases h⟩
  | ready view =>
    -- a run which is stopped drops the guard; any other reaches the last flush
    rcases tunnelWithConnectTimeout_cases run with ⟨hstopped, hresult⟩ | ⟨hstopped, result, hresult, hrelay⟩
    · have hops : serveTunnel world run target = recordSocks5TunnelOpened world target ++
          (((terminalGuardForSocks5Tunnel view world.tunnelSessionId).map fun guard =>
            guard.drop run.atDrop world.latencyMs).getD []) := by
        simp only [serveTunnel, hguard, hresult]
      rw [hops, dropped_iff]
      constructor
      · intro h
        exact ⟨view, rfl, Or.inl ⟨hstopped, h⟩⟩
      · rintro ⟨_, ⟨⟩, ⟨-, h⟩ | ⟨hnot, -⟩⟩
        · exact h
        · exact absurd hstopped hnot
    · cases hclose : run.closeFlush with
      | stopped =>
        have hops : serveTunnel world run target = recordSocks5TunnelOpened world target ++
            (((terminalGuardForSocks5Tunnel view world.tunnelSessionId).map fun guard =>
              guard.drop run.atDrop world.latencyMs).getD []) := by
          simp only [serveTunnel, hguard, hresult, hclose]
        rw [hops, dropped_iff]
        constructor
        · intro h
          exact ⟨view, rfl, Or.inr ⟨hstopped, h⟩⟩
        · rintro ⟨_, ⟨⟩, ⟨h, -⟩ | ⟨-, h⟩⟩
          · exact absurd h hstopped
          · exact h
      | ready closeView =>
        have hops : serveTunnel world run target = recordSocks5TunnelOpened world target ++
            recordSocks5TunnelClosed closeView world.tunnelSessionId (result.getD (0, 0)).1
              (result.getD (0, 0)).2 := by
          simp only [serveTunnel, hguard, hresult, hclose]
        -- the counts are folded to zero where the connection or the relay has failed
        have hcounts : (run.connection.isSome = true ∧ ((result.getD (0, 0)).1, (result.getD (0, 0)).2) =
              relayedBytes run.connection) ↔
            ∃ relay, run.connection = some relay ∧
              (relay.ending = .closed ∨ (relay.bytesUp = 0 ∧ relay.bytesDown = 0)) := by
          cases hconnection : run.connection with
          | none => simp
          | some relay =>
            rcases hrelay relay hconnection with ⟨rfl, hclosed⟩ | ⟨rfl, hfailed⟩
            · exact ⟨fun _ => ⟨relay, rfl, Or.inl hclosed⟩, fun _ => ⟨rfl, rfl⟩⟩
            · constructor
              · rintro ⟨-, h⟩
                rw [Option.getD_none, Prod.mk.injEq] at h
                exact ⟨relay, rfl, Or.inr ⟨h.1.symm, h.2.symm⟩⟩
              · rintro ⟨relay', ⟨⟩, h⟩
                have hzero : relay.bytesUp = 0 ∧ relay.bytesDown = 0 := h.elim hfailed id
                refine ⟨rfl, ?_⟩
                show (0, 0) = (relay.bytesUp, relay.bytesDown)
                rw [hzero.1, hzero.2]
        rw [hops, closed_iff, hcounts]
        constructor
        · intro h
          exact ⟨view, rfl, Or.inr ⟨hstopped, h⟩⟩
        · rintro ⟨_, ⟨⟩, ⟨h, -⟩ | ⟨-, h⟩⟩
          · exact absurd h hstopped
          · exact h

/-- The tunnel of a run responds to no other session than its own. -/
private theorem respondedSessions_serveTarget (run : Socks5Run) (target : Socks5Target) :
    ∀ id ∈ respondedSessions (serveTarget world run target), id = world.tunnelSessionId := by
  have hguard : ∀ view : StoreView, ∀ id ∈ respondedSessions
      (((terminalGuardForSocks5Tunnel view world.tunnelSessionId).map fun guard =>
        guard.drop run.atDrop world.latencyMs).getD []), id = world.tunnelSessionId := by
    intro view id hid
    unfold terminalGuardForSocks5Tunnel at hid
    cases hsession : view.getSession world.tunnelSessionId with
    | none =>
      rw [hsession] at hid
      cases hid
    | some session =>
      rw [hsession, Option.map_some, Option.map_some, Option.getD_some] at hid
      unfold TerminalSessionGuard.drop TerminalSessionGuard.recordFailure at hid
      dsimp only at hid
      split at hid
      · cases hid
      · exact List.mem_singleton.mp hid
  intro id hid
  unfold serveTarget at hid
  split at hid
  · cases hid
  · unfold serveTunnel at hid
    have hopened : respondedSessions (recordSocks5TunnelOpened world target) = [] := rfl
    cases hflush : run.guardFlush with
    | stopped =>
      rw [hflush] at hid
      cases hid
    | ready view =>
      rw [hflush] at hid
      dsimp only at hid
      split at hid
      · rw [respondedSessions_append, hopened, List.nil_append] at hid
        exact hguard view id hid
      · split at hid
        · rw [respondedSessions_append, hopened, List.nil_append] at hid
          exact hguard view id hid
        · rw [respondedSessions_append, hopened, List.nil_append] at hid
          unfold recordSocks5TunnelClosed at hid
          split at hid
          · cases hid
          · exact List.mem_singleton.mp hid

/-- The session of a tunnel which a mock has decided on is never closed. -/
private theorem not_tellTruth_of_decision (target : Socks5Target) (ruleId behavior : Str) {ops : List WriteOp}
    (hops : ∀ id ∈ respondedSessions ops, id = world.tunnelSessionId) (connection : Option Relay) :
    ¬ TellTruth (recordSocks5MockServed world target ruleId behavior ++ ops) connection := by
  intro htruth
  have hclosed := htruth.closed (world.mockSessionId, socks5RequestContext target) (by
    rw [recordedRequests_append]
    exact List.mem_append_left _ (List.mem_singleton_self _))
  rw [respondedSessions_append] at hclosed
  rcases List.mem_append.mp hclosed with hmock | hops'
  · cases hmock
  · exact world.distinct (hops _ hops')

/-- What is told of a target, by what becomes of it. -/
private theorem tells_iff {run : Socks5Run} {target : Socks5Target} (h : run.handshake = .ready (some target)) :
    TellTruth (serveConnection world run) run.connection ↔ Tells world run (resolveTarget world.dns target) := by
  unfold Tells
  cases hdecision : tunnelDecisionFor world.regex world.mockRules (resolveTarget world.dns target) with
  | none =>
    rw [serveConnection_of_undecided h hdecision]
    unfold serveTarget
    cases shouldIntercept world (resolveTarget world.dns target) with
    | true =>
      rw [if_pos rfl]
      exact ⟨fun _ h => (by cases h), fun _ => tellTruth_nil _⟩
    | false =>
      rw [if_neg Bool.false_ne_true, serveTunnel_iff]
      exact ⟨fun h _ => h, fun h => h rfl⟩
  | some decision =>
    obtain ⟨ruleId, allow, delayMs⟩ := decision
    by_cases hstopped : 0 < delayMs ∧ run.delay = .stopped
    · rw [serveConnection_of_stopped h hdecision hstopped.1 hstopped.2]
      exact ⟨fun _ => hstopped, fun _ => tellTruth_nil _⟩
    · have hdelay : 0 < delayMs → run.delay = .ready () := by
        intro hpositive
        rcases hawait : run.delay with ⟨⟩ | _
        · rfl
        · exact absurd ⟨hpositive, hawait⟩ hstopped
      rw [serveConnection_of_served h hdecision hdelay]
      constructor
      · intro htruth
        refine absurd htruth (not_tellTruth_of_decision _ _ _ ?_ _)
        split
        · exact respondedSessions_serveTarget run _
        · intro id hid
          cases hid
      · intro h
        exact absurd h hstopped

theorem serveConnection_tellTruth_iff (run : Socks5Run) :
    TellTruth (serveConnection world run) run.connection ↔
      ∀ target, run.handshake = .ready (some target) → Tells world run (resolveTarget world.dns target) := by
  by_cases htarget : ∃ target, run.handshake = .ready (some target)
  · obtain ⟨target, h⟩ := htarget
    rw [tells_iff h]
    constructor
    · intro htells target' h'
      rw [h] at h'
      cases h'
      exact htells
    · intro htells
      exact htells target h
  · rw [serveConnection_of_no_target (not_exists.1 htarget)]
    exact ⟨fun _ target h => absurd ⟨target, h⟩ htarget, fun _ => tellTruth_nil _⟩

end Socks5

/-! ### Both -/

/-- Exactly when the sessions of a CONNECT, and those of a SOCKS5 connection, tell the truth. -/
theorem tunnels_tellTruth_iff (connect : Connect.ConnectWorld) (authority : Str) (connectRun : Connect.ConnectRun)
    (socks5 : Socks5.Socks5World) (socks5Run : Socks5.Socks5Run) :
    (TellTruth (Connect.handleConnect connect authority connectRun) connectRun.dial.established ↔
        (Connect.Records connect connectRun →
          connectRun.upgrade = .ready (.ok ()) ∧ Connect.EndsCleanly connectRun.dial)) ∧
      (TellTruth (Socks5.serveConnection socks5 socks5Run) socks5Run.connection ↔
        ∀ target, socks5Run.handshake = .ready (some target) →
          Socks5.Tells socks5 socks5Run (Socks5.resolveTarget socks5.dns target)) :=
  ⟨Connect.handleConnect_tellTruth_iff authority connectRun, Socks5.serveConnection_tellTruth_iff socks5Run⟩

def plainConnectWorld : Connect.ConnectWorld :=
  { dns := IndexMap.empty, isMitm := false, sessionId := "c", fmtBytes := Str.ofNat, latencyMs := 0 }

def plainSocks5World : Socks5.Socks5World :=
  { regex := fun _ => none, dns := IndexMap.empty, mockRules := [], isMitm := false, mockSessionId := "m"
    tunnelSessionId := "s", distinct := by decide, latencyMs := 0 }

/-- A client whose connection is upgraded, and a run which is stopped while it connects to the upstream. -/
def stoppedConnectRun : Connect.ConnectRun :=
  { upgrade := .ready (.ok ()), peek := .stopped, dial := .stopped }

/-- A view which shows the session of the tunnel. -/
def tunnelView : StoreView :=
  { getSession := fun id => if id = "s" then
      some (SessionStore.recordedExchange 0 "s" (Socks5.tunnelRequestContext plainSocks5World ⟨"db.test", 5432⟩) .proxy)
        else none
    now := 0 }

/-- A tunnel whose upstream refuses the connection. -/
def refusedSocks5Run : Socks5.Socks5Run :=
  { handshake := .ready (some ⟨"db.test", 5432⟩)
    delay := .ready ()
    guardFlush := .ready tunnelView
    dial := .ready (.refused "connection refused")
    failureReply := .ready ()
    successReply := .stopped
    closeFlush := .ready tunnelView
    atDrop := tunnelView }

/-- A CONNECT which is stopped leaves its session open, and a tunnel which was never connected is recorded with 200. -/
theorem not_tunnels_tellTruth :
    ¬ TellTruth (Connect.handleConnect plainConnectWorld "db.test:5432" stoppedConnectRun)
        stoppedConnectRun.dial.established ∧
      ¬ TellTruth (Socks5.serveConnection plainSocks5World refusedSocks5Run) refusedSocks5Run.connection := by
  constructor
  · intro h
    have hclosed := h.closed _ (List.mem_singleton_self _)
    cases hclosed
  · intro h
    have hresponse := h.status (_, _) (List.mem_singleton_self _) rfl
    cases hresponse

end Oproxy
