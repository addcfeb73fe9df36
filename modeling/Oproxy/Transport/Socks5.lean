import Oproxy.Engine.TerminalGuard
import Oproxy.Lib.Url
import Oproxy.Transport.Tunnel

/-!
# SOCKS5 (`transport/socks5.rs`)

Behind the handshake a mock rule may decide on a tunnel, a TLS port may be intercepted, and anything else is tunnelled
under a session of its own, which a guard closes where the run is stopped.
-/

namespace Oproxy

structure Socks5Target where
  host : Str
  port : Nat

namespace Socks5

def resolveTarget (dns : DnsOverrides) (target : Socks5Target) : Socks5Target :=
  { target with host := (((dns.get? target.host).filter DnsEntry.enabled).map DnsEntry.ip).getD target.host }

def targetUri (target : Socks5Target) : Str :=
  ("socks5://" : Str) ++ target.host ++ ':' :: Str.ofNat target.port

def socks5RequestContext (target : Socks5Target) : RequestContext :=
  { RequestContext.default with
    method := "CONNECT"
    uri := targetUri target
    host := target.host
    protocolContext := some ProtocolContext.socks5Tunnel
    downstreamProtocol := some WireProtocol.socks5.label }

/-- The first rule which decides on the tunnel: whether it is allowed, and after what time. -/
def tunnelDecisionFor (regex : RegexEngine) (rules : List MockRule) (target : Socks5Target) :
    Option (Str × Bool × Nat) :=
  (rules.filter MockRule.enabled).findSome? fun rule =>
    match rule.behavior with
    | some (.tunnelDecision allow delayMs) =>
      if rule.matchesContext regex (socks5RequestContext target) then some (rule.id, allow, delayMs) else none
    | _ => none

def isTlsPort (port : Nat) : Bool := port = 443 || port = 8443 || port = 4443

/-- The settings of the service, and what it uses of the world outside: the ids of the sessions, which are fresh ones,
and the times. -/
structure Socks5World where
  regex : RegexEngine
  dns : DnsOverrides
  mockRules : List MockRule
  isMitm : Bool
  mockSessionId : Str
  tunnelSessionId : Str
  distinct : mockSessionId ≠ tunnelSessionId
  latencyMs : Nat

/-- What the awaits of a run come to: the handshake, which has a target where it succeeds, the delay of a decision,
the two flushes of the session store with what it shows then, the connection to the upstream, and the replies to the
client.  `atDrop` is what the store shows to the guard. -/
structure Socks5Run where
  handshake : Awaited (Option Socks5Target)
  delay : Awaited Unit
  guardFlush : Awaited StoreView
  dial : Awaited Dial
  failureReply : Awaited Unit
  successReply : Awaited (Except Unit Unit)
  closeFlush : Awaited StoreView
  atDrop : StoreView

variable (world : Socks5World)

/-! ### Sessions -/

/-- The operations of a tunnel which a mock has decided on. -/
def recordSocks5MockServed (target : Socks5Target) (ruleId behavior : Str) : List WriteOp :=
  [.recordRequest world.mockSessionId (socks5RequestContext target) .proxy,
    .appendEvent world.mockSessionId (.mockServed ruleId behavior)]

def tunnelRequestContext (target : Socks5Target) : RequestContext :=
  let connectionId := ("socks5:" : Str) ++ world.tunnelSessionId
  { socks5RequestContext target with
    protocolContext := some (ProtocolContext.socks5Tunnel.withIdentity (some connectionId) (some 1))
    connectionId := some connectionId
    streamId := some 1 }

def recordSocks5TunnelOpened (target : Socks5Target) : List WriteOp :=
  [.recordRequest world.tunnelSessionId (tunnelRequestContext world target) .proxy,
    .appendEvent world.tunnelSessionId .tunnelOpened]

def guardMessage : Str := "SOCKS5 tunnel closed before oproxy recorded tunnel completion."

/-- A guard for the session of a tunnel, where the store has that session. -/
def terminalGuardForSocks5Tunnel (view : StoreView) (sessionId : Str) : Option TerminalSessionGuard :=
  (view.getSession sessionId).map fun session =>
    { sessionId := sessionId
      requestUri := session.request.uri
      requestHost := session.request.host
      requestMethod := session.request.method
      protocolContext := session.protocolContext
      protocol := some WireProtocol.socks5.label
      flow := session.flow
      ttfbMs := 0
      message := guardMessage }

def recordSocks5TunnelClosed (view : StoreView) (sessionId : Str) (bytesUp bytesDown : Nat) : List WriteOp :=
  match view.getSession sessionId with
  | none => []
  | some session =>
    let response := { ResponseContext.default with
      status := 200
      body := Str.toUtf8 (("up=" : Str) ++ Str.ofNat bytesUp ++ (" down=" : Str) ++ Str.ofNat bytesDown)
      requestUri := session.request.uri
      sessionId := some sessionId
      requestHost := session.request.host
      requestMethod := session.request.method
      protocol := some WireProtocol.socks5.label
      protocolContext := session.protocolContext }
    let latencyMs := (max 0 (Int.tdiv (view.now - session.timestamp) 1000000)).toNat
    [.appendEvent sessionId (.tunnelClosed bytesUp bytesDown),
      .recordResponseWithMetrics sessionId response
        (InspectionMetrics.ofStatus 200 latencyMs bytesUp bytesDown 0 0 (some WireProtocol.socks5.label))]

/-! ### Runs -/

/-- The counts of a tunnel; none where it has failed. -/
def tunnelWithConnectTimeout (run : Socks5Run) : Awaited (Option (Nat × Nat)) :=
  match run.dial with
  | .stopped => .stopped
  | .ready (.connected relay) =>
    match run.successReply with
    | .stopped => .stopped
    | .ready (.error ()) => .ready none
    | .ready (.ok ()) => relay.copyBidirectional
  | .ready _ =>
    match run.failureReply with
    | .stopped => .stopped
    | .ready () => .ready none

def serveTunnel (run : Socks5Run) (target : Socks5Target) : List WriteOp :=
  let opening := recordSocks5TunnelOpened world target
  match run.guardFlush with
  | .stopped => opening
  | .ready view =>
    let guard := terminalGuardForSocks5Tunnel view world.tunnelSessionId
    let dropped := (guard.map fun guard => guard.drop run.atDrop world.latencyMs).getD []
    match tunnelWithConnectTimeout run with
    | .stopped => opening ++ dropped
    | .ready result =>
      let (bytesUp, bytesDown) := result.getD (0, 0)
      match run.closeFlush with
      | .stopped => opening ++ dropped
      | .ready view => opening ++ recordSocks5TunnelClosed view world.tunnelSessionId bytesUp bytesDown

def shouldIntercept (target : Socks5Target) : Bool := world.isMitm && isTlsPort target.port

/-- What follows once the tunnel is allowed; an intercepted connection has sessions for its requests. -/
def serveTarget (run : Socks5Run) (target : Socks5Target) : List WriteOp :=
  if shouldIntercept world target then [] else serveTunnel world run target

def serveConnection (run : Socks5Run) : List WriteOp :=
  match run.handshake with
  | .stopped => []
  | .ready none => []
  | .ready (some target) =>
    let target := resolveTarget world.dns target
    match tunnelDecisionFor world.regex world.mockRules target with
    | none => serveTarget world run target
    | some (ruleId, allow, delayMs) =>
      match (if delayMs > 0 then run.delay else .ready ()) with
      | .stopped => []
      | .ready () =>
        recordSocks5MockServed world target ruleId "tunnel_decision" ++
          if allow then serveTarget world run target else []

/-! ### A connection, case by case -/

variable {world} {run : Socks5Run} {target : Socks5Target}

theorem serveConnection_of_no_target (h : ∀ target, run.handshake ≠ .ready (some target)) :
    serveConnection world run = [] := by
  unfold serveConnection
  rcases hhandshake : run.handshake with (_ | target) | _
  · rfl
  · exact absurd hhandshake (h target)
  · rfl

theorem serveConnection_of_undecided (h : run.handshake = .ready (some target))
    (hdecision : tunnelDecisionFor world.regex world.mockRules (resolveTarget world.dns target) = none) :
    serveConnection world run = serveTarget world run (resolveTarget world.dns target) := by
  simp only [serveConnection, h, hdecision]

/-- A decision which is taken. -/
theorem serveConnection_of_served {ruleId : Str} {allow : Bool} {delayMs : Nat}
    (h : run.handshake = .ready (some target))
    (hdecision : tunnelDecisionFor world.regex world.mockRules (resolveTarget world.dns target) =
      some (ruleId, allow, delayMs)) (hdelay : 0 < delayMs → run.delay = .ready ()) :
    serveConnection world run =
      recordSocks5MockServed world (resolveTarget world.dns target) ruleId "tunnel_decision" ++
        if allow then serveTarget world run (resolveTarget world.dns target) else [] := by
  by_cases hpositive : 0 < delayMs
  · simp only [serveConnection, h, hdecision, gt_iff_lt, hpositive, if_true, hdelay hpositive]
  · simp only [serveConnection, h, hdecision, gt_iff_lt, hpositive, if_false]

/-- A run which is stopped during the delay of a decision. -/
theorem serveConnection_of_stopped {ruleId : Str} {allow : Bool} {delayMs : Nat}
    (h : run.handshake = .ready (some target))
    (hdecision : tunnelDecisionFor world.regex world.mockRules (resolveTarget world.dns target) =
      some (ruleId, allow, delayMs)) (hpositive : 0 < delayMs) (hdelay : run.delay = .stopped) :
    serveConnection world run = [] := by
  simp only [serveConnection, h, hdecision, gt_iff_lt, hpositive, if_true, hdelay]

end Socks5

end Oproxy
