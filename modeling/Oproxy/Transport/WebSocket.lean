import Oproxy.Engine.Recording
import Oproxy.Transport.Tunnel
import Oproxy.Transport.WsRelay

/-!
# WebSocket upgrades (`transport/websocket.rs`)

An upgrade is taken before the middleware chain: a mock script answers it, or it is dialled and relayed.  Either way
its session is recorded here.
-/

namespace Oproxy

namespace WebSocket

/-- The host, the port and the scheme which an upgrade is dialled at. -/
def resolveWsTarget (uri : Http.Uri) (headerHost : Str) (mitmDestination : Option Str) : Str × Nat × Str :=
  match mitmDestination with
  | some destination =>
    let authority := ((Str.splitOnceStr "://" destination).map Prod.snd).getD destination
    let (host, portText) := (Str.rsplitOnce ':' authority).getD (authority, "443")
    (host, (Str.parseUnsigned 65535 portText).getD 443, "wss")
  | none =>
    let host := uri.host.getD (headerHost.takeWhile fun c => c ≠ ':')
    let requestedScheme := uri.scheme.getD "ws"
    let secure := requestedScheme = ("wss" : Str) || requestedScheme = ("https" : Str)
    let port := uri.portU16.getD (if secure then 443 else 80)
    (host, port, if secure || port = 443 then "wss" else "ws")

/-- The fields whose values are text. -/
def textHeaders (headers : Http.Headers) : HeaderMap :=
  HeaderMap.fromIter (headers.filterMap fun e => e.2.toStr.map fun value => (e.1, value))

end WebSocket

open WebSocket

structure WebSocketRequest where
  headers : Http.Headers
  host : Str
  port : Nat
  scheme : Str
  url : Str
  connectionId : Option Str
  streamId : Option Nat
  downstreamProtocol : Option Str

namespace WebSocketRequest

def prepare (req : IncomingRequest) (mitmDestination : Option Str) : WebSocketRequest :=
  let headerHost := (req.headers.getStr "host").getD []
  let (host, port, scheme) := resolveWsTarget req.uri headerHost mitmDestination
  { headers := req.headers
    host := host
    port := port
    scheme := scheme
    url := scheme ++ ("://" : Str) ++ host ++ ':' :: Str.ofNat port ++ req.uri.pathAndQuery.getD "/"
    connectionId := req.connection.map Prod.fst
    streamId := req.connection.map Prod.snd
    downstreamProtocol := some (Wire.protocolLabel req.version) }

variable (prepared : WebSocketRequest)

def protocolContext : ProtocolContext :=
  (ProtocolContext.webSocket prepared.scheme).withIdentity prepared.connectionId prepared.streamId

def requestContext : RequestContext :=
  { RequestContext.default with
    method := "WS"
    uri := prepared.url
    headers := textHeaders prepared.headers
    host := prepared.host
    connectionId := prepared.connectionId
    streamId := prepared.streamId
    downstreamProtocol := prepared.downstreamProtocol
    protocolContext := some prepared.protocolContext }

/-- The response of the upgrade; `acceptKey` derives the accept key of the handshake. -/
def responseContext (acceptKey : Str → Str) (subprotocol : Option Str) : ResponseContext :=
  let upgrade := (HeaderMap.new.append "upgrade" "websocket").append "connection" "Upgrade"
  let accepted := match prepared.headers.getStr "sec-websocket-key" with
    | some key => upgrade.append "sec-websocket-accept" (acceptKey key)
    | none => upgrade
  { ResponseContext.default with
    status := 101
    headers := match subprotocol.filter fun protocol => !protocol.isEmpty with
      | some protocol => accepted.append "sec-websocket-protocol" protocol
      | none => accepted
    requestUri := prepared.url
    tags := ["ws"]
    requestHost := prepared.host
    requestMethod := "WS"
    protocol := some "WebSocket"
    protocolContext := some prepared.protocolContext }

/-- The first subprotocol which the client has offered. -/
def firstOfferedSubprotocol : Option Str :=
  ((prepared.headers.getStr "sec-websocket-protocol").map fun value =>
    Str.trim (value.takeWhile fun c => c ≠ ',')).filter fun protocol => !protocol.isEmpty

end WebSocketRequest

namespace WebSocket

/-! ### Mock scripts -/

/-- The first enabled rule with a script which matches: its id and its frames. -/
def selectWsMockScript (regex : RegexEngine) (rules : List MockRule) (ctx : RequestContext) :
    Option (Str × List WsFrameAction) :=
  (rules.filter MockRule.enabled).findSome? fun rule =>
    match rule.behavior with
    | some (.webSocketScript frames) => if rule.matchesContext regex ctx then some (rule.id, frames) else none
    | _ => none

def wsActionToMessage (action : WsFrameAction) : WsMessage :=
  match action.opcode with
  | 0x1 => .text action.payload
  | 0x2 => .binary action.payload.toUtf8
  | 0x8 => .close (some (1000, action.payload))
  | 0x9 => .ping action.payload.toUtf8
  | 0xA => .pong action.payload.toUtf8
  | _ => .text action.payload

/-- What the awaits of a scripted frame come to: its delay, and the sending, at a time. -/
structure ScriptStep where
  delay : Awaited Unit
  time : Timestamp
  accepted : Bool

/-- The frames of a script are recorded and sent until one is refused, or closes the connection. -/
def runWsMockScript (sessionId : Str) (steps : Nat → ScriptStep) : Nat → List WsFrameAction → List WriteOp
  | _, [] => []
  | i, action :: actions =>
    match (if action.delayMs > 0 then (steps i).delay else .ready ()) with
    | .stopped => []
    | .ready () =>
      let message := wsActionToMessage action
      recordFrame sessionId (steps i).time message .serverToClient ++
        if !(steps i).accepted || isClose message then [] else runWsMockScript sessionId steps (i + 1) actions

/-! ### The handler -/

/-- The settings of the handler, and what it uses of the world outside: the ids of the session and of a pause, and
the accept key of a handshake. -/
structure WebSocketWorld where
  mockRules : List MockRule
  breakpoints : GrpcInspector.FrameBreakpoints
  inspectFrames : Bool
  sessionId : Str
  breakpointId : Str
  acceptKey : Str → Str

/-- What the awaits of a run come to: the connection to the upstream, with the subprotocol it has agreed on, the
upgrade of the client's connection, and then the frames of a script or the events of the relay. -/
structure WebSocketRun where
  upstream : Option (Option Str)
  upgrade : Awaited (Except Unit Unit)
  script : Nat → ScriptStep
  events : List WsRelayEvent

variable (world : WebSocketWorld)

def wsUpgradeMetrics : InspectionMetrics := InspectionMetrics.ofStatus 101 0 0 0 0 0 (some "WebSocket")

/-- The session of an upgrade. -/
def recordUpgrade (prepared : WebSocketRequest) (subprotocol : Option Str) : List WriteOp :=
  [.recordRequest world.sessionId prepared.requestContext .proxy,
    .recordResponseWithMetrics world.sessionId (prepared.responseContext world.acceptKey subprotocol) wsUpgradeMetrics]

def relayContext (prepared : WebSocketRequest) : WsRelayContext where
  sessionId := world.sessionId
  frameUri := prepared.url
  frameHost := prepared.host
  inspectFrames := world.inspectFrames
  breakpoints := world.breakpoints
  breakpointId := world.breakpointId

def handleMockWebsocket (prepared : WebSocketRequest) (ruleId : Str) (frames : List WsFrameAction)
    (run : WebSocketRun) : List WriteOp :=
  recordUpgrade world prepared prepared.firstOfferedSubprotocol ++
    .appendEvent world.sessionId (.mockServed ruleId "websocket_script") ::
      match run.upgrade with
      | .ready (.ok ()) => runWsMockScript world.sessionId run.script 0 frames
      | _ => []

def handleWebsocket (req : IncomingRequest) (mitmDestination : Option Str) (run : WebSocketRun) : List WriteOp :=
  let prepared := WebSocketRequest.prepare req mitmDestination
  match selectWsMockScript world.breakpoints.regex world.mockRules prepared.requestContext with
  | some (ruleId, frames) => handleMockWebsocket world prepared ruleId frames run
  | none =>
    match run.upstream with
    | none => []
    | some subprotocol =>
      recordUpgrade world prepared subprotocol ++
        match run.upgrade with
        | .ready (.ok ()) => (relayWs (relayContext world prepared) run.events).2
        | _ => []

/-! ### What is recorded -/

private theorem recordedRequests_recordFrame (sessionId : Str) (time : Timestamp) (message : WsMessage)
    (direction : WsDirection) : recordedRequests (recordFrame sessionId time message direction) = [] := by
  unfold recordFrame
  split <;> rfl

private theorem recordedRequests_pauseOps (relay : WsRelayContext) (direction : WsDirection) (message : WsMessage) :
    recordedRequests (relay.pauseOps direction message) = [] := by
  unfold WsRelayContext.pauseOps
  split <;> rfl

theorem recordedRequests_relayWs (relay : WsRelayContext) (events : List WsRelayEvent) :
    recordedRequests (relayWs relay events).2 = [] := by
  induction events with
  | nil => rfl
  | cons event events ih =>
    cases event with
    | ended direction => rfl
    | shutdown => rfl
    | received direction message accepted time =>
      have hframes : ∀ c : Bool, ∀ shown, recordedRequests (if c = true then
          recordFrame relay.sessionId time shown direction else []) = [] := by
        intro c shown
        cases c
        · rfl
        · exact recordedRequests_recordFrame _ _ _ _
      unfold relayWs
      dsimp only
      split
      · rw [recordedRequests_append, recordedRequests_pauseOps, ih, List.append_nil]
      · split
        · rw [recordedRequests_append, recordedRequests_pauseOps, hframes, List.append_nil]
        · split
          · rw [recordedRequests_append, recordedRequests_pauseOps, hframes, List.append_nil]
          · rw [recordedRequests_append, recordedRequests_append, recordedRequests_pauseOps, hframes, ih,
              List.append_nil, List.append_nil]

private theorem recordedRequests_runWsMockScript (sessionId : Str) (steps : Nat → ScriptStep) (i : Nat)
    (frames : List WsFrameAction) : recordedRequests (runWsMockScript sessionId steps i frames) = [] := by
  induction frames generalizing i with
  | nil => rfl
  | cons action actions ih =>
    unfold runWsMockScript
    split
    · rfl
    · dsimp only
      rw [recordedRequests_append, recordedRequests_recordFrame, List.nil_append]
      split
      · rfl
      · exact ih (i + 1)

/-- Whether an upgrade gets a session: a script answers it, or its upstream is reached. -/
def recordsUpgrade (req : IncomingRequest) (mitmDestination : Option Str) (run : WebSocketRun) : Bool :=
  (selectWsMockScript world.breakpoints.regex world.mockRules
    (WebSocketRequest.prepare req mitmDestination).requestContext).isSome || run.upstream.isSome

theorem recordedRequests_handleWebsocket (req : IncomingRequest) (mitmDestination : Option Str) (run : WebSocketRun) :
    recordedRequests (handleWebsocket world req mitmDestination run) =
      if recordsUpgrade world req mitmDestination run then
        [(world.sessionId, (WebSocketRequest.prepare req mitmDestination).requestContext)]
      else [] := by
  unfold handleWebsocket recordsUpgrade
  dsimp only
  split
  · rename_i hscript
    rw [hscript]
    unfold handleMockWebsocket
    rw [recordedRequests_append]
    have hframes : ∀ ruleId, ∀ ops : List WriteOp, recordedRequests ops = [] →
        recordedRequests (.appendEvent world.sessionId (.mockServed ruleId "websocket_script") :: ops) = [] :=
      fun _ _ h => h
    rw [hframes]
    · rfl
    · split
      · exact recordedRequests_runWsMockScript _ _ _ _
      · rfl
  · rename_i hscript
    rw [hscript]
    cases run.upstream with
    | none => rfl
    | some subprotocol =>
      dsimp only
      rw [recordedRequests_append]
      split
      · rw [recordedRequests_relayWs]
        rfl
      · rfl

end WebSocket

end Oproxy
