import Oproxy.Core.WsMessage
import Oproxy.Middleware.ContextWire
import Oproxy.Middleware.Plugins.GrpcInspector
import Oproxy.Session.Store

/-!
# The WebSocket relay (`transport/websocket.rs`)

The loop which passes the messages of the two sides on, each first shown to the frame breakpoints.
-/

namespace Oproxy

namespace WebSocket

/-! ### What is kept of a message -/

def mapTungsteniteMessageToRecord : WsMessage → Option (Nat × Nat × Option Str × Option Str)
  | .text text => some (0x1, text.utf8Len, some (text.take WsMessage.maxTextChars), none)
  | .binary data => some (0x2, data.length, none, WsMessage.hexPreview data)
  | .ping _ => some (0x9, 0, none, none)
  | .pong _ => some (0xA, 0, none, none)
  | .close _ => some (0x8, 0, none, none)
  | .frame _ => none

def recordFrame (sessionId : Str) (time : Timestamp) (message : WsMessage) (direction : WsDirection) : List WriteOp :=
  match mapTungsteniteMessageToRecord message with
  | none => []
  | some (opcode, payloadLen, payloadText, payloadHex) =>
    [.appendWsFrame sessionId ⟨time, direction, opcode, payloadLen, payloadText, payloadHex⟩]

/-! ### Messages as contexts -/

def directionLabel : WsDirection → Str
  | .clientToServer => "client_to_server"
  | .serverToClient => "server_to_client"

def frameHeaders (direction : WsDirection) (message : WsMessage) : HeaderMap :=
  (HeaderMap.new.insert "x-oproxy-frame-direction" (directionLabel direction)).insert "x-oproxy-frame-opcode"
    (((mapTungsteniteMessageToRecord message).map fun entry => Str.ofNat entry.1).getD "unknown")

def messageBody : WsMessage → Bytes
  | .text text => text.toUtf8
  | .binary data => data
  | _ => []

def messageWithBody (original : WsMessage) (body : Bytes) : WsMessage :=
  match original with
  | .text _ => .text (Utf8.decodeLossy body)
  | .binary _ => .binary body
  | other => other

def isClose : WsMessage → Bool
  | .close _ => true
  | _ => false

end WebSocket

open WebSocket

/-- What a relay is given; `breakpointId` is the id under which a pause waits for its answer. -/
structure WsRelayContext where
  sessionId : Str
  frameUri : Str
  frameHost : Str
  inspectFrames : Bool
  breakpoints : GrpcInspector.FrameBreakpoints
  breakpointId : Str

namespace WsRelayContext

variable (relay : WsRelayContext)

def frameProtocolContext : ProtocolContext :=
  ProtocolContext.webSocket (if Str.startsWith relay.frameUri "wss://" then "wss" else "ws")

def frameRequestContext (direction : WsDirection) (message : WsMessage) : RequestContext :=
  { RequestContext.default with
    method := "WS"
    uri := relay.frameUri
    headers := frameHeaders direction message
    body := messageBody message
    host := relay.frameHost
    sessionId := some relay.sessionId
    protocolContext := some relay.frameProtocolContext }

def frameResponseContext (direction : WsDirection) (message : WsMessage) : ResponseContext :=
  { ResponseContext.default with
    status := 101
    headers := frameHeaders direction message
    body := messageBody message
    requestUri := relay.frameUri
    sessionId := some relay.sessionId
    requestHost := relay.frameHost
    requestMethod := "WS"
    protocolContext := some relay.frameProtocolContext }

/-- What the operator is shown of a message. -/
def frameContext (direction : WsDirection) (message : WsMessage) : BreakpointContext :=
  match direction with
  | .clientToServer => .request (relay.frameRequestContext direction message)
  | .serverToClient => .response (relay.frameResponseContext direction message)

/-- The rule which pauses a message. -/
def pausingRule (direction : WsDirection) (message : WsMessage) : Option BreakpointRule :=
  Breakpoints.frameRuleFor relay.breakpoints.regex relay.breakpoints.rules (relay.frameContext direction message)

/-- What becomes of a message as its pause is resolved. -/
def resolvedMessage (message : WsMessage) : BreakpointResolution → Option WsMessage
  | .proceed => some message
  | .drop => none
  | .modify (.request ctx) => some (messageWithBody message ctx.body)
  | .modify (.response ctx) => some (messageWithBody message ctx.body)

def maybePauseFrame (direction : WsDirection) (message : WsMessage) : Option WsMessage :=
  if !Breakpoints.hasFrameRules relay.breakpoints.rules then some message
  else
    resolvedMessage message (Breakpoints.pauseFrame relay.breakpoints.regex relay.breakpoints.rules
      relay.breakpoints.answer (relay.frameContext direction message))

/-- What a pause of a message enqueues. -/
def pauseOps (direction : WsDirection) (message : WsMessage) : List WriteOp :=
  match relay.pausingRule direction message with
  | none => []
  | some _ =>
    [.markPaused relay.sessionId, .appendEvent relay.sessionId (.breakpointPaused relay.breakpointId),
      .clearPaused relay.sessionId]

end WsRelayContext

/-! ### The loop -/

/-- What the loop may wake up for: a message of a side, which the other side then accepts or not, the end of a side or
an error on it, or the shutdown. -/
inductive WsRelayEvent where
  | received (direction : WsDirection) (message : WsMessage) (accepted : Bool) (time : Timestamp)
  | ended (direction : WsDirection)
  | shutdown

/-- The messages which the other side has accepted, and the operations which are enqueued.  The order in which the
sides are heard is that of the events. -/
def relayWs (relay : WsRelayContext) : List WsRelayEvent → List (WsDirection × WsMessage) × List WriteOp
  | [] => ([], [])
  | .ended _ :: _ => ([], [])
  | .shutdown :: _ => ([], [])
  | .received direction original accepted time :: events =>
    let pauses := relay.pauseOps direction original
    match relay.maybePauseFrame direction original with
    | none =>
      let (handed, ops) := relayWs relay events
      (handed, pauses ++ ops)
    | some message =>
      let frames := if relay.inspectFrames then recordFrame relay.sessionId time message direction else []
      if !accepted then ([], pauses ++ frames)
      else if isClose message then ([(direction, message)], pauses ++ frames)
      else
        let (handed, ops) := relayWs relay events
        ((direction, message) :: handed, pauses ++ frames ++ ops)

/-! ### Transparency -/

namespace WsRelayEvent

/-- Whether the relay ends with an event: with a close, or an error on either side. -/
def ends : WsRelayEvent → Bool
  | .received _ message accepted _ => !accepted || isClose message
  | .ended _ => true
  | .shutdown => true

/-- The message which a transparent relay hands to the other side. -/
def handed : WsRelayEvent → Option (WsDirection × WsMessage)
  | .received direction message true _ => some (direction, message)
  | _ => none

/-- The events up to the one which ends the relay. -/
def upToEnd : List WsRelayEvent → List WsRelayEvent
  | [] => []
  | event :: events => if event.ends then [event] else event :: upToEnd events

end WsRelayEvent

/-- A relay which passes each message on as it is hands over what it has received up to its end. -/
theorem relayWs_of_passes {relay : WsRelayContext} {events : List WsRelayEvent}
    (hpasses : ∀ direction message accepted time, .received direction message accepted time ∈ events →
      relay.maybePauseFrame direction message = some message) :
    (relayWs relay events).1 = (WsRelayEvent.upToEnd events).filterMap WsRelayEvent.handed := by
  induction events with
  | nil => rfl
  | cons event events ih =>
    have hrest := ih fun direction message accepted time h =>
      hpasses direction message accepted time (List.mem_cons_of_mem _ h)
    cases event with
    | ended direction => rfl
    | shutdown => rfl
    | received direction message accepted time =>
      have hpass := hpasses direction message accepted time List.mem_cons_self
      unfold relayWs WsRelayEvent.upToEnd WsRelayEvent.ends
      rw [hpass]
      cases accepted with
      | false => rfl
      | true =>
        cases hclose : isClose message with
        | true => simp [hclose, WsRelayEvent.handed]
        | false => simp [hclose, hrest, WsRelayEvent.handed]

namespace WsRelayContext

/-- Without frame rules each message passes as it is. -/
theorem maybePauseFrame_of_no_rules {relay : WsRelayContext}
    (h : Breakpoints.hasFrameRules relay.breakpoints.rules = false) (direction : WsDirection) (message : WsMessage) :
    relay.maybePauseFrame direction message = some message := by
  unfold maybePauseFrame
  rw [h]
  rfl

end WsRelayContext

end Oproxy
