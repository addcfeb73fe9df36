import Oproxy.Lib.Json
import Oproxy.Middleware.HeaderMap

/-!
# Session data (`session/mod.rs`)

WebSocket frames, protocol events, the decision trace of a request, inspector data and metrics: the data which an
exchange in the session store carries besides its request and its response.
-/

namespace Oproxy

/-- Nanoseconds since the epoch. -/
abbrev Timestamp := Int

inductive WsDirection where
  | clientToServer | serverToClient
  deriving DecidableEq

structure WsFrame where
  timestamp : Timestamp
  direction : WsDirection
  opcode : Nat
  payloadLen : Nat
  payloadText : Option Str
  payloadHex : Option Str
  deriving DecidableEq

structure InspectionMetrics where
  latencyMs : Nat
  requestSizeBytes : Nat
  responseSizeBytes : Nat
  statusCode : Nat
  ttfbMs : Nat
  bodyMs : Nat
  dnsMs : Option Nat
  tcpConnectMs : Option Nat
  tlsMs : Option Nat
  protocol : Option Str
  deriving DecidableEq

/-- Metrics with nothing known but the sizes, the times and the status. -/
def InspectionMetrics.ofStatus (statusCode latencyMs requestSizeBytes responseSizeBytes ttfbMs bodyMs : Nat)
    (protocol : Option Str) : InspectionMetrics where
  latencyMs := latencyMs
  requestSizeBytes := requestSizeBytes
  responseSizeBytes := responseSizeBytes
  statusCode := statusCode
  ttfbMs := ttfbMs
  bodyMs := bodyMs
  dnsMs := none
  tcpConnectMs := none
  tlsMs := none
  protocol := protocol

inductive SessionSource where
  | proxy | adminForward | playback | imported
  deriving DecidableEq

structure GraphQLInfo where
  operationType : Str
  operationName : Option Str
  variableValues : Option Json

structure JwtInfo where
  header : Json
  claims : Json
  expired : Bool
  algNoneWarning : Bool

structure GrpcField where
  fieldNumber : Nat
  wireType : Nat
  value : Json

structure GrpcMessage where
  direction : Str
  compressed : Bool
  length : Nat
  fields : List GrpcField

inductive SessionEvent where
  | requestBodyChunk (bytes atMs : Nat)
  | responseBodyChunk (bytes atMs : Nat)
  | grpcMessage (direction : Str) (message : GrpcMessage)
  | wsFrame (frame : WsFrame)
  | trailers (headers : HeaderMap)
  | breakpointPaused (breakpointId : Str)
  | mockServed (ruleId behavior : Str)
  | tunnelOpened
  | tunnelClosed (bytesUp bytesDown : Nat)

inductive FlowRuleKind where
  | mapRemote | mapLocal | rewrite | mock | breakpoint | accessControl | dnsOverride | lua | captureFilter | throttle
  deriving DecidableEq

inductive FlowTargetSource where
  | originalHost | mapRemote | dnsOverride | upstreamProxy | mitmConnect
  deriving DecidableEq

inductive FlowShortCircuitReason where
  | mockResponse | mapLocalFile | mapLocalError | rewriteRedirect | rewriteBlock | accessDenied | breakpointTimeout
  | luaAbort | middlewareStop
  deriving DecidableEq

inductive FlowStage where
  | requestMiddleware | targetResolution | forwarding | responseMiddleware | recording
  deriving DecidableEq

inductive RequestFlowEvent where
  | requestReceived (method host path : Str)
  | ruleMatched (ruleKind : FlowRuleKind) (ruleId ruleName : Str)
  | ruleApplied (ruleKind : FlowRuleKind) (ruleId ruleName summary : Str)
  | targetSelected (source : FlowTargetSource) (target : Str) (ruleId ruleName : Option Str)
  | shortCircuited (reason : FlowShortCircuitReason) (status : Nat) (ruleId ruleName : Option Str)
  | forwarded (target : Str)
  | responseReceived (status ttfbMs : Nat)
  | responseModified (ruleKind : FlowRuleKind) (ruleId ruleName summary : Str)
  | completed (status latencyMs : Nat)
  | failed (stage : FlowStage) (message : Str)
  deriving DecidableEq

/-- The bytes of payload text a frame holds on to. -/
def WsFrame.retainedSize (frame : WsFrame) : Nat :=
  (frame.payloadText.map Str.utf8Len).getD 0 + (frame.payloadHex.map Str.utf8Len).getD 0

def WsFrame.clearPayload (frame : WsFrame) : WsFrame := { frame with payloadText := none, payloadHex := none }

namespace SessionEvent

def retainedBodySize : SessionEvent → Nat
  | wsFrame frame => frame.retainedSize
  | _ => 0

def clearRetainedBody : SessionEvent → SessionEvent
  | wsFrame frame => wsFrame frame.clearPayload
  | e => e

end SessionEvent

structure GrpcInfo where
  service : Option Str
  method : Option Str
  messages : List GrpcMessage
  grpcStatus : Option Str
  grpcStatusMessage : Option Str

structure InspectorData where
  graphql : Option GraphQLInfo
  jwt : Option JwtInfo
  grpc : Option GrpcInfo

@[simp] theorem WsFrame.retainedSize_clearPayload (frame : WsFrame) : frame.clearPayload.retainedSize = 0 := rfl

@[simp] theorem SessionEvent.retainedBodySize_clearRetainedBody (e : SessionEvent) :
    e.clearRetainedBody.retainedBodySize = 0 := by
  cases e <;> rfl

end Oproxy
