import Oproxy.Core.Protocol
import Oproxy.Lib.Utf8
import Oproxy.Session.Event

/-!
# Request and response contexts (`middleware/mod.rs`)

The contexts which travel through the middleware chain, with the side channel between middleware and engine, and
the capped decision trace they accumulate.
-/

namespace Oproxy

def maxFlowEvents : Nat := 64

def maxFlowSummaryChars : Nat := 200

structure ServedMock where
  ruleId : Str
  behavior : Str

/-- A response which a middleware wants the engine to return instead of forwarding upstream. -/
structure InterceptedResponse where
  status : Nat
  headers : HeaderMap
  body : Bytes
  tags : List Str
  servedMock : Option ServedMock

structure RequestContext where
  method : Str
  uri : Str
  headers : HeaderMap
  body : Bytes
  host : Str
  destination : Option Str
  sessionId : Option Str
  skipRecording : Bool
  mockResponse : Option InterceptedResponse
  inspector : InspectorData
  connectionId : Option Str
  streamId : Option Nat
  downstreamProtocol : Option Str
  remoteAddr : Option Str
  protocolContext : Option ProtocolContext
  rewritten : Bool
  flow : List RequestFlowEvent

structure ResponseContext where
  status : Nat
  headers : HeaderMap
  body : Bytes
  requestUri : Str
  sessionId : Option Str
  ttfbMs : Nat
  bodyMs : Nat
  tags : List Str
  requestHost : Str
  requestMethod : Str
  protocol : Option Str
  responseBodyObserverPending : Bool
  terminalRecordingPending : Bool
  protocolContext : Option ProtocolContext
  flow : List RequestFlowEvent

/-- `RequestContext::default()`. -/
def RequestContext.default : RequestContext where
  method := []
  uri := []
  headers := HeaderMap.new
  body := []
  host := []
  destination := none
  sessionId := none
  skipRecording := false
  mockResponse := none
  inspector := ⟨none, none, none⟩
  connectionId := none
  streamId := none
  downstreamProtocol := none
  remoteAddr := none
  protocolContext := none
  rewritten := false
  flow := []

/-- `ResponseContext::default()`. -/
def ResponseContext.default : ResponseContext where
  status := 0
  headers := HeaderMap.new
  body := []
  requestUri := []
  sessionId := none
  ttfbMs := 0
  bodyMs := 0
  tags := []
  requestHost := []
  requestMethod := []
  protocol := none
  responseBodyObserverPending := false
  terminalRecordingPending := false
  protocolContext := none
  flow := []

/-! ### Bodies as text -/

/-- Lossy UTF-8 view of the body. -/
def RequestContext.bodyText (ctx : RequestContext) : Str := Utf8.decodeLossy ctx.body

def RequestContext.setBodyText (ctx : RequestContext) (text : Str) : RequestContext :=
  { ctx with body := text.toUtf8 }

def ResponseContext.bodyText (ctx : ResponseContext) : Str := Utf8.decodeLossy ctx.body

def ResponseContext.setBodyText (ctx : ResponseContext) (text : Str) : ResponseContext :=
  { ctx with body := text.toUtf8 }

/-! ### The decision trace -/

def truncateSummary (summary : Str) : Str :=
  if summary.length ≤ maxFlowSummaryChars then summary
  else summary.take (maxFlowSummaryChars - 3) ++ ("..." : Str)

def truncateFlowEvent : RequestFlowEvent → RequestFlowEvent
  | .ruleApplied k i n summary => .ruleApplied k i n (truncateSummary summary)
  | .responseModified k i n summary => .responseModified k i n (truncateSummary summary)
  | .failed stage message => .failed stage (truncateSummary message)
  | other => other

def pushFlowEvent (events : List RequestFlowEvent) (event : RequestFlowEvent) : List RequestFlowEvent :=
  if events.length ≥ maxFlowEvents then events else events ++ [truncateFlowEvent event]

def RequestContext.pushFlow (ctx : RequestContext) (event : RequestFlowEvent) : RequestContext :=
  { ctx with flow := pushFlowEvent ctx.flow event }

@[simp] theorem RequestContext.pushFlow_uri (ctx : RequestContext) (e : RequestFlowEvent) :
    (ctx.pushFlow e).uri = ctx.uri := rfl

@[simp] theorem RequestContext.pushFlow_host (ctx : RequestContext) (e : RequestFlowEvent) :
    (ctx.pushFlow e).host = ctx.host := rfl

@[simp] theorem RequestContext.pushFlow_destination (ctx : RequestContext) (e : RequestFlowEvent) :
    (ctx.pushFlow e).destination = ctx.destination := rfl

def RequestContext.takeFlow (ctx : RequestContext) : List RequestFlowEvent × RequestContext :=
  (ctx.flow, { ctx with flow := [] })

def ResponseContext.pushFlow (ctx : ResponseContext) (event : RequestFlowEvent) : ResponseContext :=
  { ctx with flow := pushFlowEvent ctx.flow event }

def ResponseContext.extendFlow (ctx : ResponseContext) (events : List RequestFlowEvent) : ResponseContext :=
  events.foldl ResponseContext.pushFlow ctx

/-- The trace aside, extending it changes nothing. -/
theorem ResponseContext.extendFlow_frame (ctx : ResponseContext) (events : List RequestFlowEvent) :
    ctx.extendFlow events = { ctx with flow := (ctx.extendFlow events).flow } := by
  unfold extendFlow
  induction events generalizing ctx with
  | nil => rfl
  | cons event events ih =>
    rw [List.foldl_cons, ih (ctx.pushFlow event)]
    rfl

end Oproxy
