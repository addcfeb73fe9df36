import Oproxy.Engine.Recording

/-!
# Terminal guards (`core/engine/mod.rs`)

A guard records a terminal response if a captured request future is dropped before normal response or failure
recording runs.
-/

namespace Oproxy

structure TerminalSessionGuard where
  sessionId : Str
  requestUri : Str
  requestHost : Str
  requestMethod : Str
  protocolContext : Option ProtocolContext
  protocol : Option Str
  flow : List RequestFlowEvent
  ttfbMs : Nat
  message : Str

namespace TerminalSessionGuard

/-- What an armed guard enqueues; `latencyMs` is the time since it was made. -/
def recordFailure (guard : TerminalSessionGuard) (view : StoreView) (status : Nat) (stage : FlowStage) (message : Str)
    (latencyMs : Nat) : List WriteOp :=
  if ((view.getSession guard.sessionId).bind fun session => session.response).isSome then []
  else
    let response := ({ ResponseContext.default with
      status := status
      body := message.toUtf8
      requestUri := guard.requestUri
      sessionId := some guard.sessionId
      ttfbMs := guard.ttfbMs
      requestHost := guard.requestHost
      requestMethod := guard.requestMethod
      protocol := guard.protocol
      protocolContext := guard.protocolContext }.extendFlow guard.flow).pushFlow (.failed stage message)
    let requestSizeBytes := ((view.getSession guard.sessionId).map fun session => session.request.body.length).getD 0
    [.recordResponseWithMetrics guard.sessionId response
      (InspectionMetrics.ofStatus status latencyMs requestSizeBytes message.toUtf8.length guard.ttfbMs 0
        guard.protocol)]

/-- What the drop of an armed guard enqueues. -/
def drop (guard : TerminalSessionGuard) (view : StoreView) (latencyMs : Nat) : List WriteOp :=
  guard.recordFailure view 499 .forwarding guard.message latencyMs

def updateFlow (guard : TerminalSessionGuard) (flow : List RequestFlowEvent) : TerminalSessionGuard :=
  { guard with flow := flow }

def updateFromResponse (guard : TerminalSessionGuard) (response : ResponseContext) : TerminalSessionGuard :=
  { guard with
    requestUri := response.requestUri
    requestHost := response.requestHost
    requestMethod := response.requestMethod
    protocolContext := response.protocolContext
    protocol := response.protocol
    ttfbMs := response.ttfbMs
    flow := response.flow }

end TerminalSessionGuard

/-- A request with a session gets a guard. -/
def ProxyEngine.terminalGuardForRequest (ctx : RequestContext) (message : Str) : Option TerminalSessionGuard :=
  ctx.sessionId.map fun sessionId =>
    { sessionId := sessionId
      requestUri := ctx.uri
      requestHost := ctx.host
      requestMethod := ctx.method
      protocolContext := ctx.protocolContext
      protocol := none
      flow := ctx.flow
      ttfbMs := 0
      message := message }

end Oproxy
