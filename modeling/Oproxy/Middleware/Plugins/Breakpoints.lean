import Oproxy.Middleware.Chain
import Oproxy.Middleware.Matcher

/-!
# Breakpoints (`middleware/plugins/breakpoints.rs`)

The first matching rule pauses the exchange until the operator answers.  The answer is a parameter: a function of
the context which the operator is shown.
-/

namespace Oproxy

inductive BreakpointType where
  | request | response
  deriving DecidableEq

inductive BreakpointTier where
  /-- Headers and metadata only. -/
  | head
  /-- Body editing, for buffered bodies only. -/
  | body
  /-- Frame or message pauses. -/
  | frame
  /-- Tunnel metadata pauses. -/
  | tunnel
  deriving DecidableEq

def BreakpointTier.isCompatibleWithTarget (tier : BreakpointTier) (target : MatchTarget) : Bool :=
  let mode := target.bodyMode.getD []
  match tier with
  | .head => true
  | .body => !(["tunnel", "frames", "stream_bytes", "stream_messages"].map String.toList).contains mode
  | .frame => (["frames", "stream_messages"].map String.toList).contains mode
  | .tunnel => mode == ("tunnel" : Str)

structure BreakpointRule where
  id : Str
  location : Location
  bpType : BreakpointType
  tier : BreakpointTier
  enabled : Bool

/-- What comes back from a pause: the operator's resolution, a closed channel, or the timeout. -/
inductive BreakpointAnswer where
  | proceed
  | modifyRequest (ctx : RequestContext)
  | modifyResponse (ctx : ResponseContext)
  | drop
  | closed
  | timedOut

/-- What the operator is shown of a paused exchange. -/
inductive BreakpointContext where
  | request (ctx : RequestContext)
  | response (ctx : ResponseContext)

/-- What is to become of a paused exchange. -/
inductive BreakpointResolution where
  | proceed
  | modify (ctx : BreakpointContext)
  | drop

/-- What the handler which waits receives of a resolution. -/
def BreakpointResolution.answer : BreakpointResolution → BreakpointAnswer
  | .proceed => .proceed
  | .modify (.request ctx) => .modifyRequest ctx
  | .modify (.response ctx) => .modifyResponse ctx
  | .drop => .drop

namespace Breakpoints

variable (regex : RegexEngine)

/-- The first matching enabled rule of the given type whose tier suits the body. -/
def firstMatch (rules : List BreakpointRule) (bpType : BreakpointType) (target : MatchTarget) :
    Option BreakpointRule :=
  rules.find? fun rule => rule.enabled && rule.bpType = bpType && rule.location.matchesTarget regex target &&
    rule.tier.isCompatibleWithTarget target

def timeoutResponse : InterceptedResponse where
  status := 504
  headers := HeaderMap.new.insert "content-type" "text/plain"
  body := Str.toUtf8 "Breakpoint timed out"
  tags := []
  servedMock := none

/-- `freshId` is the session id which is made up where the context has none. -/
def onRequest (rules : List BreakpointRule) (answer : RequestContext → BreakpointAnswer) (freshId : Str)
    (ctx : RequestContext) : RequestContext × MiddlewareAction :=
  match firstMatch regex rules .request (MatchTarget.fromRequest ctx) with
  | none => (ctx, .proceed)
  | some rule =>
    let ctx := { ctx with sessionId := some (ctx.sessionId.getD freshId) }
    let ctx := (ctx.pushFlow (.ruleMatched .breakpoint rule.id "breakpoint")).pushFlow
      (.ruleApplied .breakpoint rule.id "breakpoint" "paused request")
    let ctx := ctx.takeFlow.2
    match answer ctx with
    | .proceed => (ctx.pushFlow (.ruleApplied .breakpoint rule.id "breakpoint" "continued request"), .proceed)
    | .modifyRequest newCtx =>
      (newCtx.pushFlow (.ruleApplied .breakpoint rule.id "breakpoint" "modified request and continued"), .proceed)
    | .modifyResponse _ => (ctx, .stopAndReturn)
    | .drop => (ctx, .stopAndReturn)
    | .closed => (ctx, .stopAndReturn)
    | .timedOut =>
      (({ ctx with mockResponse := some timeoutResponse }).pushFlow
        (.shortCircuited .breakpointTimeout 504 (some rule.id) (some "breakpoint")), .stopAndReturn)

def onResponse (rules : List BreakpointRule) (answer : ResponseContext → BreakpointAnswer) (ctx : ResponseContext) :
    ResponseContext × MiddlewareAction :=
  match firstMatch regex rules .response (MatchTarget.fromResponse ctx) with
  | none => (ctx, .proceed)
  | some _ =>
    match answer ctx with
    | .proceed => (ctx, .proceed)
    | .modifyResponse newCtx => (newCtx, .proceed)
    | .modifyRequest _ => (ctx, .stopAndReturn)
    | .drop => (ctx, .stopAndReturn)
    | .closed => (ctx, .stopAndReturn)
    | .timedOut => (ctx, .stopAndReturn)

def middleware (rules : List BreakpointRule) (onPausedRequest : RequestContext → BreakpointAnswer)
    (onPausedResponse : ResponseContext → BreakpointAnswer) (freshId : Str) : Middleware where
  onRequest := onRequest regex rules onPausedRequest freshId
  onResponse := onResponse regex rules onPausedResponse

/-! ### Frames and messages -/

/-- Whether any enabled rule pauses frames. -/
def hasFrameRules (rules : List BreakpointRule) : Bool := rules.any fun r => r.enabled && r.tier = .frame

def frameRule (rules : List BreakpointRule) (bpType : BreakpointType) (target : MatchTarget) : Option BreakpointRule :=
  rules.find? fun rule => rule.enabled && rule.bpType = bpType && rule.tier = .frame &&
    rule.tier.isCompatibleWithTarget target && rule.location.matchesTarget regex target

/-- The rule which pauses a frame. -/
def frameRuleFor (rules : List BreakpointRule) : BreakpointContext → Option BreakpointRule
  | .request ctx => frameRule regex rules .request (MatchTarget.fromRequest ctx)
  | .response ctx => frameRule regex rules .response (MatchTarget.fromResponse ctx)

/-- A frame which no rule pauses goes on; one that is not resolved in time is dropped. -/
def pauseFrame (rules : List BreakpointRule) (answer : BreakpointContext → BreakpointAnswer)
    (context : BreakpointContext) : BreakpointResolution :=
  match frameRuleFor regex rules context with
  | none => .proceed
  | some _ =>
    match answer context with
    | .proceed => .proceed
    | .modifyRequest ctx => .modify (.request ctx)
    | .modifyResponse ctx => .modify (.response ctx)
    | .drop => .drop
    | .closed => .drop
    | .timedOut => .drop

end Breakpoints

end Oproxy
