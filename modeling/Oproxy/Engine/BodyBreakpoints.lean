import Oproxy.Engine.Exchange
import Oproxy.Engine.Production

/-!
# Body breakpoints

A breakpoint of the tier Body is for bodies which the proxy holds.  Whether it pauses is decided from the body mode,
which is inferred from the head of the request; whether a body is held is decided from the cap on the request side
and from the head of the response on the other.  The two decisions are compared for every head and both limits.
-/

namespace Oproxy

/-- The modes of a body which passes in pieces. -/
def BodyMode.streams : BodyMode → Bool
  | .tunnel | .frames | .streamBytes | .streamMessages => true
  | .empty | .full => false

/-! ### What a head says of its body -/

namespace Wire

end Wire

namespace BodyBreakpoints

open ProxyEngine

/-! ### Where a breakpoint pauses -/

section

variable (regex : RegexEngine) (rules : List BreakpointRule) (bpType : BreakpointType) (target : MatchTarget)

/-- The first enabled rule of a type whose location matches, whatever its tier. -/
def firstMatching : Option BreakpointRule :=
  rules.find? fun rule => rule.enabled && rule.bpType = bpType && rule.location.matchesTarget regex target

/-- A rule of the tier Body is the first to match. -/
structure BodyFirst (rule : BreakpointRule) : Prop where
  first : firstMatching regex rules bpType target = some rule
  tier : rule.tier = .body

def PausesAt (rule : BreakpointRule) : Prop := Breakpoints.firstMatch regex rules bpType target = some rule

end

section

variable (engine : ProxyEngine)

/-- The body which the request chain starts with. -/
def heldRequestBody (req : IncomingRequest) (body : Bytes) : Bytes :=
  if engine.requestStreamedUnbuffered req then [] else body

/-- A request reaches the breakpoints: it is neither a CONNECT nor too large, and routing lets it pass. -/
structure Reaches (world : Surroundings) (rules : ProductionRules) (req : IncomingRequest)
    (mitmDestination : Option Str) (body : Bytes) (ctx : RequestContext) : Prop where
  notConnect : req.method ≠ "CONNECT"
  notTooLarge : engine.requestStreamedUnbuffered req = true ∨ body.length ≤ engine.maxBodyBytes
  routed : MiddlewareChain.executeRequest (rules.routing.chain world.regex)
    (requestContext (engine.buildRequestHead req mitmDestination) mitmDestination (heldRequestBody engine req body)) =
      (ctx, .proceed)

/-- A response on its way to the client: one of the upstream, or one which a middleware has answered with. -/
inductive Source where
  | upstream (fwd : Forwarded) (res : UpstreamResponse)
  | middleware (intercepted : InterceptedResponse) (request : RequestContext) (displayUri host method : Str)
      (ownsRecording : Bool)

namespace Source

variable (codecs : Codecs)

def holdsBody : Source → Bool
  | upstream _ res => !engine.streamsResponse res
  | middleware .. => true

/-- The protocol which was found for the request. -/
def protocolContext : Source → Option ProtocolContext
  | upstream fwd _ => fwd.sent.protocolContext
  | middleware _ request _ _ _ _ => request.protocolContext

/-- What the response chain starts from. -/
def context : Source → ResponseContext
  | upstream fwd res =>
    if engine.streamsResponse res then responseContext fwd res (responseHeaders res) [] true
    else
      let (headers, body) := decodedResponseBody codecs (responseHeaders res) res.body
      responseContext fwd res headers body false
  | middleware intercepted request displayUri host method ownsRecording =>
    { ResponseContext.default with
      status := intercepted.status
      headers := intercepted.headers
      body := intercepted.body
      requestUri := displayUri
      sessionId := request.sessionId
      tags := intercepted.tags
      requestHost := host
      requestMethod := method
      protocolContext := request.protocolContext
      terminalRecordingPending := ownsRecording }.extendFlow request.flow

end Source

variable {engine} in
/-- The response of an upstream goes through the chain as its source says. -/
theorem deliverResponse_eq (codecs : Codecs) (chain : List Middleware) (fwd : Forwarded) (res : UpstreamResponse) :
    (engine.deliverResponse codecs chain fwd res).response =
      match MiddlewareChain.executeResponse chain ((Source.upstream fwd res).context engine codecs) with
      | (ctx, .proceed) =>
        finish ((Http.statusCode ctx.status).getD 500) (engine.responseFields ctx)
          (if (Source.upstream fwd res).holdsBody engine then ctx.body else res.body)
          (if (Source.upstream fwd res).holdsBody engine then grpcTrailers res ctx.status else []) (emptyResponse 500)
      | (_, .stopAndReturn) => stoppedByMiddleware "Response" := by
  unfold deliverResponse Source.context Source.holdsBody
  by_cases hstreams : engine.streamsResponse res = true
  · simp only [hstreams, if_true, Bool.not_true, Bool.false_eq_true, if_false]
    rcases MiddlewareChain.executeResponse chain (responseContext fwd res (responseHeaders res) [] true) with
      ⟨ctx, _ | _⟩ <;> rfl
  · simp only [hstreams, Bool.not_false, Bool.false_eq_true, if_true, if_false]
    rcases MiddlewareChain.executeResponse chain
      (responseContext fwd res (decodedResponseBody codecs (responseHeaders res) res.body).1
        (decodedResponseBody codecs (responseHeaders res) res.body).2 false) with ⟨ctx, _ | _⟩ <;> rfl

/-- So does the answer of a middleware. -/
theorem respondToIntercepted_eq (codecs : Codecs) (chain : List Middleware) (intercepted : InterceptedResponse)
    (request : RequestContext) (displayUri host method : Str) (ownsRecording : Bool) :
    respondToIntercepted chain intercepted request displayUri host method ownsRecording =
      match MiddlewareChain.executeResponse chain
        ((Source.middleware intercepted request displayUri host method ownsRecording).context engine codecs) with
      | (ctx, .proceed) =>
        finish ((Http.statusCode ctx.status).getD 200) ctx.headers.entries ctx.body [] (textResponse 500 "mock error")
      | (_, .stopAndReturn) => stoppedByMiddleware "Response" := rfl

/-! ### Agreement -/

/-- Body breakpoints pause exactly the exchanges whose body they can edit. -/
structure Agrees (codecs : Codecs) (world : Surroundings) (rules : ProductionRules) (req : IncomingRequest)
    (mitmDestination : Option Str) (body : Bytes) (source : Source) : Prop where
  request : ∀ ctx rule, Reaches engine world rules req mitmDestination body ctx →
    BodyFirst world.regex rules.breakpoints .request (MatchTarget.fromRequest ctx) rule →
    (PausesAt world.regex rules.breakpoints .request (MatchTarget.fromRequest ctx) rule ↔
      engine.requestStreamedUnbuffered req = false)
  response : ∀ ctx rule, LuaEngine.onResponse world.vm rules.scripts (source.context engine codecs) = (ctx, .proceed) →
    BodyFirst world.regex rules.breakpoints .response (MatchTarget.fromResponse ctx) rule →
    (PausesAt world.regex rules.breakpoints .response (MatchTarget.fromResponse ctx) rule ↔
      source.holdsBody engine = true)

end

variable {engine : ProxyEngine} {codecs : Codecs} {world : Surroundings} {rules : ProductionRules}

end BodyBreakpoints

end Oproxy
