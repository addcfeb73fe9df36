import Oproxy.Core.Grpc
import Oproxy.Middleware.Chain
import Oproxy.Middleware.Matcher

/-!
# Mocks (`middleware/plugins/mock.rs`)

The first enabled rule which matches and has a response answers in place of the upstream.  A rule's responses take
turns; the number of calls is the state which `serve` passes on.
-/

namespace Oproxy

structure MockResponse where
  status : Nat
  headers : IndexMap Str Str
  body : Str

structure WsFrameAction where
  opcode : Nat
  payload : Str
  delayMs : Nat

structure GrpcMessageAction where
  compressed : Bool
  payloadBase64 : Str

inductive MockBehavior where
  | httpResponse (responses : List MockResponse)
  | webSocketScript (frames : List WsFrameAction)
  | grpcScript (messages : List GrpcMessageAction) (trailers : HeaderMap)
  | tunnelDecision (allow : Bool) (delayMs : Nat)

namespace MockBehavior

def kind : MockBehavior → Str
  | httpResponse _ => "http_response"
  | webSocketScript _ => "websocket_script"
  | grpcScript _ _ => "grpc_script"
  | tunnelDecision _ _ => "tunnel_decision"

def httpResponses : MockBehavior → Option (List MockResponse)
  | httpResponse responses => some responses
  | _ => none

end MockBehavior

structure MockRule where
  id : Str
  name : Str
  enabled : Bool
  location : Location
  behavior : Option MockBehavior
  responses : List MockResponse
  callCount : UInt64

namespace MockRule

def matchesContext (regex : RegexEngine) (rule : MockRule) (ctx : RequestContext) : Bool :=
  rule.enabled && rule.location.matchesTarget regex (MatchTarget.fromRequest ctx)

def currentResponse (rule : MockRule) : Option MockResponse :=
  let responses := (rule.behavior.bind MockBehavior.httpResponses).getD rule.responses
  responses[rule.callCount.toNat % responses.length]?

def behaviorKind (rule : MockRule) : Str := (rule.behavior.map MockBehavior.kind).getD "http_response"

end MockRule

/-- Substitute the references `${0}`, `${1}` and so on to the groups of a match. -/
def applyTemplate (template : Str) (captures : List Str) : Str :=
  captures.zipIdx.foldl
    (fun text capture => Str.replace (['$', '\x7b'] ++ Str.ofNat capture.2 ++ ['\x7d']) capture.1 text) template

namespace Mock

variable (regex : RegexEngine) (decodeBase64 : Str → Option Bytes)

def isGrpcRequest (ctx : RequestContext) : Bool :=
  ctx.protocolContext.any (fun protocol => protocol.application = .grpc) ||
    (ctx.headers.get "content-type").any fun ct => Str.startsWith ct "application/grpc"

def grpcScriptBody (messages : List GrpcMessageAction) : Bytes :=
  messages.flatMap fun message =>
    encodeGrpcFrame message.compressed ((decodeBase64 message.payloadBase64).getD [])

def grpcResponse (rule : MockRule) (messages : List GrpcMessageAction) (trailers : HeaderMap) : InterceptedResponse :=
  let body := grpcScriptBody decodeBase64 messages
  let headers := (HeaderMap.new.insert "content-type" "application/grpc").insert "content-length"
    (Str.ofNat body.length)
  let headers := trailers.entries.foldl (fun h e => h.insert e.1 e.2) headers
  let headers := if headers.containsKey "grpc-status" then headers else headers.insert "grpc-status" "0"
  { status := 200, headers := headers, body := body, tags := ["mock"], servedMock := some ⟨rule.id, "grpc_script"⟩ }

/-- The body of a response, with the groups of the rule's path pattern filled in. -/
def responseBody (rule : MockRule) (path : Str) (resp : MockResponse) : Bytes :=
  let captures := (rule.location.compiledPathRegex regex).bind fun r => r.captures path
  Str.toUtf8 ((captures.map (applyTemplate resp.body)).getD resp.body)

def httpResponse (rule : MockRule) (path : Str) (resp : MockResponse) : InterceptedResponse :=
  let body := responseBody regex rule path resp
  let headers := HeaderMap.ofMap resp.headers
  let headers := if headers.containsKey "content-length" then headers
    else headers.insert "content-length" (Str.ofNat body.length)
  { status := resp.status, headers := headers, body := body, tags := ["mock"],
    servedMock := some ⟨rule.id, rule.behaviorKind⟩ }

/-- The first rule with an id. -/
def findRule (rules : List MockRule) (id : Str) : Option MockRule := rules.find? fun r => r.id = id

/-- Count a call of the first rule with an id. -/
def countCall (id : Str) : List MockRule → List MockRule
  | [] => []
  | r :: rules => if r.id = id then { r with callCount := r.callCount + 1 } :: rules else r :: countCall id rules

private def intercept (ctx : RequestContext) (rule : MockRule) (response : InterceptedResponse) :
    RequestContext × MiddlewareAction :=
  (({ ctx with mockResponse := some response }).pushFlow
    (.shortCircuited .mockResponse response.status (some rule.id) (some rule.name)), .stopAndReturn)

/-- The loop over the snapshot of the enabled rules; `rules` are the live ones. -/
def serveLoop (path : Str) (rules : List MockRule) : List MockRule → RequestContext →
    (RequestContext × MiddlewareAction) × List MockRule
  | [], ctx => ((ctx, .proceed), rules)
  | rule :: snapshots, ctx =>
    if !rule.matchesContext regex ctx then serveLoop path rules snapshots ctx
    else
      let ctx := ctx.pushFlow (.ruleMatched .mock rule.id rule.name)
      match rule.behavior with
      | some (.grpcScript messages trailers) =>
        if !isGrpcRequest ctx then serveLoop path rules snapshots ctx
        else (intercept ctx rule (grpcResponse decodeBase64 rule messages trailers), countCall rule.id rules)
      | _ =>
        match ((findRule rules rule.id).getD rule).currentResponse with
        | none => serveLoop path rules snapshots ctx
        | some resp => (intercept ctx rule (httpResponse regex rule path resp), countCall rule.id rules)

/-- What a loop does whose first matching rule is one with responses. -/
theorem serveLoop_of_find? {path : Str} {rules snapshots : List MockRule} {ctx : RequestContext} {rule : MockRule}
    {resp : MockResponse} (hfirst : snapshots.find? (fun r => r.matchesContext regex ctx) = some rule)
    (hkind : ∀ messages trailers, rule.behavior ≠ some (.grpcScript messages trailers))
    (hresp : ((findRule rules rule.id).getD rule).currentResponse = some resp) :
    (serveLoop regex decodeBase64 path rules snapshots ctx).2 = countCall rule.id rules ∧
      (serveLoop regex decodeBase64 path rules snapshots ctx).1.1.mockResponse =
        some (httpResponse regex rule path resp) := by
  induction snapshots with
  | nil => cases hfirst
  | cons r snapshots ih =>
    rw [List.find?_cons] at hfirst
    unfold serveLoop
    cases hmatch : r.matchesContext regex ctx with
    | false =>
      rw [hmatch] at hfirst
      simp only [Bool.not_false, if_true]
      exact ih hfirst
    | true =>
      rw [hmatch] at hfirst
      obtain rfl : r = rule := Option.some.inj hfirst
      -- the rule is no script, so that it answers with the response of the live rule
      simp only [Bool.not_true, Bool.false_eq_true, if_false, hresp]
      exact ⟨trivial, rfl⟩

def serve (rules : List MockRule) (ctx : RequestContext) : (RequestContext × MiddlewareAction) × List MockRule :=
  serveLoop regex decodeBase64 (MatchTarget.fromRequest ctx).path rules (rules.filter MockRule.enabled) ctx

def onRequest (rules : List MockRule) (ctx : RequestContext) : RequestContext × MiddlewareAction :=
  (serve regex decodeBase64 rules ctx).1

def middleware (rules : List MockRule) : Middleware where
  onRequest := onRequest regex decodeBase64 rules

/-- The rules leave what a context says of its session and of its protocol. -/
theorem onRequest_channel (rules : List MockRule) (ctx : RequestContext) :
    (onRequest regex decodeBase64 rules ctx).1.sessionId = ctx.sessionId ∧
      (onRequest regex decodeBase64 rules ctx).1.skipRecording = ctx.skipRecording ∧
      (onRequest regex decodeBase64 rules ctx).1.protocolContext = ctx.protocolContext := by
  unfold onRequest serve
  generalize (MatchTarget.fromRequest ctx).path = path
  induction rules.filter MockRule.enabled generalizing ctx with
  | nil => exact ⟨rfl, rfl, rfl⟩
  | cons rule snapshots ih =>
    -- a rule which answers ends the loop, any other goes on with a longer trace
    have hnext := ih (ctx.pushFlow (.ruleMatched .mock rule.id rule.name))
    unfold serveLoop
    split
    · exact ih ctx
    · dsimp only
      split
      · split
        · exact hnext
        · exact ⟨rfl, rfl, rfl⟩
      · split
        · exact hnext
        · exact ⟨rfl, rfl, rfl⟩

end Mock

end Oproxy
