import Oproxy.Engine.Recording
import Oproxy.Middleware.ContextWire

/-!
# Resolving a paused request (`control_plane/breakpoints.rs`, `api/mod.rs`)

The operator is listed the contexts which wait, in their wire form, and answers with an action and, where he has
changed it, with a context.  The context which he sends takes the place of the one that waits.
-/

namespace Oproxy

/-- `resolve_bp`: what is to become of a paused exchange. -/
def resolutionFor (action : Str) (context : Option BreakpointContext) : BreakpointResolution :=
  if action = ("drop" : Str) then .drop
  else if action = ("modify" : Str) then (context.map BreakpointResolution.modify).getD .proceed
  else .proceed

namespace Breakpoints

variable (regex : RegexEngine) (rules : List BreakpointRule) (freshId : Str)

/-- A request through the breakpoints; `post` is what the operator posts for the context which waits. -/
def resolved (post : RequestContext → Str × Option BreakpointContext) (ctx : RequestContext) :
    RequestContext × MiddlewareAction :=
  onRequest regex rules (fun waiting => (resolutionFor (post waiting).1 (post waiting).2).answer) freshId ctx

def continued (ctx : RequestContext) : RequestContext × MiddlewareAction :=
  resolved regex rules freshId (fun _ => ("continue", none)) ctx

/-- The operator posts the context as it was listed. -/
def sentBack (ctx : RequestContext) : RequestContext × MiddlewareAction :=
  resolved regex rules freshId (fun waiting => ("modify", some (BreakpointContext.request waiting).throughWire)) ctx

end Breakpoints

/-- Two contexts agree on everything that matters to forwarding and recording but the session. -/
structure SameButSession (a b : RequestContext) : Prop where
  method : a.method = b.method
  uri : a.uri = b.uri
  headers : ∀ name, a.headers.getAll name = b.headers.getAll name
  body : a.body = b.body
  host : a.host = b.host
  destination : a.destination = b.destination
  skipRecording : a.skipRecording = b.skipRecording
  protocolContext : a.protocolContext = b.protocolContext
  connection : (a.connectionId, a.streamId, a.downstreamProtocol, a.remoteAddr) =
    (b.connectionId, b.streamId, b.downstreamProtocol, b.remoteAddr)
  rewritten : a.rewritten = b.rewritten

/-- Two contexts agree on everything that matters to forwarding and recording. -/
structure SameForwarding (a b : RequestContext) : Prop extends SameButSession a b where
  sessionId : a.sessionId = b.sessionId

/-- A context which has nothing that the wire form leaves out. -/
structure Listable (ctx : RequestContext) : Prop where
  headers : ∀ name, (ctx.headers.getAll name).length ≤ 1
  body : Utf8.Valid ctx.body
  destination : ctx.destination = none
  skipRecording : ctx.skipRecording = false
  protocolContext : ctx.protocolContext = none
  connection : (ctx.connectionId, ctx.streamId, ctx.downstreamProtocol) = (none, none, none)
  rewritten : ctx.rewritten = false

/-- Whatever is left of the session, a context comes back exactly where it has nothing that is left out. -/
theorem sameButSession_throughWire_iff (ctx : RequestContext) :
    SameButSession ctx.throughWire ctx ↔ Listable ctx := by
  constructor
  · intro h
    refine ⟨?_, ?_, h.destination.symm, h.skipRecording.symm, h.protocolContext.symm, ?_, h.rewritten.symm⟩
    · exact ctx.headers.getAll_ofMap_toMap_eq_iff.1 h.headers
    · exact ctx.throughWire_body_iff.1 h.body
    · obtain ⟨h1, hrest⟩ := Prod.mk.inj h.connection
      obtain ⟨h2, hrest⟩ := Prod.mk.inj hrest
      obtain ⟨h3, -⟩ := Prod.mk.inj hrest
      rw [← h1, ← h2, ← h3]
      rfl
  · intro h
    obtain ⟨h1, h2, h3⟩ : ctx.connectionId = none ∧ ctx.streamId = none ∧ ctx.downstreamProtocol = none := by
      simpa only [Prod.mk.injEq] using h.connection
    refine ⟨rfl, rfl, ctx.headers.getAll_ofMap_toMap_eq_iff.2 h.headers, ctx.throughWire_body_iff.2 h.body, rfl,
      h.destination.symm, h.skipRecording.symm, h.protocolContext.symm, ?_, h.rewritten.symm⟩
    rw [h1, h2, h3]
    rfl

namespace Breakpoints

variable {regex : RegexEngine} {rules : List BreakpointRule} {freshId : Str} {ctx : RequestContext}
  {rule : BreakpointRule}

/-- The context of a request which waits: with its session, and with its trace handed over. -/
def waiting (freshId : Str) (rule : BreakpointRule) (ctx : RequestContext) : RequestContext :=
  (shown freshId rule ctx).takeFlow.2

theorem continued_of_some (h : firstMatch regex rules .request (MatchTarget.fromRequest ctx) = some rule) :
    continued regex rules freshId ctx =
      ((waiting freshId rule ctx).pushFlow (.ruleApplied .breakpoint rule.id "breakpoint" "continued request"),
        .proceed) := by
  unfold continued resolved
  exact (onRequest_of_some h).2 (Or.inl ⟨rfl, rfl⟩)

theorem sentBack_of_some (h : firstMatch regex rules .request (MatchTarget.fromRequest ctx) = some rule) :
    sentBack regex rules freshId ctx =
      ((waiting freshId rule ctx).throughWire.pushFlow
        (.ruleApplied .breakpoint rule.id "breakpoint" "modified request and continued"), .proceed) := by
  unfold sentBack resolved
  exact (onRequest_of_some h).2 (Or.inr ⟨_, rfl, rfl⟩)

/-- A request which is sent back as it was listed has always lost its session; all else it keeps exactly where it has
nothing that the wire form leaves out. -/
theorem sentBack_differs (h : firstMatch regex rules .request (MatchTarget.fromRequest ctx) = some rule) :
    ¬ SameForwarding (sentBack regex rules freshId ctx).1 (continued regex rules freshId ctx).1 ∧
      (SameButSession (sentBack regex rules freshId ctx).1 (continued regex rules freshId ctx).1 ↔ Listable ctx) := by
  have hlist : Listable (waiting freshId rule ctx) ↔ Listable ctx :=
    ⟨fun h => ⟨h.1, h.2, h.3, h.4, h.5, h.6, h.7⟩, fun h => ⟨h.1, h.2, h.3, h.4, h.5, h.6, h.7⟩⟩
  have htrace : SameButSession (sentBack regex rules freshId ctx).1 (continued regex rules freshId ctx).1 ↔
      SameButSession (waiting freshId rule ctx).throughWire (waiting freshId rule ctx) := by
    rw [sentBack_of_some h, continued_of_some h]
    exact ⟨fun h => ⟨h.1, h.2, h.3, h.4, h.5, h.6, h.7, h.8, h.9, h.10⟩,
      fun h => ⟨h.1, h.2, h.3, h.4, h.5, h.6, h.7, h.8, h.9, h.10⟩⟩
  refine ⟨?_, ?_⟩
  · intro hsame
    have hsession := hsame.sessionId
    rw [sentBack_of_some h, continued_of_some h] at hsession
    cases hsession
  · rw [htrace, sameButSession_throughWire_iff, hlist]

/-! ### A request on a plain connection -/

private def everyRequest : BreakpointRule := ⟨"r1", Location.default, .request, .head, true⟩

private def plainRequest : RequestContext :=
  { RequestContext.default with
    method := "GET"
    uri := "http://api.test/"
    host := "api.test" }

private theorem firstMatch_plainRequest : firstMatch (fun _ => none) [everyRequest] .request
    (MatchTarget.fromRequest plainRequest) = some everyRequest := by
  unfold firstMatch
  rw [List.find?_cons_of_pos]
  decide +kernel

theorem sentBack_differs_plain :
    ¬ SameForwarding (sentBack (fun _ => none) [everyRequest] "s1" plainRequest).1
        (continued (fun _ => none) [everyRequest] "s1" plainRequest).1 ∧
      (SameButSession (sentBack (fun _ => none) [everyRequest] "s1" plainRequest).1
          (continued (fun _ => none) [everyRequest] "s1" plainRequest).1 ↔ Listable plainRequest) :=
  sentBack_differs firstMatch_plainRequest

/-- The session of a paused request does not come back. -/
theorem not_sentBack_same :
    ¬ ∀ (regex : RegexEngine) (rules : List BreakpointRule) (freshId : Str) (ctx : RequestContext)
      (rule : BreakpointRule), firstMatch regex rules .request (MatchTarget.fromRequest ctx) = some rule →
        SameForwarding (sentBack regex rules freshId ctx).1 (continued regex rules freshId ctx).1 := by
  intro h
  have hsession := (h (fun _ => none) [everyRequest] "s1" plainRequest everyRequest firstMatch_plainRequest).sessionId
  rw [sentBack_of_some firstMatch_plainRequest, continued_of_some firstMatch_plainRequest] at hsession
  cases hsession

end Breakpoints

end Oproxy
