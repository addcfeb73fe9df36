import Oproxy.Engine.DialledHost
import Oproxy.Engine.Exchange

/-!
# A request and its response before one rule

A location is matched against a request as its URI shows it, and against the response as the Host header of the
request says it.  The two are compared for exchanges in which the request chain leaves URI and host alone.
-/

namespace Oproxy

/-- What is matched of a protocol. -/
def ProtocolContext.tokens (p : ProtocolContext) : WireProtocol × ApplicationProtocol × BodyMode :=
  (p.downstream, p.application, p.bodyMode)

namespace BothSides

open ProxyEngine Matcher

variable (regex : RegexEngine) (engine : ProxyEngine)

/-- The context which the request chain starts from. -/
def context (req : IncomingRequest) (mitmDestination : Option Str) (body : Bytes) : RequestContext :=
  requestContext (engine.buildRequestHead req mitmDestination) mitmDestination body

/-- What the response side knows of a request: how it was shown, its Host header and its method, as they came in. -/
def forwarded (req : IncomingRequest) (mitmDestination : Option Str) (fwd : Forwarded) : Forwarded :=
  let head := engine.buildRequestHead req mitmDestination
  { fwd with
    displayUri := head.displayUri
    host := head.host
    method := head.method }

/-- A location which asks for no protocol matches both sides or none, and a rule set for both sides applies to both
or to none. -/
structure SameMatches (request : RequestContext) (response : ResponseContext) : Prop where
  locations : ∀ l : Location, l.AnyProtocol →
    l.matchesTarget regex (MatchTarget.fromRequest request) = l.matchesTarget regex (MatchTarget.fromResponse response)
  rules : ∀ rule : RewriteRuleSet, rule.appliesTo = .both → rule.location.AnyProtocol →
    UnifiedRewrite.appliesToRequest regex (MatchTarget.fromRequest request) rule =
      UnifiedRewrite.appliesToResponse regex (MatchTarget.fromResponse response) rule

/-- The authority which the matcher reads off a request. -/
def shownAuthority (req : IncomingRequest) (mitmDestination : Option Str) : Str :=
  (parseUri (Wire.displayRequestUri req.uri mitmDestination (requestHost req))).2.1.getD (requestHost req)

/-- The URI shows host and port of the Host header, and the chain has kept the method and what is matched of the
protocol. -/
structure Agree (req : IncomingRequest) (mitmDestination : Option Str) (seen sent : RequestContext) : Prop where
  authority : splitHostPort (shownAuthority req mitmDestination) = splitHostPort (requestHost req)
  method : seen.method.toAsciiLowercase = req.method.toAsciiLowercase
  protocol : seen.protocolContext.map ProtocolContext.tokens = sent.protocolContext.map ProtocolContext.tokens

/-! ### The shown authority -/

/-- A plain request shows the authority of an absolute target, and its Host header otherwise. -/
theorem shownAuthority_none (req : IncomingRequest) : shownAuthority req none = DialledHost.shownAuthority req := by
  unfold shownAuthority
  rw [DialledHost.parseUri_displayRequestUri]
  rfl

/-- An intercepted request shows the authority of its tunnel. -/
theorem shownAuthority_mitm (req : IncomingRequest) {authority path : Str} (hne : authority ≠ [])
    (hslash : '/' ∉ authority)
    (hpath : req.uri.pathAndQuery = some ('/' :: path)) :
    shownAuthority req (some (("https://" : Str) ++ authority)) = authority := by
  have hlast : Str.trimEndMatches '/' (("https://" : Str) ++ authority) = ("https://" : Str) ++ authority := by
    unfold Str.trimEndMatches
    rw [List.rdropWhile_eq_self_iff]
    intro hl hp
    rw [List.getLast_append_of_ne_nil hl hne] at hp
    exact hslash (by rw [← eq_of_beq hp]; exact List.getLast_mem hne)
  unfold shownAuthority Wire.displayRequestUri
  rw [hpath, Option.getD_some]
  dsimp only
  rw [hlast, show ("https://" : Str) = ("https" : Str) ++ ("://" : Str) from rfl, List.append_assoc, List.append_assoc,
    ← List.append_assoc, (parseUri_scheme (by decide) _).2, Option.getD_some, List.takeWhile_append_of_pos]
  · simp
  · intro c hc
    simp only [ne_eq, decide_eq_true_eq]
    rintro rfl
    exact hslash hc

/-! ### The two targets -/

variable {regex engine} {req : IncomingRequest} {mitmDestination : Option Str} {seen : RequestContext}

theorem fromRequest_eq {body : Bytes} (huri : seen.uri = (context engine req mitmDestination body).uri)
    (hhost : seen.host = (context engine req mitmDestination body).host) :
    (MatchTarget.fromRequest seen).host = (splitHostPort (shownAuthority req mitmDestination)).1 ∧
      (MatchTarget.fromRequest seen).port = (splitHostPort (shownAuthority req mitmDestination)).2 ∧
      ((MatchTarget.fromRequest seen).path, (MatchTarget.fromRequest seen).query) =
        (parseUri (Wire.displayRequestUri req.uri mitmDestination (requestHost req))).2.2 := by
  have huri' : seen.uri = Wire.displayRequestUri req.uri mitmDestination (requestHost req) := huri
  have hhost' : seen.host = requestHost req := hhost
  unfold MatchTarget.fromRequest shownAuthority
  rw [huri', hhost']
  exact ⟨rfl, rfl, rfl⟩

theorem responseContext_request (fwd : Forwarded) (res : UpstreamResponse) (headers : HeaderMap) (body : Bytes)
    (streamed : Bool) :
    (responseContext fwd res headers body streamed).requestUri = fwd.displayUri ∧
      (responseContext fwd res headers body streamed).requestHost = fwd.host ∧
      (responseContext fwd res headers body streamed).requestMethod = fwd.method ∧
      (responseContext fwd res headers body streamed).protocolContext = fwd.sent.protocolContext := by
  unfold responseContext tagRewritten
  dsimp only
  rw [ResponseContext.extendFlow_frame]
  split <;> split <;> exact ⟨rfl, rfl, rfl, rfl⟩

private theorem protocol_tokens_eq {p p' : Option ProtocolContext}
    (hwire : (p.map fun p => p.downstream.matchValue).map Str.toAsciiLowercase =
      (p'.map fun p => p.downstream.matchValue).map Str.toAsciiLowercase)
    (happlication : (p.map fun p => p.application.matchValue).map Str.toAsciiLowercase =
      (p'.map fun p => p.application.matchValue).map Str.toAsciiLowercase)
    (hbody : (p.map fun p => p.bodyMode.matchValue).map Str.toAsciiLowercase =
      (p'.map fun p => p.bodyMode.matchValue).map Str.toAsciiLowercase) :
    p.map ProtocolContext.tokens = p'.map ProtocolContext.tokens := by
  have hwires : ∀ w w' : WireProtocol, Str.toAsciiLowercase w.matchValue = Str.toAsciiLowercase w'.matchValue →
      w = w' := by
    intro w w'
    cases w <;> cases w' <;> decide
  have happlications : ∀ a a' : ApplicationProtocol,
      Str.toAsciiLowercase a.matchValue = Str.toAsciiLowercase a'.matchValue → a = a' := by
    intro a a'
    cases a <;> cases a' <;> decide
  have hbodies : ∀ b b' : BodyMode, Str.toAsciiLowercase b.matchValue = Str.toAsciiLowercase b'.matchValue →
      b = b' := by
    intro b b'
    cases b <;> cases b' <;> decide
  cases p with
  | none =>
    cases p' with
    | none => rfl
    | some p' => cases hwire
  | some p =>
    cases p' with
    | none => cases hwire
    | some p' =>
      simp only [Option.map_some, Option.some.injEq] at hwire happlication hbody ⊢
      unfold ProtocolContext.tokens
      rw [hwires _ _ hwire, happlications _ _ happlication, hbodies _ _ hbody]

/-- No token of a protocol is empty. -/
private theorem matchValue_ne_nil (p : Option ProtocolContext) :
    (p.map fun p => p.downstream.matchValue) ≠ some [] ∧ (p.map fun p => p.application.matchValue) ≠ some [] ∧
      (p.map fun p => p.bodyMode.matchValue) ≠ some [] := by
  cases p with
  | none => exact ⟨by simp, by simp, by simp⟩
  | some p =>
    simp only [Option.map_some, ne_eq, Option.some.injEq]
    refine ⟨?_, ?_, ?_⟩
    · cases p.downstream <;> decide
    · cases p.application <;> decide
    · cases p.bodyMode <;> decide

/-- The two sides of an exchange are the same to the rules exactly where the URI shows host and port of the Host
header, and method and protocol are kept. -/
theorem sameMatches_iff {body : Bytes} (huri : seen.uri = (context engine req mitmDestination body).uri)
    (hhost : seen.host = (context engine req mitmDestination body).host)
    (hsingle : Location.SinglesOut regex (splitHostPort (requestHost req)).1) (fwd : Forwarded) (res : UpstreamResponse)
    (headers : HeaderMap) (responseBody : Bytes) (streamed : Bool) :
    SameMatches regex seen
        (responseContext (forwarded engine req mitmDestination fwd) res headers responseBody streamed) ↔
      Agree req mitmDestination seen fwd.sent := by
  obtain ⟨hseenHost, hseenPort, hseenPath⟩ := fromRequest_eq huri hhost
  obtain ⟨hdisplay, hresponseHost, hmethod, hprotocol⟩ :=
    responseContext_request (forwarded engine req mitmDestination fwd) res headers responseBody streamed
  generalize hresponse :
    responseContext (forwarded engine req mitmDestination fwd) res headers responseBody streamed = response at *
  -- the response is matched by the Host header as it came in
  have htargetHost : (MatchTarget.fromResponse response).host = (splitHostPort (requestHost req)).1 := by
    unfold MatchTarget.fromResponse
    rw [hresponseHost]
    rfl
  have htargetPort : (MatchTarget.fromResponse response).port = (splitHostPort (requestHost req)).2 := by
    unfold MatchTarget.fromResponse
    rw [hresponseHost]
    rfl
  have htargetPath : ((MatchTarget.fromResponse response).path, (MatchTarget.fromResponse response).query) =
      (parseUri (Wire.displayRequestUri req.uri mitmDestination (requestHost req))).2.2 := by
    unfold MatchTarget.fromResponse
    rw [hdisplay]
    rfl
  obtain ⟨hpath, hquery⟩ := Prod.mk.inj (hseenPath.trans htargetPath.symm)
  have htargetMethod : (MatchTarget.fromResponse response).method = req.method := hmethod
  constructor
  · intro h
    -- rules which single out a value tell two targets apart, field by field
    have hseenTokens := matchValue_ne_nil seen.protocolContext
    have htargetTokens := matchValue_ne_nil response.protocolContext
    have hagrees := Location.agrees_of_matchesTarget (by rw [htargetHost]; exact hsingle) hpath hquery
      ⟨hseenTokens.1, htargetTokens.1⟩ ⟨hseenTokens.2.1, htargetTokens.2.1⟩ ⟨hseenTokens.2.2, htargetTokens.2.2⟩
      h.locations
    refine ⟨?_, ?_, ?_⟩
    · rw [← Prod.eta (splitHostPort (shownAuthority req mitmDestination)), ← hseenHost, ← hseenPort, hagrees.host,
        hagrees.port, htargetHost, htargetPort]
    · rw [← htargetMethod]
      exact hagrees.method
    · have hkept := protocol_tokens_eq hagrees.wireProtocol hagrees.applicationProtocol hagrees.bodyMode
      rw [hprotocol] at hkept
      exact hkept
  · intro h
    have htokens : ∀ {α : Type} (f : WireProtocol × ApplicationProtocol × BodyMode → α),
        seen.protocolContext.map (fun p => f p.tokens) = response.protocolContext.map fun p => f p.tokens := by
      intro α f
      rw [hprotocol]
      have hmapped := congrArg (Option.map f) h.protocol
      rwa [Option.map_map, Option.map_map] at hmapped
    have hagrees : (MatchTarget.fromRequest seen).Agrees (MatchTarget.fromResponse response) := by
      refine ⟨?_, ?_, ?_, hpath, hquery, ?_, ?_, ?_⟩
      · rw [htargetMethod]
        exact h.method
      · rw [hseenHost, h.authority, htargetHost]
      · rw [hseenPort, h.authority, htargetPort]
      · exact congrArg (Option.map Str.toAsciiLowercase) (htokens fun t => t.1.matchValue)
      · exact congrArg (Option.map Str.toAsciiLowercase) (htokens fun t => t.2.1.matchValue)
      · exact congrArg (Option.map Str.toAsciiLowercase) (htokens fun t => t.2.2.matchValue)
    constructor
    · intro l hl
      exact Location.matchesTarget_congr hagrees hl
    · intro rule hboth hl
      unfold UnifiedRewrite.appliesToRequest UnifiedRewrite.appliesToResponse
      rw [hboth, Location.matchesTarget_congr hagrees hl]
      rfl

/-! ### An intercepted request whose Host header leaves the port out -/

private def apiRequest : IncomingRequest :=
  { IncomingRequest.plain with uri := { Http.Uri.root with rawPathAndQuery := "/v1", path_start := by decide } }

private def apiEngine : ProxyEngine := ⟨10485760, 524288, 8080, "127.0.0.1", [], none⟩

private def apiTunnel : Option Str := some "https://api.test:443"

/-- A library which knows the pattern `^api\.test$` alone. -/
private def apiName : RegexEngine := fun pattern =>
  if pattern = "^api\\.test$" then
    some
      { isMatch := fun value => value = "api.test"
        replaceAll := fun value replacement => if value = "api.test" then replacement else value
        captures := fun value => if value = "api.test" then some [value] else none }
  else
    none

private theorem apiName_singlesOut : Location.SinglesOut apiName (splitHostPort (requestHost apiRequest)).1 := by
  have hhost : (splitHostPort (requestHost apiRequest)).1 = "api.test" := by decide
  rw [hhost]
  exact ⟨"^api\\.test$", _, by decide, if_pos rfl, fun value => decide_eq_true_iff⟩

private def apiForwarded : Forwarded where
  displayUri := "https://api.test:443/v1"
  host := "api.test"
  method := "GET"
  sent := context apiEngine apiRequest apiTunnel []
  streamedUnbuffered := false
  ownsRecording := true
  ttfbMs := 3
  bodyMs := 0
  latencyMs := 3

private def apiResponse : UpstreamResponse :=
  { UpstreamResponse.plain with
    headers := []
    headers_wf := Http.Headers.wellFormed_nil }

theorem sameMatches_iff_intercepted :
    SameMatches apiName (context apiEngine apiRequest apiTunnel [])
        (responseContext (forwarded apiEngine apiRequest apiTunnel apiForwarded) apiResponse ⟨[], by simp⟩ [] false) ↔
      Agree apiRequest apiTunnel (context apiEngine apiRequest apiTunnel []) apiForwarded.sent :=
  sameMatches_iff rfl rfl apiName_singlesOut apiForwarded apiResponse ⟨[], by simp⟩ [] false

/-- The request shows port 443 and the response none: the rule for port 443 fires on the request alone. -/
theorem not_sameMatches :
    ¬ ∀ (regex : RegexEngine) (engine : ProxyEngine) (req : IncomingRequest) (mitmDestination : Option Str)
      (seen : RequestContext) (body : Bytes) (fwd : Forwarded) (res : UpstreamResponse) (headers : HeaderMap)
      (responseBody : Bytes) (streamed : Bool), seen.uri = (context engine req mitmDestination body).uri →
      seen.host = (context engine req mitmDestination body).host →
      SameMatches regex seen
        (responseContext (forwarded engine req mitmDestination fwd) res headers responseBody streamed) := by
  intro h
  have hsame := (h apiName apiEngine apiRequest apiTunnel (context apiEngine apiRequest apiTunnel []) [] apiForwarded
    apiResponse ⟨[], by simp⟩ [] false rfl rfl).locations { Location.default with port := some 443 } rfl
  revert hsame
  decide

end BothSides

end Oproxy
