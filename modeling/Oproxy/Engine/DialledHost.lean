import Oproxy.Engine.Routing

/-!
# The host that is checked and the host that is dialled

Access control matches its rules against the authority it reads off the request URI, the engine dials the host it
reads off the Host header.  The two readings are compared for requests whose destination and host no rule changes.
-/

namespace Oproxy

namespace DialledHost

open ProxyEngine Matcher

variable (regex : RegexEngine) (parse : Str → Option Url) (engine : ProxyEngine)

/-- The context of a plain proxied request, without an intercepted destination. -/
def context (req : IncomingRequest) (body : Bytes) : RequestContext :=
  requestContext (engine.buildRequestHead req none) none body

/-- The location takes in every request which is matched by this host and port. -/
def Names (l : Location) (host : Str) (port : Nat) : Prop :=
  ∀ target : MatchTarget, target.host = host → target.port = some port → l.matchesTarget regex target = true

/-- For every set of rules which lets the request pass with its destination unset and its host unchanged, the URL
that is dialled is at the host and port which access control has matched, and no enabled Block rule is on that host
and port. -/
structure CheckedHostIsDialled (req : IncomingRequest) (body : Bytes) : Prop where
  same : ∀ (rules : RoutingRules) (ctx' : RequestContext),
    MiddlewareChain.executeRequest (rules.chain regex) (context engine req body) = (ctx', .proceed) →
    ctx'.destination = none → ctx'.host = (context engine req body).host →
    ∀ u, parse (upstreamUrl parse ctx' req.uri req.uri.display) = some u →
      u.hostStr = some (MatchTarget.fromRequest (context engine req body)).host ∧
        u.portOrKnownDefault = (MatchTarget.fromRequest (context engine req body)).port
  blocked : ∀ (rules : RoutingRules) (ctx' : RequestContext),
    MiddlewareChain.executeRequest (rules.chain regex) (context engine req body) = (ctx', .proceed) →
    ctx'.destination = none → ctx'.host = (context engine req body).host →
    ∀ u, parse (upstreamUrl parse ctx' req.uri req.uri.display) = some u →
      ∀ host port, u.hostStr = some host → u.portOrKnownDefault = some port →
        ∀ rule ∈ rules.access, rule.enabled = true → rule.action = .block → ¬ Names regex rule.location host port

/-- The authority of a request as its URI shows it: the one of an absolute target, the Host header otherwise. -/
def shownAuthority (req : IncomingRequest) : Str :=
  if req.uri.scheme.isSome then req.uri.authority.getD []
  else (requestHost req ++ req.uri.pathAndQuery.getD "/").takeWhile (· ≠ '/')

/-- The URL that is made of the Host header. -/
def hostUrl (req : IncomingRequest) : Str :=
  ("http://" : Str) ++ requestHost req ++ Wire.upstreamPath req.uri req.uri.display

/-- The authority shown by the URI is written with the host and the port which the URL parser reads in the Host
header, a default port included. -/
def ShowsDialledHost (req : IncomingRequest) : Prop :=
  ∀ u, parse (hostUrl req) = some u →
    u.hostStr = some (splitHostPort (shownAuthority req)).1 ∧
      u.portOrKnownDefault = (splitHostPort (shownAuthority req)).2

/-! ### What access control reads -/

/-- The matcher reads the shown authority off the display URI. -/
theorem parseUri_displayRequestUri (req : IncomingRequest) :
    (parseUri (Wire.displayRequestUri req.uri none (requestHost req))).2.1 = some (shownAuthority req) := by
  unfold Wire.displayRequestUri shownAuthority
  cases hs : req.uri.scheme with
  | none =>
    simp only [Option.isSome_none, Bool.false_and, Bool.false_eq_true, if_false]
    rw [show ("http://" : Str) = ("http" : Str) ++ ("://" : Str) from rfl, List.append_assoc]
    exact (parseUri_scheme (by decide) _).2
  | some scheme =>
    have hsome : req.uri.scheme.isSome = true := by rw [hs]; rfl
    obtain ⟨authority, ha⟩ := Option.isSome_iff_exists.1 (req.uri.absolute hsome)
    obtain ⟨rest, hpath⟩ := Http.Uri.path_head hsome
    have hchars := req.uri.authority_chars
    have hscheme := req.uri.scheme_chars
    rw [ha, Option.getD_some] at hchars
    rw [hs, Option.getD_some] at hscheme
    simp only [ha, Option.isSome_some, Bool.and_self, if_true, Option.getD_some]
    have hdisplay : req.uri.display = scheme ++ ("://" : Str) ++
        (authority ++ '/' :: (rest ++ (req.uri.query.map fun q => '?' :: q).getD [])) := by
      unfold Http.Uri.display
      rw [hs, ha, hpath]
      simp only [Option.map_some, Option.getD_some, List.append_assoc, List.cons_append]
    rw [hdisplay, (parseUri_scheme hscheme _).2, List.takeWhile_append_of_pos (by
      intro c hc
      simpa using (hchars c hc).1)]
    simp

theorem fromRequest_context (req : IncomingRequest) (body : Bytes) :
    (MatchTarget.fromRequest (context engine req body)).host = (splitHostPort (shownAuthority req)).1 ∧
      (MatchTarget.fromRequest (context engine req body)).port = (splitHostPort (shownAuthority req)).2 := by
  have huri : (context engine req body).uri = Wire.displayRequestUri req.uri none (requestHost req) := rfl
  have hparse := parseUri_displayRequestUri req
  unfold MatchTarget.fromRequest
  simp only [huri, hparse, Option.getD_some, and_self]

/-! ### What the engine dials -/

theorem upstreamUrl_eq_hostUrl {req : IncomingRequest} {body : Bytes} {ctx' : RequestContext}
    (hd : ctx'.destination = none) (hh : ctx'.host = (context engine req body).host) :
    upstreamUrl parse ctx' req.uri req.uri.display = hostUrl req := by
  rw [upstreamUrl_of_destination_none hd, hh]
  rfl

/-- Without rules every request passes as it is. -/
theorem executeRequest_empty (ctx : RequestContext) :
    MiddlewareChain.executeRequest (RoutingRules.empty.chain regex) ctx = (ctx, .proceed) := by
  rfl

theorem names_host (host : Str) (port : Nat) : Names regex { Location.default with host := some host } host port := by
  intro target hhost _
  rw [matchesTarget_host, ← hhost, globMatch_self, Bool.or_true]

theorem names_hostPort (host : Str) (port : Nat) :
    Names regex { Location.default with host := some host, port := some port } host port := by
  intro target hhost hport
  have hmatch : ({ Location.default with host := some host } : Location).matchesTarget regex target = true :=
    names_host regex host port target hhost hport
  unfold Location.matchesTarget at hmatch ⊢
  rw [hport]
  simpa [Location.default, Location.matchStr] using hmatch

/-- A request which passes is matched by the host and port of no Block rule. -/
theorem not_names_of_proceed {req : IncomingRequest} {body : Bytes} {rules : RoutingRules} {ctx' : RequestContext}
    (hrun : MiddlewareChain.executeRequest (rules.chain regex) (context engine req body) = (ctx', .proceed))
    {host : Str} {port : Nat} (hhost : (MatchTarget.fromRequest (context engine req body)).host = host)
    (hport : (MatchTarget.fromRequest (context engine req body)).port = some port) {rule : AccessRule}
    (hmem : rule ∈ rules.access) (henabled : rule.enabled = true) (hblock : rule.action = .block) :
    ¬ Names regex rule.location host port := by
  intro hnames
  have hpass := RoutingRules.accessControl_of_proceed hrun
  rw [AccessControl.onRequest_of_block hmem henabled hblock (hnames _ hhost hport)] at hpass
  cases hpass

/-- The run without rules dials the Host header. -/
theorem showsDialledHost_of_checked {req : IncomingRequest} {body : Bytes}
    (h : CheckedHostIsDialled regex parse engine req body) : ShowsDialledHost parse req := by
  intro u hu
  obtain ⟨hhost, hport⟩ := fromRequest_context engine req body
  have hurl : upstreamUrl parse (context engine req body) req.uri req.uri.display = hostUrl req :=
    upstreamUrl_eq_hostUrl parse engine rfl rfl
  have hsame := h.same RoutingRules.empty (context engine req body) (executeRequest_empty regex _) rfl rfl u
    (by rw [hurl]; exact hu)
  rwa [hhost, hport] at hsame

/-- The host that is checked is the one that is dialled exactly when the URI shows the authority which the URL
parser reads in the Host header. -/
theorem checkedHostIsDialled_iff (req : IncomingRequest) (body : Bytes) :
    CheckedHostIsDialled regex parse engine req body ↔ ShowsDialledHost parse req := by
  obtain ⟨hhost, hport⟩ := fromRequest_context engine req body
  constructor
  · exact showsDialledHost_of_checked regex parse engine
  · intro h
    constructor
    · intro rules ctx' _ hd hh u hu
      rw [upstreamUrl_eq_hostUrl parse engine hd hh] at hu
      rw [hhost, hport]
      exact h u hu
    · intro rules ctx' hrun hd hh u hu host port hu' hport' rule hmem henabled hblock
      rw [upstreamUrl_eq_hostUrl parse engine hd hh] at hu
      obtain ⟨hsame, hsamePort⟩ := h u hu
      rw [← hhost, hu'] at hsame
      rw [← hport, hport'] at hsamePort
      exact not_names_of_proceed regex engine hrun (Option.some.inj hsame).symm hsamePort.symm hmem henabled hblock

/-! ### A request in absolute form with another Host header -/

private def evilUrl : Url := .ofHost "http" "evil.test" "/" (Eq.refl true)

private def smuggledRequest : IncomingRequest where
  method := "GET"
  uri := .http "safe.test" (by decide)
  version := .http11
  headers := [("host", Str.toUtf8 "evil.test")]
  peer := none
  connection := none
  method_token := Http.isToken_get

private def defaultEngine : ProxyEngine := ⟨10485760, 524288, 8080, "127.0.0.1", [], none⟩

/-- `GET http://safe.test/` with `Host: evil.test`: access control matches `safe.test`, the engine dials
`http://evil.test/`. -/
theorem not_checkedHostIsDialled :
    ¬ CheckedHostIsDialled (fun _ => none)
      (fun text => if text = ("http://evil.test/" : Str) then some evilUrl else none)
      defaultEngine smuggledRequest [] := by
  intro h
  have hurl : (if hostUrl smuggledRequest = ("http://evil.test/" : Str) then some evilUrl else none) = some evilUrl :=
    if_pos (by decide)
  have hhost := (showsDialledHost_of_checked _ _ _ h evilUrl hurl).1
  revert hhost
  decide

end DialledHost

end Oproxy
