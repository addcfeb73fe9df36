import Oproxy.Engine.Routing

/-!
# Intercepted HTTPS requests and the origin they go to

A request out of an intercepted tunnel has the destination `https://host:port`, the only place which holds the scheme.
DNS overrides replace the destination by one whose scheme and port they guess from the Host header, and `SetHost`
clears it, so that the engine falls back to `http`.  The URL that is sent keeps the scheme and the port exactly where
neither of the two gets in the way.
-/

namespace Oproxy

/-- The host a `SetHost` action sets. -/
def RewriteAction.newHost? : RewriteAction → Option Str
  | setHost value => some value
  | _ => none

/-- The target of a CONNECT request, which every request of the tunnel is meant for. -/
structure HttpsOrigin where
  host : Str
  port : Nat
  host_chars : ∀ c ∈ host, Url.endsAuthority c = false := by decide
  port_le : port ≤ 65535 := by decide

namespace InterceptedOrigin

open ProxyEngine UnifiedRewrite

variable (regex : RegexEngine) (parse : Str → Option Url) (engine : ProxyEngine)

/-- `https://{authority}` of `serve_intercepted_http`. -/
def destination (origin : HttpsOrigin) : Str :=
  ("https" : Str) ++ ("://" : Str) ++ (origin.host ++ ':' :: Str.ofNat origin.port)

/-- The context of an intercepted request at the start of the chain. -/
def context (origin : HttpsOrigin) (req : IncomingRequest) (body : Bytes) : RequestContext :=
  requestContext (engine.buildRequestHead req (some (destination origin))) (some (destination origin)) body

/-- The hosts which the `SetHost` actions of rule sets set, in order. -/
def newHosts (rules : List RewriteRuleSet) : List Str :=
  (rules.flatMap RewriteRuleSet.actions).filterMap RewriteAction.newHost?

/-- The port the request is to go to: the one in the host which the rules have set, or the original one. -/
def expectedPort (origin : HttpsOrigin) (hosts : List Str) : Nat :=
  match hosts.getLast? with
  | some host => (Matcher.splitHostPort host).2.getD origin.port
  | none => origin.port

/-- The URL that is sent after the chain has left `ctx'` has the scheme `https` and the expected port. -/
def StaysWithOrigin (origin : HttpsOrigin) (req : IncomingRequest) (body : Bytes) (rules : RoutingRules)
    (ctx' : RequestContext) : Prop :=
  Url.textSchemeAndPort (upstreamUrl parse ctx' req.uri req.uri.display) =
    some (("https" : Str),
      some (expectedPort origin (newHosts (applying regex rules.rewrite (context engine origin req body)))))

/-- The port in the URL made of an override's address and of the port 443. -/
def overridePort (entry : DnsEntry) (req : IncomingRequest) : Option Nat :=
  Url.portIn "https" (Url.authorityIn
    (entry.ip ++ ':' :: (("443" : Str) ++ Wire.upstreamPath req.uri req.uri.display)))

/-- The condition: no applying rule sets the host; and either no override is enabled for the host and the request is
not for `*`, or the Host header spells the port 443 and that is the port of the origin. -/
structure KeepsOrigin (origin : HttpsOrigin) (req : IncomingRequest) (body : Bytes) (rules : RoutingRules) : Prop where
  no_new_host : newHosts (applying regex rules.rewrite (context engine origin req body)) = []
  no_override : DnsOverride.lookup rules.dns (requestHost req) = none →
    Wire.upstreamPath req.uri req.uri.display ≠ "*"
  same_port : ∀ entry, DnsOverride.lookup rules.dns (requestHost req) = some entry →
    (DnsOverride.splitHost (requestHost req)).2 = ("443" : Str) ∧ overridePort entry req = some origin.port

/-! ### The path that is sent -/

/-- The path starts with a character which ends the authority, but for the target `*`. -/
theorem upstreamPath_cases (uri : Http.Uri) (fallback : Str) :
    Wire.upstreamPath uri fallback = "*" ∨
      ∃ c rest, Wire.upstreamPath uri fallback = c :: rest ∧ Url.endsAuthority c = true := by
  unfold Wire.upstreamPath Http.Uri.pathAndQuery
  by_cases hform : (uri.scheme.isSome || uri.authority.isNone) = true
  · rw [if_pos hform, Option.getD_some]
    rcases uri.path_start with hraw | ⟨hraw, -⟩ | hraw | hraw
    · rw [hraw]
      exact Or.inr ⟨'/', [], rfl, rfl⟩
    · rw [hraw]
      exact Or.inl rfl
    · obtain ⟨rest, hrest⟩ := List.head?_eq_some_iff.1 hraw
      rw [hrest]
      exact Or.inr ⟨'/', rest, rfl, rfl⟩
    · obtain ⟨rest, hrest⟩ := List.head?_eq_some_iff.1 hraw
      rw [hrest]
      exact Or.inr ⟨'?', rest, rfl, rfl⟩
  · rw [if_neg hform, Option.getD_none]
    -- a target in authority form: the fallback counts only where it is a path
    by_cases hslash : Str.startsWith fallback "/" = true
    · obtain ⟨rest, hrest⟩ := Str.startsWith_iff.1 hslash
      rw [if_pos hslash, hrest]
      exact Or.inr ⟨'/', rest, rfl, rfl⟩
    · rw [if_neg hslash]
      exact Or.inr ⟨'/', [], rfl, rfl⟩

/-- An authority without a character that ends it is the authority of the URL. -/
theorem authorityIn_upstreamPath {authority : Str} (h : ∀ c ∈ authority, Url.endsAuthority c = false)
    {uri : Http.Uri} {fallback : Str} (hpath : Wire.upstreamPath uri fallback ≠ "*") :
    Url.authorityIn (authority ++ Wire.upstreamPath uri fallback) = authority := by
  rcases upstreamPath_cases uri fallback with hstar | ⟨c, rest, heq, hend⟩
  · exact absurd hstar hpath
  · rw [Url.authorityIn_append h, heq, Url.authorityIn_cons_end hend, List.append_nil]

private theorem endsAuthority_digit {c : Char} (h : Str.isAsciiDigit c = true) : Url.endsAuthority c = false := by
  unfold Url.endsAuthority
  by_contra hne
  simp only [Bool.not_eq_false, Bool.or_eq_true, beq_iff_eq] at hne
  rcases hne with (rfl | rfl) | rfl <;> revert h <;> decide

private theorem endsAuthority_authority (origin : HttpsOrigin) :
    ∀ c ∈ origin.host ++ ':' :: Str.ofNat origin.port, Url.endsAuthority c = false := by
  intro c hc
  rcases List.mem_append.1 hc with hhost | hport
  · exact origin.host_chars c hhost
  · rcases List.mem_cons.1 hport with rfl | hdigit
    · rfl
    · exact endsAuthority_digit (Str.isAsciiDigit_of_mem_ofNat hdigit)

/-- The address of an override which is a plain host goes to port 443. -/
theorem overridePort_of_plain {entry : DnsEntry} (h : ∀ c ∈ entry.ip, Url.endsAuthority c = false)
    {req : IncomingRequest} (hpath : Wire.upstreamPath req.uri req.uri.display ≠ "*") :
    overridePort entry req = some 443 := by
  have hchars : ∀ c ∈ entry.ip ++ ':' :: Str.ofNat 443, Url.endsAuthority c = false :=
    endsAuthority_authority ⟨entry.ip, 443, h, by decide⟩
  have hauthority := authorityIn_upstreamPath hchars hpath
  unfold overridePort
  rw [show (entry.ip ++ ':' :: (("443" : Str) ++ Wire.upstreamPath req.uri req.uri.display)) =
      entry.ip ++ ':' :: Str.ofNat 443 ++ Wire.upstreamPath req.uri req.uri.display by
    rw [List.append_assoc, List.cons_append]
    rfl, hauthority]
  exact Url.portIn_ofNat (by decide) "https" entry.ip

/-! ### The scheme that is sent -/

/-- A destination which ends in a digit is used as it is. -/
theorem destinationBase_https {rest : Str} {c : Char} (hlast : rest.getLast? = some c) (hc : c ≠ '/') :
    Wire.destinationBase (("https" : Str) ++ ("://" : Str) ++ rest) = ("https" : Str) ++ ("://" : Str) ++ rest := by
  have htrim : Str.trimEndMatches '/' (("https" : Str) ++ ("://" : Str) ++ rest) =
      ("https" : Str) ++ ("://" : Str) ++ rest := by
    apply Str.trimEndMatches_of_last
    rw [List.getLast?_append, hlast]
    exact fun h => hc (Option.some.inj h)
  have hstart : Str.startsWith (("https" : Str) ++ ("://" : Str) ++ rest) "https://" = true :=
    Str.startsWith_iff.2 ⟨rest, rfl⟩
  unfold Wire.destinationBase
  rw [htrim]
  dsimp only
  rw [hstart, Bool.or_true, if_pos rfl]

/-- A destination with the scheme `http` never turns into one with the scheme `https`. -/
theorem destinationBase_http (rest : Str) :
    ∃ rest', Wire.destinationBase (("http" : Str) ++ ("://" : Str) ++ rest) =
      ("http" : Str) ++ ("://" : Str) ++ rest' := by
  have hprefix : Str.trimEndMatches '/' (("http" : Str) ++ ("://" : Str) ++ rest) <+:
      (("http" : Str) ++ ("://" : Str) ++ rest) := List.rdropWhile_prefix _ _
  unfold Wire.destinationBase
  generalize Str.trimEndMatches '/' (("http" : Str) ++ ("://" : Str) ++ rest) = trimmed at hprefix ⊢
  have hhttps : Str.startsWith trimmed "https://" = false := by
    by_contra hne
    obtain ⟨r, hr⟩ := Str.startsWith_iff.1 ((Bool.not_eq_false _).mp hne)
    obtain ⟨r', hr'⟩ := hprefix
    rw [hr] at hr'
    -- the fifth characters differ
    have hchar : some 's' = some ':' := congrArg (fun text : Str => text[4]?) hr'
    revert hchar
    decide
  dsimp only
  rw [hhttps, Bool.or_false]
  by_cases hhttp : Str.startsWith trimmed "http://" = true
  · obtain ⟨r, hr⟩ := Str.startsWith_iff.1 hhttp
    rw [if_pos hhttp]
    exact ⟨r, hr⟩
  · rw [if_neg hhttp]
    exact ⟨trimmed, rfl⟩

theorem not_https_of_destination_none {ctx : RequestContext} (h : ctx.destination = none) (uri : Http.Uri)
    (fallback : Str) (port : Option Nat) :
    Url.textSchemeAndPort (upstreamUrl parse ctx uri fallback) ≠ some (("https" : Str), port) := by
  have hurl : upstreamUrl parse ctx uri fallback =
      ("http" : Str) ++ ("://" : Str) ++ (ctx.host ++ Wire.upstreamPath uri fallback) := by
    rw [upstreamUrl_of_destination_none h, List.append_assoc]
    rfl
  rw [hurl, Url.textSchemeAndPort_append (by decide)]
  intro heq
  have hscheme : ("http" : Str) = ("https" : Str) := congrArg Prod.fst (Option.some.inj heq)
  revert hscheme
  decide

theorem not_https_of_http {ctx : RequestContext} {rest : Str}
    (h : ctx.destination = some (("http" : Str) ++ ("://" : Str) ++ rest)) (uri : Http.Uri) (fallback : Str)
    (port : Option Nat) :
    Url.textSchemeAndPort (upstreamUrl parse ctx uri fallback) ≠ some (("https" : Str), port) := by
  obtain ⟨rest', hbase⟩ := destinationBase_http rest
  rw [upstreamUrl_of_destination h, hbase, List.append_assoc, Url.textSchemeAndPort_append (by decide)]
  intro heq
  have hscheme : ("http" : Str) = ("https" : Str) := congrArg Prod.fst (Option.some.inj heq)
  revert hscheme
  decide

/-- The scheme and the port of a request with an `https` destination. -/
theorem schemeAndPort_of_https {ctx : RequestContext} {rest : Str} {c : Char}
    (h : ctx.destination = some (("https" : Str) ++ ("://" : Str) ++ rest)) (hlast : rest.getLast? = some c)
    (hc : c ≠ '/') (uri : Http.Uri) (fallback : Str) :
    Url.textSchemeAndPort (upstreamUrl parse ctx uri fallback) =
      some (("https" : Str), Url.portIn "https" (Url.authorityIn (rest ++ Wire.upstreamPath uri fallback))) := by
  rw [upstreamUrl_of_destination h, destinationBase_https hlast hc, List.append_assoc,
    Url.textSchemeAndPort_append (by decide)]

/-! ### What the rewrite rules do to the destination -/

/-- An action leaves the destination or, as `SetHost`, clears it. -/
theorem applyRequestAction_destination {rule : RewriteRuleSet} {ctx ctx' : RequestContext} {action : RewriteAction}
    {summary : Option Str} (h : applyRequestAction regex rule ctx action = .next ctx' summary) :
    ctx'.destination = if action.newHost?.isSome then none else ctx.destination := by
  cases action with
  | setHost value => cases h; rfl
  | setPath pattern replacement =>
    unfold applyRequestAction at h
    cases hr : regex pattern <;> simp only [hr] at h <;> cases h <;> rfl
  | replaceBody pattern replacement =>
    unfold applyRequestAction at h
    cases hr : regex pattern with
    | none =>
      simp only [hr] at h
      cases h
      rfl
    | some r =>
      simp only [hr] at h
      split at h <;> cases h <;> rfl
  | redirect status location => cases h
  | block status => cases h
  | _ => cases h; rfl

theorem applyRequestLoop_destination {rule : RewriteRuleSet} {actions : List RewriteAction}
    {ctx ctx' : RequestContext} {summaries : List Str}
    (h : applyRequestLoop regex rule actions ctx summaries = (ctx', none)) :
    ctx'.destination = if actions.filterMap RewriteAction.newHost? = [] then ctx.destination else none := by
  induction actions generalizing ctx summaries with
  | nil =>
    unfold applyRequestLoop at h
    have hctx := congrArg Prod.fst h
    split at hctx <;> cases hctx <;> rfl
  | cons action actions ih =>
    unfold applyRequestLoop at h
    cases hstep : applyRequestAction regex rule ctx action with
    | stop ctx₁ => rw [hstep] at h; cases h
    | next ctx₁ summary =>
      rw [hstep] at h
      have hrest := ih h
      have hone := applyRequestAction_destination regex hstep
      cases hnew : action.newHost? with
      | none =>
        rw [hnew] at hone
        rw [List.filterMap_cons_none hnew, hrest, hone]
        rfl
      | some host =>
        rw [hnew] at hone
        rw [List.filterMap_cons_some hnew, hrest, hone]
        simp

theorem requestLoop_destination {rules : List RewriteRuleSet} {ctx ctx' : RequestContext}
    (h : requestLoop regex rules ctx = (ctx', .proceed)) :
    ctx'.destination = if newHosts rules = [] then ctx.destination else none := by
  induction rules generalizing ctx with
  | nil => cases h; rfl
  | cons rule rules ih =>
    unfold requestLoop applyRequestActions at h
    cases hrule : applyRequestLoop regex rule rule.actions
        (ctx.pushFlow (.ruleMatched .rewrite rule.id rule.name)) [] with
    | mk ctx₁ stopped =>
      rw [hrule] at h
      have hnew : newHosts (rule :: rules) = rule.actions.filterMap RewriteAction.newHost? ++ newHosts rules := by
        unfold newHosts
        rw [List.flatMap_cons, List.filterMap_append]
      cases stopped with
      | none =>
        have hrest := ih h
        have hone := applyRequestLoop_destination regex hrule
        rw [hrest, hone, hnew]
        by_cases hrules : newHosts rules = [] <;>
          by_cases hactions : rule.actions.filterMap RewriteAction.newHost? = [] <;>
            simp [hrules, hactions]
      | some action =>
        rw [applyRequestLoop_stops hrule] at h
        cases h

/-! ### The whole chain -/

/-- An authority with a port ends in a digit. -/
theorem getLast?_authority (host : Str) (port : Nat) :
    ∃ c, (host ++ ':' :: Str.ofNat port).getLast? = some c ∧ c ≠ '/' := by
  have hne := Str.ofNat_ne_nil port
  refine ⟨(Str.ofNat port).getLast hne, ?_, ?_⟩
  · rw [List.getLast?_append, List.getLast?_cons, List.getLast?_eq_some_getLast hne]
    rfl
  · intro hslash
    have hdigit := Str.isAsciiDigit_of_mem_ofNat (List.getLast_mem hne)
    rw [hslash] at hdigit
    revert hdigit
    decide

/-- The rewrite rules see the same request before and after the DNS overrides. -/
theorem fromRequest_dns (origin : HttpsOrigin) (req : IncomingRequest) (body : Bytes) (overrides : DnsOverrides) :
    MatchTarget.fromRequest (DnsOverride.onRequest overrides (context engine origin req body)).1 =
      MatchTarget.fromRequest (context engine origin req body) := by
  obtain ⟨c, hlast, hc⟩ := getLast?_authority origin.host origin.port
  have htrim : (destination origin).trimEndMatches '/' = destination origin := by
    apply Str.trimEndMatches_of_last
    unfold destination
    rw [List.getLast?_append, hlast]
    exact fun h => hc (Option.some.inj h)
  have huri : (context engine origin req body).uri =
      ("https" : Str) ++ ("://" : Str) ++
        (origin.host ++ ':' :: Str.ofNat origin.port ++ req.uri.pathAndQuery.getD "/") := by
    show (destination origin).trimEndMatches '/' ++ req.uri.pathAndQuery.getD "/" = _
    rw [htrim]
    unfold destination
    rw [List.append_assoc]
  have hframe := DnsOverride.onRequest_frame overrides (context engine origin req body)
  apply MatchTarget.fromRequest_congr (by decide) huri
  · rw [hframe]
  · rw [hframe]
  · rw [hframe]

/-- With no new host and no override, the request goes to the origin unless it is for `*`. -/
theorem schemeAndPort_origin (origin : HttpsOrigin) (req : IncomingRequest) {ctx' : RequestContext}
    (h : ctx'.destination = some (destination origin)) :
    Url.textSchemeAndPort (upstreamUrl parse ctx' req.uri req.uri.display) = some (("https" : Str), some origin.port) ↔
      Wire.upstreamPath req.uri req.uri.display ≠ "*" := by
  obtain ⟨c, hlast, hc⟩ := getLast?_authority origin.host origin.port
  rw [schemeAndPort_of_https parse h hlast hc]
  constructor
  · intro hread hstar
    have hport := congrArg Prod.snd (Option.some.inj hread)
    have hauthority : Url.authorityIn (origin.host ++ ':' :: Str.ofNat origin.port ++ ("*" : Str)) =
        origin.host ++ ':' :: (Str.ofNat origin.port ++ ['*']) := by
      rw [Url.authorityIn_append (endsAuthority_authority origin), List.append_assoc, List.cons_append]
      rfl
    rw [hstar, hauthority] at hport
    rw [Url.portIn_ofNat_append (by decide) (by decide) (by decide)] at hport
    cases hport
  · intro hpath
    rw [authorityIn_upstreamPath (endsAuthority_authority origin) hpath, Url.portIn_ofNat origin.port_le]

/-- With no new host and an override, the request goes to the scheme and port which the Host header spells. -/
theorem schemeAndPort_override (origin : HttpsOrigin) (req : IncomingRequest) {ctx' : RequestContext}
    {entry : DnsEntry} {port : Str}
    (h : ctx'.destination =
      some (DnsOverride.scheme port ++ ("://" : Str) ++ DnsOverride.newHost entry port)) :
    Url.textSchemeAndPort (upstreamUrl parse ctx' req.uri req.uri.display) = some (("https" : Str), some origin.port) ↔
      port = ("443" : Str) ∧ overridePort entry req = some origin.port := by
  unfold DnsOverride.scheme at h
  by_cases hport : port = ("443" : Str)
  · rw [if_pos hport, hport] at h
    obtain ⟨c, hlast, hc⟩ := getLast?_authority entry.ip 443
    have hread := schemeAndPort_of_https parse h hlast hc req.uri req.uri.display
    have hauthority : DnsOverride.newHost entry "443" ++ Wire.upstreamPath req.uri req.uri.display =
        entry.ip ++ ':' :: (("443" : Str) ++ Wire.upstreamPath req.uri req.uri.display) := by
      show entry.ip ++ ':' :: ("443" : Str) ++ _ = _
      rw [List.append_assoc, List.cons_append]
    rw [hauthority] at hread
    rw [hread]
    unfold overridePort
    simp [hport]
  · rw [if_neg hport] at h
    constructor
    · exact fun hread => absurd hread (not_https_of_http parse h _ _ _)
    · exact fun hboth => absurd hboth.1 hport

/-- The URL that is sent stays with the origin exactly under `KeepsOrigin`. -/
theorem staysWithOrigin_iff (origin : HttpsOrigin) (req : IncomingRequest) (body : Bytes) (rules : RoutingRules)
    {ctx' : RequestContext}
    (hrun : MiddlewareChain.executeRequest (rules.chain regex) (context engine origin req body) = (ctx', .proceed))
    (hmap : MapRemote.matching regex rules.mapRemote (context engine origin req body) = none) :
    StaysWithOrigin regex parse engine origin req body rules ctx' ↔ KeepsOrigin regex engine origin req body rules := by
  -- a DNS override edits no field a Location looks at, so the rules after it match as before
  have htarget := fromRequest_dns engine origin req body rules.dns
  have hmap' : MapRemote.matching regex rules.mapRemote
      (DnsOverride.onRequest rules.dns (context engine origin req body)).1 = none := by
    unfold MapRemote.matching at hmap ⊢
    rw [htarget]
    exact hmap
  have happlying : applying regex rules.rewrite (DnsOverride.onRequest rules.dns (context engine origin req body)).1 =
      applying regex rules.rewrite (context engine origin req body) := by
    unfold applying
    rw [htarget]
  have hrewrite := RoutingRules.rewrite_of_proceed hrun hmap'
  unfold onRequest at hrewrite
  rw [happlying] at hrewrite
  have hdestination := requestLoop_destination regex hrewrite
  -- a rewritten host clears the destination, and with it the scheme of the tunnel
  by_cases hnew : newHosts (applying regex rules.rewrite (context engine origin req body)) = []
  · rw [if_pos hnew] at hdestination
    have hport : expectedPort origin (newHosts (applying regex rules.rewrite (context engine origin req body))) =
        origin.port := by
      rw [hnew]
      rfl
    unfold StaysWithOrigin
    rw [hport]
    cases hlookup : DnsOverride.lookup rules.dns (requestHost req) with
    | none =>
      have hdns : (DnsOverride.onRequest rules.dns (context engine origin req body)).1.destination =
          some (destination origin) := by
        rw [DnsOverride.onRequest_of_none hlookup]
        rfl
      rw [schemeAndPort_origin parse origin req (hdestination.trans hdns)]
      constructor
      · intro hpath
        exact ⟨hnew, fun _ => hpath, fun entry hentry => by rw [hlookup] at hentry; cases hentry⟩
      · exact fun hkeeps => hkeeps.no_override hlookup
    | some entry =>
      have hdns : (DnsOverride.onRequest rules.dns (context engine origin req body)).1.destination =
          some (DnsOverride.scheme (DnsOverride.splitHost (requestHost req)).2 ++ ("://" : Str) ++
            DnsOverride.newHost entry (DnsOverride.splitHost (requestHost req)).2) :=
        DnsOverride.onRequest_of_some hlookup
      rw [schemeAndPort_override parse origin req (hdestination.trans hdns)]
      constructor
      · intro hboth
        refine ⟨hnew, fun hnone => ?_, fun entry' hentry => ?_⟩
        · rw [hlookup] at hnone
          cases hnone
        · rw [hlookup] at hentry
          cases hentry
          exact hboth
      · exact fun hkeeps => hkeeps.same_port entry hlookup
  · rw [if_neg hnew] at hdestination
    constructor
    · exact fun hstays => absurd hstays (not_https_of_destination_none parse hdestination _ _ _)
    · exact fun hkeeps => absurd hkeeps.no_new_host hnew

/-! ### An override for the host of an intercepted request -/

private def bankOrigin : HttpsOrigin := { host := "bank.test", port := 443 }

private def bankRequest : IncomingRequest :=
  { IncomingRequest.plain with
    uri := { Http.Uri.root with rawPathAndQuery := "/account", path_start := by decide }
    headers := [("host", Str.toUtf8 "bank.test")]
    headers_wf := by decide }

private def bankEngine : ProxyEngine := ⟨10485760, 524288, 8080, "127.0.0.1", [], none⟩

private def bankOverride : RoutingRules :=
  { RoutingRules.empty with dns := IndexMap.empty.insert "bank.test" ⟨"10.0.0.1", true⟩ }

/-- The Host header of a browser leaves the port 443 out: the request goes to `http://10.0.0.1/account`. -/
theorem not_staysWithOrigin :
    ∃ ctx', MiddlewareChain.executeRequest (bankOverride.chain fun _ => none)
        (context bankEngine bankOrigin bankRequest []) = (ctx', .proceed) ∧
      MapRemote.matching (fun _ => none) bankOverride.mapRemote (context bankEngine bankOrigin bankRequest []) = none ∧
      ¬ StaysWithOrigin (fun _ => none) (fun _ => none) bankEngine bankOrigin bankRequest [] bankOverride ctx' := by
  refine ⟨_, Prod.ext rfl (by decide), rfl, ?_⟩
  unfold StaysWithOrigin
  decide

theorem staysWithOrigin_iff_bank :
    StaysWithOrigin (fun _ => none) (fun _ => none) bankEngine bankOrigin bankRequest [] RoutingRules.empty
        (context bankEngine bankOrigin bankRequest []) ↔
      KeepsOrigin (fun _ => none) bankEngine bankOrigin bankRequest [] RoutingRules.empty :=
  staysWithOrigin_iff _ _ _ _ _ _ _ rfl rfl

end InterceptedOrigin

end Oproxy
