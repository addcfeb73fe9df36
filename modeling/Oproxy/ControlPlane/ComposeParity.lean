import Oproxy.ControlPlane.Forward

/-!
# What Compose sends and what the proxy would send (`control_plane/forward.rs`)

With the rules applied, Compose takes the URL and the fields from the context which the chain has left, as the engine
does, but the method and the body from the request it was called with.  So the two agree exactly where the chain has
left method and body alone and no empty body has a declared length.
-/

namespace Oproxy

namespace Forward

/-- A Compose request which the rules let through to the client library: `after` is what the chain has left, and
`sent` with `upstream` what the engine makes of it. -/
structure ReachesClient (world : ComposeWorld) (req : ForwardReq) (url : Url) (after : Recording) (uri : Http.Uri)
    (sent : RequestContext) (upstream : PreparedUpstream) : Prop where
  kind : req.kind = .http
  rules : req.applyProxyRules = true
  valid : validate world req = .ok url
  continues : world.rules.run world.recording (requestContext world req url) = (after, .proceed)
  parsed : world.parseUri req.url = .ok uri
  target : world.engine.prepareUpstream (fun text => (world.parse text).toOption) after.ctx uri req.url =
    (sent, .ok upstream)
  egress : ∀ resolved, world.parse upstream.url = .ok resolved → checkEgress world 1 resolved = .ok ()

variable {world : ComposeWorld} {req : ForwardReq} {url : Url} {after : Recording} {uri : Http.Uri}
  {sent : RequestContext} {upstream : PreparedUpstream}

theorem resolveTarget_of_reachesClient (h : ReachesClient world req url after uri sent upstream) :
    resolveTarget world req url = (after.ops, .handed (some (buildRequest req upstream.url upstream.headers))) := by
  unfold resolveTarget
  simp only [h.rules, if_true, RecordingRules.executeRequestMiddleware, h.continues, h.parsed, h.target]
  cases hparse : world.parse upstream.url with
  | error e => rfl
  | ok resolved =>
    simp only [h.egress resolved hparse]

/-- The engine's own body, which is attached where it is not empty or has a declared length, against that of
Compose. -/
private theorem body_eq_iff {sentBody body : Bytes} {declared : Bool} :
    (if !body.isEmpty then some body else none) =
        (if !sentBody.isEmpty || declared then some sentBody else none) ↔
      sentBody = body ∧ (sentBody = [] → declared = false) := by
  cases sentBody with
  | nil =>
    cases body with
    | nil => cases declared <;> simp
    | cons b body => cases declared <;> simp
  | cons s sentBody =>
    cases body with
    | nil => simp
    | cons b body =>
      simp only [List.isEmpty_cons, Bool.not_false, if_true, Bool.true_or, Option.some.injEq]
      constructor
      · intro heq
        exact ⟨heq.symm, fun hnil => absurd hnil (List.cons_ne_nil _ _)⟩
      · exact fun h => h.1.symm

/-- The request which Compose builds is that of the engine where method and body are. -/
theorem buildRequest_eq_clientRequest (hkind : req.kind = .http) :
    buildRequest req upstream.url upstream.headers = ProxyEngine.clientRequest sent upstream ↔
      upstream.method = req.method ∧ sent.body = bodyBytes req ∧
        (sent.body = [] → sent.headers.containsKey "content-length" = false) := by
  have hheaders : withGrpcContentType req upstream.headers = upstream.headers := by
    unfold withGrpcContentType
    rw [hkind]
    rfl
  have hbuilt : buildRequest req upstream.url upstream.headers =
      ⟨req.method, upstream.url, upstream.headers, if !(bodyBytes req).isEmpty then some (bodyBytes req)
        else none⟩ := by
    unfold buildRequest
    rw [hheaders, hkind]
    rfl
  rw [hbuilt]
  unfold ProxyEngine.clientRequest
  rw [ClientRequest.mk.injEq, body_eq_iff]
  constructor
  · rintro ⟨hmethod, -, -, hbody⟩
    exact ⟨hmethod.symm, hbody⟩
  · rintro ⟨hmethod, hbody⟩
    exact ⟨hmethod.symm, rfl, rfl, hbody⟩

theorem composesAlike_iff (h : ReachesClient world req url after uri sent upstream) :
    (resolveTarget world req url).2 = .handed (some (ProxyEngine.clientRequest sent upstream)) ↔
      after.ctx.method = req.method ∧ after.ctx.body = bodyBytes req ∧
        (after.ctx.body = [] → sent.headers.containsKey "content-length" = false) := by
  obtain ⟨-, hmethod, -, hbody⟩ := ProxyEngine.prepareUpstream_ok h.target
  rw [resolveTarget_of_reachesClient h, Resolution.handed.injEq, Option.some.injEq,
    buildRequest_eq_clientRequest h.kind, hmethod, hbody]

/-! ### A script which changes the body -/

private def apiUrl : Url := .ofHost "http" "api.test" "/" (Eq.refl true)

private def readApi (text : Str) : Except Str Url :=
  if text = ("http://api.test/" : Str) ∨ text = ("http://api.test" : Str) then .ok apiUrl
  else .error "relative URL without a base"

private def readApiUri (text : Str) : Except Str Http.Uri :=
  if text = ("http://api.test/" : Str) then .ok (.http "api.test" (by decide)) else .error "invalid uri character"

/-- The interpreter on a script which sets the body of the request. -/
private def settingBody : LuaVm where
  request code _ _ _ _ := if code = ("request.body = 'b'" : Str) then some ⟨none, some "b", none⟩ else none
  response _ _ _ _ := none

private def scriptedRecording : RecordingWorld where
  surroundings := { Surroundings.bare with vm := settingBody }
  lowercase := Str.toAsciiLowercase
  inspect _ := ⟨none, none, none⟩
  breakpointId := "bp"
  inspectionId := "inspection"
  responsePassId := "pass"

private def scriptedWorld (scripts : List LuaScript) : ComposeWorld where
  recording := scriptedRecording
  rules := ⟨⟨.disabled, []⟩, ⟨RoutingRules.empty, [], [], [], scripts⟩⟩
  engine := ⟨10485760, 524288, 8080, "127.0.0.1", [], none⟩
  policy := ⟨false⟩
  parse := readApi
  parseUri := readApiUri
  setScheme _ _ := none
  intoClientRequest _ := .error "URL scheme not supported"
  resolve _ _ _ := none
  addressText _ := []
  sessionId := "compose"
  send _ := .error ⟨"connection refused", 1⟩
  builderFailure := ⟨"builder error", 0⟩
  connect _ := .error "connection refused"
  view := ⟨fun _ => none, 0⟩
  frameTime _ := 0
  wsLatencyMs := 0

private def composed : ForwardReq := ⟨.http, "POST", "http://api.test/", IndexMap.empty, some "a", none, none, true⟩

private def bodyScript : LuaScript := ⟨"s1", "body", "request.body = 'b'", true⟩

private def apiUri : Http.Uri := .http "api.test" (by decide)

private def scriptedRun (scripts : List LuaScript) : Recording :=
  ((scriptedWorld scripts).rules.run scriptedRecording (requestContext (scriptedWorld scripts) composed apiUrl)).1

private def scriptedTarget (scripts : List LuaScript) : RequestContext × Except Refusal PreparedUpstream :=
  (scriptedWorld scripts).engine.prepareUpstream (fun text => (readApi text).toOption) (scriptedRun scripts).ctx apiUri
    composed.url

private theorem scripted_reaches {scripts : List LuaScript} {upstream : PreparedUpstream}
    (hcontinues : ((scriptedWorld scripts).rules.run scriptedRecording
      (requestContext (scriptedWorld scripts) composed apiUrl)).2 = .proceed)
    (htarget : (scriptedTarget scripts).2 = .ok upstream) :
    ReachesClient (scriptedWorld scripts) composed apiUrl (scriptedRun scripts) apiUri (scriptedTarget scripts).1
      upstream where
  kind := rfl
  rules := rfl
  valid := rfl
  continues := Prod.ext rfl hcontinues
  parsed := rfl
  target := Prod.ext rfl htarget
  egress := fun _ _ => rfl

/-- Without a script Compose sends what the proxy would send. -/
theorem composesAlike_plain : ∃ upstream,
    (resolveTarget (scriptedWorld []) composed apiUrl).2 =
      .handed (some (ProxyEngine.clientRequest (scriptedTarget []).1 upstream)) :=
  ⟨_, (composesAlike_iff (scripted_reaches rfl rfl)).2
    ⟨rfl, rfl, fun h => absurd h (by decide)⟩⟩

/-- The script has set the body to `b`, and Compose sends `a`. -/
theorem not_composesAlike : ∃ upstream,
    ReachesClient (scriptedWorld [bodyScript]) composed apiUrl (scriptedRun [bodyScript]) apiUri
      (scriptedTarget [bodyScript]).1 upstream ∧
      (resolveTarget (scriptedWorld [bodyScript]) composed apiUrl).2 ≠
        .handed (some (ProxyEngine.clientRequest (scriptedTarget [bodyScript]).1 upstream)) := by
  have hreaches := @scripted_reaches [bodyScript] _ rfl rfl
  refine ⟨_, hreaches, ?_⟩
  rw [resolveTarget_of_reachesClient hreaches]
  intro heq
  rw [Resolution.handed.injEq, Option.some.injEq, buildRequest_eq_clientRequest rfl] at heq
  have hbody : (scriptedTarget [bodyScript]).1.body = ([98] : Bytes) := rfl
  rw [hbody] at heq
  exact absurd heq.2.1 (by decide)

end Forward

end Oproxy
