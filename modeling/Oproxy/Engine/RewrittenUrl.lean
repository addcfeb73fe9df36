import Oproxy.Engine.Routing

/-!
# URL rewrites and the URL that is sent

The rewrite rules edit the URI in the request context.  The engine builds the upstream URL from the target of the
request as it came in, so that the edits do not reach it: the URL that is sent has the path and query of the edited
URI only where the edits together change nothing.
-/

namespace Oproxy

/-- The actions which edit the path or the query. -/
def RewriteAction.isUrlEdit : RewriteAction → Bool
  | setQueryParam _ _ => true
  | removeQueryParam _ => true
  | setPath _ _ => true
  | _ => false

/-- The actions which do nothing on the request side. -/
def RewriteAction.isResponseOnly : RewriteAction → Bool
  | setStatus _ => true
  | _ => false

namespace RewrittenUrl

open ProxyEngine UnifiedRewrite

variable (regex : RegexEngine) (parse : Str → Option Url) (engine : ProxyEngine)

/-- The path and the query which a URI names, in origin form or in absolute form. -/
def pathAndQueryOf (uri : Str) : Str × Str :=
  let target :=
    if uri.head? = some '/' then uri
    else
      match Str.splitOnceStr "://" uri with
      | some (_, rest) => rest.dropWhile fun c => c ≠ '/' && c ≠ '?'
      | none => uri
  let (path, query) := (Str.splitOnce '?' target).getD (target, [])
  (if path.isEmpty then "/" else path, query)

/-- What an action makes of the URI. -/
def editUri (uri : Str) : RewriteAction → Str
  | .setQueryParam name value => setQueryParam uri name value
  | .removeQueryParam name => removeQueryParam uri name
  | .setPath pattern replacement =>
    match regex pattern with
    | some r => UnifiedRewrite.setPathUri r uri replacement
    | none => uri
  | _ => uri

/-- What the rule sets make of the URI, one after the other. -/
def editedUri (rules : List RewriteRuleSet) (uri : Str) : Str :=
  (rules.flatMap RewriteRuleSet.actions).foldl (editUri regex) uri

/-- The request side of the rule sets edits URLs and does nothing else. -/
def OnlyUrlEdits (rules : List RewriteRuleSet) : Prop :=
  ∀ rule ∈ rules, rule.appliesTo ≠ .response → ∀ action ∈ rule.actions,
    action.isUrlEdit = true ∨ action.isResponseOnly = true

/-- The context of a request at the start of the chain. -/
def context (req : IncomingRequest) (mitmDestination : Option Str) (body : Bytes) : RequestContext :=
  requestContext (engine.buildRequestHead req mitmDestination) mitmDestination body

/-- After the chain has run, the URL that is sent has the path and query which the chain has left in the context. -/
def RewritesReachUpstream (req : IncomingRequest) (mitmDestination : Option Str) (body : Bytes)
    (rules : List RewriteRuleSet) : Prop :=
  ∀ ctx', MiddlewareChain.executeRequest ((RoutingRules.mk [] IndexMap.empty [] rules).chain regex)
      (context engine req mitmDestination body) = (ctx', .proceed) →
    pathAndQueryOf (upstreamUrl parse ctx' req.uri req.uri.display) = pathAndQueryOf ctx'.uri

/-- The edits leave the path and query at those of the request as it came in. -/
def NoNetEdit (req : IncomingRequest) (mitmDestination : Option Str) (body : Bytes) (rules : List RewriteRuleSet) :
    Prop :=
  pathAndQueryOf (editedUri regex (applying regex rules (context engine req mitmDestination body))
      (Wire.displayRequestUri req.uri mitmDestination (requestHost req))) =
    pathAndQueryOf (receivedUrl req mitmDestination)

/-! ### What URL edits do to the context -/

/-- The host and the destination stay, the URI is edited. -/
structure Edited (ctx : RequestContext) (uri : Str) (ctx' : RequestContext) : Prop where
  uri_eq : ctx'.uri = uri
  host_eq : ctx'.host = ctx.host
  destination_eq : ctx'.destination = ctx.destination

theorem applyRequestAction_edit (rule : RewriteRuleSet) (ctx : RequestContext) {action : RewriteAction}
    (h : action.isUrlEdit = true ∨ action.isResponseOnly = true) :
    ∃ ctx' summary, UnifiedRewrite.applyRequestAction regex rule ctx action = .next ctx' summary ∧
      Edited ctx (editUri regex ctx.uri action) ctx' := by
  cases action with
  | setQueryParam name value => exact ⟨_, _, rfl, rfl, rfl, rfl⟩
  | removeQueryParam name => exact ⟨_, _, rfl, rfl, rfl, rfl⟩
  | setStatus code => exact ⟨_, _, rfl, rfl, rfl, rfl⟩
  | setPath pattern replacement =>
    cases hr : regex pattern with
    | none => exact ⟨ctx, none, by simp [UnifiedRewrite.applyRequestAction, hr], by simp [editUri, hr], rfl, rfl⟩
    | some r =>
      refine ⟨{ ctx with uri := UnifiedRewrite.setPathUri r ctx.uri replacement, rewritten := true },
        some ("path changed" : Str), ?_, ?_, rfl, rfl⟩
      · simp only [UnifiedRewrite.applyRequestAction, hr]
      · simp only [editUri, hr]
  | setHeader name value => rcases h with h | h <;> cases h
  | appendHeader name value => rcases h with h | h <;> cases h
  | removeHeader name => rcases h with h | h <;> cases h
  | setHost value => rcases h with h | h <;> cases h
  | replaceBody pattern replacement => rcases h with h | h <;> cases h
  | redirect status location => rcases h with h | h <;> cases h
  | block status => rcases h with h | h <;> cases h

theorem applyRequestLoop_edit (rule : RewriteRuleSet) {actions : List RewriteAction}
    (h : ∀ action ∈ actions, action.isUrlEdit = true ∨ action.isResponseOnly = true) (ctx : RequestContext)
    (summaries : List Str) :
    ∃ ctx', UnifiedRewrite.applyRequestLoop regex rule actions ctx summaries = (ctx', none) ∧
      Edited ctx (actions.foldl (editUri regex) ctx.uri) ctx' := by
  induction actions generalizing ctx summaries with
  | nil =>
    unfold UnifiedRewrite.applyRequestLoop
    split
    · exact ⟨ctx, rfl, rfl, rfl, rfl⟩
    · exact ⟨_, rfl, rfl, rfl, rfl⟩
  | cons action actions ih =>
    obtain ⟨ctx₁, summary, hstep, h₁⟩ := applyRequestAction_edit regex rule ctx (h action List.mem_cons_self)
    obtain ⟨ctx₂, hrest, h₂⟩ :=
      ih (fun a ha => h a (List.mem_cons_of_mem _ ha)) ctx₁ (summaries ++ summary.toList)
    refine ⟨ctx₂, ?_, ?_, h₂.host_eq.trans h₁.host_eq, h₂.destination_eq.trans h₁.destination_eq⟩
    · unfold UnifiedRewrite.applyRequestLoop
      rw [hstep]
      exact hrest
    · rw [h₂.uri_eq, h₁.uri_eq, List.foldl_cons]

theorem requestLoop_edit {rules : List RewriteRuleSet}
    (h : ∀ rule ∈ rules, ∀ action ∈ rule.actions, action.isUrlEdit = true ∨ action.isResponseOnly = true)
    (ctx : RequestContext) :
    ∃ ctx', UnifiedRewrite.requestLoop regex rules ctx = (ctx', .proceed) ∧
      Edited ctx (editedUri regex rules ctx.uri) ctx' := by
  induction rules generalizing ctx with
  | nil => exact ⟨ctx, rfl, rfl, rfl, rfl⟩
  | cons rule rules ih =>
    obtain ⟨ctx₁, hrule, h₁⟩ := applyRequestLoop_edit regex rule (h rule List.mem_cons_self)
      (ctx.pushFlow (.ruleMatched .rewrite rule.id rule.name)) []
    obtain ⟨ctx₂, hrest, h₂⟩ := ih (fun r hr => h r (List.mem_cons_of_mem _ hr)) ctx₁
    refine ⟨ctx₂, ?_, ?_, h₂.host_eq.trans h₁.host_eq, h₂.destination_eq.trans h₁.destination_eq⟩
    · unfold UnifiedRewrite.requestLoop UnifiedRewrite.applyRequestActions
      rw [hrule]
      exact hrest
    · rw [h₂.uri_eq, h₁.uri_eq]
      unfold editedUri
      rw [List.flatMap_cons, List.foldl_append]
      rfl

/-- The run of the chain with URL edits alone. -/
theorem executeRequest_edit {rules : List RewriteRuleSet} (h : OnlyUrlEdits rules) (ctx : RequestContext) :
    ∃ ctx', MiddlewareChain.executeRequest ((RoutingRules.mk [] IndexMap.empty [] rules).chain regex) ctx =
        (ctx', .proceed) ∧
      Edited ctx (editedUri regex (applying regex rules ctx) ctx.uri) ctx' := by
  have hedits : ∀ rule ∈ applying regex rules ctx, ∀ action ∈ rule.actions,
      action.isUrlEdit = true ∨ action.isResponseOnly = true := by
    intro rule hrule
    obtain ⟨hmem, happlies⟩ := List.mem_filter.1 hrule
    unfold UnifiedRewrite.appliesToRequest at happlies
    rw [Bool.and_eq_true, Bool.and_eq_true, decide_eq_true_eq] at happlies
    exact h rule hmem happlies.1.2
  obtain ⟨ctx', hrun, hedited⟩ := requestLoop_edit regex hedits ctx
  refine ⟨ctx', ?_, hedited⟩
  have hrewrite : UnifiedRewrite.onRequest regex rules ctx = (ctx', .proceed) := hrun
  show MiddlewareChain.execute [AccessControl.onRequest regex [], DnsOverride.onRequest IndexMap.empty,
    MapRemote.onRequest regex [], UnifiedRewrite.onRequest regex rules] ctx = (ctx', .proceed)
  have haccess : AccessControl.onRequest regex [] ctx = (ctx, .proceed) := rfl
  have hdns : DnsOverride.onRequest IndexMap.empty ctx = (ctx, .proceed) := rfl
  have hmap : MapRemote.onRequest regex [] ctx = (ctx, .proceed) := rfl
  simp only [MiddlewareChain.execute, haccess, hdns, hmap, hrewrite]

/-- The URL that is sent follows the rewritten URI exactly when the edits together change nothing. -/
theorem rewritesReachUpstream_iff (req : IncomingRequest) (mitmDestination : Option Str) (body : Bytes)
    {rules : List RewriteRuleSet} (h : OnlyUrlEdits rules) :
    RewritesReachUpstream regex parse engine req mitmDestination body rules ↔
      NoNetEdit regex engine req mitmDestination body rules := by
  obtain ⟨ctx', hrun, hedited⟩ := executeRequest_edit regex h (context engine req mitmDestination body)
  have hurl : upstreamUrl parse ctx' req.uri req.uri.display = receivedUrl req mitmDestination :=
    upstreamUrl_eq_receivedUrl hedited.destination_eq hedited.host_eq
  have huri := hedited.uri_eq
  unfold RewritesReachUpstream NoNetEdit
  constructor
  · intro hreach
    have := hreach ctx' hrun
    rw [hurl, huri] at this
    exact this.symm
  · intro hnone ctx'' hrun'
    rw [hrun] at hrun'
    cases hrun'
    rw [hurl, huri]
    exact hnone.symm

/-! ### A rule which adds a query parameter -/

private def debugRule : RewriteRuleSet where
  id := "r1"
  name := "debug"
  enabled := true
  location := Location.default
  appliesTo := .request
  actions := [.setQueryParam "debug" "1"]

private def plainRequest : IncomingRequest :=
  { IncomingRequest.plain with uri := { Http.Uri.root with rawPathAndQuery := "/api", path_start := by decide } }

private def localEngine : ProxyEngine := ⟨10485760, 524288, 8080, "127.0.0.1", [], none⟩

/-- The context holds `http://api.test/api?debug=1`, the URL that is sent is `http://api.test/api`. -/
theorem not_rewritesReachUpstream :
    ¬ RewritesReachUpstream (fun _ => none) (fun _ => none) localEngine plainRequest none [] [debugRule] := by
  intro h
  have hpath := h _ (Prod.ext rfl (by decide))
  revert hpath
  decide

theorem rewritesReachUpstream_iff_debug :
    RewritesReachUpstream (fun _ => none) (fun _ => none) localEngine plainRequest none [] [debugRule] ↔
      NoNetEdit (fun _ => none) localEngine plainRequest none [] [debugRule] :=
  rewritesReachUpstream_iff _ _ _ plainRequest none [] (by
    intro rule hrule _ action haction
    rw [List.mem_singleton] at hrule
    subst hrule
    rw [show debugRule.actions = [.setQueryParam "debug" "1"] from rfl, List.mem_singleton] at haction
    subst haction
    exact Or.inl rfl)

end RewrittenUrl

end Oproxy
