import Oproxy.Middleware.Chain
import Oproxy.Middleware.Matcher
import Oproxy.Middleware.Query

/-!
# Rewrite rules (`middleware/plugins/rules.rs`)

A rule set couples a location with an ordered list of actions.  All enabled rule sets whose location matches are
applied, in order; a Block or a Redirect ends the request.
-/

namespace Oproxy

inductive AppliesTo where
  | request | response | both
  deriving DecidableEq

/-- A single transformation.  Patterns are compiled where they are used. -/
inductive RewriteAction where
  | setHeader (name value : Str)
  | appendHeader (name value : Str)
  | removeHeader (name : Str)
  | setQueryParam (name value : Str)
  | removeQueryParam (name : Str)
  | setHost (value : Str)
  | setPath (pattern replacement : Str)
  | setStatus (code : Nat)
  | replaceBody (pattern replacement : Str)
  | redirect (status : Nat) (location : Str)
  | block (status : Nat)

structure RewriteRuleSet where
  id : Str
  name : Str
  enabled : Bool
  location : Location
  appliesTo : AppliesTo
  actions : List RewriteAction

namespace UnifiedRewrite

variable (regex : RegexEngine)

/-! ### Requests -/

/-- The result of one action: the request goes on with a note for the trace, or it ends. -/
inductive RequestStep where
  | next (ctx : RequestContext) (summary : Option Str)
  | stop (ctx : RequestContext)

/-- The context after an action. -/
def RequestStep.context : RequestStep → RequestContext
  | .next ctx _ => ctx
  | .stop ctx => ctx

/-- The URI after a `SetPath`: the query stays, scheme and authority of an absolute URI are dropped. -/
def setPathUri (r : Regex) (uri replacement : Str) : Str :=
  let query := (splitPathQuery uri).2
  let newPath := r.replaceAll (pathOf uri) replacement
  if query.isEmpty then newPath else newPath ++ '?' :: query

private def shortCircuit (rule : RewriteRuleSet) (ctx : RequestContext) (reason : FlowShortCircuitReason)
    (status : Nat) (headers : HeaderMap) : RequestStep :=
  let ctx := { ctx with mockResponse := some ⟨status, headers, [], ["rewrite"], none⟩ }
  .stop (ctx.pushFlow (.shortCircuited reason status (some rule.id) (some rule.name)))

/-- One turn of the loop of `apply_request_actions`. -/
def applyRequestAction (rule : RewriteRuleSet) (ctx : RequestContext) : RewriteAction → RequestStep
  | .setHeader name value =>
    .next { ctx with headers := setHeader ctx.headers name value, rewritten := true }
      (some (("request header '" : Str) ++ name ++ ("' set" : Str)))
  | .appendHeader name value =>
    .next { ctx with headers := Oproxy.appendHeader ctx.headers name value, rewritten := true }
      (some (("request header '" : Str) ++ name ++ ("' appended" : Str)))
  | .removeHeader name =>
    .next { ctx with headers := Oproxy.removeHeader ctx.headers name, rewritten := true }
      (some (("request header '" : Str) ++ name ++ ("' removed" : Str)))
  | .setQueryParam name value =>
    .next { ctx with uri := Oproxy.setQueryParam ctx.uri name value, rewritten := true }
      (some (("query parameter '" : Str) ++ name ++ ("' set" : Str)))
  | .removeQueryParam name =>
    .next { ctx with uri := Oproxy.removeQueryParam ctx.uri name, rewritten := true }
      (some (("query parameter '" : Str) ++ name ++ ("' removed" : Str)))
  | .setHost value =>
    .next
      { ctx with
        host := value
        headers := setHeader ctx.headers "host" value
        destination := none
        rewritten := true }
      (some ("host changed" : Str))
  | .setPath pattern replacement =>
    match regex pattern with
    | some r =>
      .next { ctx with uri := setPathUri r ctx.uri replacement, rewritten := true } (some ("path changed" : Str))
    | none => .next ctx none
  | .replaceBody pattern replacement =>
    match regex pattern with
    | some r =>
      let text := ctx.bodyText
      let newBody := r.replaceAll text replacement
      if newBody ≠ text then
        let ctx := ctx.setBodyText newBody
        .next { ctx with headers := Oproxy.removeHeader ctx.headers "content-length", rewritten := true }
          (some ("request body changed" : Str))
      else .next ctx none
    | none => .next ctx none
  | .redirect status location =>
    shortCircuit rule ctx .rewriteRedirect status (HeaderMap.new.insert "Location" location)
  | .block status => shortCircuit rule ctx .rewriteBlock status HeaderMap.new
  | .setStatus _ => .next ctx none

/-- The loop of `apply_request_actions`, with the notes taken so far. -/
def applyRequestLoop (rule : RewriteRuleSet) : List RewriteAction → RequestContext → List Str →
    RequestContext × Option MiddlewareAction
  | [], ctx, summaries =>
    (if summaries.isEmpty then ctx
      else ctx.pushFlow (.ruleApplied .rewrite rule.id rule.name (List.intercalate ", " summaries)), none)
  | action :: actions, ctx, summaries =>
    match applyRequestAction regex rule ctx action with
    | .next ctx' summary => applyRequestLoop rule actions ctx' (summaries ++ summary.toList)
    | .stop ctx' => (ctx', some .stopAndReturn)

def applyRequestActions (rule : RewriteRuleSet) (ctx : RequestContext) : RequestContext × Option MiddlewareAction :=
  applyRequestLoop regex rule rule.actions ctx []

/-- An action that ends the request stops the chain. -/
theorem applyRequestLoop_stops {regex : RegexEngine} {rule : RewriteRuleSet} {actions : List RewriteAction}
    {ctx ctx' : RequestContext} {summaries : List Str} {action : MiddlewareAction}
    (h : applyRequestLoop regex rule actions ctx summaries = (ctx', some action)) : action = .stopAndReturn := by
  induction actions generalizing ctx summaries with
  | nil => cases h
  | cons first actions ih =>
    unfold applyRequestLoop at h
    cases hstep : applyRequestAction regex rule ctx first with
    | next ctx₁ summary => rw [hstep] at h; exact ih h
    | stop ctx₁ => rw [hstep] at h; cases h; rfl

/-- Whether a rule set applies to the request side of what `target` shows. -/
def appliesToRequest (target : MatchTarget) (rule : RewriteRuleSet) : Bool :=
  rule.enabled && rule.appliesTo ≠ .response && rule.location.matchesTarget regex target

/-- The loop over the rule sets which apply. -/
def requestLoop : List RewriteRuleSet → RequestContext → RequestContext × MiddlewareAction
  | [], ctx => (ctx, .proceed)
  | rule :: rules, ctx =>
    match applyRequestActions regex rule (ctx.pushFlow (.ruleMatched .rewrite rule.id rule.name)) with
    | (ctx', some action) => (ctx', action)
    | (ctx', none) => requestLoop rules ctx'

/-- The rule sets which apply to a request. -/
def applying (rules : List RewriteRuleSet) (ctx : RequestContext) : List RewriteRuleSet :=
  rules.filter (appliesToRequest regex (MatchTarget.fromRequest ctx))

def onRequest (rules : List RewriteRuleSet) (ctx : RequestContext) : RequestContext × MiddlewareAction :=
  requestLoop regex (applying regex rules ctx) ctx

/-- A property which the trace and every action keep is kept by the rules. -/
theorem onRequest_induction {regex : RegexEngine} {P : RequestContext → Prop}
    (hflow : ∀ ctx event, P ctx → P (ctx.pushFlow event))
    (haction : ∀ rule ctx action, P ctx → P (applyRequestAction regex rule ctx action).context)
    (rules : List RewriteRuleSet) {ctx : RequestContext} (h : P ctx) : P (onRequest regex rules ctx).1 := by
  have hactions : ∀ rule actions ctx summaries, P ctx → P (applyRequestLoop regex rule actions ctx summaries).1 := by
    intro rule actions
    induction actions with
    | nil =>
      intro ctx summaries h
      unfold applyRequestLoop
      split
      · exact h
      · exact hflow _ _ h
    | cons action actions ih =>
      intro ctx summaries h
      have hstep := haction rule ctx action h
      unfold applyRequestLoop
      cases hcase : applyRequestAction regex rule ctx action with
      | next ctx' summary =>
        rw [hcase] at hstep
        exact ih ctx' _ hstep
      | stop ctx' =>
        rw [hcase] at hstep
        exact hstep
  unfold onRequest
  generalize applying regex rules ctx = rules
  induction rules generalizing ctx with
  | nil => exact h
  | cons rule rules ih =>
    have hrule := hactions rule rule.actions _ [] (hflow ctx (.ruleMatched .rewrite rule.id rule.name) h)
    unfold requestLoop
    split
    · rename_i ctx' action hcase
      unfold applyRequestActions at hcase
      rw [hcase] at hrule
      exact hrule
    · rename_i ctx' hcase
      unfold applyRequestActions at hcase
      rw [hcase] at hrule
      exact ih hrule

/-- The rules leave what a context says of its session and of its protocol. -/
theorem onRequest_channel (regex : RegexEngine) (rules : List RewriteRuleSet) (ctx : RequestContext) :
    (onRequest regex rules ctx).1.sessionId = ctx.sessionId ∧
      (onRequest regex rules ctx).1.skipRecording = ctx.skipRecording ∧
      (onRequest regex rules ctx).1.protocolContext = ctx.protocolContext := by
  refine onRequest_induction (P := fun after => after.sessionId = ctx.sessionId ∧
    after.skipRecording = ctx.skipRecording ∧ after.protocolContext = ctx.protocolContext) ?_ ?_ rules ⟨rfl, rfl, rfl⟩
  · intro after event h
    exact h
  · intro rule after action h
    cases action with
    | setPath pattern replacement =>
      cases hregex : regex pattern with
      | none =>
        simp only [applyRequestAction, hregex]
        exact h
      | some r =>
        simp only [applyRequestAction, hregex]
        exact h
    | replaceBody pattern replacement =>
      cases hregex : regex pattern with
      | none =>
        simp only [applyRequestAction, hregex]
        exact h
      | some r =>
        by_cases hchanged : r.replaceAll after.bodyText replacement ≠ after.bodyText
        · simp only [applyRequestAction, hregex, if_pos hchanged]
          exact h
        · simp only [applyRequestAction, hregex, if_neg hchanged]
          exact h
    | setHeader name value => exact h
    | appendHeader name value => exact h
    | removeHeader name => exact h
    | setQueryParam name value => exact h
    | removeQueryParam name => exact h
    | setHost value => exact h
    | setStatus code => exact h
    | redirect status location => exact h
    | block status => exact h

/-! ### Responses -/

def pushTagOnce (tags : List Str) (tag : Str) : List Str := if tags.contains tag then tags else tags ++ [tag]

/-- One turn of the loop of `apply_response_actions`. -/
def applyResponseAction (ctx : ResponseContext) : RewriteAction → ResponseContext × Option Str
  | .setHeader name value =>
    ({ ctx with headers := setHeader ctx.headers name value, tags := pushTagOnce ctx.tags "rewrite" },
      some (("response header '" : Str) ++ name ++ ("' set" : Str)))
  | .appendHeader name value =>
    ({ ctx with headers := Oproxy.appendHeader ctx.headers name value, tags := pushTagOnce ctx.tags "rewrite" },
      some (("response header '" : Str) ++ name ++ ("' appended" : Str)))
  | .removeHeader name =>
    ({ ctx with headers := Oproxy.removeHeader ctx.headers name, tags := pushTagOnce ctx.tags "rewrite" },
      some (("response header '" : Str) ++ name ++ ("' removed" : Str)))
  | .setStatus code =>
    ({ ctx with status := code, tags := pushTagOnce ctx.tags "rewrite" },
      some (("status changed to " : Str) ++ Str.ofNat code))
  | .replaceBody pattern replacement =>
    match regex pattern with
    | some r =>
      let text := ctx.bodyText
      let newBody := r.replaceAll text replacement
      if newBody ≠ text then
        let ctx := ctx.setBodyText newBody
        ({ ctx with
            headers := Oproxy.removeHeader ctx.headers "content-length"
            tags := pushTagOnce ctx.tags "rewrite" }, some ("response body changed" : Str))
      else (ctx, none)
    | none => (ctx, none)
  | _ => (ctx, none)

def applyResponseLoop (rule : RewriteRuleSet) : List RewriteAction → ResponseContext → List Str → ResponseContext
  | [], ctx, summaries =>
    if summaries.isEmpty then ctx
    else ctx.pushFlow (.responseModified .rewrite rule.id rule.name (List.intercalate ", " summaries))
  | action :: actions, ctx, summaries =>
    let (ctx', summary) := applyResponseAction regex ctx action
    applyResponseLoop rule actions ctx' (summaries ++ summary.toList)

def applyResponseActions (rule : RewriteRuleSet) (ctx : ResponseContext) : ResponseContext :=
  applyResponseLoop regex rule rule.actions ctx []

def appliesToResponse (target : MatchTarget) (rule : RewriteRuleSet) : Bool :=
  rule.enabled && rule.appliesTo ≠ .request && rule.location.matchesTarget regex target

def responseLoop : List RewriteRuleSet → ResponseContext → ResponseContext
  | [], ctx => ctx
  | rule :: rules, ctx =>
    responseLoop rules (applyResponseActions regex rule (ctx.pushFlow (.ruleMatched .rewrite rule.id rule.name)))

def onResponse (rules : List RewriteRuleSet) (ctx : ResponseContext) : ResponseContext × MiddlewareAction :=
  (responseLoop regex (rules.filter (appliesToResponse regex (MatchTarget.fromResponse ctx))) ctx, .proceed)

def middleware (rules : List RewriteRuleSet) : Middleware where
  onRequest := onRequest regex rules
  onResponse := onResponse regex rules

end UnifiedRewrite

end Oproxy
