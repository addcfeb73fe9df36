import Oproxy.Engine.Upstream
import Oproxy.Middleware.Plugins.AccessControl
import Oproxy.Middleware.Plugins.DnsOverride
import Oproxy.Middleware.Plugins.MapRemote
import Oproxy.Middleware.Plugins.Rules

/-!
# Routing

The part of the production chain which decides where a request goes, in its order: access control, DNS overrides,
Map Remote, rewrite rules.
-/

namespace Oproxy

/-- The rules which decide where a request goes. -/
structure RoutingRules where
  access : List AccessRule
  dns : DnsOverrides
  mapRemote : List MapRemoteRule
  rewrite : List RewriteRuleSet

/-- The part of the production chain which decides where a request goes. -/
def RoutingRules.chain (regex : RegexEngine) (rules : RoutingRules) : List Middleware :=
  [AccessControl.middleware regex rules.access, DnsOverride.middleware rules.dns,
   MapRemote.middleware regex rules.mapRemote, UnifiedRewrite.middleware regex rules.rewrite]

def RoutingRules.empty : RoutingRules := ⟨[], IndexMap.empty, [], []⟩

namespace RoutingRules

variable {regex : RegexEngine} {rules : RoutingRules} {ctx ctx' : RequestContext}

/-- A request which passes the chain has passed access control. -/
theorem accessControl_of_proceed (h : MiddlewareChain.executeRequest (rules.chain regex) ctx = (ctx', .proceed)) :
    AccessControl.onRequest regex rules.access ctx = (ctx, .proceed) := by
  rcases AccessControl.onRequest_cases regex rules.access ctx with hcase | hcase
  · exact hcase
  · unfold MiddlewareChain.executeRequest chain at h
    simp only [List.map_cons, MiddlewareChain.execute, AccessControl.middleware, hcase] at h
    cases h

/-- Where no Map Remote rule matches, a request which passes the chain has gone through the DNS overrides and the
rewrite rules. -/
theorem rewrite_of_proceed (h : MiddlewareChain.executeRequest (rules.chain regex) ctx = (ctx', .proceed))
    (hmap : MapRemote.matching regex rules.mapRemote (DnsOverride.onRequest rules.dns ctx).1 = none) :
    UnifiedRewrite.onRequest regex rules.rewrite (DnsOverride.onRequest rules.dns ctx).1 = (ctx', .proceed) := by
  have haccess := accessControl_of_proceed h
  have hdns : DnsOverride.onRequest rules.dns ctx = ((DnsOverride.onRequest rules.dns ctx).1, .proceed) :=
    Prod.ext rfl (DnsOverride.onRequest_proceeds rules.dns ctx)
  have hremote : MapRemote.onRequest regex rules.mapRemote (DnsOverride.onRequest rules.dns ctx).1 =
      ((DnsOverride.onRequest rules.dns ctx).1, .proceed) := by
    unfold MapRemote.onRequest
    rw [hmap]
  unfold MiddlewareChain.executeRequest chain at h
  simp only [List.map_cons, List.map_nil, MiddlewareChain.execute, AccessControl.middleware, DnsOverride.middleware,
    MapRemote.middleware, UnifiedRewrite.middleware, haccess] at h
  rw [hdns] at h
  simp only [hremote] at h
  cases hlast : UnifiedRewrite.onRequest regex rules.rewrite (DnsOverride.onRequest rules.dns ctx).1 with
  | mk last action =>
    rw [hlast] at h
    cases action with
    | proceed => exact h
    | stopAndReturn => cases h

end RoutingRules

end Oproxy
