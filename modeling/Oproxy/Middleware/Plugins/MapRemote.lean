import Oproxy.Middleware.Chain
import Oproxy.Middleware.Matcher

/-!
# Map Remote (`middleware/plugins/map_remote.rs`)

The first enabled rule whose location matches sends the request to the rule's destination.
-/

namespace Oproxy

structure MapRemoteRule where
  id : Str
  name : Str
  enabled : Bool
  location : Location
  destination : Str

namespace MapRemote

/-- The rule which applies to a request. -/
def matching (regex : RegexEngine) (rules : List MapRemoteRule) (ctx : RequestContext) : Option MapRemoteRule :=
  (rules.filter MapRemoteRule.enabled).find? fun r => r.location.matchesTarget regex (MatchTarget.fromRequest ctx)

def onRequest (regex : RegexEngine) (rules : List MapRemoteRule) (ctx : RequestContext) :
    RequestContext × MiddlewareAction :=
  match matching regex rules ctx with
  | some rule =>
    let ctx := { ctx with destination := some rule.destination }
    let ctx := ctx.pushFlow (.ruleMatched .mapRemote rule.id rule.name)
    let ctx := ctx.pushFlow (.targetSelected .mapRemote rule.destination (some rule.id) (some rule.name))
    (ctx, .proceed)
  | none => (ctx, .proceed)

def middleware (regex : RegexEngine) (rules : List MapRemoteRule) : Middleware where
  onRequest := onRequest regex rules

/-- A rule leaves everything but the destination and the trace as it was. -/
theorem onRequest_frame (regex : RegexEngine) (rules : List MapRemoteRule) (ctx : RequestContext) :
    (onRequest regex rules ctx).1 =
      { ctx with
        destination := (onRequest regex rules ctx).1.destination
        flow := (onRequest regex rules ctx).1.flow } := by
  unfold onRequest
  split <;> rfl

end MapRemote

end Oproxy
