import Oproxy.Middleware.Chain
import Oproxy.Middleware.Matcher

/-!
# Access control (`middleware/plugins/access_control.rs`)

Block rules answer 403 to every request they match; once there are Allow rules, a request must match one of them.
-/

namespace Oproxy

inductive AccessAction where
  | block | allow
  deriving DecidableEq

structure AccessRule where
  id : Str
  name : Str
  enabled : Bool
  location : Location
  action : AccessAction

namespace AccessControl

def blockResponse (status : Nat) : InterceptedResponse where
  status := status
  headers := HeaderMap.fromIter [("Content-Type", "text/plain")]
  body := Str.toUtf8 "Blocked by access control rule"
  tags := ["access-blocked"]
  servedMock := none

private def blocked (ctx : RequestContext) : RequestContext × MiddlewareAction :=
  ({ ctx with mockResponse := some (blockResponse 403) }, .stopAndReturn)

def onRequest (regex : RegexEngine) (rules : List AccessRule) (ctx : RequestContext) :
    RequestContext × MiddlewareAction :=
  let enabled := rules.filter AccessRule.enabled
  if enabled.isEmpty then (ctx, .proceed)
  else
    let target := MatchTarget.fromRequest ctx
    if (enabled.filter fun r => r.action = .block).any fun r => r.location.matchesTarget regex target then blocked ctx
    else
      let allowRules := enabled.filter fun r => r.action = .allow
      if !allowRules.isEmpty && !allowRules.any fun r => r.location.matchesTarget regex target then blocked ctx
      else (ctx, .proceed)

def middleware (regex : RegexEngine) (rules : List AccessRule) : Middleware where
  onRequest := onRequest regex rules

/-- A request which goes on is the one that came in; any other gets the 403. -/
theorem onRequest_cases (regex : RegexEngine) (rules : List AccessRule) (ctx : RequestContext) :
    onRequest regex rules ctx = (ctx, .proceed) ∨
      onRequest regex rules ctx = ({ ctx with mockResponse := some (blockResponse 403) }, .stopAndReturn) := by
  unfold onRequest
  dsimp only
  split
  · exact Or.inl rfl
  · split
    · exact Or.inr rfl
    · split
      · exact Or.inr rfl
      · exact Or.inl rfl

/-- An enabled Block rule whose location matches stops the request. -/
theorem onRequest_of_block {regex : RegexEngine} {rules : List AccessRule} {rule : AccessRule} {ctx : RequestContext}
    (hmem : rule ∈ rules) (henabled : rule.enabled = true) (hblock : rule.action = .block)
    (hmatch : rule.location.matchesTarget regex (MatchTarget.fromRequest ctx) = true) :
    onRequest regex rules ctx = ({ ctx with mockResponse := some (blockResponse 403) }, .stopAndReturn) := by
  have hin : rule ∈ rules.filter AccessRule.enabled := List.mem_filter.2 ⟨hmem, henabled⟩
  have hne : (rules.filter AccessRule.enabled).isEmpty = false := by
    rw [List.isEmpty_eq_false_iff]
    exact List.ne_nil_of_mem hin
  have hany : ((rules.filter AccessRule.enabled).filter fun r => r.action = .block).any
      (fun r => r.location.matchesTarget regex (MatchTarget.fromRequest ctx)) = true := by
    rw [List.any_eq_true]
    exact ⟨rule, List.mem_filter.2 ⟨hin, by simpa using hblock⟩, hmatch⟩
  unfold onRequest
  simp only [hne, hany, Bool.false_eq_true, if_false, if_true]
  rfl

end AccessControl

end Oproxy
