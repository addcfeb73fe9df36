import Oproxy.Engine.Routing
import Oproxy.Middleware.Plugins.Breakpoints
import Oproxy.Middleware.Plugins.LuaEngine
import Oproxy.Middleware.Plugins.MapLocal
import Oproxy.Middleware.Plugins.Mock

/-!
# The production chain (`runtime/state.rs`)

The plugins which rules, scripts and breakpoints drive, in the order in which the proxy registers them.  With
nothing enabled the chain lets every request and every response pass as it is.
-/

namespace Oproxy

/-- What the plugins use of the world outside: the regular expressions, the files, the Lua interpreter and the
operator at the breakpoints. -/
structure Surroundings where
  regex : RegexEngine
  fs : FileSystem
  dirs : MapLocal.Dirs
  decodeBase64 : Str → Option Bytes
  vm : LuaVm
  onPausedRequest : RequestContext → BreakpointAnswer
  onPausedResponse : ResponseContext → BreakpointAnswer
  freshId : Str

/-- A machine without files, scripts or operator. -/
def Surroundings.bare : Surroundings where
  regex := fun _ => none
  fs := ⟨fun _ => false, fun _ => false, fun _ => false, fun _ => .error [], fun _ => none⟩
  dirs := ⟨none, none⟩
  decodeBase64 := fun _ => none
  vm := ⟨fun _ _ _ _ _ => none, fun _ _ _ _ => none⟩
  onPausedRequest := fun _ => .timedOut
  onPausedResponse := fun _ => .timedOut
  freshId := "id"

structure ProductionRules where
  routing : RoutingRules
  breakpoints : List BreakpointRule
  mapLocal : List MapLocalRule
  mocks : List MockRule
  scripts : List LuaScript

namespace ProductionRules

variable (world : Surroundings) (rules : ProductionRules)

def chain : List Middleware :=
  rules.routing.chain world.regex ++
    [Breakpoints.middleware world.regex rules.breakpoints world.onPausedRequest world.onPausedResponse world.freshId,
     MapLocal.middleware world.fs world.regex world.dirs rules.mapLocal,
     Mock.middleware world.regex world.decodeBase64 rules.mocks,
     LuaEngine.middleware world.vm rules.scripts]

/-- No rule, override, breakpoint, fixture, mock or script is enabled. -/
structure NothingEnabled : Prop where
  access : ∀ r ∈ rules.routing.access, r.enabled = false
  dns : ∀ host entry, rules.routing.dns.get? host = some entry → entry.enabled = false
  mapRemote : ∀ r ∈ rules.routing.mapRemote, r.enabled = false
  rewrite : ∀ r ∈ rules.routing.rewrite, r.enabled = false
  breakpoints : ∀ r ∈ rules.breakpoints, r.enabled = false
  mapLocal : ∀ r ∈ rules.mapLocal, r.enabled = false
  mocks : ∀ r ∈ rules.mocks, r.enabled = false
  scripts : ∀ s ∈ rules.scripts, s.enabled = false

def empty : ProductionRules := ⟨RoutingRules.empty, [], [], [], []⟩

theorem nothingEnabled_empty : empty.NothingEnabled := by
  constructor <;> simp [empty, RoutingRules.empty]

private theorem filter_enabled_eq_nil {α : Type} {enabled : α → Bool} {rules : List α}
    (h : ∀ r ∈ rules, enabled r = false) : rules.filter enabled = [] := by
  rw [List.filter_eq_nil_iff]
  intro r hr
  simp [h r hr]

private theorem firstMatch_eq_none {regex : RegexEngine} {rules : List BreakpointRule}
    (h : ∀ r ∈ rules, r.enabled = false) (bpType : BreakpointType) (target : MatchTarget) :
    Breakpoints.firstMatch regex rules bpType target = none := by
  unfold Breakpoints.firstMatch
  rw [List.find?_eq_none]
  intro r hr
  simp [h r hr]

private theorem applying_eq_nil {regex : RegexEngine} {rules : List RewriteRuleSet}
    (h : ∀ r ∈ rules, r.enabled = false) (ctx : RequestContext) : UnifiedRewrite.applying regex rules ctx = [] := by
  unfold UnifiedRewrite.applying
  rw [List.filter_eq_nil_iff]
  intro r hr
  simp [UnifiedRewrite.appliesToRequest, h r hr]

variable {world rules}

/-! ### Plugins without an enabled rule -/

namespace NothingEnabled

variable (h : rules.NothingEnabled)
include h

theorem accessControl (ctx : RequestContext) :
    AccessControl.onRequest world.regex rules.routing.access ctx = (ctx, .proceed) := by
  unfold AccessControl.onRequest
  rw [filter_enabled_eq_nil h.access]
  rfl

theorem dnsOverride (ctx : RequestContext) : DnsOverride.onRequest rules.routing.dns ctx = (ctx, .proceed) := by
  have hlookup : DnsOverride.lookup rules.routing.dns ctx.host = none := by
    unfold DnsOverride.lookup
    cases hget : rules.routing.dns.get? (DnsOverride.splitHost ctx.host).1 with
    | none => rfl
    | some entry => simp [Option.filter, h.dns _ entry hget]
  exact DnsOverride.onRequest_of_none hlookup

theorem mapRemoteRules (ctx : RequestContext) :
    MapRemote.onRequest world.regex rules.routing.mapRemote ctx = (ctx, .proceed) := by
  unfold MapRemote.onRequest MapRemote.matching
  rw [filter_enabled_eq_nil h.mapRemote]
  rfl

theorem rewriteRequest (ctx : RequestContext) :
    UnifiedRewrite.onRequest world.regex rules.routing.rewrite ctx = (ctx, .proceed) := by
  unfold UnifiedRewrite.onRequest
  rw [applying_eq_nil h.rewrite]
  rfl

theorem firstBreakpoint (bpType : BreakpointType) (target : MatchTarget) :
    Breakpoints.firstMatch world.regex rules.breakpoints bpType target = none :=
    firstMatch_eq_none h.breakpoints bpType target

theorem pauseRequest (ctx : RequestContext) :
    Breakpoints.onRequest world.regex rules.breakpoints world.onPausedRequest world.freshId ctx = (ctx, .proceed) := by
  unfold Breakpoints.onRequest
  rw [h.firstBreakpoint]

theorem mapLocalRules (ctx : RequestContext) :
    MapLocal.onRequest world.fs world.regex world.dirs rules.mapLocal ctx = (ctx, .proceed) := by
  unfold MapLocal.onRequest
  rw [filter_enabled_eq_nil h.mapLocal]
  rfl

theorem mockRules (ctx : RequestContext) :
    Mock.onRequest world.regex world.decodeBase64 rules.mocks ctx = (ctx, .proceed) := by
  unfold Mock.onRequest Mock.serve
  rw [filter_enabled_eq_nil h.mocks]
  rfl

theorem scriptRequest (ctx : RequestContext) : LuaEngine.onRequest world.vm rules.scripts ctx = (ctx, .proceed) := by
  unfold LuaEngine.onRequest
  rw [filter_enabled_eq_nil h.scripts]
  rfl

theorem scriptResponse (ctx : ResponseContext) : LuaEngine.onResponse world.vm rules.scripts ctx = (ctx, .proceed) := by
  unfold LuaEngine.onResponse
  rw [filter_enabled_eq_nil h.scripts]
  rfl

theorem pauseResponse (ctx : ResponseContext) :
    Breakpoints.onResponse world.regex rules.breakpoints world.onPausedResponse ctx = (ctx, .proceed) := by
  unfold Breakpoints.onResponse
  rw [h.firstBreakpoint]

theorem rewriteResponse (ctx : ResponseContext) :
    UnifiedRewrite.onResponse world.regex rules.routing.rewrite ctx = (ctx, .proceed) := by
  have hnone : rules.routing.rewrite.filter
      (UnifiedRewrite.appliesToResponse world.regex (MatchTarget.fromResponse ctx)) = [] := by
    rw [List.filter_eq_nil_iff]
    intro r hr
    simp [UnifiedRewrite.appliesToResponse, h.rewrite r hr]
  unfold UnifiedRewrite.onResponse
  rw [hnone]
  rfl

end NothingEnabled

theorem executeRequest_of_nothingEnabled (h : rules.NothingEnabled) (ctx : RequestContext) :
    MiddlewareChain.executeRequest (rules.chain world) ctx = (ctx, .proceed) := by
  unfold MiddlewareChain.executeRequest chain RoutingRules.chain
  simp only [List.cons_append, List.nil_append, List.map_cons, List.map_nil, MiddlewareChain.execute,
    AccessControl.middleware, DnsOverride.middleware, MapRemote.middleware, UnifiedRewrite.middleware,
    Breakpoints.middleware, MapLocal.middleware, Mock.middleware, LuaEngine.middleware, h.accessControl, h.dnsOverride,
    h.mapRemoteRules, h.rewriteRequest, h.pauseRequest, h.mapLocalRules, h.mockRules, h.scriptRequest]

/-- The order of the response side: scripts, breakpoints, rewrite rules. -/
theorem executeResponse_chain (rules : ProductionRules) (ctx : ResponseContext) :
    MiddlewareChain.executeResponse (rules.chain world) ctx =
      MiddlewareChain.execute [LuaEngine.onResponse world.vm rules.scripts,
        Breakpoints.onResponse world.regex rules.breakpoints world.onPausedResponse,
        UnifiedRewrite.onResponse world.regex rules.routing.rewrite] ctx := by
  unfold MiddlewareChain.executeResponse chain RoutingRules.chain
  simp only [List.cons_append, List.nil_append, List.reverse_cons, List.reverse_nil, List.map_cons, List.map_nil,
    MiddlewareChain.execute, AccessControl.middleware, DnsOverride.middleware, MapRemote.middleware,
    UnifiedRewrite.middleware, Breakpoints.middleware, MapLocal.middleware, Mock.middleware, LuaEngine.middleware]

theorem executeResponse_of_nothingEnabled (h : rules.NothingEnabled) (ctx : ResponseContext) :
    MiddlewareChain.executeResponse (rules.chain world) ctx = (ctx, .proceed) := by
  rw [executeResponse_chain]
  simp only [MiddlewareChain.execute, h.scriptResponse, h.pauseResponse, h.rewriteResponse]

end ProductionRules

end Oproxy
