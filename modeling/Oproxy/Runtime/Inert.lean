import Oproxy.ControlPlane.ResourceRequests
import Oproxy.Engine.Acts
import Oproxy.Lib.Run
import Oproxy.Runtime.Restarts

/-!
# Before anything is enabled (`runtime/state.rs`, `examples.rs`)

What an installation does to traffic in which no rule, script, hook or filter is enabled.  Some middlewares are always
there, and look at requests and record them; nothing else is done.
-/

namespace Oproxy

open Persisted Mutations Assistant Machine Examples

namespace RecordingRules

variable {world : RecordingWorld} {rules : RecordingRules}

theorem admitted_of_nothingEnabled (h : rules.production.NothingEnabled) (hmode : rules.filter.mode = .disabled)
    (ctx : RequestContext) : rules.admitted world ctx = (ctx, .proceed) := by
  have hkept : rules.filter.shouldSkip world.lowercase ctx.host = false := by
    unfold CaptureFilterConfig.shouldSkip
    dsimp only
    rw [hmode]
  have hfilter : CaptureFilter.onRequest world.lowercase rules.filter ctx = (ctx, .proceed) := by
    rw [CaptureFilter.onRequest_eq, hkept, Bool.false_or]
  unfold admitted admission
  simp only [MiddlewareChain.execute, h.accessControl, hfilter, h.dnsOverride, h.mapRemoteRules, h.rewriteRequest]

theorem pause_of_nothingEnabled (h : rules.production.NothingEnabled) (ctx : RequestContext) :
    rules.pause world ctx = ((ctx, .proceed), []) := by
  have hfirst := @ProductionRules.NothingEnabled.firstBreakpoint world.surroundings rules.production h .request
    (MatchTarget.fromRequest ctx)
  unfold pause Breakpoints.recordedOnRequest Breakpoints.pauseOps
  rw [h.pauseRequest, hfirst]

theorem answered_of_nothingEnabled (h : rules.production.NothingEnabled) (ctx : RequestContext) :
    rules.answered world ctx = (ctx, .proceed) := by
  unfold answered answering
  simp only [MiddlewareChain.execute, h.mapLocalRules, h.mockRules, h.scriptRequest]

/-- What is left of the chain are the inspectors and the inspection. -/
theorem run_of_nothingEnabled (h : rules.production.NothingEnabled) (hmode : rules.filter.mode = .disabled)
    (ctx : RequestContext) :
    rules.run world ctx = (⟨(inspected world ctx).1.1, (inspected world ctx).2⟩, .proceed) := by
  have hpaused : rules.paused world ctx = (ctx, .proceed) := by
    unfold paused
    rw [pause_of_nothingEnabled h]
  rw [run_eq, admitted_of_nothingEnabled h hmode]
  dsimp only
  rw [hpaused]
  dsimp only
  rw [pause_of_nothingEnabled h, answered_of_nothingEnabled h]
  rfl

end RecordingRules

/-- The inspection takes the tags of a response. -/
theorem Inspection.onResponse_frame (view : StoreView) (ctx : ResponseContext) :
    ∃ tags, (Inspection.onResponse view ctx).1 = { ctx with tags := tags } := by
  unfold Inspection.onResponse
  split
  · exact ⟨ctx.tags, rfl⟩
  · dsimp only
    split
    · exact ⟨[], rfl⟩
    · split
      · exact ⟨[], rfl⟩
      · exact ⟨[], rfl⟩

theorem ProxyEngine.failureChain_of_nothingEnabled {world : EngineWorld} {rules : RecordingRules}
    (h : rules.production.NothingEnabled) (before : List WriteOp) (ctx : ResponseContext) :
    ∃ tags ops, MiddlewareChain.execute (failureChain world rules before) (ctx, []) =
      (({ ctx with tags := tags }, ops), .proceed) := by
  unfold failureChain
  simp only [MiddlewareChain.execute, h.scriptResponse, h.pauseResponse, h.rewriteResponse]
  obtain ⟨tags, hfirst⟩ := Inspection.onResponse_frame (world.view (before ++ [])) ctx
  rw [hfirst]
  obtain ⟨tags', hsecond⟩ := Inspection.onResponse_frame
    (world.view (before ++ ([] ++ (Inspection.onResponse (world.view (before ++ [])) ctx).2))) { ctx with tags := tags }
  rw [hsecond]
  exact ⟨tags', _, rfl⟩

namespace Restarts

variable {config : Configuration} {s : Installation}

/-- A value which has nothing enabled, and an upstream proxy which is none. -/
def DisabledValue : (r : Resource) → r.Value → Prop
  | .collection .accessRules, (rules : List AccessRule) => ∀ rule ∈ rules, rule.enabled = false
  | .collection .ruleSets, (rules : List RewriteRuleSet) => ∀ rule ∈ rules, rule.enabled = false
  | .collection .mapLocalRules, (rules : List MapLocalRule) => ∀ rule ∈ rules, rule.enabled = false
  | .collection .mapRemoteRules, (rules : List MapRemoteRule) => ∀ rule ∈ rules, rule.enabled = false
  | .collection .breakpoints, (rules : List BreakpointRule) => ∀ rule ∈ rules, rule.enabled = false
  | .collection .mockRules, (rules : List MockRule) => ∀ rule ∈ rules, rule.enabled = false
  | .collection .luaScripts, (scripts : List LuaScript) => ∀ script ∈ scripts, script.enabled = false
  | .collection .webhooks, (hooks : List WebhookConfig) => ∀ hook ∈ hooks, hook.enabled = false
  | .collection .dnsOverrides, (overrides : DnsOverrides) => ∀ entry ∈ overrides.entries, entry.2.enabled = false
  | .throttling, (config : ThrottlingConfig) => config.enabled = false
  | .captureFilter, (config : CaptureFilterConfig) => config.mode = .disabled
  | .upstreamProxy, (url : Option Str) => url = none

/-- The rules which are in memory. -/
def rulesOf (memory : Memory) : RecordingRules where
  filter := memory .captureFilter
  production :=
    { routing :=
        { access := memory (.collection .accessRules)
          dns := memory (.collection .dnsOverrides)
          mapRemote := memory (.collection .mapRemoteRules)
          rewrite := memory (.collection .ruleSets) }
      breakpoints := memory (.collection .breakpoints)
      mapLocal := memory (.collection .mapLocalRules)
      mocks := memory (.collection .mockRules)
      scripts := memory (.collection .luaScripts) }

/-- Nothing happens to traffic.  A request goes on with what the inspectors found and with a session, under which it is
recorded where it had none; a response goes on without the tags which its session gets.  No other upstream proxy is used
than the one of the configuration. -/
structure Inert (config : Configuration) (s : Installation) : Prop where
  requests : ∀ world ctx, ∃ inspector sessionId flow ops, (rulesOf s.memory).run world ctx =
    (⟨{ ctx with inspector := inspector, sessionId := sessionId, flow := flow }, ops⟩, .proceed)
  recorded : ∀ world ctx, recordedRequests ((rulesOf s.memory).run world ctx).1.ops =
    if Inspection.opens ctx then
      [(world.inspectionId, { Inspection.opened world.inspectionId ctx with
          headers := Inspection.stripInternalHeaders ctx.headers })]
    else []
  responses : ∀ world before ctx, ∃ tags ops,
    MiddlewareChain.execute (ProxyEngine.failureChain world (rulesOf s.memory) before) (ctx, []) =
      (({ ctx with tags := tags }, ops), .proceed)
  throttling : ThrottlingConfig.enabled (s.memory .throttling) = false
  webhooks : List.filter WebhookConfig.enabled (s.memory (.collection .webhooks)) = []
  proxy : s.memory .upstreamProxy = (none : Option Str) ∨ s.memory .upstreamProxy = config.upstreamProxy

/-- Files which enable nothing; some may be missing, or unreadable. -/
def DisabledFiles (files : Files) : Prop := ∀ r value, files r = .holds value → DisabledValue r value

/-- What a call changes has nothing enabled. -/
def CallDisabled {E : Type} (memory : Memory) : Call E → Prop
  | .mutates r m => ∀ value, m.edit (memory r) = .ok value → DisabledValue r value
  | _ => True

def Event.Disabled (s : Installation) : Event → Prop
  | .request env method path body => CallDisabled s.memory (Http.call env method path body)
  | .action env preconditions confirmed => CallDisabled s.memory (executeActionPayload env preconditions confirmed)
  | .served _ | .restart _ => True

/-- Nothing is enabled, in memory or in a file. -/
structure NothingOn (config : Configuration) (s : Installation) : Prop where
  files : DisabledFiles s.files
  memory : ∀ r, r ≠ .upstreamProxy → DisabledValue r (s.memory r)
  proxy : s.memory .upstreamProxy = (none : Option Str) ∨ s.memory .upstreamProxy = config.upstreamProxy

theorem disabled_examples : ∀ entry ∈ seeded, DisabledValue entry.1 entry.2 := by
  unfold seeded
  simp only [List.forall_mem_cons, List.not_mem_nil, false_implies, implies_true, and_true]
  have hrules : (∀ rule ∈ exampleRuleSets, rule.enabled = false) ∧
      (∀ rule ∈ exampleMapRemoteRules, rule.enabled = false) ∧ (∀ rule ∈ exampleMapLocalRules, rule.enabled = false) ∧
      (∀ rule ∈ exampleMockRules, rule.enabled = false) ∧ (∀ rule ∈ exampleAccessRules, rule.enabled = false) ∧
      (∀ entry ∈ exampleDnsOverrides.entries, entry.2.enabled = false) ∧
      (∀ rule ∈ exampleBreakpoints, rule.enabled = false) ∧ ∀ script ∈ exampleLuaScripts, script.enabled = false := by
    decide +kernel
  obtain ⟨hruleSets, hmapRemote, hmapLocal, hmocks, haccess, hdns, hbreakpoints, hscripts⟩ := hrules
  exact ⟨hruleSets, hmapRemote, hmapLocal, hmocks, haccess, hdns, hbreakpoints, rfl, rfl, hscripts⟩

theorem disabled_default (r : Resource) : DisabledValue r (emptyMemory r) := by
  rcases r with ⟨⟨⟩⟩ | _ | _ | _
  case throttling | captureFilter | upstreamProxy => rfl
  all_goals exact fun _ h => by cases h

theorem disabled_throughFile {r : Resource} {value : r.Value} (h : DisabledValue r value) :
    DisabledValue r (throughFile r value) := by
  rcases r with ⟨⟨⟩⟩ | _ | _ | _
  case collection.mockRules =>
    intro rule hrule
    obtain ⟨stored, hstored, rfl⟩ := List.mem_map.1 hrule
    exact h stored hstored
  all_goals exact h

theorem disabled_loaded {configured : Option Str} {r : Resource} (hr : r ≠ .upstreamProxy) {value : r.Value}
    (h : DisabledValue r value) : DisabledValue r (loaded configured r value) := by
  rcases r with ⟨⟨⟩⟩ | _ | _ | _
  case upstreamProxy => exact absurd rfl hr
  case collection.webhooks =>
    intro hook hhook
    obtain ⟨stored, hstored, rfl⟩ := List.mem_map.1 (List.mem_of_mem_filter hhook)
    exact h stored hstored
  all_goals exact h

theorem disabledFiles_update {files : Files} (h : DisabledFiles files) {r : Resource} {value : r.Value}
    (hvalue : DisabledValue r value) : DisabledFiles (Function.update files r (.holds value)) := by
  intro r' value' hfile
  by_cases hr : r' = r
  · subst hr
    rw [Function.update_self] at hfile
    cases hfile
    exact hvalue
  · rw [Function.update_of_ne hr] at hfile
    exact h r' value' hfile

theorem disabledFiles_seeded {canWrite : Resource → Bool} {files : Files} (h : DisabledFiles files) :
    DisabledFiles (seedFirstRunExamples canWrite files) := by
  have hfold : ∀ entries : List (Σ r : Resource, r.Value), (∀ entry ∈ entries, DisabledValue entry.1 entry.2) →
      ∀ files, DisabledFiles files → DisabledFiles (entries.foldl (seed canWrite) files) := by
    intro entries
    induction entries with
    | nil => exact fun _ _ h => h
    | cons entry entries ih =>
      intro hentries files hfiles
      obtain ⟨hentry, hentries⟩ := List.forall_mem_cons.1 hentries
      refine ih hentries _ ?_
      unfold seed
      split
      · exact hfiles
      · split
        · exact disabledFiles_update hfiles hentry
        · exact hfiles
  exact hfold seeded disabled_examples files h

theorem nothingOn_start {canWrite : Resource → Bool} {files : Files} (hotConfig : Stored HotConfig)
    (h : DisabledFiles files) : NothingOn config (start config canWrite files hotConfig) := by
  have hfiles : DisabledFiles (seedFirstRunExamples canWrite files) := disabledFiles_seeded h
  have hstored : ∀ r, DisabledValue r ((seedFirstRunExamples canWrite files r).loadJson (emptyMemory r)) := by
    intro r
    cases hfile : seedFirstRunExamples canWrite files r with
    | missing | unreadable => exact disabled_default r
    | holds value => exact hfiles r value hfile
  refine ⟨hfiles, fun r hr => disabled_loaded hr (hstored r), Or.inr ?_⟩
  have hnone : (seedFirstRunExamples canWrite files .upstreamProxy).loadJson (emptyMemory .upstreamProxy) =
      (none : Option Str) := hstored .upstreamProxy
  show Option.or _ config.upstreamProxy = config.upstreamProxy
  rw [hnone]
  rfl

theorem nothingOn_update {r : Resource} {value : r.Value} {files : Files} (h : NothingOn config s)
    (hfiles : DisabledFiles files) (hvalue : DisabledValue r value) :
    NothingOn config { s with memory := Function.update s.memory r value, files := files } := by
  refine ⟨hfiles, fun r' hr' => ?_, ?_⟩
  · by_cases hr : r' = r
    · subst hr
      dsimp only
      rw [Function.update_self]
      exact hvalue
    · dsimp only
      rw [Function.update_of_ne hr]
      exact h.memory r' hr'
  · by_cases hr : Resource.upstreamProxy = r
    · subst hr
      dsimp only
      rw [Function.update_self]
      exact Or.inl hvalue
    · dsimp only
      rw [Function.update_of_ne hr]
      exact h.proxy

theorem nothingOn_ran {E : Type} {s' : Installation} {saveError : Option Str} {call : Call E}
    (h : NothingOn config s) (hcall : CallDisabled s.memory call) (hran : Ran s saveError call s') :
    NothingOn config s' := by
  cases hran with
  | unchanged _ => exact h
  | saved r m value heq hedit _ =>
    subst heq
    have hvalue := hcall value hedit
    exact nothingOn_update h (disabledFiles_update h.files (disabled_throughFile hvalue)) hvalue
  | unsaved r m value heq hedit _ _ =>
    subst heq
    exact nothingOn_update h h.files (hcall value hedit)

theorem disabled_countCall (id : Str) {rules : List MockRule} (h : ∀ rule ∈ rules, rule.enabled = false) :
    ∀ rule ∈ Mock.countCall id rules, rule.enabled = false := by
  induction rules with
  | nil => exact h
  | cons rule rules ih =>
    obtain ⟨hrule, hrules⟩ := List.forall_mem_cons.1 h
    unfold Mock.countCall
    split
    · exact List.forall_mem_cons.2 ⟨hrule, hrules⟩
    · exact List.forall_mem_cons.2 ⟨hrule, ih hrules⟩

theorem nothingOn_reloadConfig (h : NothingOn config s) (saveError : Option Str) (body : Json) :
    NothingOn config (s.reloadConfig config saveError body) := by
  unfold Installation.reloadConfig
  split
  · exact h
  · split
    · exact h
    · exact ⟨h.files, h.memory, h.proxy⟩
  · exact ⟨h.files, h.memory, h.proxy⟩

theorem nothingOn_step {e : Event} (h : NothingOn config s) (he : Event.Disabled s e) :
    NothingOn config (step config s e) := by
  cases e with
  | request env method path body =>
    unfold step
    dsimp only
    split
    · exact nothingOn_reloadConfig h env.disk.saveError body
    · exact nothingOn_ran h he
        (ran (Http.ordered_call env method path body) Http.storageErrorResponse s env.disk.saveError)
  | action env preconditions confirmed =>
    exact nothingOn_ran h he (ran (ordered_executeActionPayload env preconditions confirmed) id s env.disk.saveError)
  | served id =>
    have hrules : DisabledValue (.collection .mockRules) (s.memory (.collection .mockRules)) :=
      h.memory _ Resource.noConfusion
    have hcounted : DisabledValue (.collection .mockRules) (countCall id (s.memory (.collection .mockRules))) :=
      disabled_countCall id hrules
    exact nothingOn_update h h.files hcounted
  | restart canWrite => exact nothingOn_start s.hotConfig h.files

theorem nothingEnabled_of_nothingOn (h : NothingOn config s) : (rulesOf s.memory).production.NothingEnabled := by
  constructor
  · exact h.memory (.collection .accessRules) Resource.noConfusion
  · intro host entry hentry
    exact h.memory (.collection .dnsOverrides) Resource.noConfusion _ (IndexMap.mem_of_get? hentry)
  · exact h.memory (.collection .mapRemoteRules) Resource.noConfusion
  · exact h.memory (.collection .ruleSets) Resource.noConfusion
  · exact h.memory (.collection .breakpoints) Resource.noConfusion
  · exact h.memory (.collection .mapLocalRules) Resource.noConfusion
  · exact h.memory (.collection .mockRules) Resource.noConfusion
  · exact h.memory (.collection .luaScripts) Resource.noConfusion

theorem inert_of_nothingOn (h : NothingOn config s) : Inert config s := by
  have hdisabled := nothingEnabled_of_nothingOn h
  have hmode : (rulesOf s.memory).filter.mode = .disabled := h.memory .captureFilter Resource.noConfusion
  have hhooks : DisabledValue (.collection .webhooks) (s.memory (.collection .webhooks)) :=
    h.memory (.collection .webhooks) Resource.noConfusion
  refine ⟨fun world ctx => ?_, fun world ctx => ?_,
    fun _ before ctx => ProxyEngine.failureChain_of_nothingEnabled hdisabled before ctx,
    h.memory .throttling Resource.noConfusion, ?_, h.proxy⟩
  · rw [RecordingRules.run_of_nothingEnabled hdisabled hmode]
    unfold RecordingRules.inspected RecordingRules.inspectors
    cases hopens : Inspection.opens { ctx with inspector := world.inspect ctx } with
    | false =>
      rw [Inspection.onRequest_of_not_opens hopens]
      exact ⟨_, ctx.sessionId, ctx.flow, _, rfl⟩
    | true =>
      rw [Inspection.onRequest_of_opens hopens]
      exact ⟨_, some world.inspectionId, [], _, rfl⟩
  · rw [RecordingRules.run_of_nothingEnabled hdisabled hmode]
    exact Inspection.recordedRequests_onRequest world.inspectionId (RecordingRules.inspectors world ctx).1
  · refine List.filter_eq_nil_iff.2 fun hook hhook => ?_
    have hoff : hook.enabled = false := hhooks hook hhook
    rw [hoff]
    exact Bool.false_ne_true

/-- In every run from files in which nothing is enabled, and so from none, in which nothing is asked for that is
enabled, nothing happens to traffic. -/
theorem everyState_inert (config : Configuration) {canWrite : Resource → Bool} {files : Files}
    (hotConfig : Stored HotConfig) (hfiles : DisabledFiles files) {events : List Event}
    (h : EveryStep (step config) Event.Disabled (start config canWrite files hotConfig) events) :
    EveryState (step config) (Inert config) (start config canWrite files hotConfig) events :=
  (everyState_of_everyStep (fun _ _ => nothingOn_step) (nothingOn_start hotConfig hfiles) h).imp
    fun _ => inert_of_nothingOn

private def proxied : Configuration := ⟨some "http://proxy.test:3128", 10485760⟩

/-- The assistant has the upstream proxy taken away. -/
private def withoutProxy : AssistantAction :=
  ⟨"a1", "t1", "upstream-proxy", "Use no proxy", .network, "/admin/upstream-proxy", "POST",
    .obj [("upstream_proxy", .null)], true, []⟩

private def disabledOverride : Json := .obj [("api.test", .obj [("ip", .str "10.0.0.5"), ("enabled", .bool false)])]

/-- A fresh installation where nothing can be written at first. -/
private def firstSteps : List Event :=
  [.restart fun _ => true, .request (envOf none) "POST" "/admin/dns" disabledOverride,
   .action (envOf none) (fun _ => .ok ()) withoutProxy, .served "example-mock-grpc", .restart fun _ => false]

private theorem disabled_firstSteps {s : Installation} : ∀ e ∈ firstSteps, Event.Disabled s e := by
  unfold firstSteps
  simp only [List.forall_mem_cons, List.not_mem_nil, false_implies, implies_true, and_true]
  refine ⟨trivial, ?_, ?_, trivial, trivial⟩
  · have hcall : Http.call (envOf none) "POST" "/admin/dns" disabledOverride =
        editCollection .dnsOverrides Http.notFound
          (.replace ((IndexMap.empty : DnsOverrides).insert "api.test" ⟨"10.0.0.5", false⟩)) :=
      Http.call_post _ _ .dns
    unfold Event.Disabled
    dsimp only
    rw [hcall]
    intro value hvalue
    cases hvalue
    intro entry hentry
    cases List.mem_singleton.1 hentry
    rfl
  · have hcall : executeActionPayload (envOf none) (fun _ => .ok ()) withoutProxy = saveValue .upstreamProxy none := rfl
    unfold Event.Disabled
    dsimp only
    rw [hcall]
    intro value hvalue
    cases hvalue
    rfl

theorem everyState_inert_fresh :
    EveryState (step proxied) (Inert proxied) (start proxied (fun _ => false) (fun _ => .missing) .missing)
      firstSteps :=
  everyState_inert proxied .missing (fun _ _ h => by cases h)
    fun _ e hpre => disabled_firstSteps e (hpre.subset (List.mem_concat_self ..))

end Restarts

end Oproxy
