import Oproxy.ControlPlane.Confirmation
import Oproxy.ControlPlane.LostUpdates

/-!
# Tools which propose a change (`control_plane/assistant_tools.rs`)

Four tools start from the value of a resource: they work out the value that was asked for, propose the action which
brings it about, and make it depend on the value they started from.  The proposal is repaired, completed and checked,
and so is the action once more when it is carried out; it then brings about what was asked for.
-/

namespace Oproxy

open Persisted Mutations Machine History

namespace Assistant

/-! ### Arguments -/

def optionalU64Arg (args : Json) (key : Str) : Except Str (Option UInt64) :=
  match args.get? key with
  | none | some .null => .ok none
  | some (.int n) =>
    if 0 ≤ n ∧ n < 2 ^ 64 then .ok (some (UInt64.ofNat n.toNat))
    else .error (key ++ (" must be a non-negative integer" : Str))
  | some _ => .error (key ++ (" must be a non-negative integer" : Str))

def parseStringArrayArg (value : Json) : Option (List Str) :=
  value.asArray.map fun items => ((items.filterMap Json.asStr).map Str.trim).filter fun item => !item.isEmpty

/-- The characters which are taken off both ends of a host. -/
def isHostWrapping (ch : Char) : Bool := ch ∈ ("\"'`<>,;." : Str)

def normalizeDnsHost (raw : Str) : Except Str Str :=
  let host := Str.toAsciiLowercase ((raw.trim.dropWhile isHostWrapping).rdropWhile isHostWrapping)
  if host.isEmpty then .error "DNS override host is required"
  else if host.utf8Len > 255 ∨ '/' ∈ host ∨ '?' ∈ host ∨ '#' ∈ host ∨ host.any Str.isWhitespace then
    .error "DNS override host must be a clean hostname"
  else .ok host

variable (env : Env)

def normalizeDnsIp (raw : Str) : Except Str Str :=
  match IpAddr.parse raw.trim with
  | some addr => .ok (env.ipText addr)
  | none => .error "DNS override ip must be a valid IPv4 or IPv6 address"

/-! ### What is asked for -/

inductive DnsChange where
  | set (host ip : Str)
  | delete (host : Str)

def dnsHostArg (args : Json) : Except Str Str :=
  match textArgument args "host" with
  | none => .error "propose_dns_override requires host"
  | some raw => normalizeDnsHost raw

def dnsIpArg (args : Json) : Except Str Str :=
  match textArgument args "ip" with
  | none => .error "propose_dns_override operation=set requires ip"
  | some raw => normalizeDnsIp env raw

def dnsAsked (args : Json) : Except Str DnsChange := do
  let operation := ((textArgument args "operation").getD "set").trim.toAsciiLowercase
  let host ← dnsHostArg args
  if operation ∈ (["set", "update"] : List Str) then return .set host (← dnsIpArg env args)
  else if operation ∈ (["delete", "remove", "clear"] : List Str) then return .delete host
  else .error "propose_dns_override operation must be set or delete"

def throttlingAsked (args : Json) (current : ThrottlingConfig) : Except Str ThrottlingConfig := do
  let enabled := (args.get? "enabled").bind Json.asBool
  let latencyMs ← optionalU64Arg args "latency_ms"
  let bandwidthLimitKbps ← optionalU64Arg args "bandwidth_limit_kbps"
  if enabled.isNone ∧ latencyMs.isNone ∧ bandwidthLimitKbps.isNone then
    .error "propose_throttling requires enabled, latency_ms, or bandwidth_limit_kbps"
  else
    return {
      enabled := enabled.getD (if latencyMs.isSome ∨ bandwidthLimitKbps.isSome then true else current.enabled)
      latencyMs := latencyMs.getD current.latencyMs
      bandwidthLimitKbps := bandwidthLimitKbps.getD current.bandwidthLimitKbps }

def captureFilterAsked (args : Json) : Except Str CaptureFilterConfig := do
  let mode := ((textArgument args "mode").map Str.toAsciiLowercase).getD "disabled"
  let hosts := ((args.get? "hosts").bind parseStringArrayArg).getD []
  if mode = "disabled" then return ⟨.disabled, []⟩
  else if mode = "allowlist" then return ⟨.allowlist, hosts⟩
  else if mode = "denylist" then return ⟨.denylist, hosts⟩
  else .error "propose_capture_filter mode must be disabled, allowlist, or denylist"

def upstreamProxyAsked (args : Json) : Except Str (Option Str) :=
  match (args.get? "upstream_proxy").or (args.get? "proxy") with
  | some .null => .ok none
  | some (.str raw) => .ok ((some raw.trim).filter fun value => !value.isEmpty)
  | _ => .error "propose_upstream_proxy requires upstream_proxy or proxy"

/-! ### The tools -/

/-- What is said when the value has changed. -/
def Guarded.message : Guarded → Str
  | captureFilter =>
    "Capture filter changed since this action was prepared; refresh the assistant action before applying."
  | dns => "DNS overrides changed since this action was prepared; refresh the assistant action before applying."
  | throttling =>
    "Throttling config changed since this action was prepared; refresh the assistant action before applying."
  | upstreamProxy =>
    "Upstream proxy changed since this action was prepared; refresh the assistant action before applying."

/-- The arguments of `propose_action`. -/
def proposalArgs (method endpoint summary : Str) (payload : Json) : Json :=
  .obj [("endpoint", .str endpoint), ("method", .str method), ("payload", payload), ("summary", .str summary)]

variable (digest : Json → Str)

/-- Propose an action which depends on the value that a tool started from. -/
def proposeGuarded (g : Guarded) (current : g.resource.Value) (method endpoint summary : Str) (payload : Json) :
    Except Str AssistantAction := do
  let action ← proposeAction env (proposalArgs method endpoint summary payload)
  return { action with preconditions := action.preconditions ++ [madeFor digest g current g.message] }

def proposeDnsOverrideActionFromMap (current : DnsOverrides) (args : Json) : Except Str AssistantAction := do
  let currentState := Guarded.json .dns current
  match ← dnsAsked env args with
  | .set host ip =>
    match dnsMap dnsEntry currentState with
    | none => .error (("invalid current DNS state: " : Str) ++ env.serde.describeDns currentState)
    | some next =>
      proposeGuarded env digest .dns current "POST" "/admin/dns"
        (("Resolve " : Str) ++ host ++ (" to " : Str) ++ ip) (Guarded.json .dns (next.insert host ⟨ip, true⟩))
  | .delete host =>
    proposeGuarded env digest .dns current "DELETE" (("/admin/dns/" : Str) ++ host)
      (("Delete DNS override for " : Str) ++ host) .null

def proposeThrottlingActionFromConfig (current : ThrottlingConfig) (args : Json) : Except Str AssistantAction := do
  let start ← (env.serde.throttling.fromValue (Guarded.json .throttling current)).mapError fun e =>
    ("invalid current throttling state: " : Str) ++ e
  let next ← throttlingAsked (AssistantPayload.repairAssistantPayload args) start
  let summary := if !next.enabled then ("Disable throttling" : Str)
    else ("Set throttling to " : Str) ++ Str.ofNat next.latencyMs.toNat ++ (" ms latency and " : Str) ++
      Str.ofNat next.bandwidthLimitKbps.toNat ++ (" kbps bandwidth" : Str)
  proposeGuarded env digest .throttling current "POST" "/admin/throttling" summary (Guarded.json .throttling next)

def proposeCaptureFilterActionFromConfig (current : CaptureFilterConfig) (args : Json) :
    Except Str AssistantAction := do
  let next ← captureFilterAsked (AssistantPayload.repairAssistantPayload args)
  let summary : Str := match next.mode with
    | .allowlist => "Set capture filter to allowlist"
    | .denylist => "Set capture filter to denylist"
    | .disabled => "Disable capture filter"
  proposeGuarded env digest .captureFilter current "POST" "/admin/capture-filter" summary
    (Guarded.json .captureFilter next)

def proposeUpstreamProxyActionFromState (current : Option Str) (args : Json) : Except Str AssistantAction := do
  let next ← upstreamProxyAsked args
  let summary := match next with
    | some value => ("Set upstream proxy to " : Str) ++ value
    | none => ("Clear upstream proxy" : Str)
  proposeGuarded env digest .upstreamProxy current "POST" "/admin/upstream-proxy" summary
    (Guarded.json .upstreamProxy next)

/-- The tool of a resource. -/
def propose : (g : Guarded) → g.resource.Value → Json → Except Str AssistantAction
  | .captureFilter => proposeCaptureFilterActionFromConfig env digest
  | .dns => proposeDnsOverrideActionFromMap env digest
  | .throttling => proposeThrottlingActionFromConfig env digest
  | .upstreamProxy => proposeUpstreamProxyActionFromState env digest

/-! ### What becomes of a resource -/

def DnsChange.apply (overrides : DnsOverrides) : DnsChange → Except Str DnsOverrides
  | set host ip => .ok (overrides.insert host ⟨ip, true⟩)
  | delete host => match removeOverride host overrides with
    | some rest => .ok rest
    | none => .error "DNS override not found"

/-- The value which the arguments ask for, or why a resource does not get it. -/
def Guarded.outcome : (g : Guarded) → g.resource.Value → Json → Except Str g.resource.Value
  | captureFilter, _, args => captureFilterAsked (AssistantPayload.repairAssistantPayload args)
  | dns, (overrides : DnsOverrides), args => dnsAsked env args >>= DnsChange.apply overrides
  | throttling, (current : ThrottlingConfig), args =>
    throttlingAsked (AssistantPayload.repairAssistantPayload args) current
  | upstreamProxy, _, args => do
    let next ← upstreamProxyAsked args
    if next.all env.proxyAll then .ok next else .error "invalid proxy URL"

/-- What is in memory, as a proposal was made for it.  Of the upstream proxy there is only the client which uses it. -/
def Guarded.Start (g : Guarded) (v inMemory : g.resource.Value) : Prop := g = upstreamProxy ∨ g.Same inMemory v

/-- The call brings about an outcome from a value. -/
inductive Guarded.Brings (g : Guarded) (v : g.resource.Value) : Call Str → Except Str g.resource.Value → Prop
  | refused (e : Str) : Brings g v (.refused e) (.error e)
  | fails (m : Mutation Str g.resource.Value) (e : Str) (hfixtures : m.fixtures = [])
    (h : ∀ value, g.Start v value → m.edit value = .error e) : Brings g v (.mutates g.resource m) (.error e)
  | becomes (m : Mutation Str g.resource.Value) (next : g.resource.Value) (hfixtures : m.fixtures = [])
    (h : ∀ value, g.Start v value → ∃ after, m.edit value = .ok after ∧ g.Same after next) :
    Brings g v (.mutates g.resource m) (.ok next)

section

variable {env} {digest}

/-! ### Carrying out a proposal -/

/-- A proposal is what `propose_action` was told, with a payload that is normalised. -/
theorem of_proposeAction {method endpoint summary : Str} {payload : Json} {action : AssistantAction}
    (hupper : method.toAsciiUppercase = method)
    (h : proposeAction env (proposalArgs method endpoint summary payload) = .ok action) :
    action.method = method ∧ action.endpoint = endpoint ∧
      normalizeActionPayload method endpoint payload action.summary = .ok action.payload := by
  simp only [proposeAction, Normalize.bind_eq_ok] at h
  obtain ⟨route, -, normal, hnormal, _, -, haction⟩ := h
  cases haction
  have hmethod : ((textArgument (proposalArgs method endpoint summary payload) "method").getD []).toAsciiUppercase =
      method := hupper
  rw [hmethod] at hnormal
  exact ⟨hmethod, rfl, hnormal⟩

/-- What is confirmed is the proposal, with an id, a token and preconditions. -/
structure Confirms (action confirmed : AssistantAction) : Prop where
  method : confirmed.method = action.method
  endpoint : confirmed.endpoint = action.endpoint
  payload : confirmed.payload = action.payload
  summary : confirmed.summary = action.summary

/-- A confirmed proposal whose preconditions hold passes all the checks. -/
theorem Proposed.execute_confirmed {action confirmed : AssistantAction} {route : AssistantActionRouteContract}
    (h : Proposed env action route) (hconfirms : Confirms action confirmed) :
    executeActionPayload env (fun _ => .ok ()) confirmed =
      dispatch env action.method action.endpoint action.payload := by
  have hcontract : actionRouteContract confirmed.method confirmed.endpoint = .ok route := by
    rw [hconfirms.method, hconfirms.endpoint]
    exact h.contract
  have hnormal : normalizeActionPayload confirmed.method confirmed.endpoint confirmed.payload confirmed.summary =
      .ok confirmed.payload := by
    rw [hconfirms.method, hconfirms.endpoint, hconfirms.payload, hconfirms.summary]
    exact h.normal
  rw [executeActionPayload_eq ⟨hcontract, rfl, hnormal⟩, hconfirms.method, hconfirms.endpoint, hconfirms.payload,
    if_neg h.payload, h.shape]
  unfold dispatch
  cases DirectActionRoute.classify action.method action.endpoint <;> rfl

/-- A tool's proposal, when it is confirmed, reaches the tables of arms with its normalised payload. -/
structure GuardedBy (env : Env) (digest : Json → Str) (g : Guarded) (v : g.resource.Value) (method endpoint : Str)
    (payload : Json) (action : AssistantAction) : Prop where
  preconditions : action.preconditions = [madeFor digest g v g.message]
  contract : ∃ route, actionRouteContract method endpoint = .ok route
  routed : ∃ route, validateActionRoute action.method action.endpoint action.payload = .ok route
  executed : ∃ summary normal, normalizeActionPayload method endpoint payload summary = .ok normal ∧
    validateActionPayloadShape env method endpoint normal = .ok () ∧
    ∀ confirmed, Confirms action confirmed →
      executeActionPayload env (fun _ => .ok ()) confirmed = dispatch env method endpoint normal

theorem guardedBy_of_proposeGuarded {g : Guarded} {v : g.resource.Value} {method endpoint summary : Str}
    {payload : Json}
    {action : AssistantAction} (hupper : method.toAsciiUppercase = method)
    (h : proposeGuarded env digest g v method endpoint summary payload = .ok action) :
    GuardedBy env digest g v method endpoint payload action := by
  simp only [proposeGuarded, Normalize.bind_eq_ok] at h
  obtain ⟨proposal, hproposal, haction⟩ := h
  cases haction
  obtain ⟨hmethod, hendpoint, hnormal⟩ := of_proposeAction hupper hproposal
  obtain ⟨route, hproposed⟩ := proposed_of_proposeAction hproposal
  refine ⟨?_, ⟨route, ?_⟩, ⟨route, ?_⟩, proposal.summary, proposal.payload, hnormal, ?_, fun confirmed hconfirms => ?_⟩
  · show proposal.preconditions ++ _ = _
    rw [hproposed.preconditions]
    rfl
  · rw [← hmethod, ← hendpoint]
    exact hproposed.contract
  · show validateActionRoute proposal.method proposal.endpoint proposal.payload = _
    unfold validateActionRoute
    rw [hproposed.contract]
    exact if_neg hproposed.payload
  · rw [← hmethod, ← hendpoint]
    exact hproposed.shape
  · rw [← hmethod, ← hendpoint]
    exact hproposed.execute_confirmed ⟨hconfirms.method, hconfirms.endpoint, hconfirms.payload, hconfirms.summary⟩

/-! ### Settings -/

/-- What is serialised is read back. -/
structure ReadsBack (env : Env) : Prop where
  throttling : ∀ config : ThrottlingConfig, env.serde.throttling.read (Guarded.json .throttling config) = some config
  captureFilter : ∀ config : CaptureFilterConfig,
    env.serde.captureFilter.read (Guarded.json .captureFilter config) = some config

theorem normal_of_members {endpoint summary : Str} {members : List (Str × Json)} {normal : Json}
    (hid : defaultItemId "POST" endpoint = none)
    (h : normalizeActionPayload "POST" endpoint (.obj members) summary = .ok normal) :
    normal = .obj (members.map AssistantPayload.repairedMember) := by
  rw [normalizeActionPayload_obj methods_known.2.2.1.symm] at h
  cases h
  unfold normalMembers
  rw [hid]

theorem dispatch_direct {method endpoint : Str} {direct : DirectActionRoute}
    (h : (method, endpoint, direct) ∈ directActionRoutes) (payload : Json) :
    dispatch env method endpoint payload = executeDirect env payload direct := by
  unfold dispatch
  rw [classify_of_mem h]

theorem fromPayload_eq_ok {T : Type} {decoder : StructDecoder T} {payload : Json} {value : T}
    (h : decoder.read payload = some value) : fromPayload decoder payload = .ok value := by
  unfold fromPayload StructDecoder.fromValue
  rw [h]
  rfl

theorem repaired_throttling (config : ThrottlingConfig) :
    ∃ members, Guarded.json .throttling config = .obj members ∧
      members.map AssistantPayload.repairedMember = members :=
  ⟨_, rfl, by simp [AssistantPayload.repairedMember, AssistantPayload.repairMember,
    AssistantPayload.repairAssistantPayload, AssistantPayload.singletonItems,
      AssistantPayload.numericStringAsJsonNumber, AssistantPayload.booleanStringAsJsonBool]⟩

theorem repaired_captureFilter (config : CaptureFilterConfig) :
    ∃ members, Guarded.json .captureFilter config = .obj members ∧
      members.map AssistantPayload.repairedMember = members := by
  obtain ⟨mode, hosts⟩ := config
  have hitems : AssistantPayload.repairAssistantPayload (.arr (hosts.map .str)) = .arr (hosts.map .str) := by
    rw [AssistantPayload.repairAssistantPayload_arr, List.map_map]
    exact congrArg Json.arr (List.map_congr_left fun host _ => by
      simp only [Function.comp_apply, AssistantPayload.repairAssistantPayload])
  have hhosts : AssistantPayload.repairedMember (("hosts" : Str), .arr (hosts.map .str)) =
      (("hosts" : Str), .arr (hosts.map .str)) := by
    unfold AssistantPayload.repairedMember
    dsimp only
    rw [AssistantPayload.repairMember_of_kept (AssistantPayload.kept_of_not_isReplaceable rfl), hitems]
  have hmode : AssistantPayload.repairedMember (("mode" : Str), mode.json) = (("mode" : Str), mode.json) := by
    cases mode <;> rfl
  exact ⟨_, rfl, by rw [List.map_cons, List.map_cons, List.map_nil, hhosts, hmode]⟩

theorem repaired_upstreamProxy (url : Option Str) :
    ∃ members, Guarded.json .upstreamProxy url = .obj members ∧
      members.map AssistantPayload.repairedMember = members := by
  refine ⟨_, rfl, ?_⟩
  cases url <;> rfl

/-- A value that is serialised without anything to repair is sent as it is. -/
theorem normal_of_repaired {endpoint summary : Str} {payload normal : Json} (hid : defaultItemId "POST" endpoint = none)
    (hpayload : ∃ members, payload = .obj members ∧ members.map AssistantPayload.repairedMember = members)
    (h : normalizeActionPayload "POST" endpoint payload summary = .ok normal) : normal = payload := by
  obtain ⟨members, rfl, hrepaired⟩ := hpayload
  rw [normal_of_members hid h, hrepaired]

theorem directs_without_items : ∀ r ∈ directActionRoutes, r.1 = ("POST" : Str) → defaultItemId "POST" r.2.1 = none := by
  decide +kernel

theorem upper_methods : Str.toAsciiUppercase "POST" = "POST" ∧ Str.toAsciiUppercase "DELETE" = "DELETE" := by
  decide +kernel

/-- A confirmed setting reaches its arm as it was proposed. -/
theorem execute_setting {g : Guarded} {v : g.resource.Value} {endpoint summary : Str} {payload : Json}
    {direct : DirectActionRoute} {action confirmed : AssistantAction}
    (hdirect : (("POST" : Str), endpoint, direct) ∈ directActionRoutes)
    (hpayload : ∃ members, payload = .obj members ∧ members.map AssistantPayload.repairedMember = members)
    (h : proposeGuarded env digest g v "POST" endpoint summary payload = .ok action)
    (hconfirms : Confirms action confirmed) :
    executeActionPayload env (fun _ => .ok ()) confirmed = executeDirect env payload direct := by
  obtain ⟨summary', normal, hnormal, -, hexecuted⟩ := (guardedBy_of_proposeGuarded upper_methods.1 h).executed
  rw [hexecuted confirmed hconfirms, dispatch_direct hdirect,
    normal_of_repaired (directs_without_items _ hdirect rfl) hpayload hnormal]

theorem brings_replaceValue {g : Guarded} {v next : g.resource.Value} :
    g.Brings v (replaceValue g.resource next) (.ok next) :=
  .becomes _ next rfl fun _ _ => ⟨next, rfl, .refl g next⟩

theorem brings_saveValue {current next : Option Str} :
    Guarded.upstreamProxy.Brings current (saveValue .upstreamProxy next) (.ok next) :=
  .becomes (g := .upstreamProxy) _ next rfl fun _ _ => ⟨next, rfl, rfl⟩

theorem brings_throttling (hreads : ReadsBack env) {current : ThrottlingConfig} {args : Json}
    {action confirmed : AssistantAction}
    (h : proposeThrottlingActionFromConfig env digest current args = .ok action)
    (hconfirms : Confirms action confirmed) :
    Guarded.throttling.Brings current (executeActionPayload env (fun _ => .ok ()) confirmed)
      (Guarded.outcome env .throttling current args) := by
  have hstart : (env.serde.throttling.fromValue (Guarded.json .throttling current)).mapError
      (fun e => ("invalid current throttling state: " : Str) ++ e) = .ok current := by
    unfold StructDecoder.fromValue
    rw [hreads.throttling]
    rfl
  unfold proposeThrottlingActionFromConfig at h
  rw [hstart] at h
  simp only [Normalize.bind_eq_ok] at h
  obtain ⟨_, hcurrent, next, hnext, h⟩ := h
  cases hcurrent
  rw [execute_setting (List.mem_of_getElem? (i := 0) rfl) (repaired_throttling next) h hconfirms]
  have houtcome : Guarded.outcome env .throttling current args = .ok next := hnext
  rw [houtcome]
  unfold executeDirect
  dsimp only
  rw [fromPayload_eq_ok (hreads.throttling next)]
  exact brings_replaceValue

theorem brings_captureFilter (hreads : ReadsBack env) {current : CaptureFilterConfig} {args : Json}
    {action confirmed : AssistantAction}
    (h : proposeCaptureFilterActionFromConfig env digest current args = .ok action)
    (hconfirms : Confirms action confirmed) :
    Guarded.captureFilter.Brings current (executeActionPayload env (fun _ => .ok ()) confirmed)
      (Guarded.outcome env .captureFilter current args) := by
  simp only [proposeCaptureFilterActionFromConfig, Normalize.bind_eq_ok] at h
  obtain ⟨next, hnext, h⟩ := h
  rw [execute_setting (List.mem_of_getElem? (i := 1) rfl) (repaired_captureFilter next) h hconfirms]
  have houtcome : Guarded.outcome env .captureFilter current args = .ok next := hnext
  rw [houtcome]
  unfold executeDirect
  dsimp only
  rw [fromPayload_eq_ok (hreads.captureFilter next)]
  exact brings_replaceValue

/-- What is asked for is none, or a text without white space around it. -/
theorem trimmed_of_upstreamProxyAsked {args : Json} {url : Str} (h : upstreamProxyAsked args = .ok (some url)) :
    url.trim = url ∧ url.isEmpty = false := by
  unfold upstreamProxyAsked at h
  split at h
  · cases h
  · rename_i raw _
    obtain ⟨htrim, hne⟩ := Option.filter_eq_some_iff.1 (Except.ok.inj h)
    cases htrim
    exact ⟨Str.trim_trim raw, by simpa using hne⟩
  · cases h

theorem brings_upstreamProxy {current : Option Str} {args : Json} {action confirmed : AssistantAction}
    (h : proposeUpstreamProxyActionFromState env digest current args = .ok action)
    (hconfirms : Confirms action confirmed) :
    Guarded.upstreamProxy.Brings current (executeActionPayload env (fun _ => .ok ()) confirmed)
      (Guarded.outcome env .upstreamProxy current args) := by
  simp only [proposeUpstreamProxyActionFromState, Normalize.bind_eq_ok] at h
  obtain ⟨next, hnext, h⟩ := h
  rw [execute_setting (List.mem_of_getElem? (i := 3) rfl) (repaired_upstreamProxy next) h hconfirms]
  have houtcome : Guarded.outcome env .upstreamProxy current args =
      if next.all env.proxyAll then .ok next else .error "invalid proxy URL" := by
    show (upstreamProxyAsked args >>= _) = _
    rw [hnext]
    rfl
  rw [houtcome]
  unfold executeDirect executeUpstreamProxy
  dsimp only
  cases next with
  | none => exact brings_saveValue
  | some url =>
    obtain ⟨htrim, hne⟩ := trimmed_of_upstreamProxyAsked hnext
    have hread : (((Guarded.json .upstreamProxy (some url)).get? "upstream_proxy").bind Json.asStr).map Str.trim =
        some url := congrArg some htrim
    have hsome : (some url).filter (fun s => !s.isEmpty) = some url := by
      simp [Option.filter, hne]
    rw [hread, hsome]
    dsimp only
    show Guarded.Brings _ _ _ (if env.proxyAll url then _ else _)
    split
    · exact brings_saveValue
    · exact .refused _

/-! ### DNS overrides -/

theorem mapM_filter {read : Json → Option DnsEntry} {members : List (Str × Json)} {entries : List (Str × DnsEntry)}
    (h : (members.mapM fun m => (read m.2).map fun entry => (m.1, entry)) = some entries) (host : Str) :
    ((members.filter fun m => m.1 = host).map Prod.snd).map read =
      ((entries.filter fun e => e.1 = host).map Prod.snd).map some := by
  induction members generalizing entries with
  | nil =>
    cases h
    rfl
  | cons m members ih =>
    rw [List.mapM_cons] at h
    obtain ⟨e, he, h⟩ := Option.bind_eq_some_iff.1 h
    obtain ⟨rest, hrest, h⟩ := Option.bind_eq_some_iff.1 h
    obtain ⟨entry, hentry, rfl⟩ := Option.map_eq_some_iff.1 he
    cases h
    have ih := ih hrest
    by_cases hhost : m.1 = host
    · simp only [List.filter_cons, hhost, decide_true, if_true, List.map_cons, hentry, ih]
    · simpa only [List.filter_cons, hhost, decide_false, Bool.false_eq_true, if_false] using ih

/-- The entry of a host in a table is what its last member is read as. -/
theorem get?_dnsMap {read : Json → Option DnsEntry} {members : List (Str × Json)} {table : DnsOverrides}
    (h : dnsMap read (.obj members) = some table) (host : Str) :
    (((members.filter fun m => m.1 = host).map Prod.snd).getLast?).map read = (table.get? host).map some := by
  obtain ⟨entries, hentries, rfl⟩ := Option.map_eq_some_iff.1 h
  rw [IndexMap.get?_insertAll, IndexMap.get?_empty, Option.or_none, ← List.getLast?_map, ← List.getLast?_map,
    mapM_filter hentries host]

theorem dnsMap_isSome {read : Json → Option DnsEntry} {members : List (Str × Json)}
    (h : ∀ m ∈ members, (read m.2).isSome = true) : ∃ table, dnsMap read (.obj members) = some table := by
  have hentries : ∃ entries, (members.mapM fun m => (read m.2).map fun entry => (m.1, entry)) = some entries := by
    induction members with
    | nil => exact ⟨[], rfl⟩
    | cons m members ih =>
      obtain ⟨entry, hentry⟩ := Option.isSome_iff_exists.1 (h m List.mem_cons_self)
      obtain ⟨entries, hentries⟩ := ih fun m hm => h m (List.mem_cons_of_mem _ hm)
      refine ⟨(m.1, entry) :: entries, ?_⟩
      rw [List.mapM_cons, hentry, hentries]
      rfl
  obtain ⟨entries, hentries⟩ := hentries
  exact ⟨_, Option.map_eq_some_iff.2 ⟨entries, hentries, rfl⟩⟩

/-- A table is read back from its members, where `change` makes nothing else of them. -/
theorem sameTable_of_dnsMap {change : Json → Str → Json} {table read : DnsOverrides}
    (hchange : ∀ host entry entry', dnsEntry (change (Guarded.entryJson entry) host) = some entry' → entry' = entry)
    (h : dnsMap dnsEntry (.obj ((Guarded.tableMembers table).map fun m => (m.1, change m.2 m.1))) = some read) :
    DnsOverride.SameTable read table := by
  intro host
  have hmembers : ((Guarded.tableMembers table).map fun m => (m.1, change m.2 m.1)).filter (fun m => m.1 = host) =
      ((table.get? host).map fun entry => (host, change (Guarded.entryJson entry) host)).toList := by
    rw [List.filter_map]
    show ((Guarded.tableMembers table).filter fun m => m.1 = host).map _ = _
    rw [Guarded.filter_tableMembers]
    cases table.get? host <;> rfl
  have hread := get?_dnsMap h host
  rw [hmembers] at hread
  cases hentry : table.get? host with
  | none =>
    rw [hentry] at hread
    exact Option.map_eq_none_iff.1 hread.symm
  | some entry =>
    rw [hentry] at hread
    obtain ⟨entry', hentry', heq⟩ := Option.map_eq_some_iff.1 hread.symm
    rw [hentry', hchange host entry entry' heq.symm]

theorem read_current (current : DnsOverrides) :
    ∃ start, dnsMap dnsEntry (Guarded.json .dns current) = some start ∧ DnsOverride.SameTable start current := by
  have hreads : ∀ m ∈ Guarded.tableMembers current, (dnsEntry m.2).isSome = true := by
    intro m hm
    obtain ⟨entry, -, hvalue⟩ := Guarded.mem_tableMembers hm
    rw [hvalue]
    rfl
  obtain ⟨start, hstart⟩ := dnsMap_isSome hreads
  refine ⟨start, hstart, @sameTable_of_dnsMap (fun value _ => value) current start (fun _ _ _ h => ?_) ?_⟩
  · exact (Option.some.inj h).symm
  · rw [List.map_id'' fun _ => rfl]
    exact hstart

/-- The repair makes nothing else of an entry, unless it is no entry any more. -/
theorem dnsEntry_repairMember {host : Str} {entry entry' : DnsEntry}
    (h : dnsEntry (AssistantPayload.repairMember host (Guarded.entryJson entry)
      (AssistantPayload.repairAssistantPayload (Guarded.entryJson entry))) = some entry') : entry' = entry := by
  have hentry : AssistantPayload.repairAssistantPayload (Guarded.entryJson entry) = Guarded.entryJson entry := by
    unfold Guarded.entryJson
    rw [AssistantPayload.repairAssistantPayload_obj]
    rfl
  rw [hentry] at h
  have hrepair := AssistantPayload.repair_repairMember host (Guarded.entryJson entry) (Guarded.entryJson entry)
  generalize AssistantPayload.repairMember host (Guarded.entryJson entry) (Guarded.entryJson entry) = value at h hrepair
  cases hrepair with
  | kept => exact (Option.some.inj h).symm
  | wrapped => cases h

theorem sameTable_insert {a b : DnsOverrides} (h : DnsOverride.SameTable a b) (host : Str) (entry : DnsEntry) :
    DnsOverride.SameTable (a.insert host entry) (b.insert host entry) := by
  intro host'
  rw [IndexMap.get?_insert, IndexMap.get?_insert, h]

/-- A confirmed table of overrides replaces what there is. -/
theorem execute_table {current next : DnsOverrides} {summary : Str} {action confirmed : AssistantAction}
    (h : proposeGuarded env digest .dns current "POST" "/admin/dns" summary (Guarded.json .dns next) = .ok action)
    (hconfirms : Confirms action confirmed) :
    ∃ table, DnsOverride.SameTable table next ∧ executeActionPayload env (fun _ => .ok ()) confirmed =
      editCollection .dnsOverrides ("DNS override not found" : Str) (.assistantReplace table) := by
  have hdirect : (("POST" : Str), ("/admin/dns" : Str), DirectActionRoute.dns) ∈ directActionRoutes :=
    List.mem_of_getElem? (i := 2) rfl
  obtain ⟨summary', normal, hnormal, hshape, hexecuted⟩ := (guardedBy_of_proposeGuarded upper_methods.1 h).executed
  have hmembers := normal_of_members (directs_without_items _ hdirect rfl) hnormal
  have hpayload : (dnsPayload env normal).map (fun _ => ()) = .ok () :=
    (@validateActionPayloadShape_post env normal .dns).symm.trans hshape
  cases htable : dnsMap dnsEntry normal with
  | none =>
    unfold dnsPayload at hpayload
    rw [htable] at hpayload
    cases hpayload
  | some table =>
    refine ⟨table, ?_, ?_⟩
    · rw [hmembers] at htable
      exact @sameTable_of_dnsMap
        (fun value host => AssistantPayload.repairMember host value (AssistantPayload.repairAssistantPayload value))
        next table (fun _ _ _ h => dnsEntry_repairMember h) htable
    · rw [hexecuted confirmed hconfirms, dispatch_direct hdirect]
      unfold executeDirect dnsPayload
      dsimp only
      rw [htable]
      rfl

theorem get?_removeOverride {host : Str} {overrides rest : DnsOverrides} (h : removeOverride host overrides = some rest)
    (host' : Str) : rest.get? host' = if host' = host then none else overrides.get? host' := by
  unfold removeOverride at h
  split at h
  · cases h
    have hentries : overrides.entries.foldl (fun m e => if e.1 = host then m else m.insert e.1 e.2) IndexMap.empty =
        (overrides.entries.filter fun e => e.1 ≠ host).foldl (fun m e => m.insert e.1 e.2)
          (IndexMap.empty : DnsOverrides) := by
      rw [List.foldl_filter]
      refine congrFun (congrFun (congrArg List.foldl (funext fun m => funext fun e => ?_)) _) _
      by_cases he : e.1 = host
      · simp [he]
      · simp [he]
    rw [hentries, IndexMap.get?_insertAll, IndexMap.get?_empty, Option.or_none, List.filter_filter]
    by_cases hhost : host' = host
    · rw [if_pos hhost, List.filter_eq_nil_iff.2 fun e _ hboth => ?_]
      · rfl
      · simp only [hhost, Bool.and_eq_true, decide_eq_true_eq] at hboth
        exact hboth.2 hboth.1
    · rw [if_neg hhost]
      have hfilter : (overrides.entries.filter fun e => decide (e.1 = host') && decide (e.1 ≠ host)) =
          overrides.entries.filter fun e => e.1 = host' := by
        refine List.filter_congr fun e _ => ?_
        by_cases he : e.1 = host'
        · simp [he, hhost]
        · simp [he]
      rw [hfilter, IndexMap.filter_key]
      cases overrides.get? host' <;> rfl
  · cases h

theorem isSome_removeOverride (host : Str) (overrides : DnsOverrides) :
    (removeOverride host overrides).isSome = overrides.contains host := by
  unfold removeOverride
  split
  · rename_i hheld
    exact hheld.symm
  · rename_i hheld
    exact (Bool.eq_false_iff.2 hheld).symm

/-- What a clean host is: some text without a slash. -/
theorem clean_of_normalizeDnsHost {raw host : Str} (h : normalizeDnsHost raw = .ok host) :
    host.isEmpty = false ∧ '/' ∉ host := by
  unfold normalizeDnsHost at h
  dsimp only at h
  split at h
  · cases h
  · rename_i hempty
    split at h
    · cases h
    · rename_i hclean
      cases h
      exact ⟨by simpa using hempty, fun hslash => hclean (Or.inr (Or.inl hslash))⟩

theorem host_of_dnsAsked {args : Json} {host : Str} (h : dnsAsked env args = .ok (.delete host)) :
    host.isEmpty = false ∧ '/' ∉ host := by
  simp only [dnsAsked, Normalize.bind_eq_ok] at h
  obtain ⟨host', hhost, h⟩ := h
  unfold dnsHostArg at hhost
  split at hhost
  · cases hhost
  · have hclean := clean_of_normalizeDnsHost hhost
    split at h
    · obtain ⟨ip, -, h⟩ := Normalize.bind_eq_ok.1 h
      cases h
    · split at h
      · cases h
        exact hclean
      · cases h

theorem matchEndpoint_override {host : Str} (hempty : host.isEmpty = false) (hslash : '/' ∉ host) :
    matchEndpoint ResourceKind.dns.contract (ResourceKind.dns.base ++ '/' :: host) = some (some host) := by
  have hne : ResourceKind.dns.base ++ '/' :: host ≠ ResourceKind.dns.base := by
    intro h
    have hlength := congrArg List.length h
    rw [List.length_append, List.length_cons] at hlength
    omega
  have hstrip : (Str.stripPrefix ResourceKind.dns.base (ResourceKind.dns.base ++ '/' :: host)).bind
      (Str.stripPrefix "/") = some host := by
    rw [Str.stripPrefix_eq_some.2 rfl]
    exact Str.stripPrefix_eq_some.2 rfl
  have hid : (host.isEmpty || decide ('/' ∈ host)) = false := by
    rw [hempty, decide_eq_false hslash]
    rfl
  have hbase : ResourceKind.dns.contract.basePath = ResourceKind.dns.base := rfl
  unfold matchEndpoint
  rw [hbase, if_neg hne, hstrip]
  dsimp only
  rw [hid]
  rfl

/-- A confirmed deletion takes the host out of what there is. -/
theorem execute_deletion {current : DnsOverrides} {host summary : Str} {action confirmed : AssistantAction}
    (hempty : host.isEmpty = false) (hslash : '/' ∉ host)
    (h : proposeGuarded env digest .dns current "DELETE" (("/admin/dns/" : Str) ++ host) summary .null = .ok action)
    (hconfirms : Confirms action confirmed) :
    executeActionPayload env (fun _ => .ok ()) confirmed =
      editCollection .dnsOverrides ("DNS override not found" : Str) (.assistantDelete host) := by
  have hguarded := guardedBy_of_proposeGuarded upper_methods.2 h
  obtain ⟨summary', normal, -, -, hexecuted⟩ := hguarded.executed
  obtain ⟨route, hroute⟩ := hguarded.contract
  have hendpoint : ("/admin/dns/" : Str) ++ host = ResourceKind.dns.base ++ '/' :: host := rfl
  have hkind : route.kind = ResourceKind.dns.contract.kind := by
    obtain ⟨c, hc⟩ := exists_routeOf hroute
    have hfits := hc.fits
    rw [upper_methods.2] at hfits
    have hdns := contract_unique hc.known (List.mem_of_getElem? (i := 11) rfl) hc.endpoint
      (matchEndpoint_override hempty hslash) hfits rfl
    rw [hc.kind, hdns]
    rfl
  have hclassify := classify_collection hroute hkind
  rw [hexecuted confirmed hconfirms]
  unfold dispatch executeCollectionAction
  rw [hclassify, hendpoint, classify_item .dns]
  show executeDnsItem "DELETE" (ResourceKind.dns.base ++ '/' :: host) = _
  have hstrip : Str.stripPrefix "/admin/dns/" (ResourceKind.dns.base ++ '/' :: host) = some host :=
    Str.stripPrefix_eq_some.2 rfl
  unfold executeDnsItem
  rw [hstrip]
  rfl

theorem isSome_removeOverride_congr {a b : DnsOverrides} (h : DnsOverride.SameTable a b) (host : Str) :
    (removeOverride host a).isSome = (removeOverride host b).isSome := by
  rw [isSome_removeOverride, isSome_removeOverride]
  exact congrArg Option.isSome (h host)

theorem brings_deletion {current : DnsOverrides} {host : Str} :
    Guarded.dns.Brings current (editCollection .dnsOverrides ("DNS override not found" : Str) (.assistantDelete host))
      (DnsChange.apply current (.delete host)) := by
  have hheld : ∀ value : DnsOverrides, DnsOverride.SameTable value current →
      (removeOverride host value).isSome = (removeOverride host current).isSome :=
    fun value hvalue => isSome_removeOverride_congr hvalue host
  unfold DnsChange.apply
  dsimp only
  cases hcurrent : removeOverride host current with
  | none =>
    refine .fails (g := .dns) _ _ rfl fun value hvalue => ?_
    have hvalue : DnsOverride.SameTable value current := hvalue.resolve_left nofun
    have hnone : (CollectionName.dnsOverrides.collection.handler (.assistantDelete host)).edit value = none :=
      Option.isNone_iff_eq_none.1 (Option.isSome_eq_false_iff.1
        ((hheld value hvalue).trans (congrArg Option.isSome hcurrent)))
    dsimp only
    rw [hnone]
    rfl
  | some rest =>
    refine .becomes (g := .dns) _ rest rfl fun value hvalue => ?_
    have hvalue : DnsOverride.SameTable value current := hvalue.resolve_left nofun
    obtain ⟨after, hafter⟩ := Option.isSome_iff_exists.1
      ((hheld value hvalue).trans (congrArg Option.isSome hcurrent))
    refine ⟨after, ?_, fun host' => ?_⟩
    · have hedit : (CollectionName.dnsOverrides.collection.handler (.assistantDelete host)).edit value = some after :=
        hafter
      dsimp only
      rw [hedit]
      rfl
    · rw [get?_removeOverride hafter, get?_removeOverride hcurrent, hvalue host']

theorem brings_dns {current : DnsOverrides} {args : Json} {action confirmed : AssistantAction}
    (h : proposeDnsOverrideActionFromMap env digest current args = .ok action) (hconfirms : Confirms action confirmed) :
    Guarded.dns.Brings current (executeActionPayload env (fun _ => .ok ()) confirmed)
      (Guarded.outcome env .dns current args) := by
  simp only [proposeDnsOverrideActionFromMap, Normalize.bind_eq_ok] at h
  obtain ⟨change, hchange, h⟩ := h
  have houtcome : Guarded.outcome env .dns current args = change.apply current := by
    show dnsAsked env args >>= DnsChange.apply current = _
    rw [hchange]
    rfl
  rw [houtcome]
  cases change with
  | set host ip =>
    obtain ⟨start, hstart, hsame⟩ := read_current current
    dsimp only at h
    rw [hstart] at h
    obtain ⟨table, htable, hcall⟩ := execute_table h hconfirms
    rw [hcall]
    exact .becomes (g := .dns) _ (current.insert host ⟨ip, true⟩) rfl fun _ _ =>
      ⟨table, rfl, fun host' => (htable host').trans (sameTable_insert hsame host _ host')⟩
  | delete host =>
    obtain ⟨hempty, hslash⟩ := host_of_dnsAsked hchange
    rw [execute_deletion hempty hslash h hconfirms]
    exact brings_deletion

/-- The proposals of a tool bring about what its arguments ask for. -/
theorem brings_of_propose (hreads : ReadsBack env) {g : Guarded} {v : g.resource.Value} {args : Json}
    {action confirmed : AssistantAction} (h : propose env digest g v args = .ok action)
    (hconfirms : Confirms action confirmed) :
    g.Brings v (executeActionPayload env (fun _ => .ok ()) confirmed) (g.outcome env v args) := by
  cases g with
  | captureFilter => exact brings_captureFilter hreads h hconfirms
  | dns => exact brings_dns h hconfirms
  | throttling => exact brings_throttling hreads h hconfirms
  | upstreamProxy => exact brings_upstreamProxy h hconfirms

theorem exists_guardedBy {g : Guarded} {v : g.resource.Value} {args : Json} {action : AssistantAction}
    (h : propose env digest g v args = .ok action) : ∃ method endpoint payload,
      GuardedBy env digest g v method endpoint payload action := by
  cases g with
  | captureFilter =>
    simp only [propose, proposeCaptureFilterActionFromConfig, Normalize.bind_eq_ok] at h
    obtain ⟨_, -, h⟩ := h
    exact ⟨_, _, _, guardedBy_of_proposeGuarded upper_methods.1 h⟩
  | dns =>
    simp only [propose, proposeDnsOverrideActionFromMap, Normalize.bind_eq_ok] at h
    obtain ⟨change, -, h⟩ := h
    cases change with
    | set host ip =>
      dsimp only at h
      split at h
      · cases h
      · exact ⟨_, _, _, guardedBy_of_proposeGuarded upper_methods.1 h⟩
    | delete host => exact ⟨_, _, _, guardedBy_of_proposeGuarded upper_methods.2 h⟩
  | throttling =>
    simp only [propose, proposeThrottlingActionFromConfig, Normalize.bind_eq_ok] at h
    obtain ⟨_, -, _, -, h⟩ := h
    exact ⟨_, _, _, guardedBy_of_proposeGuarded upper_methods.1 h⟩
  | upstreamProxy =>
    simp only [propose, proposeUpstreamProxyActionFromState, Normalize.bind_eq_ok] at h
    obtain ⟨_, -, h⟩ := h
    exact ⟨_, _, _, guardedBy_of_proposeGuarded upper_methods.1 h⟩

/-- What comes of a proposal which is carried out: it is refused, or the resource has the value and is saved. -/
inductive Guarded.CarriedOut (g : Guarded) (memory : Memory) (reply : Reply Str) : Except Str g.resource.Value → Prop
  | refused (e : Str) (h : reply = ⟨.error e, memory, []⟩) : CarriedOut g memory reply (.error e)
  | changed (next value : g.resource.Value) (hsame : g.Same value next)
    (h : reply = ⟨.ok (), Function.update memory g.resource value, [.resource g.resource value]⟩) :
    CarriedOut g memory reply (.ok next)

theorem Guarded.Brings.carriedOut {g : Guarded} {v : g.resource.Value} {call : Call Str}
    {outcome : Except Str g.resource.Value} (h : g.Brings v call outcome) {memory : Memory}
    (hstart : g.Start v (memory g.resource)) :
    g.CarriedOut memory (call.run (fun e => e) none memory) outcome := by
  cases h with
  | refused e => exact .refused e rfl
  | fails m e hfixtures h =>
    refine .refused e ?_
    unfold Call.run
    dsimp only
    rw [h _ hstart, hfixtures]
    rfl
  | becomes m next hfixtures h =>
    obtain ⟨after, hafter, hsame⟩ := h _ hstart
    refine .changed next after hsame ?_
    unfold Call.run
    dsimp only
    rw [hafter, hfixtures]
    rfl

end

/-! ### Proposals in runs -/

open ActionRuns

variable {c : Setting}

theorem start_of_value {g : Guarded} {v : g.resource.Value} {w : World} (h : g.Same (w.value c g) v) :
    g.Start v (w.memory g.resource) := by
  cases g with
  | upstreamProxy => exact Or.inl rfl
  | captureFilter | dns | throttling => exact Or.inr h

theorem confirms_stamped (action : AssistantAction) (id token : Str) : Confirms action (action.stamped id token) :=
  ⟨rfl, rfl, rfl, rfl⟩

/-- A proposal, confirmed while the resource still has the value which it was made from, brings about what the arguments
of the tool ask for. -/
theorem carriedOut_of_propose (hreads : ReadsBack c.env) {g : Guarded} {v : g.resource.Value} {args : Json}
    {action : AssistantAction} (h : propose c.env c.digest g v args = .ok action) {w : World}
    (hv : g.Same (w.value c g) v) (id token : Str) :
    g.CarriedOut w.memory
      ((executeActionPayload c.env (validateActionPreconditions (w.view c)) (action.stamped id token)).run
        (fun e => e) none w.memory) (g.outcome c.env v args) := by
  obtain ⟨_, _, _, hguarded⟩ := exists_guardedBy h
  obtain ⟨route, hroute⟩ := hguarded.routed
  have hvalid : validateActionPreconditions (w.view c) (action.stamped id token).preconditions = .ok () := by
    show validateActionPreconditions _ action.preconditions = _
    rw [hguarded.preconditions, validate_guarded rfl]
    exact if_pos (congrArg (stableValueHash c.digest) (Guarded.json_congr hv))
  have hstamped : validateActionRoute (action.stamped id token).method (action.stamped id token).endpoint
      (action.stamped id token).payload = .ok route := hroute
  rw [executeActionPayload_of_route hstamped, hvalid]
  exact (brings_of_propose hreads h (confirms_stamped action id token)).carriedOut (start_of_value hv)

/-- The change which an action is about to make brings about the outcome. -/
inductive Guarded.Makes (g : Guarded) (w : World) (φ : Phase) : Except Str g.resource.Value → Prop
  | fails (m : Mutation Str g.resource.Value) (e : Str) (hφ : φ = .writing g.resource m)
    (h : m.edit (w.memory g.resource) = .error e) : Makes g w φ (.error e)
  | becomes (m : Mutation Str g.resource.Value) (next value : g.resource.Value) (hφ : φ = .writing g.resource m)
    (h : m.edit (w.memory g.resource) = .ok value) (hsame : g.Same value next) : Makes g w φ (.ok next)

/-- A confirmed proposal changes its own resource, to what was asked for when it was made. -/
def MakesProposed (c : Setting) (s : Schedule) (e : ActionRuns.Event) : Prop :=
  ∀ id saveError job g v args action actionId token r m, e = .advance id saveError → s.jobs id = some job →
    propose c.env c.digest g v args = .ok action → job.action = action.stamped actionId token → Resists c.digest g v →
    job.phase = .writing r m → g.Makes s.world job.phase (g.outcome c.env v args)

/-- In every run in which no step disturbs another action, the proposals which change anything bring about what was
asked for. -/
theorem everyStep_makesProposed (hreads : ReadsBack c.env) {w : World} {events : List ActionRuns.Event}
    (h : EveryStep (step c) (Undisturbed c) (Schedule.idle w) events) :
    EveryStep (step c) (MakesProposed c) (Schedule.idle w) events := by
  refine (everyState_allStillFound h).everyStep fun s e hs => ?_
  intro id saveError job g v args action actionId token r m he hjob hpropose hstamped hresists hphase
  have hbrings := brings_of_propose hreads hpropose (confirms_stamped action actionId token)
  rw [← hstamped] at hbrings
  have hwriting : Phase.ofCall (executeActionPayload c.env (fun _ => .ok ()) job.action) = .writing r m :=
    (hs id job hjob).writing hphase
  obtain ⟨_, _, _, hguarded⟩ := exists_guardedBy hpropose
  have hprecondition : madeFor c.digest g v g.message ∈ job.action.preconditions := by
    rw [hstamped]
    show _ ∈ action.preconditions
    rw [hguarded.preconditions]
    exact List.mem_cons_self
  generalize executeActionPayload c.env (fun _ => .ok ()) job.action = call at hbrings hwriting
  rw [hphase, ← hwriting]
  have hvalue : ∀ m', call = .mutates g.resource m' → g.Start v (s.world.memory g.resource) := by
    intro m' hcall
    have hphase' : job.phase = .writing g.resource m' := by
      rw [hphase, ← hwriting, hcall]
      rfl
    exact start_of_value (changesProposed_of_allStillFound hs e id saveError job g v g.message m' he hjob hresists
      hphase'
      hprecondition)
  generalize g.outcome c.env v args = outcome at hbrings ⊢
  cases hbrings with
  | refused e' => cases hwriting
  | fails m' e' _ hedit => exact .fails m' e' rfl (hedit _ (hvalue m' rfl))
  | becomes m' next _ hedit =>
    obtain ⟨value, hafter, hsame⟩ := hedit _ (hvalue m' rfl)
    exact .becomes m' next value rfl hafter hsame

/-! ### The deletion of an override -/

/-- The decoders of the two settings. -/
private def settingsSerde : Serde :=
  { (envOf none).serde with
    throttling := ⟨fun members => do
        let .int latencyMs ← Json.get? "latency_ms" (.obj members) | none
        let .int bandwidthLimitKbps ← Json.get? "bandwidth_limit_kbps" (.obj members) | none
        let .bool enabled ← Json.get? "enabled" (.obj members) | none
        return ⟨UInt64.ofNat latencyMs.toNat, UInt64.ofNat bandwidthLimitKbps.toNat, enabled⟩, fun _ => none,
          fun _ => []⟩
    captureFilter := ⟨fun members => do
        let .str mode ← Json.get? "mode" (.obj members) | none
        let .arr hosts ← Json.get? "hosts" (.obj members) | none
        let mode ← if mode = "disabled" then some FilterMode.disabled else if mode = "allowlist" then some .allowlist
          else if mode = "denylist" then some .denylist else none
        return ⟨mode, hosts.filterMap Json.asStr⟩, fun _ => none, fun _ => []⟩ }

private def settingsEnv : Env := { envOf none with serde := settingsSerde }

private theorem readsBack_settings : ReadsBack settingsEnv := by
  constructor
  · intro config
    obtain ⟨latency, bandwidth, enabled⟩ := config
    show some (ThrottlingConfig.mk (UInt64.ofNat latency.toNat) (UInt64.ofNat bandwidth.toNat) enabled) = _
    rw [UInt64.ofNat_toNat, UInt64.ofNat_toNat]
  · intro config
    obtain ⟨mode, hosts⟩ := config
    have hhosts : (hosts.map Json.str).filterMap Json.asStr = hosts := by
      rw [List.filterMap_map]
      exact List.filterMap_some
    cases mode <;> exact congrArg (fun hosts => some (CaptureFilterConfig.mk _ hosts)) hhosts

private def oneOverride : DnsOverrides := (IndexMap.empty : DnsOverrides).insert ("api.test" : Str) ⟨"10.0.0.5", true⟩

private def slowed : ThrottlingConfig := ⟨0, 512, true⟩

private def overriddenWorld : World :=
  ⟨Function.update (Function.update emptyMemory (.collection .dnsOverrides) oneOverride) .throttling slowed, none⟩

/-- SHA-256 on the texts of the table and of the throttling. -/
private def digestOfOverride : Json → Str
  | .obj [(host, .obj [_, (_, .str ip)])] =>
    if host = ("api.test" : Str) ∧ ip = ("10.0.0.5" : Str) then
      "6601208d69e37dfb63d58ab68923459eaef694744f43930c5e828e3940acb3f7"
    else []
  | .obj [(_, .int 512), (_, .bool true), (_, .int 0)] =>
    "f985cb6ec7226f26aa76b04969f6425c363aa28da25a8ae6de0e0ccbbdddaca3"
  | _ => []

private def overriddenSetting : Setting := ⟨settingsEnv, none, digestOfOverride⟩

private def deletionRequest : Json := .obj [("host", .str "API.test."), ("operation", .str "delete")]

private def deletion : AssistantAction :=
  { deletionAction with
    summary := "Delete DNS override for api.test"
    preconditions := [madeFor digestOfOverride .dns oneOverride Guarded.dns.message] }

private theorem propose_deletion :
    propose overriddenSetting.env overriddenSetting.digest .dns oneOverride deletionRequest = .ok deletion := by
  rfl

private def disabling : AssistantAction where
  actionId := []
  confirmationToken := []
  kind := "throttling"
  summary := "Disable throttling"
  risk := .mutate
  endpoint := "/admin/throttling"
  method := "POST"
  payload := Guarded.json .throttling (⟨0, 512, false⟩ : ThrottlingConfig)
  requiresConfirmation := true
  preconditions := [madeFor digestOfOverride .throttling slowed Guarded.throttling.message]

theorem carriedOut_deletion : Guarded.CarriedOut .dns overriddenWorld.memory
    ((executeActionPayload overriddenSetting.env (validateActionPreconditions (overriddenWorld.view overriddenSetting))
      (deletion.stamped "a1" "t1")).run (fun e => e) none overriddenWorld.memory)
    (Guarded.outcome overriddenSetting.env .dns oneOverride deletionRequest) :=
  @carriedOut_of_propose overriddenSetting readsBack_settings .dns oneOverride deletionRequest deletion propose_deletion
    overriddenWorld (fun _ => rfl) "a1" "t1"

private def confirmedDeletion : AssistantAction := deletion.stamped "a1" "t1"

private def confirmedDisabling : AssistantAction := disabling.stamped "a2" "t2"

private theorem apart_deletionDisabling : Apart overriddenSetting (two confirmedDeletion confirmedDisabling) := by
  refine apart_two fun g h h' => ?_
  have hdns : g = .dns := @eq_of_targets overriddenSetting confirmedDeletion g .dns _ rfl h
  have hthrottling : g = .throttling := @eq_of_targets overriddenSetting confirmedDisabling g .throttling _ rfl h'
  cases hdns.symm.trans hthrottling

private def bothConfirmed : List ActionRuns.Event :=
  [.start 0 confirmedDeletion, .start 1 confirmedDisabling, .advance 0 none, .advance 1 none, .advance 1 none,
    .advance 0 none, .advance 0 none, .advance 1 none]

private theorem beside_bothConfirmed :
    ∀ e ∈ bothConfirmed, e.Beside overriddenSetting (two confirmedDeletion confirmedDisabling) := by
  unfold bothConfirmed
  simp only [List.forall_mem_cons]
  exact ⟨.started 0 _ rfl, .started 1 _ rfl, .advanced _ _, .advanced _ _, .advanced _ _, .advanced _ _,
    .advanced _ _, .advanced _ _, List.forall_mem_nil _⟩

theorem makesProposed_deletion : EveryStep (step overriddenSetting) (MakesProposed overriddenSetting)
    (Schedule.idle overriddenWorld) bothConfirmed :=
  everyStep_makesProposed readsBack_settings
    (@everyStep_undisturbed overriddenSetting (two confirmedDeletion confirmedDisabling) overriddenWorld _
      apart_deletionDisabling beside_bothConfirmed)

end Assistant

end Oproxy
