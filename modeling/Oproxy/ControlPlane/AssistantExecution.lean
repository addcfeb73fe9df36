import Oproxy.ControlPlane.AssistantActions
import Oproxy.ControlPlane.Mutations

/-!
# Executed actions (`control_plane/assistant_actions.rs`)

What `execute_action_payload` does with a confirmed action: the checks in their order, the settings which it writes
itself, and the collections.
-/

namespace Oproxy

open Persisted Mutations

namespace Assistant

/-! ### Routes -/

inductive DirectActionRoute where
  | throttling | captureFilter | dns | upstreamProxy | clearSessions | playback | forward | forwardWebSocket
  deriving DecidableEq

def directActionRoutes : List (Str × Str × DirectActionRoute) :=
  [("POST", "/admin/throttling", .throttling), ("POST", "/admin/capture-filter", .captureFilter),
    ("POST", "/admin/dns", .dns), ("POST", "/admin/upstream-proxy", .upstreamProxy),
    ("DELETE", "/admin/sessions", .clearSessions), ("POST", "/admin/playback", .playback),
    ("POST", "/admin/forward", .forward), ("POST", "/admin/forward/websocket", .forwardWebSocket)]

def DirectActionRoute.classify (method endpoint : Str) : Option DirectActionRoute :=
  (directActionRoutes.find? fun r => r.1 = method ∧ r.2.1 = endpoint).map fun r => r.2.2

inductive CollectionActionRoute where
  | dns | ruleSets | mapRemote | mapLocal | access | breakpoints | mock | scripts | webhooks
  deriving DecidableEq

def collectionActionRoutes : List (Str × CollectionActionRoute) :=
  [("dns", .dns), ("rule-sets", .ruleSets), ("map-remote-rules", .mapRemote), ("map-local-rules", .mapLocal),
    ("access-rules", .access), ("breakpoints", .breakpoints), ("mock", .mock), ("scripts", .scripts),
    ("webhooks", .webhooks)]

def CollectionActionRoute.classify (method endpoint : Str) : Except Str CollectionActionRoute := do
  let route ← actionRouteContract method endpoint
  match collectionActionRoutes.find? fun r => r.1 = route.kind with
  | some r => return r.2
  | none => .error "assistant action endpoint is not executable"

/-! ### Payloads -/

def fromPayload {T : Type} (decoder : StructDecoder T) (payload : Json) : Except Str T :=
  (decoder.fromValue payload).mapError fun e => ("invalid assistant action payload: " : Str) ++ e

def requirePayload {T : Type} (decoder : StructDecoder T) (payload : Json) : Except Str Unit :=
  (fromPayload decoder payload).map fun _ => ()

variable (env : Env)

/-- A map of DNS entries. -/
def dnsPayload (payload : Json) : Except Str DnsOverrides :=
  match dnsMap dnsEntry payload with
  | some overrides => .ok overrides
  | none => .error (("invalid assistant action payload: " : Str) ++ env.serde.describeDns payload)

/-- The checks of payloads by the methods and endpoints they are for. -/
def payloadShapes (payload : Json) : List (Str × Str × Except Str Unit) :=
  [("POST", "/admin/rule-sets", requirePayload env.serde.ruleSet payload),
    ("POST", "/admin/map-remote-rules", requirePayload env.serde.mapRemoteRule payload),
    ("POST", "/admin/map-local-rules", requirePayload env.serde.mapLocalRule payload),
    ("POST", "/admin/access-rules", requirePayload env.serde.accessRule payload),
    ("POST", "/admin/breakpoints", requirePayload env.serde.breakpointRule payload),
    ("POST", "/admin/mock/rules", requirePayload env.serde.mockRule payload),
    ("POST", "/admin/scripts", requirePayload env.serde.luaScript payload),
    ("POST", "/admin/webhooks", requirePayload env.serde.webhook payload),
    ("POST", "/admin/throttling", requirePayload env.serde.throttling payload),
    ("POST", "/admin/capture-filter", requirePayload env.serde.captureFilter payload),
    ("POST", "/admin/dns", (dnsPayload env payload).map fun _ => ()),
    ("POST", "/admin/forward", requirePayload env.serde.forwardReq payload),
    ("POST", "/admin/forward/websocket", requirePayload env.serde.forwardWsReq payload),
    ("POST", "/admin/upstream-proxy",
      match payload.get? "upstream_proxy" with
      | some (.str _) | some .null => .ok ()
      | _ => .error "invalid assistant action payload: upstream_proxy must be a string or null")]

/-- The checks of payloads which replace an item, by the prefix of their endpoints. -/
def itemPayloadShapes (payload : Json) : List (Str × Except Str Unit) :=
  [("/admin/rule-sets", requirePayload env.serde.ruleSet payload),
    ("/admin/map-remote-rules", requirePayload env.serde.mapRemoteRule payload),
    ("/admin/map-local-rules", requirePayload env.serde.mapLocalRule payload),
    ("/admin/access-rules", requirePayload env.serde.accessRule payload),
    ("/admin/breakpoints", requirePayload env.serde.breakpointRule payload),
    ("/admin/mock/rules", requirePayload env.serde.mockRule payload),
    ("/admin/scripts", requirePayload env.serde.luaScript payload),
    ("/admin/webhooks", requirePayload env.serde.webhook payload)]

def validateActionPayloadShape (method endpoint : Str) (payload : Json) : Except Str Unit :=
  if method = "DELETE" then .ok ()
  else
    match (payloadShapes env payload).find? fun s => s.1 = method ∧ s.2.1 = endpoint with
    | some s => s.2.2
    | none =>
      match (itemPayloadShapes env payload).find? fun s => method = "PUT" ∧ (pathId endpoint s.1).isSome with
      | some s => s.2
      | none => .ok ()

/-! ### Collections -/

/-- What the collections have in common which are edited item by item. -/
structure ItemAction (T : Type) where
  name : CollectionName
  base : Str
  decoder : StructDecoder T
  check : T → Except Str T
  request : ItemRequest T → name.collection.Request
  notFound : Str
  /-- What is said of an endpoint which is neither the collection nor an item, and of another method. -/
  invalidEndpoint : Str
  unsupported : Str

def ItemAction.execute {T : Type} (c : ItemAction T) (method endpoint : Str) (payload : Json) : Call Str :=
  .ofExcept do
    if endpoint = c.base ∧ method = "POST" then
      let item ← fromPayload c.decoder payload
      let item ← c.check item
      return editCollection c.name c.notFound (c.request (.create env.newId item))
    else
      match pathId endpoint c.base with
      | none => .error c.invalidEndpoint
      | some id =>
        if method = "PUT" then
          let item ← fromPayload c.decoder payload
          let item ← c.check item
          return editCollection c.name c.notFound (c.request (.update id item))
        else if method = "DELETE" then return editCollection c.name c.notFound (c.request (.delete id))
        else .error c.unsupported

/-- The collections which `mutate_collection` is for. -/
def mutateAction {T : Type} (name : CollectionName) (base resource : Str) (decoder : StructDecoder T)
    (request : ItemRequest T → name.collection.Request) : ItemAction T where
  name := name
  base := base
  decoder := decoder
  check := .ok
  request := request
  notFound := resource ++ (" item not found" : Str)
  invalidEndpoint := resource ++ (" item endpoint is invalid" : Str)
  unsupported := ("unsupported " : Str) ++ resource ++ (" method" : Str)

def ruleSetsAction : ItemAction RewriteRuleSet :=
  mutateAction .ruleSets "/admin/rule-sets" "rule_sets" env.serde.ruleSet fun request => .item ⟨.assistant, request⟩

def mapRemoteAction : ItemAction MapRemoteRule :=
  mutateAction .mapRemoteRules "/admin/map-remote-rules" "map_remote" env.serde.mapRemoteRule fun request =>
    ⟨.assistant, request⟩

def ItemRequest.mapItem {S T : Type} (f : S → T) : ItemRequest S → ItemRequest T
  | .create newId item => .create newId (f item)
  | .update id item => .update id (f item)
  | .delete id => .delete id

/-- The inline body of a rule is not written to a file. -/
def mapLocalAction : ItemAction MapLocalBody :=
  mutateAction .mapLocalRules "/admin/map-local-rules" "map_local" env.serde.mapLocalRule fun request =>
    ⟨.assistant, ItemRequest.mapItem MapLocalBody.rule request⟩

def accessAction : ItemAction AccessRule :=
  mutateAction .accessRules "/admin/access-rules" "access" env.serde.accessRule fun request => ⟨.assistant, request⟩

/-- `execute_breakpoint_action`. -/
def breakpointAction : ItemAction BreakpointRule where
  name := .breakpoints
  base := "/admin/breakpoints"
  decoder := env.serde.breakpointRule
  check := .ok
  request := fun request => ⟨.assistant, request⟩
  notFound := "breakpoint not found"
  invalidEndpoint := "unsupported breakpoint action"
  unsupported := "unsupported breakpoint method"

/-- `execute_mock_action`. -/
def mockAction : ItemAction MockRule where
  name := .mockRules
  base := "/admin/mock/rules"
  decoder := env.serde.mockRule
  check := .ok
  request := fun request => .item ⟨.assistant, request⟩
  notFound := "mock rule not found"
  invalidEndpoint := "unsupported mock action"
  unsupported := "unsupported mock rule method"

/-- `execute_script_action`. -/
def scriptAction : ItemAction LuaScript where
  name := .luaScripts
  base := "/admin/scripts"
  decoder := env.serde.luaScript
  check := .ok
  request := fun request => ⟨.assistant, request⟩
  notFound := "script not found"
  invalidEndpoint := "unsupported script action"
  unsupported := "unsupported script method"

/-- `validate_webhook`. -/
def validateWebhook : WebhookConfig → Except Str WebhookConfig := checkWebhook env id id

/-- `execute_webhook_action`. -/
def webhookAction : ItemAction WebhookConfig where
  name := .webhooks
  base := "/admin/webhooks"
  decoder := env.serde.webhook
  check := validateWebhook env
  request := fun request => ⟨.assistant, request⟩
  notFound := "webhook not found"
  invalidEndpoint := "assistant action endpoint is not executable"
  unsupported := "unsupported webhook method"

/-- The start of `execute_collection_action`. -/
def executeDnsItem (method endpoint : Str) : Call Str :=
  match Str.stripPrefix "/admin/dns/" endpoint with
  | none => .refused "DNS collection replacement is handled as a direct action"
  | some id =>
    if method ≠ "DELETE" then .refused "DNS item endpoint supports DELETE only"
    else editCollection .dnsOverrides "DNS override not found" (.assistantDelete id)

def executeCollectionAction (method endpoint : Str) (payload : Json) : Call Str :=
  match CollectionActionRoute.classify method endpoint with
  | .error e => .refused e
  | .ok .dns => executeDnsItem method endpoint
  | .ok .ruleSets => (ruleSetsAction env).execute env method endpoint payload
  | .ok .mapRemote => (mapRemoteAction env).execute env method endpoint payload
  | .ok .mapLocal => (mapLocalAction env).execute env method endpoint payload
  | .ok .access => (accessAction env).execute env method endpoint payload
  | .ok .breakpoints => (breakpointAction env).execute env method endpoint payload
  | .ok .mock => (mockAction env).execute env method endpoint payload
  | .ok .scripts => (scriptAction env).execute env method endpoint payload
  | .ok .webhooks => (webhookAction env).execute env method endpoint payload

/-! ### Settings -/

def executeUpstreamProxy (payload : Json) : Call Str :=
  match ((payload.get? "upstream_proxy").bind Json.asStr).map Str.trim |>.filter fun s => !s.isEmpty with
  | none => saveValue .upstreamProxy none
  | some url => if env.proxyAll url then saveValue .upstreamProxy (some url) else .refused "invalid proxy URL"

/-- An action on sessions or on the network changes none of the resources. -/
def executeDirect (payload : Json) : DirectActionRoute → Call Str
  | .throttling => .ofExcept ((fromPayload env.serde.throttling payload).map (replaceValue .throttling))
  | .captureFilter => .ofExcept ((fromPayload env.serde.captureFilter payload).map (replaceValue .captureFilter))
  | .dns =>
    .ofExcept ((dnsPayload env payload).map fun overrides =>
      editCollection .dnsOverrides "DNS override not found" (.assistantReplace overrides))
  | .upstreamProxy => executeUpstreamProxy env payload
  | .clearSessions | .playback | .forward | .forwardWebSocket => .other

/-- `preconditions` is what `validate_action_preconditions` says at this moment. -/
def executeActionPayload (preconditions : List AssistantActionPrecondition → Except Str Unit)
    (action : AssistantAction) : Call Str :=
  .ofExcept do
    let _ ← validateActionRoute action.method action.endpoint action.payload
    preconditions action.preconditions
    let payload ← normalizeActionPayload action.method action.endpoint action.payload action.summary
    validateActionPayloadShape env action.method action.endpoint payload
    match DirectActionRoute.classify action.method action.endpoint with
    | some route => return executeDirect env payload route
    | none => return executeCollectionAction env action.method action.endpoint payload

end Assistant

end Oproxy
