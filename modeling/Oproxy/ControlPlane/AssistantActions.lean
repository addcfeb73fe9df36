import Oproxy.ControlPlane.WorkspaceActions

/-!
# Assistant actions (`control_plane/assistant_actions.rs`, `assistant_action_contracts.rs`)

What the assistant may propose: a method, an admin endpoint and a payload, within the contracts of the endpoints.  A
payload is normalised before it is carried out.
-/

namespace Oproxy

namespace Assistant

inductive AssistantActionRisk where
  | mutate | network | destructive
  deriving DecidableEq

structure AssistantActionPrecondition where
  resource : Str
  expectedHash : Str
  message : Str

structure AssistantAction where
  actionId : Str
  confirmationToken : Str
  kind : Str
  summary : Str
  risk : AssistantActionRisk
  endpoint : Str
  method : Str
  payload : Json
  requiresConfirmation : Bool
  preconditions : List AssistantActionPrecondition

/-! ### Contracts -/

inductive ActionEndpointShape where
  | idBackedCollection | singleton | dnsOverrides
  deriving DecidableEq

structure StaticActionEndpointContract where
  basePath : Str
  kind : Str
  risk : AssistantActionRisk
  refreshedResource : Str
  shape : ActionEndpointShape
  deriving DecidableEq

structure AssistantActionRouteContract where
  basePath : Str
  endpoint : Str
  method : Str
  kind : Str
  risk : AssistantActionRisk
  refreshedResources : List Str
  shape : ActionEndpointShape
  itemId : Option Str

def idCollection (basePath kind refreshedResource : Str) : StaticActionEndpointContract :=
  ⟨basePath, kind, .mutate, refreshedResource, .idBackedCollection⟩

def singleton (basePath kind refreshedResource : Str) : StaticActionEndpointContract :=
  ⟨basePath, kind, .mutate, refreshedResource, .singleton⟩

def actionEndpointContracts : List StaticActionEndpointContract :=
  [idCollection "/admin/rule-sets" "rule-sets" "rule_sets",
    idCollection "/admin/map-remote-rules" "map-remote-rules" "map_remote",
    idCollection "/admin/map-local-rules" "map-local-rules" "map_local",
    idCollection "/admin/access-rules" "access-rules" "access",
    idCollection "/admin/breakpoints" "breakpoints" "breakpoints",
    idCollection "/admin/mock/rules" "mock" "mock",
    idCollection "/admin/scripts" "scripts" "scripts",
    ⟨"/admin/webhooks", "webhooks", .network, "webhooks", .idBackedCollection⟩,
    singleton "/admin/throttling" "throttling" "throttling",
    singleton "/admin/capture-filter" "capture-filter" "capture_filter",
    singleton "/admin/upstream-proxy" "upstream-proxy" "upstream_proxy",
    ⟨"/admin/dns", "dns", .mutate, "dns", .dnsOverrides⟩,
    ⟨"/admin/forward/websocket", "forward-websocket", .network, "sessions", .singleton⟩,
    ⟨"/admin/forward", "forward", .network, "sessions", .singleton⟩,
    ⟨"/admin/playback", "playback", .network, "sessions", .singleton⟩,
    ⟨"/admin/sessions", "sessions", .destructive, "sessions", .singleton⟩]

def idBackedCollectionBases : List Str :=
  (actionEndpointContracts.filter fun c => c.shape = .idBackedCollection).map StaticActionEndpointContract.basePath

def validateRouteSyntax (method endpoint : Str) : Except Str Unit :=
  if method ∉ (["POST", "PUT", "DELETE"] : List Str) then
    .error "assistant actions only support POST, PUT, and DELETE"
  else if !Str.startsWith endpoint "/admin/" || Str.contains ".." endpoint || '?' ∈ endpoint ||
      '#' ∈ endpoint then
    .error "assistant action endpoint must be a clean admin path"
  else .ok ()

/-- The item id of an endpoint of a contract, where it is one. -/
def matchEndpoint (contract : StaticActionEndpointContract) (endpoint : Str) : Option (Option Str) :=
  if endpoint = contract.basePath then some none
  else
    match (Str.stripPrefix contract.basePath endpoint).bind (Str.stripPrefix "/") with
    | some id => if id.isEmpty || '/' ∈ id then none else some (some id)
    | none => none

def methodFits (shape : ActionEndpointShape) (basePath : Str) (itemId : Option Str) (method : Str) : Bool :=
  match shape, itemId with
  | .idBackedCollection, none => method = "POST"
  | .idBackedCollection, some _ => method = "PUT" ∨ method = "DELETE"
  | .dnsOverrides, none => method = "POST"
  | .dnsOverrides, some _ => method = "DELETE"
  | .singleton, none => if basePath = "/admin/sessions" then method = "DELETE" else method = "POST"
  | .singleton, some _ => false

def validateMethodForShape (method : Str) (contract : StaticActionEndpointContract) (itemId : Option Str) :
    Except Str Unit :=
  if methodFits contract.shape contract.basePath itemId method then .ok ()
  else .error (("assistant action endpoint '" : Str) ++ contract.basePath ++ ("' does not support " : Str) ++ method ++
    (if itemId.isSome then (" with an item id" : Str) else []))

def actionRouteContract (method endpoint : Str) : Except Str AssistantActionRouteContract := do
  let method := method.toAsciiUppercase
  validateRouteSyntax method endpoint
  match actionEndpointContracts.findSome? fun contract => (matchEndpoint contract endpoint).map fun id =>
      (contract, id) with
  | none => .error (("assistant action endpoint '" : Str) ++ endpoint ++ ("' is not allowlisted" : Str))
  | some (contract, itemId) =>
    validateMethodForShape method contract itemId
    return {
      basePath := contract.basePath
      endpoint := endpoint
      method := method
      kind := contract.kind
      risk := if method = "DELETE" then .destructive else contract.risk
      refreshedResources := [contract.refreshedResource]
      shape := contract.shape
      itemId := itemId }

def validateActionRoute (method endpoint : Str) (payload : Json) : Except Str AssistantActionRouteContract := do
  let route ← actionRouteContract method endpoint
  if route.method ≠ "DELETE" ∧ payload.isNull then .error "assistant action payload is required" else return route

/-- The item id behind a prefix. -/
def pathId (endpoint base : Str) : Option Str :=
  ((Str.stripPrefix base endpoint).bind (Str.stripPrefix "/")).filter fun id => !id.isEmpty

/-! ### Normalised payloads -/

/-- Put a member in its place; the members of an object are in the order of their keys. -/
def insertMember (key : Str) (value : Json) : List (Str × Json) → List (Str × Json)
  | [] => [(key, value)]
  | m :: members => if key < m.1 then (key, value) :: m :: members else m :: insertMember key value members

def containsKey (members : List (Str × Json)) (key : Str) : Bool := members.any fun m => m.1 = key

def ensureObjectField (key : Str) (value : Json) (members : List (Str × Json)) : List (Str × Json) :=
  if containsKey members key then members else insertMember key value members

def isBreakpointPayload (members : List (Str × Json)) : Bool := containsKey members "bp_type"

def ensureRuleName (summary : Str) (members : List (Str × Json)) : List (Str × Json) :=
  if containsKey members "name" || isBreakpointPayload members then members
  else
    let name := summary.trim
    insertMember "name" (.str (if name.isEmpty then "Assistant generated rule" else name)) members

def ensureLocation (members : List (Str × Json)) : List (Str × Json) :=
  if containsKey members "location" || containsKey members "url" || containsKey members "code" then members
  else insertMember "location" (.obj []) members

/-- The id which a payload is given where it has none: that of the endpoint, or none yet. -/
def defaultItemId (method endpoint : Str) : Option Str :=
  idBackedCollectionBases.findSome? fun base =>
    if endpoint = base ∧ method = "POST" then some []
    else if method = "PUT" then pathId endpoint base
    else none

def normalizeActionPayload (method endpoint : Str) (payload : Json) (summary : Str) : Except Str Json :=
  if method = "DELETE" ∨ payload.isNull then .ok payload
  else
    match AssistantPayload.repairAssistantPayload payload with
    | .obj members =>
      match defaultItemId method endpoint with
      | some id =>
        let members := ensureObjectField "id" (.str id) members
        let members := ensureObjectField "enabled" (.bool true) members
        .ok (.obj (ensureLocation (ensureRuleName summary members)))
      | none => .ok (.obj members)
    | _ => .error "assistant action payload must be a JSON object"

end Assistant

end Oproxy
