import Oproxy.ControlPlane.PayloadRepair
import Oproxy.ControlPlane.ResourceActions

/-!
# Proposed actions (`control_plane/assistant_actions.rs`)

What the assistant proposes is checked before the operator sees it.  The contracts of the endpoints, the table of direct
actions and the collections each read the method and the endpoint for themselves; they agree on whatever was proposed.
-/

namespace Oproxy

open Persisted Mutations

namespace Assistant

/-! ### Proposals -/

variable (env : Env)

/-- A text among the arguments. -/
def textArgument (args : Json) (key : Str) : Option Str := (args.get? key).bind Json.asStr

def proposeAction (args : Json) : Except Str AssistantAction := do
  let method := ((textArgument args "method").getD []).toAsciiUppercase
  let endpoint := (textArgument args "endpoint").getD []
  let payload := (args.get? "payload").getD .null
  let summary := ((textArgument args "summary").filter fun s => !s.trim.isEmpty).getD
    "Apply assistant-proposed oproxy change"
  let route ← validateActionRoute method endpoint payload
  let payload ← normalizeActionPayload method endpoint payload summary
  validateActionPayloadShape env method endpoint payload
  return {
    actionId := []
    confirmationToken := []
    kind := route.kind
    summary := summary
    risk := route.risk
    endpoint := endpoint
    method := method
    payload := payload
    requiresConfirmation := true
    preconditions := [] }

/-! ### Preconditions -/

/-- The values which preconditions are about. -/
structure PreconditionView where
  captureFilter : Json
  dns : Json
  throttling : Json
  upstreamProxy : Json
  stableValueHash : Json → Str

def PreconditionView.current (view : PreconditionView) (resource : Str) : Option Json :=
  if resource = "capture_filter" then some view.captureFilter
  else if resource = "dns" then some view.dns
  else if resource = "throttling" then some view.throttling
  else if resource = "upstream_proxy" then some view.upstreamProxy
  else none

def validateActionPreconditions (view : PreconditionView) : List AssistantActionPrecondition → Except Str Unit
  | [] => .ok ()
  | precondition :: preconditions =>
    match view.current precondition.resource with
    | none =>
      .error (("assistant action precondition references unsupported resource '" : Str) ++ precondition.resource ++
        ("'" : Str))
    | some current =>
      if view.stableValueHash current ≠ precondition.expectedHash then
        .error (("assistant action precondition failed: " : Str) ++ precondition.message)
      else validateActionPreconditions view preconditions

/-! ### Arms -/

/-- An arm of `execute_action_payload` or of `execute_collection_action`. -/
inductive ActionArm where
  | direct (route : DirectActionRoute)
  | collection (route : CollectionActionRoute)

def ActionArm.reached (method endpoint : Str) : Except Str ActionArm :=
  match DirectActionRoute.classify method endpoint with
  | some route => .ok (.direct route)
  | none => (CollectionActionRoute.classify method endpoint).map .collection

def CollectionActionRoute.itemAction : CollectionActionRoute → Option (Sigma ItemAction)
  | .dns => none
  | .ruleSets => some ⟨_, ruleSetsAction env⟩
  | .mapRemote => some ⟨_, mapRemoteAction env⟩
  | .mapLocal => some ⟨_, mapLocalAction env⟩
  | .access => some ⟨_, accessAction env⟩
  | .breakpoints => some ⟨_, breakpointAction env⟩
  | .mock => some ⟨_, mockAction env⟩
  | .scripts => some ⟨_, scriptAction env⟩
  | .webhooks => some ⟨_, webhookAction env⟩

/-- The branches of a collection, behind its tests of the method and the endpoint. -/
def ItemAction.create {T : Type} (c : ItemAction T) (payload : Json) : Call Str :=
  .ofExcept do
    let item ← fromPayload c.decoder payload
    let item ← c.check item
    return editCollection c.name c.notFound (c.request (.create env.newId item))

def ItemAction.update {T : Type} (c : ItemAction T) (id : Str) (payload : Json) : Call Str :=
  .ofExcept do
    let item ← fromPayload c.decoder payload
    let item ← c.check item
    return editCollection c.name c.notFound (c.request (.update id item))

def ItemAction.delete {T : Type} (c : ItemAction T) (id : Str) : Call Str :=
  editCollection c.name c.notFound (c.request (.delete id))

/-- The tests of an arm accept the method and the endpoint: the arm acts on this item, or on none, with this call. -/
inductive ActionArm.Accepts (method endpoint : Str) (payload : Json) : ActionArm → Option Str → Call Str → Prop
  | direct {route : DirectActionRoute} (h : (method, endpoint, route) ∈ directActionRoutes) :
    Accepts method endpoint payload (.direct route) none (executeDirect env payload route)
  | create {route : CollectionActionRoute} {T : Type} {c : ItemAction T} (hc : route.itemAction env = some ⟨T, c⟩)
    (hmethod : method = "POST") (hendpoint : endpoint = c.base) :
    Accepts method endpoint payload (.collection route) none (c.create env payload)
  | update {route : CollectionActionRoute} {T : Type} {c : ItemAction T} (hc : route.itemAction env = some ⟨T, c⟩)
    {id : Str} (hmethod : method = "PUT") (hendpoint : pathId endpoint c.base = some id) :
    Accepts method endpoint payload (.collection route) (some id) (c.update id payload)
  | delete {route : CollectionActionRoute} {T : Type} {c : ItemAction T} (hc : route.itemAction env = some ⟨T, c⟩)
    {id : Str} (hmethod : method = "DELETE") (hendpoint : pathId endpoint c.base = some id) :
    Accepts method endpoint payload (.collection route) (some id) (c.delete id)
  | deleteOverride {id : Str} (hmethod : method = "DELETE")
    (hendpoint : Str.stripPrefix "/admin/dns/" endpoint = some id) :
    Accepts method endpoint payload (.collection .dns) (some id)
      (editCollection .dnsOverrides "DNS override not found" (.assistantDelete id))

/-! ### One arm -/

theorem below_item (base id : Str) : base ++ ['/'] <+: base ++ '/' :: id := ⟨id, List.append_assoc _ _ _⟩

namespace CollectionActionRoute

def base : CollectionActionRoute → Str
  | .dns => "/admin/dns"
  | .ruleSets => "/admin/rule-sets"
  | .mapRemote => "/admin/map-remote-rules"
  | .mapLocal => "/admin/map-local-rules"
  | .access => "/admin/access-rules"
  | .breakpoints => "/admin/breakpoints"
  | .mock => "/admin/mock/rules"
  | .scripts => "/admin/scripts"
  | .webhooks => "/admin/webhooks"

def all : List CollectionActionRoute :=
  [.dns, .ruleSets, .mapRemote, .mapLocal, .access, .breakpoints, .mock, .scripts, .webhooks]

theorem mem_all (route : CollectionActionRoute) : route ∈ all := by
  cases route <;> decide

/-- No item of a collection is below another collection. -/
theorem bases_apart : ∀ a ∈ all, ∀ b ∈ all, (a.base ++ ['/']).isPrefixOf (b.base ++ ['/']) = true → a = b := by
  decide +kernel

theorem direct_apart : ∀ r ∈ directActionRoutes, ∀ c ∈ all,
    (c.base ++ ['/']).isPrefixOf r.2.1 = false ∧ (r.1 = "POST" → r.2.1 = c.base → c = .dns) := by
  decide +kernel

theorem eq_of_base {a b : CollectionActionRoute} (h : a.base = b.base) : a = b := by
  refine bases_apart a a.mem_all b b.mem_all ?_
  rw [h]
  exact List.isPrefixOf_iff_prefix.2 (List.prefix_refl _)

theorem eq_of_item {a b : CollectionActionRoute} {x y : Str} (h : a.base ++ '/' :: x = b.base ++ '/' :: y) : a = b := by
  have ha := below_item a.base x
  have hb := below_item b.base y
  rw [h] at ha
  rcases List.prefix_or_prefix_of_prefix ha hb with hab | hba
  · exact bases_apart a a.mem_all b b.mem_all (List.isPrefixOf_iff_prefix.2 hab)
  · exact (bases_apart b b.mem_all a a.mem_all (List.isPrefixOf_iff_prefix.2 hba)).symm

variable {env} {route : CollectionActionRoute} {T : Type} {c : ItemAction T}

theorem base_itemAction (hc : route.itemAction env = some ⟨T, c⟩) : c.base = route.base := by
  cases route with
  | dns => cases hc
  | _ =>
    cases hc
    rfl

theorem ne_dns_of_itemAction (hc : route.itemAction env = some ⟨T, c⟩) : route ≠ .dns := by
  rintro rfl
  cases hc

/-- The endpoint of an item. -/
theorem eq_item_of_pathId (hc : route.itemAction env = some ⟨T, c⟩) {endpoint id : Str}
    (h : pathId endpoint c.base = some id) : endpoint = route.base ++ '/' :: id := by
  obtain ⟨rest, hrest, hslash⟩ := Option.bind_eq_some_iff.1 (Option.filter_eq_some_iff.1 h).1
  rw [Str.stripPrefix_eq_some] at hrest hslash
  rw [hrest, hslash, base_itemAction hc]
  rfl

theorem eq_item_of_override {endpoint id : Str} (h : Str.stripPrefix "/admin/dns/" endpoint = some id) :
    endpoint = CollectionActionRoute.dns.base ++ '/' :: id := by
  rw [Str.stripPrefix_eq_some] at h
  rw [h]
  rfl

end CollectionActionRoute

theorem keys_directActionRoutes : (directActionRoutes.map fun r => (r.1, r.2.1)).Nodup := by
  decide +kernel

section

open CollectionActionRoute

variable {env} {method endpoint : Str} {payload : Json} {route : CollectionActionRoute} {direct : DirectActionRoute}

theorem direct_ne_item (hdirect : (method, endpoint, direct) ∈ directActionRoutes) (id : Str) :
    endpoint ≠ route.base ++ '/' :: id := by
  intro h
  have hapart := (direct_apart _ hdirect route route.mem_all).1
  dsimp only at hapart
  rw [h, List.isPrefixOf_iff_prefix.2 (below_item route.base id)] at hapart
  cases hapart

theorem direct_ne_create (hdirect : (method, endpoint, direct) ∈ directActionRoutes) (hmethod : method = "POST")
    (hroute : route ≠ .dns) : endpoint ≠ route.base := by
  intro h
  exact hroute ((direct_apart _ hdirect route route.mem_all).2 hmethod h)

theorem eq_of_direct {direct' : DirectActionRoute} (h : (method, endpoint, direct) ∈ directActionRoutes)
    (h' : (method, endpoint, direct') ∈ directActionRoutes) : direct = direct' :=
  congrArg (fun r => r.2.2) (List.inj_on_of_nodup_map keys_directActionRoutes h h' rfl)

/-- Two collections never take the same item. -/
theorem eq_of_pathId_itemAction {route' : CollectionActionRoute} {T T' : Type} {c : ItemAction T} {c' : ItemAction T'}
    {id id' : Str} (hc : route.itemAction env = some ⟨T, c⟩) (hc' : route'.itemAction env = some ⟨T', c'⟩)
    (h : pathId endpoint c.base = some id) (h' : pathId endpoint c'.base = some id') : route = route' := by
  have hitem := eq_item_of_pathId hc h
  rw [eq_item_of_pathId hc' h'] at hitem
  exact (eq_of_item hitem).symm

theorem override_ne_item {T : Type} {c : ItemAction T} {id id' : Str} (hc : route.itemAction env = some ⟨T, c⟩)
    (h : pathId endpoint c.base = some id) : Str.stripPrefix "/admin/dns/" endpoint ≠ some id' := by
  intro h'
  have hitem := eq_item_of_pathId hc h
  rw [eq_item_of_override h'] at hitem
  exact ne_dns_of_itemAction hc (eq_of_item hitem).symm

/-- Two arms never take the same action. -/
theorem ActionArm.accepts_unique {arm arm' : ActionArm} {target target' : Option Str} {call call' : Call Str}
    (h : arm.Accepts env method endpoint payload target call)
    (h' : arm'.Accepts env method endpoint payload target' call') :
    arm = arm' ∧ target = target' ∧ call = call' := by
  obtain ⟨hdelete, hput, hdeletePost, -⟩ := methods_known
  cases h with
  | direct hdirect =>
    cases h' with
    | direct hdirect' =>
      obtain rfl := eq_of_direct hdirect hdirect'
      exact ⟨rfl, rfl, rfl⟩
    | create hc hmethod hendpoint =>
      rw [base_itemAction hc] at hendpoint
      exact absurd hendpoint (direct_ne_create hdirect hmethod (ne_dns_of_itemAction hc))
    | update hc _ hid | delete hc _ hid => exact absurd (eq_item_of_pathId hc hid) (direct_ne_item hdirect _)
    | deleteOverride _ hid => exact absurd (eq_item_of_override hid) (direct_ne_item hdirect _)
  | create hc hmethod hendpoint =>
    cases h' with
    | direct hdirect =>
      rw [base_itemAction hc] at hendpoint
      exact absurd hendpoint (direct_ne_create hdirect hmethod (ne_dns_of_itemAction hc))
    | create hc' _ hendpoint' =>
      rw [base_itemAction hc] at hendpoint
      rw [base_itemAction hc', hendpoint] at hendpoint'
      obtain rfl := eq_of_base hendpoint'
      cases hc.symm.trans hc'
      exact ⟨rfl, rfl, rfl⟩
    | update _ hmethod' _ => exact absurd (hmethod'.symm.trans hmethod) hput
    | delete _ hmethod' _ | deleteOverride hmethod' _ => exact absurd (hmethod'.symm.trans hmethod) hdeletePost
  | update hc hmethod hid =>
    cases h' with
    | direct hdirect => exact absurd (eq_item_of_pathId hc hid) (direct_ne_item hdirect _)
    | create _ hmethod' _ => exact absurd (hmethod.symm.trans hmethod') hput
    | update hc' _ hid' =>
      obtain rfl := eq_of_pathId_itemAction hc hc' hid hid'
      cases hc.symm.trans hc'
      cases hid.symm.trans hid'
      exact ⟨rfl, rfl, rfl⟩
    | delete _ hmethod' _ | deleteOverride hmethod' _ => exact absurd (hmethod.symm.trans hmethod') hdelete
  | delete hc hmethod hid =>
    cases h' with
    | direct hdirect => exact absurd (eq_item_of_pathId hc hid) (direct_ne_item hdirect _)
    | create _ hmethod' _ => exact absurd (hmethod.symm.trans hmethod') hdeletePost
    | update _ hmethod' _ => exact absurd (hmethod'.symm.trans hmethod) hdelete
    | delete hc' _ hid' =>
      obtain rfl := eq_of_pathId_itemAction hc hc' hid hid'
      cases hc.symm.trans hc'
      cases hid.symm.trans hid'
      exact ⟨rfl, rfl, rfl⟩
    | deleteOverride _ hid' => exact absurd hid' (override_ne_item hc hid)
  | deleteOverride hmethod hid =>
    cases h' with
    | direct hdirect => exact absurd (eq_item_of_override hid) (direct_ne_item hdirect _)
    | create _ hmethod' _ => exact absurd (hmethod.symm.trans hmethod') hdeletePost
    | update _ hmethod' _ => exact absurd (hmethod'.symm.trans hmethod) hdelete
    | delete hc _ hid' => exact absurd hid (override_ne_item hc hid')
    | deleteOverride _ hid' =>
      cases hid.symm.trans hid'
      exact ⟨rfl, rfl, rfl⟩

end

/-! ### Contracts and arms -/

/-- The contract which a route is made of. -/
structure RouteOf (method endpoint : Str) (c : StaticActionEndpointContract) (route : AssistantActionRouteContract) :
    Prop where
  known : c ∈ actionEndpointContracts
  endpoint : matchEndpoint c endpoint = some route.itemId
  fits : methodFits c.shape c.basePath route.itemId method.toAsciiUppercase = true
  kind : route.kind = c.kind
  upper : route.method = method.toAsciiUppercase
  risk : route.risk = if method.toAsciiUppercase = "DELETE" then .destructive else c.risk

theorem exists_routeOf {method endpoint : Str} {route : AssistantActionRouteContract}
    (h : actionRouteContract method endpoint = .ok route) : ∃ c, RouteOf method endpoint c route := by
  simp only [actionRouteContract, Normalize.bind_eq_ok] at h
  obtain ⟨_, _, h⟩ := h
  split at h
  · cases h
  · rename_i contract itemId hfound
    obtain ⟨c, hc, hmatch⟩ := List.exists_of_findSome?_eq_some hfound
    obtain ⟨itemId', hmatch', heq⟩ := Option.map_eq_some_iff.1 hmatch
    cases heq
    obtain ⟨_, hfits, hroute⟩ := Normalize.bind_eq_ok.1 h
    cases hroute
    refine ⟨contract, hc, hmatch', ?_, rfl, rfl, rfl⟩
    unfold validateMethodForShape at hfits
    split at hfits
    · assumption
    · cases hfits

theorem bases_nodup : (actionEndpointContracts.map StaticActionEndpointContract.basePath).Nodup := by
  decide +kernel

/-- The only endpoint below another is below one that has no items. -/
theorem singleton_of_below : ∀ c ∈ actionEndpointContracts, ∀ c' ∈ actionEndpointContracts,
    (c.basePath ++ ['/']).isPrefixOf c'.basePath = true → c.shape = .singleton := by
  decide +kernel

theorem direct_of_singleton : ∀ c ∈ actionEndpointContracts, c.shape = .singleton →
    (DirectActionRoute.classify (if c.basePath = "/admin/sessions" then ("DELETE" : Str) else "POST")
      c.basePath).isSome = true := by
  decide +kernel

theorem exists_kind : ∀ c ∈ actionEndpointContracts, c.shape ≠ .singleton →
    c ∈ ResourceKind.all.map ResourceKind.contract := by
  decide +kernel

section

variable {c c' : StaticActionEndpointContract} {method endpoint : Str}

theorem methodFits_singleton {basePath : Str} {itemId : Option Str}
    (h : methodFits .singleton basePath itemId method = true) :
    itemId = none ∧ method = if basePath = "/admin/sessions" then ("DELETE" : Str) else "POST" := by
  cases itemId with
  | none =>
    refine ⟨rfl, ?_⟩
    unfold methodFits at h
    dsimp only at h
    split at h
    · rw [if_pos ‹_›]
      exact of_decide_eq_true h
    · rw [if_neg ‹_›]
      exact of_decide_eq_true h
  | some id => cases h

theorem not_below (hc : c ∈ actionEndpointContracts) (hc' : c' ∈ actionEndpointContracts) {id : Str}
    (hfits : methodFits c.shape c.basePath (some id) method = true) :
    (c.basePath ++ ['/']).isPrefixOf c'.basePath = false := by
  refine Bool.eq_false_iff.2 fun hbelow => ?_
  rw [singleton_of_below c hc c' hc' hbelow] at hfits
  cases hfits

/-- No two contracts are for the same endpoint with a permitted method. -/
theorem contract_unique (hc : c ∈ actionEndpointContracts) (hc' : c' ∈ actionEndpointContracts)
    {itemId itemId' : Option Str} (h : matchEndpoint c endpoint = some itemId)
    (h' : matchEndpoint c' endpoint = some itemId') (hfits : methodFits c.shape c.basePath itemId method = true)
    (hfits' : methodFits c'.shape c'.basePath itemId' method = true) : c = c' := by
  have hbase : c.basePath = c'.basePath := by
    rcases matchEndpoint_eq_some h with ⟨rfl, hendpoint⟩ | ⟨id, rfl, hendpoint, hid⟩ <;>
      rcases matchEndpoint_eq_some h' with ⟨rfl, hendpoint'⟩ | ⟨id', rfl, hendpoint', hid'⟩
    · exact hendpoint.symm.trans hendpoint'
    · have hbelow := not_below hc' hc hfits'
      rw [← hendpoint, hendpoint', List.isPrefixOf_iff_prefix.2 (below_item _ id')] at hbelow
      cases hbelow
    · have hbelow := not_below hc hc' hfits
      rw [← hendpoint', hendpoint, List.isPrefixOf_iff_prefix.2 (below_item _ id)] at hbelow
      cases hbelow
    · exact base_eq_of_endpoint hid.2 (hendpoint.symm.trans hendpoint') (not_below hc' hc hfits')
  exact List.inj_on_of_nodup_map bases_nodup hc hc' hbase

theorem classify_of_mem {direct : DirectActionRoute} (h : (method, endpoint, direct) ∈ directActionRoutes) :
    DirectActionRoute.classify method endpoint = some direct := by
  unfold DirectActionRoute.classify
  rw [find?_of_unique h (decide_eq_true ⟨rfl, rfl⟩)]
  · rfl
  · intro r hr hkey
    obtain ⟨hmethod, hendpoint⟩ := of_decide_eq_true hkey
    exact List.inj_on_of_nodup_map keys_directActionRoutes hr h (Prod.ext hmethod hendpoint)

theorem mem_of_classify {direct : DirectActionRoute} (h : DirectActionRoute.classify method endpoint = some direct) :
    (method, endpoint, direct) ∈ directActionRoutes := by
  obtain ⟨r, hr, rfl⟩ := Option.map_eq_some_iff.1 h
  have hkey := List.find?_some hr
  obtain ⟨hmethod, hendpoint⟩ := of_decide_eq_true hkey
  rw [← hmethod, ← hendpoint]
  exact List.mem_of_find?_eq_some hr

end

/-! ### Executed proposals -/

section

variable {env} {method endpoint : Str} {payload : Json} {route : AssistantActionRouteContract}

/-- What the two tables of arms make of an action. -/
def dispatch (env : Env) (method endpoint : Str) (payload : Json) : Call Str :=
  match DirectActionRoute.classify method endpoint with
  | some direct => executeDirect env payload direct
  | none => executeCollectionAction env method endpoint payload

/-- The arm which is reached takes the action. -/
def Dispatched (env : Env) (method endpoint : Str) (payload : Json) (target : Option Str) : Prop :=
  ∃ arm, ActionArm.reached method endpoint = .ok arm ∧
    arm.Accepts env method endpoint payload target (dispatch env method endpoint payload)

theorem dispatched_direct {direct : DirectActionRoute} (h : (method, endpoint, direct) ∈ directActionRoutes) :
    Dispatched env method endpoint payload none := by
  have hclassify := classify_of_mem h
  refine ⟨.direct direct, ?_, ?_⟩
  · unfold ActionArm.reached
    rw [hclassify]
  · unfold dispatch
    rw [hclassify]
    exact .direct h

/-- The collection of a resource whose items have ids. -/
theorem exists_itemAction (env : Env) {k : ResourceKind} (h : k.contract.shape = .idBackedCollection) :
    ∃ (route : CollectionActionRoute) (T : Type) (c : ItemAction T),
      collectionRoute k = some route ∧ route.itemAction env = some ⟨T, c⟩ ∧ IsActionOf k env c := by
  cases k with
  | ruleSets => exact ⟨_, _, _, rfl, rfl, isActionOf_ruleSets⟩
  | mapRemote => exact ⟨_, _, _, rfl, rfl, isActionOf_mapRemote⟩
  | mapLocal => exact ⟨_, _, _, rfl, rfl, isActionOf_mapLocal⟩
  | access => exact ⟨_, _, _, rfl, rfl, isActionOf_access⟩
  | breakpoints => exact ⟨_, _, _, rfl, rfl, isActionOf_breakpoints⟩
  | mock => exact ⟨_, _, _, rfl, rfl, isActionOf_mock⟩
  | scripts => exact ⟨_, _, _, rfl, rfl, isActionOf_scripts⟩
  | webhooks => exact ⟨_, _, _, rfl, rfl, isActionOf_webhooks⟩
  | throttling | captureFilter | upstreamProxy | dns => cases h

theorem execute_create {T : Type} (c : ItemAction T) (payload : Json) :
    c.execute env "POST" c.base payload = c.create env payload := by
  unfold ItemAction.execute
  rw [if_pos ⟨rfl, rfl⟩]
  rfl

theorem execute_update {T : Type} (c : ItemAction T) {id : Str} (hid : pathId endpoint c.base = some id)
    (payload : Json) :
    c.execute env "PUT" endpoint payload = c.update id payload := by
  unfold ItemAction.execute
  rw [if_neg fun h => methods_known.2.1 h.2, hid]
  dsimp only
  rw [if_pos rfl]
  rfl

theorem execute_delete {T : Type} (c : ItemAction T) {id : Str} (hid : pathId endpoint c.base = some id)
    (payload : Json) :
    c.execute env "DELETE" endpoint payload = c.delete id := by
  unfold ItemAction.execute
  rw [if_neg fun h => methods_known.2.2.1 h.2, hid]
  dsimp only
  rw [if_neg methods_known.1.symm, if_pos rfl]
  rfl

/-- An action on a collection reaches the arm of the collection. -/
theorem reached_collection {k : ResourceKind} (hroute : actionRouteContract method endpoint = .ok route)
    (hkind : route.kind = k.contract.kind) {collection : CollectionActionRoute}
    (hcollection : collectionRoute k = some collection) (hdirect : DirectActionRoute.classify method endpoint = none) :
    CollectionActionRoute.classify method endpoint = .ok collection ∧
      ActionArm.reached method endpoint = .ok (.collection collection) := by
  have hclassify := classify_collection hroute hkind
  rw [hcollection, Option.elim_some] at hclassify
  refine ⟨hclassify, ?_⟩
  unfold ActionArm.reached
  rw [hdirect, hclassify]
  rfl

theorem dispatched_item (env : Env) (payload : Json) {k : ResourceKind} (hupper : method.toAsciiUppercase = method)
    (hroute : actionRouteContract method endpoint = .ok route) (hkind : route.kind = k.contract.kind)
    (hshape : k.contract.shape = .idBackedCollection) :
    Dispatched env method endpoint payload route.itemId := by
  obtain ⟨hendpoint, hitem, hfits, -⟩ := of_actionRouteContract k hroute hkind
  rw [hshape, hupper] at hfits
  obtain ⟨collection, T, c, hcollection, haction, hk⟩ := exists_itemAction env hshape
  have hdirect : DirectActionRoute.classify method endpoint = none := by
    rw [hendpoint]
    cases hid : route.itemId with
    | none =>
      rw [hid] at hfits
      obtain rfl := of_decide_eq_true hfits
      exact (actionsKnown_all k k.mem_all).2.2.1.trans hk.direct
    | some id => exact classify_item k method id
  obtain ⟨hclassify, hreached⟩ := reached_collection hroute hkind hcollection hdirect
  refine ⟨.collection collection, hreached, ?_⟩
  unfold dispatch
  rw [hdirect]
  dsimp only
  rw [hk.collection _ _ _ (by rw [hclassify, hcollection]; rfl)]
  cases hid : route.itemId with
  | none =>
    rw [hid] at hfits hendpoint
    obtain rfl := of_decide_eq_true hfits
    have hbase : endpoint = c.base := hendpoint.trans hk.base.symm
    rw [hbase, execute_create]
    exact .create haction rfl rfl
  | some id =>
    rw [hid] at hfits hendpoint
    have hpath : pathId endpoint c.base = some id := by
      rw [hendpoint, hk.base]
      exact pathId_endpoint (hitem id hid).1
    rcases of_decide_eq_true hfits with rfl | rfl
    · rw [execute_update c hpath]
      exact .update haction rfl hpath
    · rw [execute_delete c hpath]
      exact .delete haction rfl hpath

theorem dispatched_dns (env : Env) (payload : Json) (hupper : method.toAsciiUppercase = method)
    (hroute : actionRouteContract method endpoint = .ok route) (hkind : route.kind = ResourceKind.dns.contract.kind) :
    Dispatched env method endpoint payload route.itemId := by
  obtain ⟨hendpoint, hitem, hfits, -⟩ := of_actionRouteContract .dns hroute hkind
  rw [hupper] at hfits
  cases hid : route.itemId with
  | none =>
    rw [hid] at hfits hendpoint
    obtain rfl := of_decide_eq_true hfits
    rw [hendpoint]
    exact dispatched_direct (List.mem_of_getElem? (i := 2) rfl)
  | some id =>
    rw [hid] at hfits hendpoint
    obtain rfl := of_decide_eq_true hfits
    have hdirect : DirectActionRoute.classify "DELETE" endpoint = none := by
      rw [hendpoint]
      exact classify_item .dns _ id
    obtain ⟨hclassify, hreached⟩ := reached_collection hroute hkind rfl hdirect
    have hstrip : Str.stripPrefix "/admin/dns/" endpoint = some id := by
      rw [Str.stripPrefix_eq_some, hendpoint]
      rfl
    refine ⟨_, hreached, ?_⟩
    unfold dispatch executeCollectionAction executeDnsItem
    rw [hdirect, hclassify, hstrip]
    exact .deleteOverride rfl hstrip

/-- Where a route is allowed, an arm takes the action, on the item that the route names. -/
theorem dispatched_of_route (env : Env) (payload : Json) (hupper : method.toAsciiUppercase = method)
    (hroute : actionRouteContract method endpoint = .ok route) :
    Dispatched env method endpoint payload route.itemId := by
  obtain ⟨c, hc⟩ := exists_routeOf hroute
  by_cases hshape : c.shape = .singleton
  · have hfits := hc.fits
    rw [hshape, hupper] at hfits
    obtain ⟨hnone, hmethod⟩ := methodFits_singleton hfits
    have hendpoint : endpoint = c.basePath := by
      rcases matchEndpoint_eq_some hc.endpoint with ⟨-, h⟩ | ⟨id, h, -⟩
      · exact h
      · rw [hnone] at h
        cases h
    obtain ⟨direct, hdirect⟩ := Option.isSome_iff_exists.1 (direct_of_singleton c hc.known hshape)
    rw [← hmethod, ← hendpoint] at hdirect
    rw [hnone]
    exact dispatched_direct (mem_of_classify hdirect)
  · obtain ⟨k, -, rfl⟩ := List.mem_map.1 (exists_kind c hc.known hshape)
    cases hkind : k.contract.shape with
    | singleton => exact absurd hkind hshape
    | idBackedCollection => exact dispatched_item env payload hupper hroute hc.kind hkind
    | dnsOverrides =>
      obtain rfl : k = .dns := by
        cases k with
        | dns => rfl
        | _ => cases hkind
      exact dispatched_dns env payload hupper hroute hc.kind

/-- Only lower-case letters are changed, and into letters that are none. -/
private theorem toUpper_cases (c : Char) : c.toUpper = c ∨ c.toUpper.val.toNat < 97 := by
  unfold Char.toUpper
  split
  · rename_i h
    have ha : ('a' : Char).val.toNat = 97 := rfl
    have hz : ('z' : Char).val.toNat = 122 := rfl
    have hd : (('A' : Char).val - ('a' : Char).val).toNat = 4294967264 := rfl
    simp only [UInt32.le_iff_toNat_le, ha, hz] at h
    right
    show (c.val + _).toNat < 97
    rw [UInt32.toNat_add, hd]
    omega
  · exact Or.inl rfl

private theorem toUpper_toUpper (c : Char) : c.toUpper.toUpper = c.toUpper := by
  rcases toUpper_cases c with h | h
  · rw [h, h]
  · generalize c.toUpper = d at h
    unfold Char.toUpper
    rw [dif_neg]
    rintro ⟨hge, -⟩
    have ha : ('a' : Char).val.toNat = 97 := rfl
    rw [UInt32.le_iff_toNat_le, ha] at hge
    omega

theorem toAsciiUppercase_idem (s : Str) : s.toAsciiUppercase.toAsciiUppercase = s.toAsciiUppercase := by
  unfold Str.toAsciiUppercase
  rw [List.map_map]
  exact List.map_congr_left fun c _ => toUpper_toUpper c

/-- What is proposed has passed the checks, and passes them again. -/
structure Proposed (env : Env) (action : AssistantAction) (route : AssistantActionRouteContract) : Prop where
  upper : action.method.toAsciiUppercase = action.method
  contract : actionRouteContract action.method action.endpoint = .ok route
  payload : ¬(route.method ≠ "DELETE" ∧ action.payload.isNull = true)
  normal : normalizeActionPayload action.method action.endpoint action.payload action.summary = .ok action.payload
  shape : validateActionPayloadShape env action.method action.endpoint action.payload = .ok ()
  preconditions : action.preconditions = []
  kind : action.kind = route.kind
  risk : action.risk = route.risk

theorem isNull_normalizeActionPayload {summary : Str} {normal : Json} (hmethod : method ≠ "DELETE")
    (hpayload : payload.isNull = false) (h : normalizeActionPayload method endpoint payload summary = .ok normal) :
    normal.isNull = false := by
  have hcase : ¬(method = "DELETE" ∨ payload.isNull = true) := by
    rintro (hdelete | hnull)
    · exact hmethod hdelete
    · rw [hpayload] at hnull
      cases hnull
  unfold normalizeActionPayload at h
  rw [if_neg hcase] at h
  split at h
  · split at h
    · cases h
      rfl
    · cases h
      rfl
  · cases h

theorem proposed_of_proposeAction {args : Json} {action : AssistantAction} (h : proposeAction env args = .ok action) :
    ∃ route, Proposed env action route := by
  simp only [proposeAction, Normalize.bind_eq_ok] at h
  obtain ⟨route, hroute, normal, hnormal, _, hshape, haction⟩ := h
  cases haction
  simp only [validateActionRoute, Normalize.bind_eq_ok] at hroute
  obtain ⟨route', hcontract, hroute⟩ := hroute
  split at hroute
  · cases hroute
  · rename_i hpayload
    cases hroute
    obtain ⟨c, hc⟩ := exists_routeOf hcontract
    refine ⟨route, toAsciiUppercase_idem _, hcontract, ?_, normalizeActionPayload_idem hnormal, hshape, rfl, rfl, rfl⟩
    rintro ⟨hmethod, hnull⟩
    have hnonnull : ((args.get? "payload").getD .null).isNull = false :=
      Bool.eq_false_iff.2 fun hnull' => hpayload ⟨hmethod, hnull'⟩
    rw [hc.upper, toAsciiUppercase_idem] at hmethod
    have hnormal' := isNull_normalizeActionPayload hmethod hnonnull hnormal
    dsimp only at hnull
    rw [hnormal'] at hnull
    cases hnull

/-- When it is carried out a proposal passes all the checks. -/
theorem Proposed.execute {action : AssistantAction} (h : Proposed env action route) (view : PreconditionView) :
    executeActionPayload env (validateActionPreconditions view) action =
      dispatch env action.method action.endpoint action.payload := by
  have hpreconditions : validateActionPreconditions view action.preconditions = .ok () := by
    rw [h.preconditions]
    rfl
  rw [executeActionPayload_eq ⟨h.contract, hpreconditions, h.normal⟩, if_neg h.payload, h.shape]
  unfold dispatch
  show Call.ofExcept (match DirectActionRoute.classify action.method action.endpoint with
    | some direct => _
    | none => _) = _
  cases DirectActionRoute.classify action.method action.endpoint <;> rfl

/-- What was proposed is carried out by the one arm whose tests accept it, on the item that its route names. -/
theorem proposeAction_dispatched (env : Env) (view : PreconditionView) {args : Json} {action : AssistantAction}
    (h : proposeAction env args = .ok action) :
    ∃ route, actionRouteContract action.method action.endpoint = .ok route ∧ action.kind = route.kind ∧
      action.risk = route.risk ∧ (action.method = "DELETE" → action.risk = .destructive) ∧
      (∀ c ∈ actionEndpointContracts, ∀ c' ∈ actionEndpointContracts, ∀ method endpoint itemId itemId',
        matchEndpoint c endpoint = some itemId → methodFits c.shape c.basePath itemId method = true →
          matchEndpoint c' endpoint = some itemId' → methodFits c'.shape c'.basePath itemId' method = true → c = c') ∧
      ∃ arm call, ActionArm.reached action.method action.endpoint = .ok arm ∧
        arm.Accepts env action.method action.endpoint action.payload route.itemId call ∧
        executeActionPayload env (validateActionPreconditions view) action = call ∧
        ∀ (arm' : ActionArm) (target' : Option Str) (call' : Call Str),
          arm'.Accepts env action.method action.endpoint action.payload target' call' →
            arm' = arm ∧ target' = route.itemId ∧ call' = call := by
  obtain ⟨route, hproposed⟩ := proposed_of_proposeAction h
  obtain ⟨arm, hreached, haccepts⟩ := dispatched_of_route env action.payload hproposed.upper hproposed.contract
  refine ⟨route, hproposed.contract, hproposed.kind, hproposed.risk, ?_, ?_, arm, _, hreached, haccepts,
    hproposed.execute view, ?_⟩
  · intro hdelete
    obtain ⟨c, hc⟩ := exists_routeOf hproposed.contract
    rw [hproposed.risk, hc.risk, hproposed.upper, if_pos hdelete]
  · intro c hc c' hc' method endpoint itemId itemId' hmatch hfits hmatch' hfits'
    exact contract_unique hc hc' hmatch hmatch' hfits hfits'
  · intro arm' target' call' haccepts'
    exact ActionArm.accepts_unique haccepts' haccepts

/-- A proposal to take a host out of the overrides. -/
def deletionArgs : Json :=
  .obj [("endpoint", .str "/admin/dns/api.test"), ("method", .str "delete")]

def deletionAction : AssistantAction where
  actionId := []
  confirmationToken := []
  kind := "dns"
  summary := "Apply assistant-proposed oproxy change"
  risk := .destructive
  endpoint := "/admin/dns/api.test"
  method := "DELETE"
  payload := .null
  requiresConfirmation := true
  preconditions := []

def emptyView : PreconditionView where
  captureFilter := .null
  dns := .null
  throttling := .null
  upstreamProxy := .null
  stableValueHash := fun _ => []

theorem proposeAction_deletion : proposeAction (envOf none) deletionArgs = .ok deletionAction := by
  rfl

/-- The proposal reaches the collection of overrides. -/
theorem proposeAction_dispatched_deletion : ∃ route arm call,
    actionRouteContract deletionAction.method deletionAction.endpoint = .ok route ∧
      ActionArm.reached deletionAction.method deletionAction.endpoint = .ok arm ∧
      arm.Accepts (envOf none) deletionAction.method deletionAction.endpoint deletionAction.payload route.itemId call ∧
      executeActionPayload (envOf none) (validateActionPreconditions emptyView) deletionAction = call := by
  obtain ⟨route, hroute, -, -, -, -, arm, call, hreached, haccepts, hcall, -⟩ :=
    proposeAction_dispatched (envOf none) emptyView proposeAction_deletion
  exact ⟨route, arm, call, hroute, hreached, haccepts, hcall⟩

end

end Assistant

end Oproxy
