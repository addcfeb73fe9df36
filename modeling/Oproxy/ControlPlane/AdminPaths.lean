import Oproxy.ControlPlane.AssistantActions
import Oproxy.ControlPlane.Router

/-!
# Endpoints of resources (`control_plane.rs`, `control_plane/assistant_action_contracts.rs`)

The endpoints which the contracts of the assistant and the router know alike: those of a resource, alone or with the id
of an item.  The router has routes of its own beside the ones for items, which take their ids away from them.
-/

namespace Oproxy

open Assistant

/-- The resources which actions are about. -/
inductive ResourceKind where
  | ruleSets | mapRemote | mapLocal | access | breakpoints | mock | scripts | webhooks | throttling | captureFilter
  | upstreamProxy | dns

namespace ResourceKind

def contract : ResourceKind → StaticActionEndpointContract
  | ruleSets => idCollection "/admin/rule-sets" "rule-sets" "rule_sets"
  | mapRemote => idCollection "/admin/map-remote-rules" "map-remote-rules" "map_remote"
  | mapLocal => idCollection "/admin/map-local-rules" "map-local-rules" "map_local"
  | access => idCollection "/admin/access-rules" "access-rules" "access"
  | breakpoints => idCollection "/admin/breakpoints" "breakpoints" "breakpoints"
  | mock => idCollection "/admin/mock/rules" "mock" "mock"
  | scripts => idCollection "/admin/scripts" "scripts" "scripts"
  | webhooks => ⟨"/admin/webhooks", "webhooks", .network, "webhooks", .idBackedCollection⟩
  | throttling => singleton "/admin/throttling" "throttling" "throttling"
  | captureFilter => singleton "/admin/capture-filter" "capture-filter" "capture_filter"
  | upstreamProxy => singleton "/admin/upstream-proxy" "upstream-proxy" "upstream_proxy"
  | dns => ⟨"/admin/dns", "dns", .mutate, "dns", .dnsOverrides⟩

def base (k : ResourceKind) : Str := k.contract.basePath

/-- The endpoint of the resource, or of one of its items. -/
def endpoint (k : ResourceKind) : Option Str → Str
  | none => k.base
  | some id => k.base ++ '/' :: id

/-- An id as an endpoint may have it. -/
def IsItemId (id : Str) : Prop := id ≠ [] ∧ '/' ∉ id

/-- The parameter of the route for the items of a resource. -/
def itemParam : ResourceKind → Option Str
  | throttling | captureFilter | upstreamProxy => none
  | dns => some "{host}"
  | _ => some "{id}"

/-- The names at the place of an id which have routes of their own. -/
def reserved : ResourceKind → List Str
  | ruleSets => ["reorder"]
  | mapRemote => ["test"]
  | mapLocal => ["fixtures"]
  | breakpoints => ["pending", "diagnostics"]
  | _ => []

def all : List ResourceKind :=
  [ruleSets, mapRemote, mapLocal, access, breakpoints, mock, scripts, webhooks, throttling, captureFilter,
    upstreamProxy, dns]

theorem mem_all (k : ResourceKind) : k ∈ all := by
  cases k <;> simp [all]

/-- The kind of a contract tells the contract. -/
def contractKnown (k : ResourceKind) : Bool :=
  actionEndpointContracts.all fun c => c.kind != k.contract.kind || c == k.contract

theorem contractKnown_all : all.all contractKnown = true := by
  decide +kernel

theorem contract_of_kind (k : ResourceKind) {c : StaticActionEndpointContract} (hc : c ∈ actionEndpointContracts)
    (hkind : c.kind = k.contract.kind) : c = k.contract := by
  have hknown := List.all_eq_true.1 (List.all_eq_true.1 contractKnown_all k k.mem_all) c hc
  rw [hkind] at hknown
  simpa using hknown

end ResourceKind

/-! ### Contracts -/

theorem matchEndpoint_eq_some {c : StaticActionEndpointContract} {endpoint : Str} {itemId : Option Str}
    (h : matchEndpoint c endpoint = some itemId) :
    (itemId = none ∧ endpoint = c.basePath) ∨
      ∃ id, itemId = some id ∧ endpoint = c.basePath ++ '/' :: id ∧ ResourceKind.IsItemId id := by
  unfold matchEndpoint at h
  split at h
  · rename_i hbase
    cases h
    exact Or.inl ⟨rfl, hbase⟩
  · split at h
    · rename_i id hid
      split at h
      · cases h
      · rename_i hclean
        cases h
        obtain ⟨rest, hrest, hslash⟩ := Option.bind_eq_some_iff.1 hid
        rw [Str.stripPrefix_eq_some] at hrest hslash
        simp only [Bool.or_eq_true, List.isEmpty_iff, decide_eq_true_eq, not_or] at hclean
        refine Or.inr ⟨id, rfl, ?_, hclean⟩
        rw [hrest, hslash]
        rfl
    · cases h

/-- What a contract for the endpoint of a resource says. -/
theorem of_actionRouteContract {method endpoint : Str} {route : AssistantActionRouteContract} (k : ResourceKind)
    (h : actionRouteContract method endpoint = .ok route) (hkind : route.kind = k.contract.kind) :
    endpoint = k.endpoint route.itemId ∧ (∀ id, route.itemId = some id → ResourceKind.IsItemId id) ∧
      methodFits k.contract.shape k.base route.itemId method.toAsciiUppercase = true ∧
      route.method = method.toAsciiUppercase := by
  simp only [actionRouteContract, Normalize.bind_eq_ok] at h
  obtain ⟨_, _, h⟩ := h
  split at h
  · cases h
  · rename_i contract itemId hfound
    obtain ⟨c, hc, hmatch⟩ := List.exists_of_findSome?_eq_some hfound
    obtain ⟨itemId', hmatch', heq⟩ := Option.map_eq_some_iff.1 hmatch
    cases heq
    obtain ⟨_, hfits, hroute⟩ := Normalize.bind_eq_ok.1 h
    cases hroute
    obtain rfl := k.contract_of_kind hc hkind
    have hmethod : methodFits k.contract.shape k.base itemId method.toAsciiUppercase = true := by
      unfold validateMethodForShape at hfits
      split at hfits
      · rename_i hfits'
        exact hfits'
      · cases hfits
    rcases matchEndpoint_eq_some hmatch' with ⟨rfl, hendpoint⟩ | ⟨id, rfl, hendpoint, hid⟩
    · refine ⟨hendpoint, ?_, hmethod, rfl⟩
      intro id heq
      cases heq
    · refine ⟨hendpoint, ?_, hmethod, rfl⟩
      intro id' heq
      cases heq
      exact hid

/-! ### Routes -/

namespace Router

/-- Whether a pattern may match a path of some segments and one more. -/
def couldMatch : List Str → List Str → Bool
  | [], _ => false
  | p :: ps, [] => Str.startsWith p "\x7b*" || ps.isEmpty
  | p :: ps, s :: ss => Str.startsWith p "\x7b*" || ((Str.startsWith p "\x7b" || p == s) && couldMatch ps ss)

theorem couldMatch_of_match {patterns segments : List Str} {last : Str}
    (h : matchSegments patterns (segments ++ [last]) = true) : couldMatch patterns segments = true := by
  induction segments generalizing patterns with
  | nil =>
    cases patterns with
    | nil => cases h
    | cons p ps =>
      unfold matchSegments at h
      unfold couldMatch
      cases ps with
      | nil => exact Bool.or_true _
      | cons q qs =>
        dsimp only [List.nil_append] at h
        split at h
        · rename_i hstar
          rw [hstar]
          rfl
        · split at h
          · simp [matchSegments] at h
          · simp [matchSegments] at h
  | cons s ss ih =>
    cases patterns with
    | nil => cases h
    | cons p ps =>
      rw [List.cons_append] at h
      unfold matchSegments at h
      unfold couldMatch
      split at h
      · rename_i hstar
        rw [hstar]
        rfl
      · split at h
        · rename_i hbrace
          obtain ⟨-, h⟩ := Bool.and_eq_true_iff.1 h
          rw [hbrace, ih h]
          simp
        · obtain ⟨heq, h⟩ := Bool.and_eq_true_iff.1 h
          rw [heq, ih h]
          simp

theorem couldMatch_concat (segments : List Str) (last : Str) : couldMatch (segments ++ [last]) segments = true := by
  induction segments with
  | nil => exact Bool.or_true _
  | cons s ss ih =>
    rw [List.cons_append]
    unfold couldMatch
    rw [ih, beq_self_eq_true]
    simp

/-- No segment stands for others. -/
def Literal (segments : List Str) : Prop :=
  ∀ s ∈ segments, Str.startsWith s "\x7b" = false ∧ Str.startsWith s "\x7b*" = false

instance (segments : List Str) : Decidable (Literal segments) := inferInstanceAs (Decidable (∀ s ∈ segments, _))

theorem eq_of_match {patterns segments : List Str} (hliteral : Literal patterns)
    (h : matchSegments patterns segments = true) : patterns = segments := by
  induction patterns generalizing segments with
  | nil =>
    cases segments with
    | nil => rfl
    | cons s ss => cases h
  | cons p ps ih =>
    cases segments with
    | nil => cases h
    | cons s ss =>
      obtain ⟨hp, hps⟩ := List.forall_mem_cons.1 hliteral
      unfold matchSegments at h
      rw [hp.1, hp.2] at h
      obtain ⟨heq, h⟩ := Bool.and_eq_true_iff.1 h
      rw [beq_iff_eq.1 heq, ih hps h]

theorem match_item {segments : List Str} (hliteral : Literal segments) {param id : Str}
    (hparam : Str.startsWith param "\x7b" = true) (hstar : Str.startsWith param "\x7b*" = false) (hid : id ≠ []) :
    matchSegments (segments ++ [param]) (segments ++ [id]) = true := by
  induction segments with
  | nil =>
    rw [List.nil_append, List.nil_append]
    unfold matchSegments
    rw [hstar, hparam]
    simp [hid, matchSegments]
  | cons s ss ih =>
    obtain ⟨hs, hss⟩ := List.forall_mem_cons.1 hliteral
    rw [List.cons_append, List.cons_append]
    unfold matchSegments
    rw [hs.1, hs.2, ih hss]
    simp

theorem split_concat (base : Str) {id : Str} (hid : '/' ∉ id) :
    Str.split '/' (base ++ '/' :: id) = Str.split '/' base ++ [id] := by
  have hlast : Str.split '/' id = [id] := List.splitOn_eq_singleton hid
  rw [← hlast]
  exact List.splitOn_append_cons_self base id

theorem split_injective {a b : Str} (h : Str.split '/' a = Str.split '/' b) : a = b := by
  have hjoin := congrArg (List.intercalate ['/']) h
  unfold Str.split at hjoin
  rwa [List.intercalate_splitOn, List.intercalate_splitOn] at hjoin

end Router

namespace ResourceKind

open Router

def baseMethods : ResourceKind → List Str
  | throttling => ["GET", "PUT", "POST"]
  | _ => ["GET", "POST"]

def itemMethods : ResourceKind → List Str
  | ruleSets => ["GET", "PUT", "DELETE"]
  | _ => ["PUT", "DELETE"]

/-- The route of a resource, and the one for its items. -/
def baseRoute (k : ResourceKind) : Route where
  pattern := k.base
  methods := k.baseMethods

def itemRoute (k : ResourceKind) (param : Str) : Route where
  pattern := k.base ++ '/' :: param
  methods := k.itemMethods

/-- What the table of routes says of an item: its path is matched by the one route for items, or by the route of a
reserved name, which has no handler for a change. -/
def itemRouteKnown (k : ResourceKind) (param : Str) : Bool :=
  controlPlaneRouter.contains (k.itemRoute param) &&
    (controlPlaneRouter.all fun r =>
      !couldMatch (Str.split '/' r.pattern) (Str.split '/' k.base) || r == k.itemRoute param ||
        k.reserved.any fun name => r.pattern == k.base ++ '/' :: name) &&
    k.reserved.all fun name => (routeFor (k.base ++ '/' :: name)).any fun r =>
      r.methods.all fun m => m.toAsciiUppercase == m && m != "PUT" && m != "DELETE"

def routesKnown (k : ResourceKind) : Bool :=
  routeFor k.base == some k.baseRoute && k.itemParam.all fun param => k.itemRouteKnown param

/-- The table of routes is read once for all resources. -/
theorem routesKnown_all : all.all routesKnown = true := by
  decide +kernel

theorem routeFor_base (k : ResourceKind) : routeFor k.base = some k.baseRoute := by
  have hknown := List.all_eq_true.1 routesKnown_all k k.mem_all
  exact beq_iff_eq.1 (Bool.and_eq_true_iff.1 hknown).1

theorem itemRouteKnown_of_param (k : ResourceKind) {param : Str} (hparam : k.itemParam = some param) :
    k.itemRouteKnown param = true := by
  have hknown := (Bool.and_eq_true_iff.1 (List.all_eq_true.1 routesKnown_all k k.mem_all)).2
  rw [hparam] at hknown
  exact hknown

/-- The segments of the endpoints are no patterns. -/
theorem literal_endpoint (k : ResourceKind) :
    Literal (Str.split '/' k.base) ∧ ∀ name ∈ k.reserved, Literal (Str.split '/' (k.base ++ '/' :: name)) := by
  cases k <;> decide +kernel

theorem startsWith_param (k : ResourceKind) {param : Str} (hparam : k.itemParam = some param) :
    Str.startsWith param "\x7b" = true ∧ Str.startsWith param "\x7b*" = false ∧ '/' ∉ param := by
  cases k <;> cases hparam <;> decide +kernel

/-- A path with an id has the route for items, unless a route of its own takes the id. -/
theorem routeFor_item (k : ResourceKind) {param id : Str} (hparam : k.itemParam = some param) (hid : IsItemId id)
    (hreserved : id ∉ k.reserved) : routeFor (k.base ++ '/' :: id) = some (k.itemRoute param) := by
  have hknown := k.itemRouteKnown_of_param hparam
  unfold itemRouteKnown at hknown
  simp only [Bool.and_eq_true, List.contains_iff_mem, List.all_eq_true] at hknown
  obtain ⟨⟨hmem, hall⟩, -⟩ := hknown
  obtain ⟨hbrace, hstar, hslash⟩ := k.startsWith_param hparam
  have hsplit := split_concat k.base hid.2
  -- no other route matches
  have hunique : ∀ r ∈ controlPlaneRouter,
      (r.pattern = k.base ++ '/' :: id ∨ Route.matchPath r (k.base ++ '/' :: id) = true) → r = k.itemRoute param := by
    intro r hr hmatch
    have hcould : couldMatch (Str.split '/' r.pattern) (Str.split '/' k.base) = true := by
      rcases hmatch with heq | hmatch
      · rw [heq, hsplit]
        exact couldMatch_concat _ _
      · unfold Route.matchPath at hmatch
        rw [hsplit] at hmatch
        exact couldMatch_of_match hmatch
    have hr := hall r hr
    rw [hcould] at hr
    simp only [Bool.not_true, Bool.false_or, Bool.or_eq_true, beq_iff_eq, List.any_eq_true] at hr
    rcases hr with hitem | ⟨name, hname, hpattern⟩
    · exact hitem
    · have heq : k.base ++ '/' :: name = k.base ++ '/' :: id := by
        rcases hmatch with heq | hmatch
        · rw [← hpattern, heq]
        · unfold Route.matchPath at hmatch
          rw [hpattern] at hmatch
          exact split_injective (eq_of_match (k.literal_endpoint.2 name hname) hmatch)
      rw [List.append_cancel_left_eq, List.cons.injEq] at heq
      exact absurd (heq.2 ▸ hname) hreserved
  have hmatch : Route.matchPath (k.itemRoute param) (k.base ++ '/' :: id) = true := by
    unfold Route.matchPath itemRoute
    dsimp only
    rw [split_concat k.base hslash, hsplit]
    exact match_item k.literal_endpoint.1 hbrace hstar hid.1
  unfold routeFor
  cases hexact : controlPlaneRouter.find? fun r => r.pattern == k.base ++ '/' :: id with
  | some r =>
    have hpattern := List.find?_some hexact
    rw [hunique r (List.mem_of_find?_eq_some hexact) (Or.inl (beq_iff_eq.1 hpattern))]
    rfl
  | none =>
    cases hfound : controlPlaneRouter.find? fun r => Route.matchPath r (k.base ++ '/' :: id) with
    | some r =>
      have hpath := List.find?_some hfound
      rw [hunique r (List.mem_of_find?_eq_some hfound) (Or.inr hpath)]
      rfl
    | none => exact absurd hmatch (List.find?_eq_none.1 hfound _ hmem)

/-- The reserved names are served for no change. -/
theorem routeFor_reserved (k : ResourceKind) {param name : Str} (hparam : k.itemParam = some param)
    (hname : name ∈ k.reserved) : ∃ r, routeFor (k.base ++ '/' :: name) = some r ∧
      ∀ m ∈ r.methods, m.toAsciiUppercase = m ∧ m ≠ "PUT" ∧ m ≠ "DELETE" := by
  have hknown := k.itemRouteKnown_of_param hparam
  unfold itemRouteKnown at hknown
  have hreserved := List.all_eq_true.1 (Bool.and_eq_true_iff.1 hknown).2 name hname
  obtain ⟨r, hr, hmethods⟩ := (Option.any_eq_true _ _).1 hreserved
  refine ⟨r, hr, fun m hm => ?_⟩
  have hm := List.all_eq_true.1 hmethods m hm
  simp only [Bool.and_eq_true, beq_iff_eq, bne_iff_ne] at hm
  exact ⟨hm.1.1, hm.1.2, hm.2⟩

/-- The pattern of the route for an endpoint. -/
def pattern (k : ResourceKind) : Option Str → Str
  | none => k.base
  | some _ => k.base ++ '/' :: k.itemParam.getD []

theorem methods_upper (k : ResourceKind) :
    (∀ m ∈ k.baseMethods, m.toAsciiUppercase = m) ∧ ∀ m ∈ k.itemMethods, m.toAsciiUppercase = m := by
  cases k <;> decide +kernel

/-- Which methods the contracts allow. -/
theorem methodFits_base (k : ResourceKind) {method : Str} (h : methodFits k.contract.shape k.base none method = true) :
    method = "POST" ∧ method ∈ k.baseMethods := by
  have hpost : method = "POST" := by
    cases k <;> exact of_decide_eq_true h
  refine ⟨hpost, ?_⟩
  rw [hpost]
  cases k <;> decide +kernel

theorem methodFits_item (k : ResourceKind) {method id : Str}
    (h : methodFits k.contract.shape k.base (some id) method = true) :
    (method = "PUT" ∨ method = "DELETE") ∧ method ∈ k.itemMethods ∧ ∃ param, k.itemParam = some param := by
  have hmethod : method = "PUT" ∨ method = "DELETE" := by
    cases k <;> first
      | exact of_decide_eq_true h
      | exact Or.inr (of_decide_eq_true h)
      | cases h
  refine ⟨hmethod, ?_, ?_⟩
  · rcases hmethod with rfl | rfl <;> cases k <;> simp [itemMethods]
  · cases k <;> first
      | exact ⟨_, rfl⟩
      | cases h

theorem handlerFor_of_route {method path : Str} {r : Route} (hroute : routeFor path = some r)
    (hmethod : method ≠ "HEAD") :
    handlerFor method path = if method ∈ r.methods then some (.route r.pattern method) else none := by
  unfold handlerFor
  rw [hroute]
  dsimp only
  by_cases hmem : method ∈ r.methods
  · rw [if_pos (List.contains_iff_mem.2 hmem), if_pos hmem]
  · rw [if_neg (mt List.contains_iff_mem.1 hmem), if_neg hmem, if_neg fun hhead => hmethod hhead.1]

/-- A route has a handler for a method in upper case. -/
theorem mem_methods_iff {methods : List Str} (hupper : ∀ m ∈ methods, m.toAsciiUppercase = m) {method : Str}
    (hmem : method.toAsciiUppercase ∈ methods) : method ∈ methods ↔ method.toAsciiUppercase = method := by
  constructor
  · exact hupper method
  · intro heq
    rw [← heq]
    exact hmem

/-- A handler takes a change with its method as it stands, at a name which no other route has. -/
theorem handlerFor_endpoint (k : ResourceKind) {itemId : Option Str} (hid : ∀ id, itemId = some id → IsItemId id)
    {method : Str} (hfits : methodFits k.contract.shape k.base itemId method.toAsciiUppercase = true) :
    handlerFor method (k.endpoint itemId) =
      if method.toAsciiUppercase = method ∧ ∀ id ∈ itemId, id ∉ k.reserved then some (.route (k.pattern itemId) method)
      else none := by
  cases itemId with
  | none =>
    obtain ⟨hpost, hmem⟩ := k.methodFits_base hfits
    have hhead : method ≠ "HEAD" := by
      rintro rfl
      exact absurd hpost (by decide +kernel)
    have hroute := handlerFor_of_route k.routeFor_base hhead
    have hupper : method ∈ k.baseRoute.methods ↔ method.toAsciiUppercase = method :=
      mem_methods_iff k.methods_upper.1 hmem
    simp only [hupper] at hroute
    simpa [endpoint, pattern, baseRoute] using hroute
  | some id =>
    obtain ⟨hchange, hmem, param, hparam⟩ := k.methodFits_item hfits
    have hhead : method ≠ "HEAD" := by
      rintro rfl
      exact absurd hchange (by decide +kernel)
    by_cases hreserved : id ∈ k.reserved
    · obtain ⟨r, hr, hmethods⟩ := k.routeFor_reserved hparam hreserved
      have hnone : method ∉ r.methods := by
        intro hin
        obtain ⟨hupper, hput, hdelete⟩ := hmethods method hin
        rw [hupper] at hchange
        exact hchange.elim hput hdelete
      have hroute := handlerFor_of_route hr hhead
      rw [if_neg hnone] at hroute
      rw [if_neg fun h => h.2 id rfl hreserved]
      exact hroute
    · have hroute := handlerFor_of_route (k.routeFor_item hparam (hid id rfl) hreserved) hhead
      have hupper : method ∈ (k.itemRoute param).methods ↔ method.toAsciiUppercase = method :=
        mem_methods_iff k.methods_upper.2 hmem
      simp only [hupper] at hroute
      simpa [endpoint, pattern, hparam, hreserved, itemRoute] using hroute

end ResourceKind

end Oproxy
