import Oproxy.ControlPlane.ResourceRequests

/-!
# Actions on resources (`control_plane/assistant_actions.rs`)

Which check and which executor an action on a resource reaches, and what it does there.
-/

namespace Oproxy

open Persisted Mutations

namespace Assistant

variable {env : Env} {payload : Json} {memory : Memory}

/-! ### Checks and executors -/

theorem pathId_endpoint {base id : Str} (hid : id ≠ []) : pathId (base ++ '/' :: id) base = some id := by
  have hbase : Str.stripPrefix base (base ++ '/' :: id) = some ('/' :: id) := Str.stripPrefix_eq_some.2 rfl
  have hslash : Str.stripPrefix "/" ('/' :: id) = some id := Str.stripPrefix_eq_some.2 rfl
  unfold pathId
  rw [hbase, Option.bind_some, hslash]
  simp [hid]

theorem eq_of_pathId {base endpoint : Str} (h : (pathId endpoint base).isSome = true) :
    ∃ id, endpoint = base ++ '/' :: id := by
  obtain ⟨id, hid⟩ := Option.isSome_iff_exists.1 h
  obtain ⟨rest, hrest, hslash⟩ := Option.bind_eq_some_iff.1 (Option.filter_eq_some_iff.1 hid).1
  rw [Str.stripPrefix_eq_some] at hrest hslash
  refine ⟨id, ?_⟩
  rw [hrest, hslash]
  rfl

/-- The checks of payloads by their resources. -/
def payloadShape (env : Env) (payload : Json) : ResourceKind → Except Str Unit
  | .ruleSets => requirePayload env.serde.ruleSet payload
  | .mapRemote => requirePayload env.serde.mapRemoteRule payload
  | .mapLocal => requirePayload env.serde.mapLocalRule payload
  | .access => requirePayload env.serde.accessRule payload
  | .breakpoints => requirePayload env.serde.breakpointRule payload
  | .mock => requirePayload env.serde.mockRule payload
  | .scripts => requirePayload env.serde.luaScript payload
  | .webhooks => requirePayload env.serde.webhook payload
  | .throttling => requirePayload env.serde.throttling payload
  | .captureFilter => requirePayload env.serde.captureFilter payload
  | .dns => (dnsPayload env payload).map fun _ => ()
  | .upstreamProxy =>
    match payload.get? "upstream_proxy" with
    | some (.str _) | some .null => .ok ()
    | _ => .error "invalid assistant action payload: upstream_proxy must be a string or null"

def shapeKey (s : Str × Str × Except Str Unit) : Str × Str := (s.1, s.2.1)

/-- The keys of the tables of checks. -/
theorem keys_payloadShapes : (payloadShapes env payload).map shapeKey =
    (payloadShapes (envOf none) .null).map shapeKey := by
  simp only [payloadShapes, shapeKey, List.map_cons, List.map_nil]

theorem keys_itemPayloadShapes : (itemPayloadShapes env payload).map Prod.fst =
    (itemPayloadShapes (envOf none) .null).map Prod.fst := by
  simp only [itemPayloadShapes, List.map_cons, List.map_nil]

theorem keys_payloadShapes_known : ((payloadShapes (envOf none) .null).map shapeKey).Nodup ∧
    ∀ key ∈ (payloadShapes (envOf none) .null).map shapeKey, key.1 ≠ ("PUT" : Str) := by
  decide +kernel

theorem mem_payloadShapes (env : Env) (payload : Json) (k : ResourceKind) :
    (("POST" : Str), k.base, payloadShape env payload k) ∈ payloadShapes env payload := by
  cases k with
  | ruleSets => exact List.mem_of_getElem? (i := 0) rfl
  | mapRemote => exact List.mem_of_getElem? (i := 1) rfl
  | mapLocal => exact List.mem_of_getElem? (i := 2) rfl
  | access => exact List.mem_of_getElem? (i := 3) rfl
  | breakpoints => exact List.mem_of_getElem? (i := 4) rfl
  | mock => exact List.mem_of_getElem? (i := 5) rfl
  | scripts => exact List.mem_of_getElem? (i := 6) rfl
  | webhooks => exact List.mem_of_getElem? (i := 7) rfl
  | throttling => exact List.mem_of_getElem? (i := 8) rfl
  | captureFilter => exact List.mem_of_getElem? (i := 9) rfl
  | dns => exact List.mem_of_getElem? (i := 10) rfl
  | upstreamProxy => exact List.mem_of_getElem? (i := 13) rfl

theorem validateActionPayloadShape_post (k : ResourceKind) :
    validateActionPayloadShape env "POST" k.base payload = payloadShape env payload k := by
  have hmem := mem_payloadShapes env payload k
  have hnodup : ((payloadShapes env payload).map shapeKey).Nodup := by
    rw [keys_payloadShapes]
    exact keys_payloadShapes_known.1
  have hfind : (payloadShapes env payload).find? (fun s => s.1 = ("POST" : Str) ∧ s.2.1 = k.base) =
      some (("POST" : Str), k.base, payloadShape env payload k) := by
    refine find?_of_unique hmem (decide_eq_true ⟨rfl, rfl⟩) fun s hs hkey => ?_
    obtain ⟨hmethod, hendpoint⟩ := of_decide_eq_true hkey
    exact List.inj_on_of_nodup_map hnodup hs hmem (Prod.ext hmethod hendpoint)
  have hdelete : ¬("POST" : Str) = "DELETE" := by decide +kernel
  unfold validateActionPayloadShape
  rw [if_neg hdelete, hfind]

theorem mem_itemPayloadShapes (env : Env) (payload : Json) (k : ResourceKind)
    (h : k.contract.shape = .idBackedCollection) :
    (k.base, payloadShape env payload k) ∈ itemPayloadShapes env payload := by
  cases k with
  | ruleSets => exact List.mem_of_getElem? (i := 0) rfl
  | mapRemote => exact List.mem_of_getElem? (i := 1) rfl
  | mapLocal => exact List.mem_of_getElem? (i := 2) rfl
  | access => exact List.mem_of_getElem? (i := 3) rfl
  | breakpoints => exact List.mem_of_getElem? (i := 4) rfl
  | mock => exact List.mem_of_getElem? (i := 5) rfl
  | scripts => exact List.mem_of_getElem? (i := 6) rfl
  | webhooks => exact List.mem_of_getElem? (i := 7) rfl
  | throttling | captureFilter | upstreamProxy | dns => cases h

/-- The actions which are carried out without a collection. -/
def directRoute : ResourceKind → Option DirectActionRoute
  | .throttling => some .throttling
  | .captureFilter => some .captureFilter
  | .upstreamProxy => some .upstreamProxy
  | .dns => some .dns
  | _ => none

def collectionRoute : ResourceKind → Option CollectionActionRoute
  | .ruleSets => some .ruleSets
  | .mapRemote => some .mapRemote
  | .mapLocal => some .mapLocal
  | .access => some .access
  | .breakpoints => some .breakpoints
  | .mock => some .mock
  | .scripts => some .scripts
  | .webhooks => some .webhooks
  | .dns => some .dns
  | .throttling | .captureFilter | .upstreamProxy => none

/-- What the tables of actions say of a resource; no table knows an endpoint below that of a resource. -/
def ActionsKnown (k : ResourceKind) : Prop :=
  (∀ base ∈ (itemPayloadShapes (envOf none) .null).map Prod.fst, (base ++ ['/']).isPrefixOf k.base = false) ∧
    (∀ r ∈ directActionRoutes, (k.base ++ ['/']).isPrefixOf r.2.1 = false) ∧
    DirectActionRoute.classify "POST" k.base = directRoute k ∧
    (collectionActionRoutes.find? fun r => r.1 = k.contract.kind).map Prod.snd = collectionRoute k

instance (k : ResourceKind) : Decidable (ActionsKnown k) := inferInstanceAs (Decidable (_ ∧ _ ∧ _ ∧ _))

theorem actionsKnown_all : ∀ k ∈ ResourceKind.all, ActionsKnown k := by
  decide +kernel

theorem keys_itemPayloadShapes_nodup : ((itemPayloadShapes env payload).map Prod.fst).Nodup := by
  rw [keys_itemPayloadShapes]
  decide +kernel

theorem methods_known : ("PUT" : Str) ≠ "DELETE" ∧ ("PUT" : Str) ≠ "POST" ∧ ("DELETE" : Str) ≠ "POST" ∧
    ∀ r ∈ directActionRoutes, r.1.toAsciiUppercase = r.1 := by
  decide +kernel

/-- The endpoint of an item tells the collection, unless one endpoint is below another. -/
theorem base_eq_of_endpoint {base base' id id' : Str} (hid : '/' ∉ id)
    (h : base ++ '/' :: id = base' ++ '/' :: id') (hbelow : (base' ++ ['/']).isPrefixOf base = false) :
    base = base' := by
  rcases List.append_eq_append_iff.1 h with ⟨rest, hbase, hrest⟩ | ⟨rest, hbase, hrest⟩
  · cases rest with
    | nil => exact (hbase.trans (List.append_nil _)).symm
    | cons c rest =>
      rw [List.cons_append, List.cons.injEq] at hrest
      rw [hrest.2] at hid
      exact absurd (List.mem_append_right _ List.mem_cons_self) hid
  · cases rest with
    | nil => exact hbase.trans (List.append_nil _)
    | cons c rest =>
      rw [List.cons_append, List.cons.injEq] at hrest
      have hprefix : base' ++ ['/'] <+: base := by
        refine ⟨rest, ?_⟩
        rw [hbase, ← hrest.1, List.append_assoc]
        rfl
      rw [List.isPrefixOf_iff_prefix.2 hprefix] at hbelow
      cases hbelow

theorem validateActionPayloadShape_put {k : ResourceKind} (hshape : k.contract.shape = .idBackedCollection) {id : Str}
    (hid : ResourceKind.IsItemId id) :
    validateActionPayloadShape env "PUT" (k.base ++ '/' :: id) payload = payloadShape env payload k := by
  have hpost :
      (payloadShapes env payload).find? (fun s => s.1 = ("PUT" : Str) ∧ s.2.1 = k.base ++ '/' :: id) = none := by
    refine List.find?_eq_none.2 fun s hs hkey => ?_
    have hmem : shapeKey s ∈ (payloadShapes env payload).map shapeKey := List.mem_map_of_mem hs
    rw [keys_payloadShapes] at hmem
    exact keys_payloadShapes_known.2 _ hmem (of_decide_eq_true hkey).1
  have hmem := mem_itemPayloadShapes env payload k hshape
  have hput : (itemPayloadShapes env payload).find?
      (fun s => ("PUT" : Str) = "PUT" ∧ (pathId (k.base ++ '/' :: id) s.1).isSome) =
      some (k.base, payloadShape env payload k) := by
    refine find?_of_unique hmem (decide_eq_true ⟨rfl, ?_⟩) fun s hs hkey => ?_
    · rw [pathId_endpoint hid.1]
      rfl
    · obtain ⟨id', hid'⟩ := eq_of_pathId (of_decide_eq_true hkey).2
      have hkeys : s.1 ∈ (itemPayloadShapes env payload).map Prod.fst := List.mem_map_of_mem hs
      rw [keys_itemPayloadShapes] at hkeys
      have hbase := base_eq_of_endpoint hid.2 hid' ((actionsKnown_all k k.mem_all).1 _ hkeys)
      exact List.inj_on_of_nodup_map keys_itemPayloadShapes_nodup hs hmem hbase.symm
  unfold validateActionPayloadShape
  rw [if_neg methods_known.1, hpost]
  dsimp only
  rw [hput]

theorem classify_item (k : ResourceKind) (method id : Str) :
    DirectActionRoute.classify method (k.base ++ '/' :: id) = none := by
  unfold DirectActionRoute.classify
  rw [Option.map_eq_none_iff, List.find?_eq_none]
  intro r hr hkey
  have hprefix : k.base ++ ['/'] <+: r.2.1 := by
    rw [(of_decide_eq_true hkey).2]
    exact ⟨id, List.append_assoc _ _ _⟩
  have hnone := (actionsKnown_all k k.mem_all).2.1 r hr
  rw [List.isPrefixOf_iff_prefix.2 hprefix] at hnone
  cases hnone

theorem classify_of_lower {method : Str} (hlower : method.toAsciiUppercase ≠ method) (endpoint : Str) :
    DirectActionRoute.classify method endpoint = none := by
  unfold DirectActionRoute.classify
  rw [Option.map_eq_none_iff, List.find?_eq_none]
  intro r hr hkey
  have hmethod : r.1 = method := (of_decide_eq_true hkey).1
  exact hlower (hmethod ▸ methods_known.2.2.2 r hr)

/-- The collection of an action. -/
theorem classify_collection {k : ResourceKind} {method endpoint : Str} {route : AssistantActionRouteContract}
    (hroute : actionRouteContract method endpoint = .ok route) (hkind : route.kind = k.contract.kind) :
    CollectionActionRoute.classify method endpoint =
      (collectionRoute k).elim (.error "assistant action endpoint is not executable") .ok := by
  unfold CollectionActionRoute.classify
  rw [← (actionsKnown_all k k.mem_all).2.2.2, hroute, ← hkind]
  dsimp only [bind, Except.bind]
  cases collectionActionRoutes.find? fun r => r.1 = route.kind <;> rfl

/-! ### Effects of actions -/

section

variable {T : Type} (c : ItemAction T)

theorem effect_execute_create : (c.execute env "POST" c.base payload).effect memory =
    .ofValue (.collection c.name) [] ((accepted c.decoder c.check payload).bind fun item =>
      (c.name.collection.handler (c.request (.create env.newId item))).edit (memory (.collection c.name))) := by
  unfold ItemAction.execute accepted fromPayload StructDecoder.fromValue
  rw [if_pos ⟨rfl, rfl⟩]
  cases c.decoder.read payload with
  | none => rfl
  | some item => exact effect_checked (c.check item) c.notFound fun item => c.request (.create env.newId item)

theorem effect_execute_update {id : Str} (hid : id ≠ []) :
    (c.execute env "PUT" (c.base ++ '/' :: id) payload).effect memory =
      .ofValue (.collection c.name) [] ((accepted c.decoder c.check payload).bind fun item =>
        (c.name.collection.handler (c.request (.update id item))).edit (memory (.collection c.name))) := by
  unfold ItemAction.execute accepted fromPayload StructDecoder.fromValue
  rw [if_neg fun h => methods_known.2.1 h.2, pathId_endpoint hid]
  dsimp only
  rw [if_pos rfl]
  cases c.decoder.read payload with
  | none => rfl
  | some item => exact effect_checked (c.check item) c.notFound fun item => c.request (.update id item)

theorem effect_execute_delete {id : Str} (hid : id ≠ []) :
    (c.execute env "DELETE" (c.base ++ '/' :: id) payload).effect memory =
      .ofValue (.collection c.name) []
        ((c.name.collection.handler (c.request (.delete id))).edit (memory (.collection c.name))) := by
  unfold ItemAction.execute
  rw [if_neg fun h => methods_known.2.2.1 h.2, pathId_endpoint hid]
  dsimp only
  rw [if_neg methods_known.1.symm, if_pos rfl]
  exact effect_editCollection _ _ _

/-- Only three methods are carried out. -/
theorem effect_execute_other {method : Str} (hpost : method ≠ "POST") (hput : method ≠ "PUT")
    (hdelete : method ≠ "DELETE") (endpoint : Str) :
    (c.execute env method endpoint payload).effect memory = .refused := by
  unfold ItemAction.execute
  rw [if_neg fun h => hpost h.2]
  cases pathId endpoint c.base with
  | none => rfl
  | some id =>
    dsimp only
    rw [if_neg hput, if_neg hdelete]
    rfl

/-- A check which is made twice. -/
theorem effect_required {T : Type} {decoder : StructDecoder T} {call : Call Str}
    (h : decoder.read payload = none → call.effect memory = .refused) :
    (Call.ofExcept (do
      requirePayload decoder payload
      return call)).effect memory = call.effect memory := by
  unfold requirePayload fromPayload StructDecoder.fromValue
  cases hread : decoder.read payload with
  | none => exact (h hread).symm
  | some item => rfl

end

/-- The action is carried out with the payload as it stands. -/
structure ConfirmedAs (preconditions : List AssistantActionPrecondition → Except Str Unit) (action : AssistantAction)
    (route : AssistantActionRouteContract) : Prop where
  contract : actionRouteContract action.method action.endpoint = .ok route
  preconditions : preconditions action.preconditions = .ok ()
  normal : normalizeActionPayload action.method action.endpoint action.payload action.summary = .ok action.payload

section

variable {preconditions : List AssistantActionPrecondition → Except Str Unit} {action : AssistantAction}
  {route : AssistantActionRouteContract}

theorem executeActionPayload_eq (h : ConfirmedAs preconditions action route) :
    executeActionPayload env preconditions action =
      if route.method ≠ "DELETE" ∧ action.payload.isNull then .refused "assistant action payload is required"
      else .ofExcept (do
        validateActionPayloadShape env action.method action.endpoint action.payload
        match DirectActionRoute.classify action.method action.endpoint with
        | some route => return executeDirect env action.payload route
        | none => return executeCollectionAction env action.method action.endpoint action.payload) := by
  unfold executeActionPayload validateActionRoute
  rw [h.contract, h.preconditions, h.normal]
  by_cases hnull : route.method ≠ "DELETE" ∧ action.payload.isNull
  · rw [if_pos hnull]
    show Call.ofExcept ((if _ then _ else _ : Except Str _) >>= _) = _
    rw [if_pos hnull]
    rfl
  · rw [if_neg hnull]
    show Call.ofExcept ((if _ then _ else _ : Except Str _) >>= _) = _
    rw [if_neg hnull]
    rfl

/-- The action of a resource whose items have ids. -/
structure IsActionOf (k : ResourceKind) (env : Env) {T : Type} (c : ItemAction T) : Prop where
  base : c.base = k.base := by rfl
  shape : k.contract.shape = .idBackedCollection := by rfl
  required : ∀ payload, payloadShape env payload k = requirePayload c.decoder payload := by
    intro payload
    rfl
  direct : directRoute k = none := by rfl
  collection : ∀ method endpoint payload,
    CollectionActionRoute.classify method endpoint =
        (collectionRoute k).elim (.error "assistant action endpoint is not executable") .ok →
      executeCollectionAction env method endpoint payload = c.execute env method endpoint payload := by
    intro method endpoint payload hclassify
    unfold executeCollectionAction
    rw [hclassify]
    rfl

variable {T : Type} {k : ResourceKind} {c : ItemAction T}

theorem read_of_isNull {decoder : StructDecoder T} {payload : Json} (h : payload.isNull = true) :
    decoder.read payload = none := by
  cases payload <;> first | rfl | cases h

theorem accepted_of_isNull {E : Type} {decoder : StructDecoder T} {check : T → Except E T} {payload : Json}
    (h : payload.isNull = true) : accepted decoder check payload = none := by
  unfold accepted
  rw [read_of_isNull h]
  rfl

theorem effect_action_create (hk : IsActionOf k env c) (h : ConfirmedAs preconditions action route)
    (hkind : route.kind = k.contract.kind) (hmethod : action.method = "POST") (hendpoint : action.endpoint = k.base) :
    (executeActionPayload env preconditions action).effect memory =
      .ofValue (.collection c.name) [] ((accepted c.decoder c.check action.payload).bind fun item =>
        (c.name.collection.handler (c.request (.create env.newId item))).edit (memory (.collection c.name))) := by
  have hcollection := hk.collection _ _ action.payload (classify_collection h.contract hkind)
  rw [executeActionPayload_eq h]
  split
  · rename_i hnull
    rw [accepted_of_isNull hnull.2]
    rfl
  · rw [hmethod, hendpoint] at hcollection ⊢
    rw [validateActionPayloadShape_post, (actionsKnown_all k k.mem_all).2.2.1, hk.required, hk.direct]
    dsimp only
    rw [hcollection, ← hk.base, ← effect_execute_create]
    refine effect_required fun hread => ?_
    rw [effect_execute_create]
    unfold accepted
    rw [hread]
    rfl

theorem effect_action_update (hk : IsActionOf k env c) (h : ConfirmedAs preconditions action route)
    (hkind : route.kind = k.contract.kind) (hmethod : action.method = "PUT") {id : Str}
    (hendpoint : action.endpoint = k.base ++ '/' :: id) (hid : ResourceKind.IsItemId id) :
    (executeActionPayload env preconditions action).effect memory =
      .ofValue (.collection c.name) [] ((accepted c.decoder c.check action.payload).bind fun item =>
        (c.name.collection.handler (c.request (.update id item))).edit (memory (.collection c.name))) := by
  have hcollection := hk.collection _ _ action.payload (classify_collection h.contract hkind)
  rw [executeActionPayload_eq h]
  split
  · rename_i hnull
    rw [accepted_of_isNull hnull.2]
    rfl
  · rw [hmethod, hendpoint] at hcollection ⊢
    rw [validateActionPayloadShape_put hk.shape hid, classify_item, hk.required]
    dsimp only
    rw [hcollection, ← hk.base, ← effect_execute_update c hid.1]
    refine effect_required fun hread => ?_
    rw [effect_execute_update c hid.1]
    unfold accepted
    rw [hread]
    rfl

theorem effect_action_delete (hk : IsActionOf k env c) (h : ConfirmedAs preconditions action route)
    (hkind : route.kind = k.contract.kind) (hmethod : action.method = "DELETE") (hroute : route.method = "DELETE")
    {id : Str} (hendpoint : action.endpoint = k.base ++ '/' :: id) (hid : ResourceKind.IsItemId id) :
    (executeActionPayload env preconditions action).effect memory =
      .ofValue (.collection c.name) []
        ((c.name.collection.handler (c.request (.delete id))).edit (memory (.collection c.name))) := by
  have hcollection := hk.collection _ _ action.payload (classify_collection h.contract hkind)
  rw [executeActionPayload_eq h, if_neg fun hnull => hnull.1 hroute]
  rw [hmethod, hendpoint] at hcollection ⊢
  unfold validateActionPayloadShape
  rw [if_pos rfl, classify_item, hcollection, ← hk.base, ← effect_execute_delete c hid.1]
  rfl

theorem executeCollectionAction_of_classify {method endpoint : Str} {r : Except Str CollectionActionRoute}
    (payload : Json) : CollectionActionRoute.classify method endpoint = r →
    executeCollectionAction env method endpoint payload =
      match r with
      | .error e => .refused e
      | .ok .dns => executeDnsItem method endpoint
      | .ok .ruleSets => (ruleSetsAction env).execute env method endpoint payload
      | .ok .mapRemote => (mapRemoteAction env).execute env method endpoint payload
      | .ok .mapLocal => (mapLocalAction env).execute env method endpoint payload
      | .ok .access => (accessAction env).execute env method endpoint payload
      | .ok .breakpoints => (breakpointAction env).execute env method endpoint payload
      | .ok .mock => (mockAction env).execute env method endpoint payload
      | .ok .scripts => (scriptAction env).execute env method endpoint payload
      | .ok .webhooks => (webhookAction env).execute env method endpoint payload := by
  rintro rfl
  rfl

theorem isActionOf_ruleSets : IsActionOf .ruleSets env (ruleSetsAction env) :=
  ⟨rfl, rfl, fun _ => rfl, rfl, fun _ _ => executeCollectionAction_of_classify⟩

theorem isActionOf_mapRemote : IsActionOf .mapRemote env (mapRemoteAction env) :=
  ⟨rfl, rfl, fun _ => rfl, rfl, fun _ _ => executeCollectionAction_of_classify⟩

theorem isActionOf_mapLocal : IsActionOf .mapLocal env (mapLocalAction env) :=
  ⟨rfl, rfl, fun _ => rfl, rfl, fun _ _ => executeCollectionAction_of_classify⟩

theorem isActionOf_access : IsActionOf .access env (accessAction env) :=
  ⟨rfl, rfl, fun _ => rfl, rfl, fun _ _ => executeCollectionAction_of_classify⟩

theorem isActionOf_breakpoints : IsActionOf .breakpoints env (breakpointAction env) :=
  ⟨rfl, rfl, fun _ => rfl, rfl, fun _ _ => executeCollectionAction_of_classify⟩

theorem isActionOf_mock : IsActionOf .mock env (mockAction env) :=
  ⟨rfl, rfl, fun _ => rfl, rfl, fun _ _ => executeCollectionAction_of_classify⟩

theorem isActionOf_scripts : IsActionOf .scripts env (scriptAction env) :=
  ⟨rfl, rfl, fun _ => rfl, rfl, fun _ _ => executeCollectionAction_of_classify⟩

theorem isActionOf_webhooks : IsActionOf .webhooks env (webhookAction env) :=
  ⟨rfl, rfl, fun _ => rfl, rfl, fun _ _ => executeCollectionAction_of_classify⟩

/-- Another spelling of a method is refused late. -/
theorem effect_action_of_lower (h : ConfirmedAs preconditions action route) (hkind : route.kind = k.contract.kind)
    (hlower : action.method.toAsciiUppercase ≠ action.method) :
    (executeActionPayload env preconditions action).effect memory = .refused := by
  have hpost : action.method ≠ "POST" := by
    intro heq
    rw [heq] at hlower
    exact hlower (by decide +kernel)
  have hput : action.method ≠ "PUT" := by
    intro heq
    rw [heq] at hlower
    exact hlower (by decide +kernel)
  have hdelete : action.method ≠ "DELETE" := by
    intro heq
    rw [heq] at hlower
    exact hlower (by decide +kernel)
  have hcollection : (executeCollectionAction env action.method action.endpoint action.payload).effect memory =
      .refused := by
    unfold executeCollectionAction
    rw [classify_collection h.contract hkind]
    cases k with
    | dns =>
      show (executeDnsItem action.method action.endpoint).effect memory = .refused
      unfold executeDnsItem
      split
      · rfl
      · rw [if_pos hdelete]
        rfl
    | throttling | captureFilter | upstreamProxy => rfl
    | _ => exact effect_execute_other _ hpost hput hdelete _
  rw [executeActionPayload_eq h]
  split
  · rfl
  · rw [classify_of_lower hlower]
    cases validateActionPayloadShape env action.method action.endpoint action.payload with
    | error e => rfl
    | ok _ => exact hcollection

end

end Assistant

end Oproxy
