import Oproxy.ControlPlane.AdminPaths
import Oproxy.ControlPlane.Effects
import Oproxy.ControlPlane.RefusedChanges

/-!
# Requests about resources (`control_plane/policy.rs`, `breakpoints.rs`, `extensions.rs`, `settings.rs`)

The handler for a resource, or for one of its items, and what it does with the id which the router hands over.
-/

namespace Oproxy

open Persisted Mutations Assistant

/-- The only element which a search can find. -/
theorem find?_of_unique {α : Type} {p : α → Bool} {l : List α} {a : α} (ha : a ∈ l) (hp : p a = true)
    (hunique : ∀ b ∈ l, p b = true → b = a) : l.find? p = some a := by
  cases hfind : l.find? p with
  | none => exact absurd hp (List.find?_eq_none.1 hfind a ha)
  | some b => rw [hunique b (List.mem_of_find?_eq_some hfind) (List.find?_some hfind)]

namespace ResourceKind

/-- The route for the items. -/
def itemPattern : ResourceKind → Str
  | ruleSets => "/admin/rule-sets/{id}"
  | mapRemote => "/admin/map-remote-rules/{id}"
  | mapLocal => "/admin/map-local-rules/{id}"
  | access => "/admin/access-rules/{id}"
  | breakpoints => "/admin/breakpoints/{id}"
  | mock => "/admin/mock/rules/{id}"
  | scripts => "/admin/scripts/{id}"
  | webhooks => "/admin/webhooks/{id}"
  | dns => "/admin/dns/{host}"
  | throttling | captureFilter | upstreamProxy => []

theorem pattern_item_all : all.all fun k => k.itemParam.all fun param => k.base ++ '/' :: param == k.itemPattern := by
  decide +kernel

theorem pattern_item {k : ResourceKind} {param : Str} (hparam : k.itemParam = some param) (id : Str) :
    k.pattern (some id) = k.itemPattern := by
  have hall := List.all_eq_true.1 pattern_item_all k k.mem_all
  unfold pattern
  rw [hparam] at hall ⊢
  exact beq_iff_eq.1 hall

/-- The id which the router hands over, where it hands over one. -/
def target (k : ResourceKind) (id : Str) : Option Str :=
  if id ∈ k.reserved then none else Http.utf8Text (Http.percentDecode id)

end ResourceKind

namespace Mutations

/-- The item of a body, where the checks take it. -/
def accepted {E T : Type} (decoder : StructDecoder T) (check : T → Except E T) (body : Json) : Option T :=
  (decoder.read body).bind fun item => (check item).toOption

theorem elim_ofValue {r : Resource} {fixtures : List (Str × Bytes)} (target : Option Str) (f : Str → Option r.Value) :
    (target.elim .refused fun id => Effect.ofValue r fixtures (f id)) = .ofValue r fixtures (target.bind f) := by
  cases target <;> rfl

/-- The edit of a checked item. -/
theorem effect_checked {E T : Type} {name : CollectionName} {memory : Memory} (result : Except E T) (notFound : E)
    (request : T → name.collection.Request) :
    (Call.ofExcept (do
      let item ← result
      return editCollection name notFound (request item))).effect memory =
      .ofValue (.collection name) [] (result.toOption.bind fun item =>
        (name.collection.handler (request item)).edit (memory (.collection name))) := by
  cases result with
  | error e => rfl
  | ok item => exact effect_editCollection name notFound (request item)

namespace Http

variable (env : Env) (body : Json)

theorem find?_zip_literal {segments : List Str} (hliteral : Router.Literal segments) {param id : Str}
    (hparam : Str.startsWith param "\x7b" = true) :
    ((segments ++ [param]).zip (segments ++ [id])).find? (fun p => Str.startsWith p.1 "\x7b") = some (param, id) := by
  induction segments with
  | nil =>
    rw [List.nil_append, List.nil_append, List.zip_cons_cons, List.find?_cons, hparam]
  | cons s ss ih =>
    obtain ⟨hs, hss⟩ := List.forall_mem_cons.1 hliteral
    rw [List.cons_append, List.cons_append, List.zip_cons_cons, List.find?_cons, hs.1]
    exact ih hss

theorem toOption_pathParam {k : ResourceKind} {param id : Str} (hparam : k.itemParam = some param)
    (hid : ResourceKind.IsItemId id) :
    (pathParam (k.pattern (some id)) (k.endpoint (some id))).toOption = utf8Text (percentDecode id) := by
  obtain ⟨hbrace, -, hslash⟩ := k.startsWith_param hparam
  have hsegment : paramSegment (k.pattern (some id)) (k.endpoint (some id)) = id := by
    unfold paramSegment ResourceKind.pattern ResourceKind.endpoint
    dsimp only
    rw [hparam, Option.getD_some, Router.split_concat _ hslash, Router.split_concat _ hid.2,
      find?_zip_literal k.literal_endpoint.1 hbrace]
    rfl
  unfold pathParam
  rw [hsegment]
  cases utf8Text (percentDecode id) <;> rfl

theorem keys_handlers_nodup (param : Except HttpError Str) : ((handlers env param body).map Prod.fst).Nodup := by
  have hkeys : (handlers env param body).map Prod.fst = (handlers (envOf none) (.ok []) .null).map Prod.fst := by
    simp only [handlers, List.map_cons, List.map_nil]
  rw [hkeys]
  decide +kernel

theorem find?_handlers {param : Except HttpError Str} {handler : Router.Handler} {c : Call HttpError}
    (h : (handler, c) ∈ handlers env param body) :
    (handlers env param body).find? (fun h => h.1 = handler) = some (handler, c) := by
  refine find?_of_unique h (decide_eq_true rfl) fun other hother hkey => ?_
  exact List.inj_on_of_nodup_map (keys_handlers_nodup env body param) hother h (of_decide_eq_true hkey)

/-- The handlers for the resources. -/
def postCall : ResourceKind → Call HttpError
  | .ruleSets => createRuleSet env body
  | .mapRemote => createMapRemoteRule env body
  | .mapLocal => createMapLocalRule env body
  | .access => createAccessRule env body
  | .breakpoints => addBpRule env body
  | .mock => createMockRule env body
  | .scripts => createScript env body
  | .webhooks => createWebhook env body
  | .throttling => updateThrottling env body
  | .captureFilter => updateCaptureFilter env body
  | .upstreamProxy => setUpstreamProxyHandler env body
  | .dns => updateDns env body

theorem mem_handlers_post (k : ResourceKind) (param : Except HttpError Str) :
    (.route k.base "POST", postCall env body k) ∈ handlers env param body := by
  cases k with
  | ruleSets => exact List.mem_of_getElem? (i := 5) rfl
  | mapRemote => exact List.mem_of_getElem? (i := 16) rfl
  | mapLocal => exact List.mem_of_getElem? (i := 13) rfl
  | access => exact List.mem_of_getElem? (i := 2) rfl
  | breakpoints => exact List.mem_of_getElem? (i := 19) rfl
  | mock => exact List.mem_of_getElem? (i := 22) rfl
  | scripts => exact List.mem_of_getElem? (i := 26) rfl
  | webhooks => exact List.mem_of_getElem? (i := 29) rfl
  | throttling => exact List.mem_of_getElem? (i := 1) rfl
  | captureFilter => exact List.mem_of_getElem? (i := 9) rfl
  | upstreamProxy => exact List.mem_of_getElem? (i := 32) rfl
  | dns => exact List.mem_of_getElem? (i := 10) rfl

/-- The handlers for the items of a resource. -/
def putCall (param : Except HttpError Str) : ResourceKind → Call HttpError
  | .ruleSets => updateRuleSet env param body
  | .mapRemote => updateMapRemoteRule env param body
  | .mapLocal => updateMapLocalRule env param body
  | .access => updateAccessRule env param body
  | .breakpoints => updateBpRule env param body
  | .mock => updateMockRule env param body
  | .scripts => updateScript env param body
  | .webhooks => updateWebhook env param body
  | .dns => upsertDns env param body
  | .throttling | .captureFilter | .upstreamProxy => .other

def deleteCall (param : Except HttpError Str) : ResourceKind → Call HttpError
  | .ruleSets => deleteRuleSet param
  | .mapRemote => deleteMapRemoteRule param
  | .mapLocal => deleteMapLocalRule param
  | .access => deleteAccessRule param
  | .breakpoints => deleteBpRule param
  | .mock => deleteMockRule param
  | .scripts => deleteScript param
  | .webhooks => deleteWebhook param
  | .dns => deleteDns param
  | .throttling | .captureFilter | .upstreamProxy => .other

theorem mem_handlers_put {k : ResourceKind} (hshape : k.contract.shape ≠ .singleton) (param : Except HttpError Str) :
    (.route k.itemPattern "PUT", putCall env body param k) ∈ handlers env param body := by
  cases k with
  | ruleSets => exact List.mem_of_getElem? (i := 7) rfl
  | mapRemote => exact List.mem_of_getElem? (i := 17) rfl
  | mapLocal => exact List.mem_of_getElem? (i := 14) rfl
  | access => exact List.mem_of_getElem? (i := 3) rfl
  | breakpoints => exact List.mem_of_getElem? (i := 20) rfl
  | mock => exact List.mem_of_getElem? (i := 23) rfl
  | scripts => exact List.mem_of_getElem? (i := 27) rfl
  | webhooks => exact List.mem_of_getElem? (i := 30) rfl
  | dns => exact List.mem_of_getElem? (i := 11) rfl
  | throttling | captureFilter | upstreamProxy => exact absurd rfl hshape

theorem mem_handlers_delete {k : ResourceKind} (hshape : k.contract.shape ≠ .singleton)
    (param : Except HttpError Str) :
    (.route k.itemPattern "DELETE", deleteCall param k) ∈ handlers env param body := by
  cases k with
  | ruleSets => exact List.mem_of_getElem? (i := 8) rfl
  | mapRemote => exact List.mem_of_getElem? (i := 18) rfl
  | mapLocal => exact List.mem_of_getElem? (i := 15) rfl
  | access => exact List.mem_of_getElem? (i := 4) rfl
  | breakpoints => exact List.mem_of_getElem? (i := 21) rfl
  | mock => exact List.mem_of_getElem? (i := 24) rfl
  | scripts => exact List.mem_of_getElem? (i := 28) rfl
  | webhooks => exact List.mem_of_getElem? (i := 31) rfl
  | dns => exact List.mem_of_getElem? (i := 12) rfl
  | throttling | captureFilter | upstreamProxy => exact absurd rfl hshape

theorem putCall_error {k : ResourceKind} (hshape : k.contract.shape ≠ .singleton) (e : HttpError) :
    putCall env body (.error e) k = .refused e := by
  cases k with
  | throttling | captureFilter | upstreamProxy => exact absurd rfl hshape
  | _ => rfl

theorem deleteCall_error {k : ResourceKind} (hshape : k.contract.shape ≠ .singleton) (e : HttpError) :
    deleteCall (.error e) k = .refused e := by
  cases k with
  | throttling | captureFilter | upstreamProxy => exact absurd rfl hshape
  | _ => rfl

theorem upper_post : Str.toAsciiUppercase "POST" = "POST" := by decide +kernel

theorem call_post (k : ResourceKind) : call env "POST" (k.endpoint none) body = postCall env body k := by
  have hfits : methodFits k.contract.shape k.base none (Str.toAsciiUppercase "POST") = true := by
    rw [upper_post]
    cases k <;> decide +kernel
  have hhandler := @ResourceKind.handlerFor_endpoint k none (fun id h => by cases h) _ hfits
  rw [if_pos ⟨upper_post, fun id h => by cases h⟩] at hhandler
  have hfind := fun param => find?_handlers env body (mem_handlers_post env body k param)
  unfold call
  rw [hhandler]
  dsimp only [ResourceKind.pattern]
  rw [hfind]

/-- A handler for an item gets the id which the router hands over, where it hands over one. -/
theorem effect_call_item {k : ResourceKind} {method id : Str} (memory : Memory) (hid : ResourceKind.IsItemId id)
    (hfits : methodFits k.contract.shape k.base (some id) method = true) (hupper : method.toAsciiUppercase = method)
    {handler : Except HttpError Str → Call HttpError} (hrefused : ∀ e, handler (.error e) = .refused e)
    (hmem : ∀ param, (.route k.itemPattern method, handler param) ∈ handlers env param body) :
    (call env method (k.endpoint (some id)) body).effect memory =
      (k.target id).elim .refused fun id' => (handler (.ok id')).effect memory := by
  obtain ⟨-, -, param, hparam⟩ := k.methodFits_item hfits
  have hids : ∀ id', some id = some id' → ResourceKind.IsItemId id' := by
    intro id' heq
    cases heq
    exact hid
  have hhandler := k.handlerFor_endpoint hids (hupper.symm ▸ hfits)
  unfold call ResourceKind.target
  rw [hhandler]
  by_cases hreserved : id ∈ k.reserved
  · rw [if_pos hreserved, if_neg fun h => h.2 id rfl hreserved]
    rfl
  · have hfree : method.toAsciiUppercase = method ∧ ∀ id' ∈ some id, id' ∉ k.reserved := by
      refine ⟨hupper, fun id' heq => ?_⟩
      cases heq
      exact hreserved
    have hfind := fun param => find?_handlers env body (hmem param)
    rw [if_neg hreserved, if_pos hfree, ← toOption_pathParam hparam hid]
    dsimp only
    rw [← k.pattern_item hparam id] at hfind
    rw [hfind]
    dsimp only
    cases pathParam (k.pattern (some id)) (k.endpoint (some id)) with
    | error e =>
      rw [hrefused]
      rfl
    | ok id' => rfl

theorem call_of_lower {k : ResourceKind} {itemId : Option Str}
    (hid : ∀ id, itemId = some id → ResourceKind.IsItemId id) {method : Str}
    (hfits : methodFits k.contract.shape k.base itemId method.toAsciiUppercase = true)
    (hlower : method.toAsciiUppercase ≠ method) : call env method (k.endpoint itemId) body = .refused ⟨405, []⟩ := by
  unfold call
  rw [k.handlerFor_endpoint hid hfits, if_neg fun h => hlower h.1]

/-! ### Handlers for items -/

variable {env body} {memory : Memory}

section

variable {T : Type}

theorem effect_createItem (name : CollectionName) (decoder : StructDecoder T) (check : T → Except HttpError T)
    (request : Str → T → name.collection.Request) :
    (createItem env name decoder check request body).effect memory =
      .ofValue (.collection name) [] ((accepted decoder check body).bind fun item =>
        (name.collection.handler (request env.newId item)).edit (memory (.collection name))) := by
  unfold createItem accepted jsonBody StructDecoder.fromValue
  cases decoder.read body with
  | none => rfl
  | some item => exact effect_checked (check item) notFound (request env.newId)

theorem effect_updateItem (name : CollectionName) (decoder : StructDecoder T) (check : T → Except HttpError T)
    (missing : Str) (request : Str → T → name.collection.Request) (id : Str) :
    (updateItem name decoder check missing request (.ok id) body).effect memory =
      .ofValue (.collection name) [] ((accepted decoder check body).bind fun item =>
        (name.collection.handler (request id item)).edit (memory (.collection name))) := by
  unfold updateItem accepted jsonBody StructDecoder.fromValue
  cases decoder.read body with
  | none => rfl
  | some item => exact effect_checked (check item) _ (request id)

theorem elim_updateItem (name : CollectionName) (decoder : StructDecoder T) (check : T → Except HttpError T)
    (missing : Str) (request : Str → T → name.collection.Request) (target : Option Str) :
    (target.elim .refused fun id => (updateItem name decoder check missing request (.ok id) body).effect memory) =
      .ofValue (.collection name) [] (target.bind fun id => (accepted decoder check body).bind fun item =>
        (name.collection.handler (request id item)).edit (memory (.collection name))) := by
  simp only [effect_updateItem, elim_ofValue]

theorem elim_deleteItem (name : CollectionName) (missing : Str) (request : Str → name.collection.Request)
    (target : Option Str) :
    (target.elim .refused fun id => (deleteItem name missing request (.ok id)).effect memory) =
      .ofValue (.collection name) []
        (target.bind fun id => (name.collection.handler (request id)).edit (memory (.collection name))) := by
  refine Eq.trans ?_ (elim_ofValue target _)
  exact congrArg (Option.elim target _) (funext fun id => effect_editCollection name _ _)

end

end Http

end Mutations

end Oproxy
