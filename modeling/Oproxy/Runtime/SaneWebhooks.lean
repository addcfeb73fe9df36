import Oproxy.Runtime.Storage

/-!
# Webhooks in memory (`control_plane/webhooks.rs`, `webhooks.rs`)

A webhook is cleared of the events that are never dispatched when it is loaded, and when it is created or updated; one
without events is refused, or dropped.  So whatever is in memory is loaded as it was saved.
-/

namespace Oproxy

open Persisted Mutations Assistant Examples

namespace Restarts

/-! ### Events -/

theorem nodup_eraseDups {α : Type} [DecidableEq α] (l : List α) : l.eraseDups.Nodup := by
  induction hn : l.length using Nat.strongRecOn generalizing l with
  | ind n ih =>
    cases l with
    | nil => exact List.nodup_nil
    | cons a l =>
      rw [List.eraseDups_cons, List.nodup_cons, List.mem_eraseDups, List.mem_filter]
      refine ⟨fun hmem => ?_, ih _ ?_ _ rfl⟩
      · simp at hmem
      · have hlength := List.length_filter_le (fun b => !b == a) l
        rw [List.length_cons] at hn
        omega

theorem eraseDups_of_nodup {α : Type} [DecidableEq α] {l : List α} (h : l.Nodup) : l.eraseDups = l := by
  induction l with
  | nil => rfl
  | cons a l ih =>
    obtain ⟨ha, hl⟩ := List.nodup_cons.1 h
    have hfilter : (l.filter fun b => !b == a) = l := by
      refine List.filter_eq_self.2 fun b hb => ?_
      have hne : b ≠ a := by
        rintro rfl
        exact ha hb
      simp [hne]
    rw [List.eraseDups_cons, hfilter, ih hl]

theorem sanitizeWebhookEvents_idem (events : List WebhookEvent) :
    sanitizeWebhookEvents (sanitizeWebhookEvents events) = sanitizeWebhookEvents events := by
  have hdispatched : (sanitizeWebhookEvents events).filter WebhookEvent.isDispatchable =
      sanitizeWebhookEvents events := by
    refine List.filter_eq_self.2 fun event hevent => ?_
    exact (List.mem_filter.1 (List.mem_eraseDups.1 hevent)).2
  show ((sanitizeWebhookEvents events).filter WebhookEvent.isDispatchable).eraseDups = _
  rw [hdispatched]
  exact eraseDups_of_nodup (nodup_eraseDups _)

theorem sane_loadWebhooks (hooks : List WebhookConfig) : Sane (loadWebhooks hooks) := by
  intro hook hhook
  obtain ⟨hmem, hevents⟩ := List.mem_filter.1 hhook
  obtain ⟨stored, -, rfl⟩ := List.mem_map.1 hmem
  refine ⟨?_, sanitizeWebhookEvents_idem _⟩
  rintro hempty
  rw [Bool.not_eq_true', hempty] at hevents
  cases hevents

/-- A webhook that passes its check has events. -/
theorem sane_of_checkWebhook {E : Type} {env : Env} {refuse block : Str → E} {hook hook' : WebhookConfig}
    (h : checkWebhook env refuse block hook = .ok hook') :
    hook'.events ≠ [] ∧ sanitizeWebhookEvents hook'.events = hook'.events := by
  have hevents : hook'.events = sanitizeWebhookEvents hook.events ∧ sanitizeWebhookEvents hook.events ≠ [] := by
    unfold checkWebhook at h
    dsimp only at h
    split at h
    · cases h
    · rename_i hnonempty
      split at h
      · cases h
      · split at h
        · split at h
          · cases h
          · cases h
            exact ⟨rfl, fun hnil => hnonempty (List.isEmpty_iff.2 hnil)⟩
        · cases h
  rw [hevents.1]
  exact ⟨hevents.2, sanitizeWebhookEvents_idem _⟩

theorem sane_updateItem {id : Str} {change : WebhookConfig → WebhookConfig} {hooks hooks' : List WebhookConfig}
    (hhooks : Sane hooks)
    (hchange : ∀ hook, (change hook).events ≠ [] ∧ sanitizeWebhookEvents (change hook).events = (change hook).events)
    (h : updateItem id change hooks = some hooks') : Sane hooks' := by
  unfold updateItem at h
  split at h
  · cases h
    clear * - hhooks hchange
    induction hooks with
    | nil => exact hhooks
    | cons hook hooks ih =>
      obtain ⟨hhook, hhooks⟩ := List.forall_mem_cons.1 hhooks
      unfold changeFirst
      split
      · exact List.forall_mem_cons.2 ⟨hchange hook, hhooks⟩
      · exact List.forall_mem_cons.2 ⟨hhook, ih hhooks⟩
  · cases h

theorem sane_deleteItem {id : Str} {hooks hooks' : List WebhookConfig} (hhooks : Sane hooks)
    (h : deleteItem id hooks = some hooks') : Sane hooks' := by
  unfold deleteItem at h
  dsimp only at h
  split at h
  · cases h
  · cases h
    exact fun hook hhook => hhooks hook (List.mem_of_mem_filter hhook)

theorem events_withNewId (newId : Str) (hook : WebhookConfig) : (withNewId newId hook).events = hook.events := by
  unfold withNewId
  split <;> rfl

/-- A request for webhooks with events of which some are dispatched. -/
def RequestSane (request : OriginRequest WebhookConfig) : Prop :=
  match request.request with
  | .create _ hook | .update _ hook => hook.events ≠ [] ∧ sanitizeWebhookEvents hook.events = hook.events
  | .delete _ => True

theorem sane_webhookHandler {request : OriginRequest WebhookConfig} (hrequest : RequestSane request)
    {hooks hooks' : List WebhookConfig} (hhooks : Sane hooks)
    (h : (webhookHandler request).edit hooks = some hooks') : Sane hooks' := by
  obtain ⟨origin, request⟩ := request
  have hcreate : ∀ {newId : Str} {hook : WebhookConfig}, hook.events ≠ [] ∧
      sanitizeWebhookEvents hook.events = hook.events → pushItem (withNewId newId hook) hooks = some hooks' →
      Sane hooks' := by
    intro newId hook hhook hpush
    cases hpush
    refine List.forall_mem_append.2 ⟨hhooks, List.forall_mem_singleton.2 ?_⟩
    rw [events_withNewId]
    exact hhook
  cases request with
  | create newId hook => cases origin <;> exact hcreate hrequest h
  | update id hook =>
    cases origin with
    | http => exact sane_updateItem hhooks (fun _ => hrequest) h
    | assistant => exact @sane_updateItem id (fun _ => CollectionItem.setId id hook) _ _ hhooks (fun _ => hrequest) h
  | delete id => cases origin <;> exact sane_deleteItem hhooks h

/-- An edit of the webhooks keeps them sane. -/
def KeepsSane {E : Type} : Call E → Prop
  | .mutates r m => ∀ value value', SaneValue r value → m.edit value = .ok value' → SaneValue r value'
  | _ => True

section

variable {E : Type}

theorem saneValue_of_ne {r : Resource} (hr : r ≠ .collection .webhooks) (value : r.Value) : SaneValue r value := by
  rcases r with ⟨⟨⟩⟩ | _ | _ | _
  case collection.webhooks => exact absurd rfl hr
  all_goals trivial

theorem keepsSane_ofExcept {result : Except E (Call E)} (h : ∀ call, result = .ok call → KeepsSane call) :
    KeepsSane (.ofExcept result) := by
  cases result with
  | error e => trivial
  | ok call => exact h call rfl

theorem keepsSane_editCollection {name : CollectionName} (hname : name ≠ .webhooks) (notFound : E)
    (request : name.collection.Request) : KeepsSane (editCollection name notFound request) :=
  fun _ _ _ _ => saneValue_of_ne (fun hr => hname (Resource.collection.inj hr)) _

theorem keepsSane_editWebhooks (notFound : E) {request : OriginRequest WebhookConfig} (hrequest : RequestSane request) :
    KeepsSane (editCollection .webhooks notFound request) := by
  intro value value' hvalue h
  have hedit : (webhookHandler request).edit value = some value' := by
    dsimp only at h
    split at h
    · rename_i edited hedited
      cases h
      exact hedited
    · cases h
  exact sane_webhookHandler hrequest hvalue hedit

theorem keepsSane_replaceValue {r : Resource} (hr : r ≠ .collection .webhooks) (value : r.Value) :
    KeepsSane (replaceValue r value : Call E) := fun _ _ _ _ => saneValue_of_ne hr _

theorem keepsSane_saveValue {r : Resource} (hr : r ≠ .collection .webhooks) (value : r.Value) :
    KeepsSane (saveValue r value : Call E) := fun _ _ _ _ => saneValue_of_ne hr _

theorem keepsSane_replaced {r : Resource} (hr : r ≠ .collection .webhooks) (result : Except E r.Value) :
    KeepsSane (.ofExcept (result.map (replaceValue r))) := by
  cases result with
  | error e => trivial
  | ok value => exact keepsSane_replaceValue hr value

end

section

variable {T : Type} {name : CollectionName} (hname : name ≠ .webhooks) (env : Env)
include hname

theorem keepsSane_createItem (decoder : StructDecoder T) (check : T → Except Http.HttpError T)
    (request : Str → T → name.collection.Request) (body : Json) :
    KeepsSane (Http.createItem env name decoder check request body) := by
  refine keepsSane_ofExcept fun call h => ?_
  simp only [Normalize.bind_eq_ok] at h
  obtain ⟨_, _, _, _, h⟩ := h
  cases h
  exact keepsSane_editCollection hname _ _

theorem keepsSane_updateItem (decoder : StructDecoder T) (check : T → Except Http.HttpError T) (missing : Str)
    (request : Str → T → name.collection.Request) (id : Except Http.HttpError Str) (body : Json) :
    KeepsSane (Http.updateItem name decoder check missing request id body) := by
  refine keepsSane_ofExcept fun call h => ?_
  simp only [Normalize.bind_eq_ok] at h
  obtain ⟨_, _, _, _, _, _, h⟩ := h
  cases h
  exact keepsSane_editCollection hname _ _

theorem keepsSane_deleteItem (missing : Str) (request : Str → name.collection.Request)
    (id : Except Http.HttpError Str) : KeepsSane (Http.deleteItem name missing request id) := by
  refine keepsSane_ofExcept fun call h => ?_
  simp only [Normalize.bind_eq_ok] at h
  obtain ⟨_, _, h⟩ := h
  cases h
  exact keepsSane_editCollection hname _ _

theorem keepsSane_execute {c : ItemAction T} (hc : c.name = name) (method endpoint : Str) (payload : Json) :
    KeepsSane (c.execute env method endpoint payload) := by
  subst hc
  refine keepsSane_ofExcept fun call h => ?_
  split at h
  · simp only [Normalize.bind_eq_ok] at h
    obtain ⟨_, _, _, _, h⟩ := h
    cases h
    exact keepsSane_editCollection hname _ _
  · split at h
    · cases h
    · split at h
      · simp only [Normalize.bind_eq_ok] at h
        obtain ⟨_, _, _, _, h⟩ := h
        cases h
        exact keepsSane_editCollection hname _ _
      · split at h
        · cases h
          exact keepsSane_editCollection hname _ _
        · cases h

end

section

variable (env : Env)

theorem keepsSane_createWebhook (body : Json) : KeepsSane (Http.createWebhook env body) := by
  refine keepsSane_ofExcept fun call h => ?_
  simp only [Normalize.bind_eq_ok] at h
  obtain ⟨_, _, _, hcheck, h⟩ := h
  cases h
  exact keepsSane_editWebhooks _ (sane_of_checkWebhook hcheck)

theorem keepsSane_updateWebhook (id : Except Http.HttpError Str) (body : Json) :
    KeepsSane (Http.updateWebhook env id body) := by
  refine keepsSane_ofExcept fun call h => ?_
  simp only [Normalize.bind_eq_ok] at h
  obtain ⟨_, _, _, _, _, hcheck, h⟩ := h
  cases h
  exact keepsSane_editWebhooks _ (sane_of_checkWebhook hcheck)

theorem keepsSane_deleteWebhook (id : Except Http.HttpError Str) : KeepsSane (Http.deleteWebhook id) := by
  refine keepsSane_ofExcept fun call h => ?_
  simp only [Normalize.bind_eq_ok] at h
  obtain ⟨_, _, h⟩ := h
  cases h
  exact keepsSane_editWebhooks _ trivial

theorem keepsSane_withFixtures {call : Call Http.HttpError} (h : KeepsSane call) (fixtures : List (Str × Bytes)) :
    KeepsSane (Http.withFixtures fixtures call) := by
  cases call <;> exact h

theorem keepsSane_createMapLocalRule (body : Json) : KeepsSane (Http.createMapLocalRule env body) := by
  refine keepsSane_ofExcept fun call h => ?_
  simp only [Normalize.bind_eq_ok] at h
  obtain ⟨_, _, h⟩ := h
  cases h
  exact keepsSane_withFixtures (keepsSane_editCollection CollectionName.noConfusion _ _) _

theorem keepsSane_updateMapLocalRule (id : Except Http.HttpError Str) (body : Json) :
    KeepsSane (Http.updateMapLocalRule env id body) := by
  refine keepsSane_ofExcept fun call h => ?_
  simp only [Normalize.bind_eq_ok] at h
  obtain ⟨_, _, _, _, h⟩ := h
  cases h
  exact keepsSane_withFixtures (keepsSane_editCollection CollectionName.noConfusion _ _) _

theorem keepsSane_reorderRuleSets (body : Json) : KeepsSane (Http.reorderRuleSets body) := by
  unfold Http.reorderRuleSets
  split
  · trivial
  · exact keepsSane_editCollection CollectionName.noConfusion _ _

theorem keepsSane_updateDns (body : Json) : KeepsSane (Http.updateDns env body) := by
  have hedit : ∀ request, KeepsSane (editCollection .dnsOverrides Http.notFound request) := fun request =>
    keepsSane_editCollection CollectionName.noConfusion _ request
  unfold Http.updateDns
  dsimp only
  split
  · split
    · split
      · exact hedit _
      · trivial
    · exact hedit _
  · split
    · exact hedit _
    · trivial

theorem keepsSane_upsertDns (host : Except Http.HttpError Str) (body : Json) :
    KeepsSane (Http.upsertDns env host body) := by
  refine keepsSane_ofExcept fun call h => ?_
  simp only [Normalize.bind_eq_ok] at h
  obtain ⟨host, _, h⟩ := h
  split at h
  · cases h
    exact keepsSane_editCollection CollectionName.noConfusion _ _
  · cases h

theorem keepsSane_setUpstreamProxyHandler (body : Json) : KeepsSane (Http.setUpstreamProxyHandler env body) := by
  unfold Http.setUpstreamProxyHandler
  split
  · trivial
  · split
    · exact keepsSane_saveValue Resource.noConfusion _
    · split
      · exact keepsSane_saveValue Resource.noConfusion _
      · trivial

theorem keepsSane_handlers (param : Except Http.HttpError Str) (body : Json) :
    ∀ h ∈ Http.handlers env param body, KeepsSane h.2 := by
  have hcreate : ∀ {T : Type} {name : CollectionName}, name ≠ .webhooks → ∀ decoder check request,
      KeepsSane (@Http.createItem env T name decoder check request body) := fun hname _ _ _ =>
    keepsSane_createItem hname env _ _ _ _
  have hupdate : ∀ {T : Type} {name : CollectionName}, name ≠ .webhooks → ∀ decoder check missing request,
      KeepsSane (@Http.updateItem T name decoder check missing request param body) := fun hname _ _ _ _ =>
    keepsSane_updateItem hname _ _ _ _ _ _
  have hdelete : ∀ {name : CollectionName}, name ≠ .webhooks → ∀ missing request,
      KeepsSane (Http.deleteItem name missing request param) := fun hname _ _ => keepsSane_deleteItem hname _ _ _
  unfold Http.handlers
  simp only [List.forall_mem_cons, List.not_mem_nil, false_implies, implies_true, and_true]
  refine ⟨keepsSane_replaced Resource.noConfusion _, keepsSane_replaced Resource.noConfusion _,
    hcreate ?_ _ _ _, hupdate ?_ _ _ _ _, hdelete ?_ _ _,
    hcreate ?_ _ _ _, keepsSane_reorderRuleSets _, hupdate ?_ _ _ _ _, hdelete ?_ _ _,
    keepsSane_replaced Resource.noConfusion _, keepsSane_updateDns env _, keepsSane_upsertDns env _ _, hdelete ?_ _ _,
    keepsSane_createMapLocalRule env _, keepsSane_updateMapLocalRule env _ _, hdelete ?_ _ _,
    hcreate ?_ _ _ _, hupdate ?_ _ _ _ _, hdelete ?_ _ _,
    hcreate ?_ _ _ _, hupdate ?_ _ _ _ _, hdelete ?_ _ _,
    hcreate ?_ _ _ _, hupdate ?_ _ _ _ _, hdelete ?_ _ _, hdelete ?_ _ _,
    hcreate ?_ _ _ _, hupdate ?_ _ _ _ _, hdelete ?_ _ _,
    keepsSane_createWebhook env _, keepsSane_updateWebhook env _ _, keepsSane_deleteWebhook _,
    keepsSane_setUpstreamProxyHandler env _⟩
  all_goals exact CollectionName.noConfusion

theorem keepsSane_call (method path : Str) (body : Json) : KeepsSane (Http.call env method path body) := by
  unfold Http.call
  split
  · trivial
  · dsimp only
    split
    · rename_i h hfind
      exact keepsSane_handlers env _ body h (List.mem_of_find?_eq_some hfind)
    · trivial

/-! ### Actions -/

theorem keepsSane_executeWebhookAction (method endpoint : Str) (payload : Json) :
    KeepsSane ((webhookAction env).execute env method endpoint payload) := by
  refine keepsSane_ofExcept fun call h => ?_
  split at h
  · simp only [Normalize.bind_eq_ok] at h
    obtain ⟨_, _, _, hcheck, h⟩ := h
    cases h
    exact keepsSane_editWebhooks _ (sane_of_checkWebhook hcheck)
  · split at h
    · cases h
    · split at h
      · simp only [Normalize.bind_eq_ok] at h
        obtain ⟨_, _, _, hcheck, h⟩ := h
        cases h
        exact keepsSane_editWebhooks _ (sane_of_checkWebhook hcheck)
      · split at h
        · cases h
          exact keepsSane_editWebhooks _ trivial
        · cases h

theorem keepsSane_executeCollectionAction (method endpoint : Str) (payload : Json) :
    KeepsSane (executeCollectionAction env method endpoint payload) := by
  unfold executeCollectionAction
  split
  case h_1 => trivial
  case h_2 =>
    unfold executeDnsItem
    split
    · trivial
    · split
      · trivial
      · exact keepsSane_editCollection CollectionName.noConfusion _ _
  case h_10 => exact keepsSane_executeWebhookAction env _ _ _
  all_goals exact keepsSane_execute CollectionName.noConfusion env rfl _ _ _

theorem keepsSane_executeDirect (payload : Json) (route : DirectActionRoute) :
    KeepsSane (executeDirect env payload route) := by
  cases route with
  | throttling => exact keepsSane_replaced Resource.noConfusion _
  | captureFilter => exact keepsSane_replaced Resource.noConfusion _
  | dns =>
    refine keepsSane_ofExcept fun call h => ?_
    cases hpayload : dnsPayload env payload with
    | error e =>
      rw [hpayload] at h
      cases h
    | ok overrides =>
      rw [hpayload] at h
      cases h
      exact keepsSane_editCollection CollectionName.noConfusion _ _
  | upstreamProxy =>
    show KeepsSane (executeUpstreamProxy env payload)
    unfold executeUpstreamProxy
    split
    · exact keepsSane_saveValue Resource.noConfusion _
    · split
      · exact keepsSane_saveValue Resource.noConfusion _
      · trivial
  | clearSessions | playback | forward | forwardWebSocket => trivial

theorem keepsSane_executeActionPayload (preconditions : List AssistantActionPrecondition → Except Str Unit)
    (action : AssistantAction) : KeepsSane (executeActionPayload env preconditions action) := by
  refine keepsSane_ofExcept fun call h => ?_
  simp only [Normalize.bind_eq_ok] at h
  obtain ⟨_, _, _, _, payload, _, _, _, h⟩ := h
  split at h
  · cases h
    exact keepsSane_executeDirect env payload _
  · cases h
    exact keepsSane_executeCollectionAction env _ _ payload

end

end Restarts

end Oproxy
