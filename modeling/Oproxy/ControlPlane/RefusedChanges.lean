import Mathlib.Logic.Function.Basic
import Oproxy.ControlPlane.AssistantExecution

/-!
# Refused changes (the handlers of `control_plane`)

A request which is answered with an error may have changed what is in memory all the same: the handlers check first, and
then edit the value before it is saved.  Of the resources only the upstream proxy is saved before it is used.
-/

namespace Oproxy

open Persisted

namespace Mutations

variable {E : Type} {storageError : Str → E} {saveError : Option Str} {memory : Memory}

namespace Call

/-- An error leaves the memory as it was. -/
def Unapplied (storageError : Str → E) (saveError : Option Str) (memory : Memory) (call : Call E) : Prop :=
  ∀ e, (call.run storageError saveError memory).answer = .error e →
    (call.run storageError saveError memory).memory = memory

/-- The file can be saved, or it is saved first, or the edit is refused or leaves the value as it is. -/
def Harmless (saveError : Option Str) (memory : Memory) : Call E → Prop
  | mutates r m =>
    saveError = none ∨ r = .upstreamProxy ∨ ∀ value, m.edit (memory r) = .ok value → value = memory r
  | _ => True

/-- The upstream proxy is what is saved first. -/
def Ordered (call : Call E) : Prop :=
  ∀ r m, call = .mutates r m → (m.order = .saveFirst ↔ r = .upstreamProxy)

private theorem memory_run_mutates (storageError : Str → E) (e : Str) {r : Resource} {m : Mutation E r.Value}
    {value : r.Value} (hedit : m.edit (memory r) = .ok value) :
    ((Call.mutates r m).run storageError (some e) memory).memory =
      if m.order = .saveFirst then memory else Function.update memory r value := by
  unfold run
  dsimp only
  rw [hedit]
  cases m.order <;> rfl

private theorem answer_run_mutates (storageError : Str → E) (e : Str) {r : Resource} {m : Mutation E r.Value}
    {value : r.Value} (hedit : m.edit (memory r) = .ok value) :
    ((Call.mutates r m).run storageError (some e) memory).answer = .error (storageError e) := by
  unfold run
  dsimp only
  rw [hedit]
  cases m.order <;> rfl

/-- An edit which is saved is no error. -/
private theorem unapplied_of_saved (r : Resource) (m : Mutation E r.Value) :
    Unapplied storageError none memory (.mutates r m) := by
  intro e
  unfold run
  dsimp only
  split
  · intro _
    rfl
  · intro herror
    cases herror

/-- A refused edit changes nothing. -/
private theorem unapplied_of_refused {r : Resource} {m : Mutation E r.Value} {e : E}
    (hedit : m.edit (memory r) = .error e) : Unapplied storageError saveError memory (.mutates r m) := by
  intro _ _
  unfold run
  dsimp only
  rw [hedit]

theorem unapplied_iff {call : Call E} (hordered : call.Ordered) :
    call.Unapplied storageError saveError memory ↔ call.Harmless saveError memory := by
  cases call with
  | refused e => exact iff_of_true (fun _ _ => rfl) trivial
  | other => exact iff_of_true (fun _ _ => rfl) trivial
  | mutates r m =>
    have horder := hordered r m rfl
    unfold Harmless
    dsimp only
    cases saveError with
    | none => exact iff_of_true (unapplied_of_saved r m) (Or.inl rfl)
    | some text =>
      cases hedit : m.edit (memory r) with
      | error e => exact iff_of_true (unapplied_of_refused hedit) (Or.inr (Or.inr fun _ heq => by cases heq))
      | ok value =>
        have hmemory := memory_run_mutates storageError text hedit
        have hanswer := answer_run_mutates storageError text hedit
        constructor
        · intro hunapplied
          have hsame := hunapplied _ hanswer
          rw [hmemory] at hsame
          by_cases hfirst : m.order = .saveFirst
          · exact Or.inr (Or.inl (horder.1 hfirst))
          · rw [if_neg hfirst, Function.update_eq_self_iff] at hsame
            refine Or.inr (Or.inr fun value' heq => ?_)
            cases heq
            exact hsame
        · rintro (hsaved | hproxy | hsame) e _
          · cases hsaved
          · rw [hmemory, if_pos (horder.2 hproxy)]
          · rw [hmemory]
            split
            · rfl
            · rw [Function.update_eq_self_iff]
              exact hsame value rfl

/-! ### Every request is in this order -/

theorem ordered_refused (e : E) : (refused e).Ordered := by
  intro r m heq
  cases heq

theorem ordered_other : (other : Call E).Ordered := by
  intro r m heq
  cases heq

theorem ordered_editCollection (name : CollectionName) (notFound : E) (request : name.collection.Request) :
    (editCollection name notFound request).Ordered := by
  intro r m heq
  cases heq
  exact iff_of_false Order.noConfusion Resource.noConfusion

theorem ordered_replaceValue {r : Resource} (value : r.Value) (h : r ≠ .upstreamProxy) :
    (replaceValue r value : Call E).Ordered := by
  intro r' m heq
  cases heq
  exact iff_of_false Order.noConfusion h

theorem ordered_saveValue (value : Resource.upstreamProxy.Value) :
    (saveValue .upstreamProxy value : Call E).Ordered := by
  intro r m heq
  cases heq
  exact iff_of_true rfl rfl

theorem ordered_replaced {r : Resource} (hr : r ≠ .upstreamProxy) (result : Except E r.Value) :
    (ofExcept (result.map (replaceValue r))).Ordered := by
  cases result with
  | error e => exact ordered_refused e
  | ok value => exact ordered_replaceValue value hr

theorem ordered_ofExcept {result : Except E (Call E)} (h : ∀ call, result = .ok call → call.Ordered) :
    (ofExcept result).Ordered := by
  cases result with
  | error e => exact ordered_refused e
  | ok call => exact h call rfl

end Call

open Call

namespace Http

section

variable {T : Type} {name : CollectionName}

theorem ordered_createItem (env : Env) (decoder : StructDecoder T) (check : T → Except HttpError T)
    (request : Str → T → name.collection.Request) (body : Json) :
    (createItem env name decoder check request body).Ordered := by
  refine ordered_ofExcept fun call h => ?_
  simp only [Normalize.bind_eq_ok] at h
  obtain ⟨_, _, _, _, h⟩ := h
  cases h
  exact ordered_editCollection name _ _

theorem ordered_updateItem (decoder : StructDecoder T) (check : T → Except HttpError T) (missing : Str)
    (request : Str → T → name.collection.Request) (id : Except HttpError Str) (body : Json) :
    (updateItem name decoder check missing request id body).Ordered := by
  refine ordered_ofExcept fun call h => ?_
  simp only [Normalize.bind_eq_ok] at h
  obtain ⟨_, _, _, _, _, _, h⟩ := h
  cases h
  exact ordered_editCollection name _ _

theorem ordered_deleteItem (missing : Str) (request : Str → name.collection.Request) (id : Except HttpError Str) :
    (deleteItem name missing request id).Ordered := by
  refine ordered_ofExcept fun call h => ?_
  simp only [Normalize.bind_eq_ok] at h
  obtain ⟨_, _, h⟩ := h
  cases h
  exact ordered_editCollection name _ _

end

variable (env : Env)

theorem ordered_withFixtures {call : Call HttpError} (h : call.Ordered) (fixtures : List (Str × Bytes)) :
    (withFixtures fixtures call).Ordered := by
  intro r m heq
  cases call with
  | refused e => cases heq
  | other => cases heq
  | mutates _ m' =>
    cases heq
    exact h _ m' rfl

theorem ordered_createMapLocalRule (body : Json) : (createMapLocalRule env body).Ordered := by
  refine ordered_ofExcept fun call h => ?_
  simp only [Normalize.bind_eq_ok] at h
  obtain ⟨_, _, h⟩ := h
  cases h
  exact ordered_withFixtures (ordered_editCollection _ _ _) _

theorem ordered_updateMapLocalRule (id : Except HttpError Str) (body : Json) :
    (updateMapLocalRule env id body).Ordered := by
  refine ordered_ofExcept fun call h => ?_
  simp only [Normalize.bind_eq_ok] at h
  obtain ⟨_, _, _, _, h⟩ := h
  cases h
  exact ordered_withFixtures (ordered_editCollection _ _ _) _

theorem ordered_reorderRuleSets (body : Json) : (reorderRuleSets body).Ordered := by
  unfold reorderRuleSets
  split
  · exact ordered_refused _
  · exact ordered_editCollection _ _ _

theorem ordered_updateDns (body : Json) : (updateDns env body).Ordered := by
  unfold updateDns
  dsimp only
  split
  · split
    · split
      · exact ordered_editCollection _ _ _
      · exact ordered_refused _
    · exact ordered_editCollection _ _ _
  · split
    · exact ordered_editCollection _ _ _
    · exact ordered_refused _

theorem ordered_upsertDns (host : Except HttpError Str) (body : Json) : (upsertDns env host body).Ordered := by
  refine ordered_ofExcept fun call h => ?_
  simp only [Normalize.bind_eq_ok] at h
  obtain ⟨host, _, h⟩ := h
  split at h
  · cases h
    exact ordered_editCollection _ _ _
  · cases h

theorem ordered_setUpstreamProxyHandler (body : Json) : (setUpstreamProxyHandler env body).Ordered := by
  unfold setUpstreamProxyHandler
  split
  · exact ordered_refused _
  · split
    · exact ordered_saveValue _
    · split
      · exact ordered_saveValue _
      · exact ordered_refused _

theorem ordered_handlers (param : Except HttpError Str) (body : Json) :
    ∀ h ∈ handlers env param body, h.2.Ordered := by
  unfold handlers
  simp only [List.forall_mem_cons, List.not_mem_nil, false_implies, implies_true, and_true]
  exact ⟨ordered_replaced Resource.noConfusion _, ordered_replaced Resource.noConfusion _,
    ordered_createItem env _ _ _ _, ordered_updateItem _ _ _ _ _ _, ordered_deleteItem _ _ _,
    ordered_createItem env _ _ _ _, ordered_reorderRuleSets _, ordered_updateItem _ _ _ _ _ _, ordered_deleteItem _ _ _,
    ordered_replaced Resource.noConfusion _, ordered_updateDns env _, ordered_upsertDns env _ _,
    ordered_deleteItem _ _ _,
    ordered_createMapLocalRule env _, ordered_updateMapLocalRule env _ _, ordered_deleteItem _ _ _,
    ordered_createItem env _ _ _ _, ordered_updateItem _ _ _ _ _ _, ordered_deleteItem _ _ _,
    ordered_createItem env _ _ _ _, ordered_updateItem _ _ _ _ _ _, ordered_deleteItem _ _ _,
    ordered_createItem env _ _ _ _, ordered_updateItem _ _ _ _ _ _, ordered_deleteItem _ _ _, ordered_deleteItem _ _ _,
    ordered_createItem env _ _ _ _, ordered_updateItem _ _ _ _ _ _, ordered_deleteItem _ _ _,
    ordered_createItem env _ _ _ _, ordered_updateItem _ _ _ _ _ _, ordered_deleteItem _ _ _,
    ordered_setUpstreamProxyHandler env _⟩

theorem ordered_call (method path : Str) (body : Json) : (call env method path body).Ordered := by
  unfold call
  split
  · exact ordered_refused _
  · dsimp only
    split
    · rename_i h hfind
      exact ordered_handlers env _ body h (List.mem_of_find?_eq_some hfind)
    · exact ordered_other

end Http

end Mutations

namespace Assistant

open Mutations Call

theorem ordered_execute {T : Type} (c : ItemAction T) (env : Env) (method endpoint : Str) (payload : Json) :
    (c.execute env method endpoint payload).Ordered := by
  refine ordered_ofExcept fun call h => ?_
  split at h
  · simp only [Normalize.bind_eq_ok] at h
    obtain ⟨_, _, _, _, h⟩ := h
    cases h
    exact ordered_editCollection _ _ _
  · split at h
    · cases h
    · split at h
      · simp only [Normalize.bind_eq_ok] at h
        obtain ⟨_, _, _, _, h⟩ := h
        cases h
        exact ordered_editCollection _ _ _
      · split at h
        · cases h
          exact ordered_editCollection _ _ _
        · cases h

theorem ordered_executeDnsItem (method endpoint : Str) : (executeDnsItem method endpoint).Ordered := by
  unfold executeDnsItem
  split
  · exact ordered_refused _
  · split
    · exact ordered_refused _
    · exact ordered_editCollection _ _ _

theorem ordered_executeCollectionAction (env : Env) (method endpoint : Str) (payload : Json) :
    (executeCollectionAction env method endpoint payload).Ordered := by
  unfold executeCollectionAction
  split
  · exact ordered_refused _
  · exact ordered_executeDnsItem _ _
  all_goals exact ordered_execute _ env method endpoint payload

theorem ordered_executeUpstreamProxy (env : Env) (payload : Json) : (executeUpstreamProxy env payload).Ordered := by
  unfold executeUpstreamProxy
  split
  · exact ordered_saveValue _
  · split
    · exact ordered_saveValue _
    · exact ordered_refused _

theorem ordered_executeDirect (env : Env) (payload : Json) (route : DirectActionRoute) :
    (executeDirect env payload route).Ordered := by
  cases route with
  | throttling => exact ordered_replaced Resource.noConfusion _
  | captureFilter => exact ordered_replaced Resource.noConfusion _
  | dns =>
    refine ordered_ofExcept fun call h => ?_
    cases hpayload : dnsPayload env payload with
    | error e =>
      rw [hpayload] at h
      cases h
    | ok overrides =>
      rw [hpayload] at h
      cases h
      exact ordered_editCollection _ _ _
  | upstreamProxy => exact ordered_executeUpstreamProxy env payload
  | clearSessions | playback | forward | forwardWebSocket => exact ordered_other

theorem ordered_executeActionPayload (env : Env) (preconditions : List AssistantActionPrecondition → Except Str Unit)
    (action : AssistantAction) : (executeActionPayload env preconditions action).Ordered := by
  refine ordered_ofExcept fun call h => ?_
  simp only [Normalize.bind_eq_ok] at h
  obtain ⟨_, _, _, _, payload, _, _, _, h⟩ := h
  split at h
  · cases h
    exact ordered_executeDirect env payload _
  · cases h
    exact ordered_executeCollectionAction env _ _ payload

end Assistant

namespace Mutations

open Call Oproxy.Mutations.Http Assistant

/-- An error leaves the memory as it was, over HTTP and from the assistant. -/
def RefusedUnapplied (env : Env) (memory : Memory) : Prop :=
  (∀ method path body, (call env method path body).Unapplied storageErrorResponse env.disk.saveError memory) ∧
    ∀ preconditions action, (executeActionPayload env preconditions action).Unapplied id env.disk.saveError memory

/-- The exact condition on a request over HTTP, and on an action of the assistant. -/
theorem refused_unapplied_iff (env : Env) (memory : Memory) :
    (∀ method path body, (call env method path body).Unapplied storageErrorResponse env.disk.saveError memory ↔
      (call env method path body).Harmless env.disk.saveError memory) ∧
    ∀ preconditions action, (executeActionPayload env preconditions action).Unapplied id env.disk.saveError memory ↔
      (executeActionPayload env preconditions action).Harmless env.disk.saveError memory :=
  ⟨fun method path body => unapplied_iff (ordered_call env method path body),
    fun preconditions action => unapplied_iff (ordered_executeActionPayload env preconditions action)⟩

/-- While files can be saved, no error leaves anything behind in memory. -/
theorem refusedUnapplied_of_saved {env : Env} (h : env.disk.saveError = none) (memory : Memory) :
    RefusedUnapplied env memory := by
  have hharmless : ∀ {E : Type} (call : Call E), call.Harmless env.disk.saveError memory := by
    intro E call
    cases call with
    | refused e => trivial
    | other => trivial
    | mutates r m => exact Or.inl h
  refine ⟨fun method path body => ?_, fun preconditions action => ?_⟩
  · exact (unapplied_iff (ordered_call env method path body)).2 (hharmless _)
  · exact (unapplied_iff (ordered_executeActionPayload env preconditions action)).2 (hharmless _)

/-- Nothing in memory. -/
def emptyMemory : Memory
  | .collection .accessRules => ([] : List AccessRule)
  | .collection .ruleSets => ([] : List RewriteRuleSet)
  | .collection .mapLocalRules => ([] : List MapLocalRule)
  | .collection .mapRemoteRules => ([] : List MapRemoteRule)
  | .collection .breakpoints => ([] : List BreakpointRule)
  | .collection .mockRules => ([] : List MockRule)
  | .collection .luaScripts => ([] : List LuaScript)
  | .collection .webhooks => ([] : List WebhookConfig)
  | .collection .dnsOverrides => (IndexMap.empty : DnsOverrides)
  | .throttling => (⟨0, 0, false⟩ : ThrottlingConfig)
  | .captureFilter => (⟨.disabled, []⟩ : CaptureFilterConfig)
  | .upstreamProxy => (none : Option Str)

/-- Where no request is about a structure. -/
def noStruct (T : Type) : StructDecoder T := ⟨fun _ => none, fun _ => none, fun _ => []⟩

/-- A proxy on a disk which may be full. -/
def envOf (saveError : Option Str) : Env where
  serde := ⟨noStruct _, noStruct _, noStruct _, noStruct _, noStruct _, noStruct _, noStruct _, noStruct _,
    noStruct _, noStruct _, noStruct _, noStruct _, fun _ => [], fun _ => []⟩
  newId := "u1"
  parseUrl := fun _ => .error []
  resolve := fun _ _ => none
  policy := ⟨false⟩
  ipText := fun _ => []
  regexNew := fun _ => .ok ()
  proxyAll := fun _ => true
  mapLocalBasePath := none
  storagePath := "storage"
  disk := ⟨⟨fun _ => false, fun _ => false, fun _ => false, fun _ => .error [], fun _ => none⟩, fun _ => none,
    fun _ => none, saveError⟩

theorem handlerFor_dns : Router.handlerFor "POST" "/admin/dns" = some (.route "/admin/dns" "POST") := by decide +kernel

theorem call_dns (env : Env) (body : Json) : call env "POST" "/admin/dns" body = updateDns env body := by
  unfold call
  rw [handlerFor_dns]
  rfl

/-- A DNS override which could not be stored is in use. -/
theorem not_refused_unapplied : ¬ ∀ env memory, RefusedUnapplied env memory := by
  intro h
  have hunapplied := (h (envOf (some "No space left on device")) emptyMemory).1 "POST" "/admin/dns"
    (.obj [("api.test", .str "10.0.0.5")])
  rw [call_dns] at hunapplied
  have hmemory := congrFun (hunapplied _ rfl) (.collection .dnsOverrides)
  exact absurd (congrArg IndexMap.len hmemory) (by decide +kernel)

end Mutations

end Oproxy
