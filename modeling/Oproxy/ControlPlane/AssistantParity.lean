import Oproxy.ControlPlane.ResourceActions

/-!
# Actions and requests (`control_plane/assistant_actions.rs` beside `policy.rs`, `breakpoints.rs`, `extensions.rs`)

A change of a resource is implemented twice, for HTTP and for the assistant.  The two differ in their checks, in the id
under which an item is kept, and in how they read the id out of the path.
-/

namespace Oproxy

open Persisted Mutations Assistant

namespace ResourceKind

/-! ### When the two agree -/

section

variable (env : Env) (memory : Memory) (payload : Json)

/-- A rule which is kept under the id of the path. -/
def SamePolicyUpdate {T : Type} [CollectionItem T] (target : Option Str) (id : Str) (rule : T)
    (items : List T) : Prop :=
  SameUpdate target id (fun id' _ => CollectionItem.setId id' rule) (fun _ => CollectionItem.setId id rule) items

/-- The text is a proxy as it stands, or none, also without the blanks around it. -/
def SameProxy (s : Str) : Prop :=
  s.trim = s ∨ env.proxyAll s = false ∧ s.trim ≠ [] ∧ env.proxyAll s.trim = false

/-- When a new item, or a new setting, comes to the same over HTTP and from the assistant. -/
def PostAgrees : ResourceKind → Prop
  | mapLocal => ∀ submitted ∈ env.serde.mapLocalRule.read payload, submitted.inlineBody = none ∧
      (Http.validateMapLocalPath env env.disk.fs submitted.rule).isOk = true
  | breakpoints => ∀ rule ∈ env.serde.breakpointRule.read payload, (Http.validateLocation env rule).isOk = true
  | mock => ∀ rule ∈ env.serde.mockRule.read payload, rule.id = [] ∨ rule.id = env.newId
  | scripts => ∀ script ∈ env.serde.luaScript.read payload, script.id = [] ∨ script.id = env.newId
  | upstreamProxy => payload.isNull = true ∨
      ∃ value, payload.get? "upstream_proxy" = some value ∧ ∀ s, value = .str s → SameProxy env s
  | dns => (∀ e ∈ singleDnsOverride payload, e.1.trim = []) ∧
      ((dnsMap dnsValue payload).isSome = true → (dnsMap dnsEntry payload).isSome = true)
  | _ => True

/-- When the replacement of an item does, for the id which the router hands over. -/
def PutAgrees (target : Option Str) (id : Str) : ResourceKind → Prop
  | ruleSets => ∀ rule ∈ env.serde.ruleSet.read payload,
      SamePolicyUpdate target id rule (memory (.collection .ruleSets))
  | mapRemote => ∀ rule ∈ env.serde.mapRemoteRule.read payload,
      SamePolicyUpdate target id rule (memory (.collection .mapRemoteRules))
  | mapLocal => ∀ submitted ∈ env.serde.mapLocalRule.read payload,
      if submitted.inlineBody = none then
        SamePolicyUpdate
          (target.filter fun _ => (Http.validateMapLocalPath env env.disk.fs submitted.rule).isOk) id
          submitted.rule (memory (.collection .mapLocalRules))
      else
        id ∉ idsOf (T := MapLocalRule) (memory (.collection .mapLocalRules)) ∧
          ((Http.prepareMapLocalRule env payload).isOk = true →
            ∀ id' ∈ target, id' ∉ idsOf (T := MapLocalRule) (memory (.collection .mapLocalRules)))
  | access => ∀ rule ∈ env.serde.accessRule.read payload,
      SamePolicyUpdate target id rule (memory (.collection .accessRules))
  | breakpoints => ∀ rule ∈ env.serde.breakpointRule.read payload,
      SamePolicyUpdate (target.filter fun _ => (Http.validateLocation env rule).isOk) id rule
        (memory (.collection .breakpoints))
  | mock => ∀ rule ∈ env.serde.mockRule.read payload,
      SameUpdate target id (fun _ old => { rule with callCount := old.callCount })
        (fun old => { rule with id := id, callCount := old.callCount }) (memory (.collection .mockRules))
  | scripts => ∀ script ∈ env.serde.luaScript.read payload,
      SameUpdate target id (fun _ _ => script) (fun _ => CollectionItem.setId id script)
        (memory (.collection .luaScripts))
  | webhooks => ∀ hook ∈ accepted env.serde.webhook (validateWebhook env) payload,
      SameUpdate target id (fun _ _ => hook) (fun _ => CollectionItem.setId id hook) (memory (.collection .webhooks))
  | throttling | captureFilter | upstreamProxy | dns => True

/-- When the deletion of an item does. -/
def DeleteAgrees (target : Option Str) (id : Str) : ResourceKind → Prop
  | ruleSets => SameDeletion target id (· ∈ idsOf (T := RewriteRuleSet) (memory (.collection .ruleSets)))
  | mapRemote => SameDeletion target id (· ∈ idsOf (T := MapRemoteRule) (memory (.collection .mapRemoteRules)))
  | mapLocal => SameDeletion target id (· ∈ idsOf (T := MapLocalRule) (memory (.collection .mapLocalRules)))
  | access => SameDeletion target id (· ∈ idsOf (T := AccessRule) (memory (.collection .accessRules)))
  | breakpoints => target.isSome = true ∧
      SameDeletion target id (· ∈ idsOf (T := BreakpointRule) (memory (.collection .breakpoints)))
  | mock => SameDeletion target id (· ∈ idsOf (T := MockRule) (memory (.collection .mockRules)))
  | scripts => SameDeletion target id (· ∈ idsOf (T := LuaScript) (memory (.collection .luaScripts)))
  | webhooks => SameDeletion target id (· ∈ idsOf (T := WebhookConfig) (memory (.collection .webhooks)))
  | dns => SameDeletion target id fun host =>
      IndexMap.contains (K := Str) (V := DnsEntry) (memory (.collection .dnsOverrides)) host = true
  | throttling | captureFilter | upstreamProxy => True

def Agrees (k : ResourceKind) (method : Str) : Option Str → Prop
  | none => k.PostAgrees env payload
  | some id => if method = "PUT" then k.PutAgrees env memory payload (k.target id) id
      else k.DeleteAgrees memory (k.target id) id

end

end ResourceKind

namespace Mutations

variable {env : Env} {memory : Memory} {payload : Json}

/-- Neither effect is about something else, and they are the same under a condition. -/
structure Compared (e e' : Effect) (P : Prop) : Prop where
  ne_nothing : e ≠ .nothing
  ne_nothing' : e' ≠ .nothing
  eq_iff : e = e' ↔ P

theorem Compared.ofValue {r : Resource} {fixtures : List (Str × Bytes)} {value value' : Option r.Value} {P : Prop}
    (h : value = value' ↔ P) : Compared (.ofValue r fixtures value) (.ofValue r fixtures value') P :=
  ⟨Effect.ofValue_ne_nothing _ _ _, Effect.ofValue_ne_nothing _ _ _, Effect.ofValue_inj.trans h⟩

theorem bind_eq_bind_iff {α β : Type} {o : Option α} {f g : α → Option β} :
    o.bind f = o.bind g ↔ ∀ a ∈ o, f a = g a := by
  cases o with
  | none => simp
  | some a => simp

/-- A body which is read for each target. -/
theorem bind_bind_eq_iff {α β : Type} {target : Option Str} {o : Option α} {f : Str → α → Option β}
    {g : α → Option β} :
    (target.bind fun id => o.bind (f id)) = o.bind g ↔ ∀ a ∈ o, (target.bind fun id => f id a) = g a := by
  cases o with
  | none => simp
  | some a => simp

theorem accepted_ok {E T : Type} {decoder : StructDecoder T} :
    accepted decoder (fun item => (.ok item : Except E T)) payload = decoder.read payload := by
  unfold accepted
  cases decoder.read payload <;> rfl

theorem filter_const (target : Option Str) (b : Bool) : (target.filter fun _ => b) = if b then target else none := by
  cases target <;> cases b <;> rfl

/-- A checked body, where the check leaves an item as it is. -/
theorem bind_accepted_eq_iff {E F T V : Type} {decoder : StructDecoder T} {check : T → Except E T}
    (hcheck : ∀ item item', check item = .ok item' → item' = item) {target : Option Str} {f : Str → T → Option V}
    {g : T → Option V} :
    (target.bind fun id => (accepted decoder check payload).bind (f id)) =
        (accepted decoder (fun item => (.ok item : Except F T)) payload).bind g ↔
      ∀ item ∈ decoder.read payload,
        ((target.filter fun _ => (check item).isOk).bind fun id => f id item) = g item := by
  simp only [filter_const]
  rw [accepted_ok]
  unfold accepted
  cases decoder.read payload with
  | none => simp
  | some item =>
    cases hitem : check item with
    | error e => simp [hitem, Except.toOption, Except.isOk, Except.toBool]
    | ok item' =>
      have hsame := hcheck item item' hitem
      simp [hitem, hsame, Except.toOption, Except.isOk, Except.toBool]

theorem validateLocation_eq {rule rule' : BreakpointRule} (h : Http.validateLocation env rule = .ok rule') :
    rule' = rule := by
  unfold Http.validateLocation at h
  split at h
  · split at h
    · cases h
      rfl
    · cases h
  · cases h
    rfl

theorem setId_eq_withNewId_iff {T : Type} [CollectionItem T] [LawfulItem T]
    (hself : ∀ item : T, CollectionItem.setId (CollectionItem.id item) item = item) {newId : Str} {item : T} :
    CollectionItem.setId newId item = withNewId newId item ↔
      CollectionItem.id item = [] ∨ CollectionItem.id item = newId := by
  unfold withNewId
  by_cases hempty : CollectionItem.id item = []
  · simp [hempty]
  · rw [if_neg (by simpa using hempty)]
    constructor
    · intro heq
      have hid := congrArg CollectionItem.id heq
      rw [LawfulItem.id_setId] at hid
      exact Or.inr hid.symm
    · rintro (hnil | rfl)
      · exact absurd hnil hempty
      · exact hself item

/-! ### Inline bodies -/

theorem prepareMapLocalRule_of_none (h : env.serde.mapLocalRule.read payload = none) :
    ∃ e, Http.prepareMapLocalRule env payload = .error e := by
  unfold Http.prepareMapLocalRule Http.jsonBody StructDecoder.fromValue
  rw [h]
  exact ⟨_, rfl⟩

/-- Without an inline body only the path is checked. -/
theorem prepareMapLocalRule_of_path {submitted : MapLocalBody}
    (h : env.serde.mapLocalRule.read payload = some submitted) (hbody : submitted.inlineBody = none) :
    Http.prepareMapLocalRule env payload =
      (Http.validateMapLocalPath env env.disk.fs submitted.rule).map fun _ => (submitted.rule, []) := by
  unfold Http.prepareMapLocalRule Http.jsonBody StructDecoder.fromValue
  rw [h]
  show (Http.materializeInlineFixture env submitted >>= _) = _
  unfold Http.materializeInlineFixture
  rw [hbody]
  show (Http.validateMapLocalPath env env.disk.fs submitted.rule >>= _) = _
  cases Http.validateMapLocalPath env env.disk.fs submitted.rule <;> rfl

/-- With one a fixture is written. -/
theorem fixtures_of_prepareMapLocalRule {submitted : MapLocalBody}
    (h : env.serde.mapLocalRule.read payload = some submitted) (hbody : submitted.inlineBody ≠ none)
    {prepared : MapLocalRule × List (Str × Bytes)} (hprepared : Http.prepareMapLocalRule env payload = .ok prepared) :
    prepared.2 ≠ [] := by
  unfold Http.prepareMapLocalRule Http.jsonBody StructDecoder.fromValue at hprepared
  rw [h] at hprepared
  obtain ⟨submitted', heq, hprepared⟩ := Normalize.bind_eq_ok.1 hprepared
  cases heq
  obtain ⟨⟨rule, fixtures, fs⟩, hfixture, hprepared⟩ := Normalize.bind_eq_ok.1 hprepared
  obtain ⟨_, _, hprepared⟩ := Normalize.bind_eq_ok.1 hprepared
  cases hprepared
  unfold Http.materializeInlineFixture at hfixture
  split at hfixture
  · rename_i hnone
    exact absurd hnone hbody
  · split at hfixture
    · cases hfixture
    · dsimp only at hfixture
      split at hfixture
      · cases hfixture
      · cases hfixture
      · cases hfixture
        exact List.cons_ne_nil _ _

theorem elim_refused (target : Option Str) : (target.elim .refused fun _ => Effect.refused) = .refused := by
  cases target <;> rfl

/-- What the handlers of Map Local rules do beside the action, with the edits of both. -/
theorem compared_mapLocal {r : Resource} {target : Option Str} {handler : Str → Call Http.HttpError}
    {edit : Str → MapLocalRule → Option r.Value} {edit' : MapLocalRule → Option r.Value}
    (hhandler : ∀ id, (handler id).effect memory =
      match Http.prepareMapLocalRule env payload with
      | .error _ => .refused
      | .ok (rule, fixtures) => .ofValue r fixtures (edit id rule))
    (hpresent : ∀ id rule rule', edit id rule = none → edit id rule' = none) :
    Compared (target.elim .refused fun id => (handler id).effect memory)
      (.ofValue r []
        ((env.serde.mapLocalRule.read payload).bind fun submitted => edit' submitted.rule))
      (∀ submitted ∈ env.serde.mapLocalRule.read payload,
        if submitted.inlineBody = none then
          ((target.filter fun _ => (Http.validateMapLocalPath env env.disk.fs submitted.rule).isOk).bind fun id =>
            edit id submitted.rule) = edit' submitted.rule
        else
          edit' submitted.rule = none ∧ ((Http.prepareMapLocalRule env payload).isOk = true →
            ∀ id ∈ target, edit id submitted.rule = none)) := by
  simp only [hhandler]
  cases hread : env.serde.mapLocalRule.read payload with
  | none =>
    obtain ⟨e, he⟩ := prepareMapLocalRule_of_none hread
    simp only [he, elim_refused]
    exact @Compared.ofValue r [] none _ _ (by simp)
  | some submitted =>
    simp only [Option.mem_some_iff, forall_eq', Option.bind_some]
    by_cases hbody : submitted.inlineBody = none
    · rw [prepareMapLocalRule_of_path hread hbody, if_pos hbody, filter_const]
      cases Http.validateMapLocalPath env env.disk.fs submitted.rule with
      | error e =>
        simp only [Except.map, elim_refused, Except.isOk, Except.toBool, Bool.false_eq_true, if_false]
        exact @Compared.ofValue r [] none _ _ Iff.rfl
      | ok _ =>
        simp only [Except.map, elim_ofValue, Except.isOk, Except.toBool, if_true]
        exact .ofValue Iff.rfl
    · rw [if_neg hbody]
      cases hprepared : Http.prepareMapLocalRule env payload with
      | error e =>
        simp only [elim_refused, Except.isOk, Except.toBool, Bool.false_eq_true, false_imp_iff, and_true]
        exact @Compared.ofValue r [] none _ _ eq_comm
      | ok prepared =>
        have hfixtures := fixtures_of_prepareMapLocalRule hread hbody hprepared
        simp only [elim_ofValue, Except.isOk, Except.toBool, true_imp_iff]
        refine ⟨Effect.ofValue_ne_nothing _ _ _, Effect.ofValue_ne_nothing _ _ _, ?_⟩
        rw [Effect.ofValue_eq_of_ne hfixtures, and_comm, Option.bind_eq_none_iff]
        refine and_congr_right fun _ => forall₂_congr fun id _ => ?_
        exact ⟨hpresent id _ _, hpresent id _ _⟩

/-! ### Settings and webhooks -/

theorem Compared.of_eq {r : Resource} {value value' : Option r.Value} {e e' : Effect} {P : Prop}
    (he : e = .ofValue r [] value) (he' : e' = .ofValue r [] value') (h : value = value' ↔ P) : Compared e e' P := by
  rw [he, he']
  exact .ofValue h

theorem toOption_checkWebhook {E F : Type} (refuse block : Str → E) (refuse' block' : Str → F) (hook : WebhookConfig) :
    (checkWebhook env refuse block hook).toOption = (checkWebhook env refuse' block' hook).toOption := by
  unfold checkWebhook
  dsimp only
  split
  · rfl
  · cases env.parseUrl hook.url with
    | error e => rfl
    | ok url =>
      dsimp only
      split
      · cases Egress.enforceAdminEgressPolicy env.resolve url env.policy <;> rfl
      · rfl

theorem accepted_webhook : accepted env.serde.webhook
      (checkWebhook env Http.unprocessable Http.adminEgressPolicyResponse) payload =
    accepted env.serde.webhook (validateWebhook env) payload := by
  unfold accepted validateWebhook
  simp only [toOption_checkWebhook Http.unprocessable Http.adminEgressPolicyResponse id id]

theorem effect_replaced {E T : Type} {r : Resource} {decoder : StructDecoder T} (toValue : T → r.Value)
    (wrap : Str → E) : (Call.ofExcept (((decoder.fromValue payload).mapError wrap).map fun t =>
      (replaceValue r (toValue t) : Call E))).effect memory =
    .ofValue r [] ((decoder.read payload).map toValue) := by
  unfold StructDecoder.fromValue
  cases decoder.read payload <;> rfl

/-- The upstream proxy which a text stands for; none where it is no proxy. -/
def proxyChoice (env : Env) (url : Option Str) : Option (Option Str) :=
  match url.filter fun s => !s.isEmpty with
  | none => some none
  | some url => if env.proxyAll url then some (some url) else none

theorem proxyChoice_some (s : Str) : proxyChoice env (some s) =
    if s = [] then some none else if env.proxyAll s then some (some s) else none := by
  cases s <;> rfl

theorem proxyChoice_trim_iff {s : Str} :
    proxyChoice env (some s) = proxyChoice env (some s.trim) ↔ ResourceKind.SameProxy env s := by
  unfold ResourceKind.SameProxy
  by_cases htrim : s.trim = s
  · rw [htrim]
    exact iff_of_true rfl (Or.inl rfl)
  · have hs : s ≠ [] := by
      rintro rfl
      exact htrim rfl
    rw [proxyChoice_some, proxyChoice_some, if_neg hs]
    by_cases hempty : s.trim = []
    · rw [if_pos hempty]
      cases env.proxyAll s <;> simp [hempty, Ne.symm hs]
    · rw [if_neg hempty]
      cases env.proxyAll s <;> cases env.proxyAll s.trim <;> simp [htrim, hempty, Ne.symm htrim]

theorem effect_setUpstreamProxyHandler : (Http.setUpstreamProxyHandler env payload).effect memory =
    .ofValue .upstreamProxy [] ((upstreamProxyBody payload).bind (proxyChoice env)) := by
  unfold Http.setUpstreamProxyHandler
  cases upstreamProxyBody payload with
  | none => rfl
  | some url =>
    show _ = Effect.ofValue .upstreamProxy [] (proxyChoice env url)
    unfold proxyChoice
    dsimp only
    cases url.filter fun s => !s.isEmpty with
    | none => rfl
    | some url =>
      dsimp only
      split <;> rfl

theorem effect_executeUpstreamProxy : (executeUpstreamProxy env payload).effect memory =
    .ofValue .upstreamProxy []
      (proxyChoice env (((payload.get? "upstream_proxy").bind Json.asStr).map Str.trim)) := by
  unfold executeUpstreamProxy proxyChoice
  cases (((payload.get? "upstream_proxy").bind Json.asStr).map Str.trim).filter fun s => !s.isEmpty with
  | none => rfl
  | some url =>
    dsimp only
    split <;> rfl

/-! ### DNS overrides -/

theorem dnsValue_of_dnsEntry {value : Json} {entry : DnsEntry} (h : dnsEntry value = some entry) :
    dnsValue value = some entry := by
  cases value with
  | str s => cases h
  | _ => exact h

theorem mapM_of_imp {α β : Type} {f g : α → Option β} (h : ∀ a b, f a = some b → g a = some b) {l : List α}
    {bs : List β} (hmap : l.mapM f = some bs) : l.mapM g = some bs := by
  induction l generalizing bs with
  | nil => exact hmap
  | cons a l ih =>
    rw [List.mapM_cons, Option.bind_eq_bind, Option.bind_eq_some_iff] at hmap
    obtain ⟨b, hb, hmap⟩ := hmap
    rw [Option.bind_eq_bind, Option.bind_eq_some_iff] at hmap
    obtain ⟨rest, hrest, heq⟩ := hmap
    rw [List.mapM_cons, h a b hb, ih hrest]
    exact heq

theorem mapM_eq_none {α β : Type} {f : α → Option β} {l : List α} {a : α} (ha : a ∈ l) (h : f a = none) :
    l.mapM f = none := by
  induction l with
  | nil => cases ha
  | cons a' l ih =>
    rw [List.mapM_cons]
    rcases List.mem_cons.1 ha with rfl | ha
    · rw [h]
      rfl
    · rw [ih ha]
      cases f a' <;> rfl

theorem dnsMap_of_dnsEntry {overrides : DnsOverrides} (h : dnsMap dnsEntry payload = some overrides) :
    dnsMap dnsValue payload = some overrides := by
  cases payload with
  | obj members =>
    obtain ⟨entries, hentries, hoverrides⟩ := Option.map_eq_some_iff.1 h
    have hvalues : members.mapM (fun m => (dnsValue m.2).map fun entry => (m.1, entry)) = some entries := by
      refine mapM_of_imp (fun m e hm => ?_) hentries
      obtain ⟨entry, hentry, heq⟩ := Option.map_eq_some_iff.1 hm
      exact Option.map_eq_some_iff.2 ⟨entry, dnsValue_of_dnsEntry hentry, heq⟩
    exact Option.map_eq_some_iff.2 ⟨entries, hvalues, hoverrides⟩
  | _ => cases h

/-- One override is no map of entries. -/
theorem dnsMap_of_single {e : Str × DnsEntry} (h : singleDnsOverride payload = some e) :
    dnsMap dnsEntry payload = none := by
  cases payload with
  | obj members =>
    -- the host is a text, and no entry is one
    obtain ⟨host, hhost, _⟩ := Option.bind_eq_some_iff.1 h
    obtain ⟨value, hvalue, hstr⟩ := Option.bind_eq_some_iff.1 hhost
    obtain ⟨m, hm, rfl⟩ := Option.map_eq_some_iff.1 hvalue
    have hentry : dnsEntry m.2 = none := by
      cases hm2 : m.2 with
      | str s => rfl
      | _ =>
        rw [hm2] at hstr
        cases hstr
    unfold dnsMap
    dsimp only
    rw [mapM_eq_none (List.mem_of_find?_eq_some hm) (by rw [hentry]; rfl)]
    rfl
  | _ => rfl

theorem effect_replaceDns : (match dnsMap dnsValue payload with
      | some overrides => editCollection .dnsOverrides Http.notFound (.replace overrides)
      | none => .refused (Http.unprocessable (
        ("expected either a single \x7b\"host\": ..., \"ip\": ..., \"enabled\": ...\x7d object, " : Str) ++
        ("or a whole-map replace \x7b\"<host>\": \x7b\"ip\": ..., \"enabled\": ...\x7d, ...\x7d: " : Str) ++
        env.serde.describeDns payload)) : Call Http.HttpError).effect memory =
    .ofValue (.collection .dnsOverrides) [] (dnsMap dnsValue payload) := by
  cases dnsMap dnsValue payload <;> rfl

theorem effect_updateDns : (Http.updateDns env payload).effect memory =
    .ofValue (.collection .dnsOverrides) []
      (match (singleDnsOverride payload).filter fun e => !e.1.trim.isEmpty with
      | some e => some (IndexMap.insert (memory (.collection .dnsOverrides)) e.1 e.2)
      | none => dnsMap dnsValue payload) := by
  unfold Http.updateDns
  dsimp only
  cases singleDnsOverride payload with
  | none => exact effect_replaceDns
  | some e =>
    by_cases hempty : e.1.trim.isEmpty = true
    · simp only [hempty, if_true, Option.filter_some, Bool.not_true, Bool.false_eq_true, if_false]
      exact effect_replaceDns
    · simp only [hempty, Bool.false_eq_true, if_false, Option.filter_some, Bool.not_false, if_true]
      rfl

theorem dns_agrees_iff {inserted : Str × DnsEntry → DnsOverrides} :
    (match (singleDnsOverride payload).filter fun e => !e.1.trim.isEmpty with
      | some e => some (inserted e)
      | none => dnsMap dnsValue payload) = dnsMap dnsEntry payload ↔ ResourceKind.PostAgrees env payload .dns := by
  show _ ↔ (∀ e ∈ singleDnsOverride payload, e.1.trim = []) ∧
    ((dnsMap dnsValue payload).isSome = true → (dnsMap dnsEntry payload).isSome = true)
  have hmap : dnsMap dnsValue payload = dnsMap dnsEntry payload ↔
      ((dnsMap dnsValue payload).isSome = true → (dnsMap dnsEntry payload).isSome = true) := by
    cases hentries : dnsMap dnsEntry payload with
    | none => cases dnsMap dnsValue payload <;> simp
    | some overrides => simp [dnsMap_of_dnsEntry hentries]
  cases hsingle : singleDnsOverride payload with
  | none => simpa using hmap
  | some e =>
    rw [Option.filter_some]
    by_cases hempty : e.1.trim = []
    · simpa [hempty] using hmap
    · have hnone := dnsMap_of_single hsingle
      simp [hempty, hnone]

theorem upstreamProxy_agrees_iff (hpayload : payload.isNull = true ∨ ∃ members, payload = .obj members) :
    (upstreamProxyBody payload).bind (proxyChoice env) =
      (match payload.get? "upstream_proxy" with
      | some (.str s) => proxyChoice env (some s.trim)
      | some .null => proxyChoice env none
      | _ => none) ↔ ResourceKind.PostAgrees env payload .upstreamProxy := by
  show _ ↔ payload.isNull = true ∨
    ∃ value, payload.get? "upstream_proxy" = some value ∧ ∀ s, value = .str s → ResourceKind.SameProxy env s
  rcases hpayload with hnull | ⟨members, rfl⟩
  · rw [eq_true hnull]
    cases payload <;> first | exact iff_of_true rfl (Or.inl trivial) | cases hnull
  · unfold upstreamProxyBody optionalMember
    dsimp only
    cases Json.get? "upstream_proxy" (.obj members) with
    | none => simp [Json.isNull, proxyChoice]
    | some value =>
      cases value with
      | str s =>
        refine Iff.trans proxyChoice_trim_iff ?_
        simp [Json.isNull]
      | _ => simp [Json.isNull, optionalStr]

end Mutations

namespace Assistant

variable {env : Env} {memory : Memory} {preconditions : List AssistantActionPrecondition → Except Str Unit}
  {action : AssistantAction} {route : AssistantActionRouteContract} {k : ResourceKind}

/-- A setting is carried out directly. -/
theorem effect_action_direct {direct : DirectActionRoute} (hdirect : directRoute k = some direct)
    (h : ConfirmedAs preconditions action route) (hmethod : action.method = "POST")
    (hendpoint : action.endpoint = k.base) {r : Resource} {value : Option r.Value}
    (hnull : action.payload.isNull = true → value = none)
    (heffect : (Call.ofExcept (do
      payloadShape env action.payload k
      return executeDirect env action.payload direct)).effect memory = .ofValue r [] value) :
    (executeActionPayload env preconditions action).effect memory = .ofValue r [] value := by
  rw [executeActionPayload_eq h]
  split
  · rename_i hrefused
    rw [hnull hrefused.2]
    rfl
  · rw [hmethod, hendpoint, validateActionPayloadShape_post, (actionsKnown_all k k.mem_all).2.2.1, hdirect]
    exact heffect

theorem payload_of_normal (h : ConfirmedAs preconditions action route) (hmethod : action.method = "POST") :
    action.payload.isNull = true ∨ ∃ members, action.payload = .obj members := by
  have hnormal := h.normal
  unfold normalizeActionPayload at hnormal
  split at hnormal
  · rename_i hdelete
    rw [hmethod] at hdelete
    exact Or.inl (hdelete.resolve_left (Ne.symm methods_known.2.2.1))
  · split at hnormal
    · split at hnormal
      · exact Or.inr ⟨_, (Except.ok.inj hnormal).symm⟩
      · exact Or.inr ⟨_, (Except.ok.inj hnormal).symm⟩
    · cases hnormal

theorem effect_withFixtures (name : CollectionName) (notFound : Http.HttpError) (request : name.collection.Request)
    (fixtures : List (Str × Bytes)) :
    (Http.withFixtures fixtures (editCollection name notFound request)).effect memory =
      .ofValue (.collection name) fixtures ((name.collection.handler request).edit (memory (.collection name))) := by
  unfold Http.withFixtures editCollection Call.effect
  dsimp only
  cases (name.collection.handler request).edit (memory (.collection name)) <;> rfl

/-- A change of a Map Local rule after its fixture. -/
theorem effect_prepared (env : Env) (payload : Json) (notFound : Http.HttpError)
    (request : MapLocalRule → OriginRequest MapLocalRule) :
    (Call.ofExcept (do
      let (rule, fixtures) ← Http.prepareMapLocalRule env payload
      return Http.withFixtures fixtures (editCollection .mapLocalRules notFound (request rule)))).effect memory =
      match Http.prepareMapLocalRule env payload with
      | .error _ => .refused
      | .ok (rule, fixtures) =>
        .ofValue (.collection .mapLocalRules) fixtures
          ((mapLocalHandler (request rule)).edit (memory (.collection .mapLocalRules))) := by
  cases Http.prepareMapLocalRule env payload with
  | error e => rfl
  | ok prepared => exact effect_withFixtures .mapLocalRules notFound (request prepared.1) prepared.2

/-- A new item under a new id, or under its own where it has one. -/
theorem bind_created_iff {E F T : Type} [CollectionItem T] [LawfulItem T]
    (hself : ∀ item : T, CollectionItem.setId (CollectionItem.id item) item = item) {decoder : StructDecoder T}
    {newId : Str} {items : List T} :
    ((accepted decoder (fun item => (.ok item : Except E T)) payload).bind fun item =>
        pushItem (CollectionItem.setId newId item) items) =
      ((accepted decoder (fun item => (.ok item : Except F T)) payload).bind fun item =>
        pushItem (withNewId newId item) items) ↔
      ∀ item ∈ decoder.read payload, CollectionItem.id item = [] ∨ CollectionItem.id item = newId := by
  rw [accepted_ok, accepted_ok, bind_eq_bind_iff]
  refine forall₂_congr fun item _ => ?_
  unfold pushItem
  rw [Option.some_inj, List.append_cancel_left_eq, List.cons.injEq, eq_self, and_true]
  exact setId_eq_withNewId_iff hself

/-- A new item is added where the check lets it pass. -/
theorem bind_pushItem_iff {T : Type} {b : Bool} {item : T} {items : List T} :
    (((some ([] : Str)).filter fun _ => b).bind fun _ => pushItem item items) = pushItem item items ↔ b = true := by
  cases b
  · exact iff_of_false (Option.some_ne_none _).symm Bool.false_ne_true
  · exact iff_of_true rfl rfl

theorem compared_post (h : ConfirmedAs preconditions action route) (hkind : route.kind = k.contract.kind)
    (hmethod : action.method = "POST") (hendpoint : action.endpoint = k.base) :
    Compared ((Http.postCall env action.payload k).effect memory)
      ((executeActionPayload env preconditions action).effect memory) (k.PostAgrees env action.payload) := by
  cases k with
  | ruleSets =>
    exact .of_eq
      (Http.effect_createItem .ruleSets env.serde.ruleSet .ok fun newId rule => .item ⟨.http, .create newId rule⟩)
      (effect_action_create isActionOf_ruleSets h hkind hmethod hendpoint) (iff_of_true rfl trivial)
  | mapRemote =>
    exact .of_eq
      (Http.effect_createItem .mapRemoteRules env.serde.mapRemoteRule .ok fun newId rule => ⟨.http, .create newId rule⟩)
      (effect_action_create isActionOf_mapRemote h hkind hmethod hendpoint) (iff_of_true rfl trivial)
  | access =>
    exact .of_eq
      (Http.effect_createItem .accessRules env.serde.accessRule .ok fun newId rule => ⟨.http, .create newId rule⟩)
      (effect_action_create isActionOf_access h hkind hmethod hendpoint) (iff_of_true rfl trivial)
  | webhooks =>
    refine .of_eq
      (Http.effect_createItem .webhooks env.serde.webhook _ fun newId hook => ⟨.http, .create newId hook⟩)
      (effect_action_create isActionOf_webhooks h hkind hmethod hendpoint) (iff_of_true ?_ trivial)
    rw [accepted_webhook]
    rfl
  | mapLocal =>
    have hcompared := @compared_mapLocal env memory action.payload (.collection .mapLocalRules) (some [])
      (fun _ => Http.createMapLocalRule env action.payload)
      (fun _ rule => pushItem (CollectionItem.setId env.newId rule) (memory (.collection .mapLocalRules)))
      (fun rule => pushItem (CollectionItem.setId env.newId rule) (memory (.collection .mapLocalRules)))
      (fun _ => effect_prepared env action.payload Http.notFound fun rule => ⟨.http, .create env.newId rule⟩)
      (fun _ _ _ h => by cases h)
    have haction : (executeActionPayload env preconditions action).effect memory =
        .ofValue (.collection .mapLocalRules) [] ((env.serde.mapLocalRule.read action.payload).bind fun submitted =>
          pushItem (CollectionItem.setId env.newId submitted.rule) (memory (.collection .mapLocalRules))) :=
      (effect_action_create isActionOf_mapLocal h hkind hmethod hendpoint).trans
        (congrArg (fun o => Effect.ofValue _ _ (Option.bind o _)) accepted_ok)
    rw [haction]
    refine ⟨hcompared.ne_nothing, hcompared.ne_nothing', hcompared.eq_iff.trans ?_⟩
    refine forall₂_congr fun submitted _ => ?_
    by_cases hbody : submitted.inlineBody = none
    · rw [if_pos hbody, eq_true hbody, true_and]
      exact bind_pushItem_iff
    · rw [if_neg hbody]
      exact iff_of_false (fun hnone => Option.some_ne_none _ hnone.1) fun hpath => hbody hpath.1
  | breakpoints =>
    refine .of_eq
      (Http.effect_createItem .breakpoints env.serde.breakpointRule (Http.validateLocation env)
        fun newId rule => ⟨.http, .create newId rule⟩)
      (effect_action_create isActionOf_breakpoints h hkind hmethod hendpoint) ?_
    refine Iff.trans (@bind_accepted_eq_iff action.payload _ _ _ _ _ _ (fun _ _ => validateLocation_eq) (some [])
      (fun _ rule => pushItem (CollectionItem.setId env.newId rule) (memory (.collection .breakpoints)))
      fun rule => pushItem (CollectionItem.setId env.newId rule) (memory (.collection .breakpoints))) ?_
    exact forall₂_congr fun rule _ => bind_pushItem_iff
  | mock =>
    exact .of_eq
      (Http.effect_createItem .mockRules env.serde.mockRule .ok fun newId rule => .item ⟨.http, .create newId rule⟩)
      (effect_action_create isActionOf_mock h hkind hmethod hendpoint) (bind_created_iff fun rule => rfl)
  | scripts =>
    exact .of_eq
      (Http.effect_createItem .luaScripts env.serde.luaScript .ok fun newId script => ⟨.http, .create newId script⟩)
      (effect_action_create isActionOf_scripts h hkind hmethod hendpoint) (bind_created_iff fun script => rfl)
  | throttling =>
    refine .of_eq (effect_replaced (r := .throttling) (fun config => config) _)
      (effect_action_direct rfl h hmethod hendpoint (fun hnull => congrArg _ (read_of_isNull hnull)) ?_)
      (iff_of_true rfl trivial)
    refine (effect_required fun hread => ?_).trans (effect_replaced (r := .throttling) (fun config => config) _)
    exact (effect_replaced (r := .throttling) (fun config => config) _).trans
      (congrArg (fun o => Effect.ofValue _ _ (Option.map _ o)) hread)
  | captureFilter =>
    refine .of_eq (effect_replaced (r := .captureFilter) (fun config => config) _)
      (effect_action_direct rfl h hmethod hendpoint (fun hnull => congrArg _ (read_of_isNull hnull)) ?_)
      (iff_of_true rfl trivial)
    refine (effect_required fun hread => ?_).trans (effect_replaced (r := .captureFilter) (fun config => config) _)
    exact (effect_replaced (r := .captureFilter) (fun config => config) _).trans
      (congrArg (fun o => Effect.ofValue _ _ (Option.map _ o)) hread)
  | upstreamProxy =>
    refine .of_eq effect_setUpstreamProxyHandler
      (effect_action_direct rfl h hmethod hendpoint ?_ ?_) (upstreamProxy_agrees_iff (payload_of_normal h hmethod))
    · intro hnull
      cases hpayload : action.payload <;> first | rfl | (rw [hpayload] at hnull; cases hnull)
    · unfold payloadShape
      dsimp only
      cases hvalue : action.payload.get? "upstream_proxy" with
      | none => rfl
      | some value =>
        cases value with
        | str s =>
          refine effect_executeUpstreamProxy.trans ?_
          rw [hvalue]
          rfl
        | null =>
          refine effect_executeUpstreamProxy.trans ?_
          rw [hvalue]
          rfl
        | _ => rfl
  | dns =>
    refine .of_eq effect_updateDns
      (effect_action_direct rfl h hmethod hendpoint ?_ ?_) dns_agrees_iff
    · intro hnull
      cases hpayload : action.payload <;> first | rfl | (rw [hpayload] at hnull; cases hnull)
    · unfold payloadShape dnsPayload executeDirect dnsPayload
      cases dnsMap dnsEntry action.payload <;> rfl

/-- An update of an item which both have read out of the same body. -/
theorem bind_update_iff {S T : Type} [CollectionItem T] {target : Option Str} {id : Str} {o o₁ o₂ : Option S}
    (h₁ : o₁ = o) (h₂ : o₂ = o) {items : List T} {change : S → Str → T → T} {change' : S → T → T} :
    (target.bind fun id' => o₁.bind fun item => updateItem id' (change item id') items) =
        (o₂.bind fun item => updateItem id (change' item) items) ↔
      ∀ item ∈ o, SameUpdate target id (change item) (change' item) items := by
  subst h₁ h₂
  rw [bind_bind_eq_iff]
  exact forall₂_congr fun item _ => bind_updateItem_eq_iff

theorem compared_put (h : ConfirmedAs preconditions action route) (hkind : route.kind = k.contract.kind)
    (hmethod : action.method = "PUT") (hshape : k.contract.shape = .idBackedCollection) {id : Str}
    (hendpoint : action.endpoint = k.base ++ '/' :: id) (hid : ResourceKind.IsItemId id) :
    Compared ((k.target id).elim .refused fun id' => (Http.putCall env action.payload (.ok id') k).effect memory)
      ((executeActionPayload env preconditions action).effect memory)
      (k.PutAgrees env memory action.payload (k.target id) id) := by
  cases k with
  | ruleSets =>
    exact .of_eq
      (Http.elim_updateItem .ruleSets env.serde.ruleSet .ok [] (fun id rule => .item ⟨.http, .update id rule⟩) _)
      (effect_action_update isActionOf_ruleSets h hkind hmethod hendpoint hid)
      (bind_update_iff accepted_ok accepted_ok)
  | mapRemote =>
    exact .of_eq
      (Http.elim_updateItem .mapRemoteRules env.serde.mapRemoteRule .ok [] (fun id rule => ⟨.http, .update id rule⟩) _)
      (effect_action_update isActionOf_mapRemote h hkind hmethod hendpoint hid)
      (bind_update_iff accepted_ok accepted_ok)
  | access =>
    exact .of_eq
      (Http.elim_updateItem .accessRules env.serde.accessRule .ok [] (fun id rule => ⟨.http, .update id rule⟩) _)
      (effect_action_update isActionOf_access h hkind hmethod hendpoint hid)
      (bind_update_iff accepted_ok accepted_ok)
  | mock =>
    exact .of_eq
      (Http.elim_updateItem .mockRules env.serde.mockRule .ok _ (fun id rule => .item ⟨.http, .update id rule⟩) _)
      (effect_action_update isActionOf_mock h hkind hmethod hendpoint hid) (bind_update_iff accepted_ok accepted_ok)
  | scripts =>
    exact .of_eq
      (Http.elim_updateItem .luaScripts env.serde.luaScript .ok _ (fun id script => ⟨.http, .update id script⟩) _)
      (effect_action_update isActionOf_scripts h hkind hmethod hendpoint hid) (bind_update_iff accepted_ok accepted_ok)
  | webhooks =>
    exact .of_eq (Http.elim_updateItem .webhooks env.serde.webhook _ _ (fun id hook => ⟨.http, .update id hook⟩) _)
      (effect_action_update isActionOf_webhooks h hkind hmethod hendpoint hid) (bind_update_iff accepted_webhook rfl)
  | breakpoints =>
    refine .of_eq
      (Http.elim_updateItem .breakpoints env.serde.breakpointRule (Http.validateLocation env) _
        (fun id rule => ⟨.http, .update id rule⟩) _)
      (effect_action_update isActionOf_breakpoints h hkind hmethod hendpoint hid) ?_
    refine Iff.trans (bind_accepted_eq_iff fun _ _ => validateLocation_eq) ?_
    exact forall₂_congr fun rule _ => bind_updateItem_eq_iff
  | mapLocal =>
    have hcompared := @compared_mapLocal env memory action.payload (.collection .mapLocalRules)
      (ResourceKind.mapLocal.target id) (fun id' => Http.updateMapLocalRule env (.ok id') action.payload)
      (fun id' rule => updateItem id' (fun _ => CollectionItem.setId id' rule) (memory (.collection .mapLocalRules)))
      (fun rule => updateItem id (fun _ => CollectionItem.setId id rule) (memory (.collection .mapLocalRules)))
      (fun id' => effect_prepared env action.payload Http.notFound fun rule => ⟨.http, .update id' rule⟩)
      (fun _ _ _ hnone => updateItem_eq_none.2 (updateItem_eq_none.1 hnone))
    have haction : (executeActionPayload env preconditions action).effect memory =
        .ofValue (.collection .mapLocalRules) [] ((env.serde.mapLocalRule.read action.payload).bind fun submitted =>
          updateItem id (fun _ => CollectionItem.setId id submitted.rule) (memory (.collection .mapLocalRules))) :=
      (effect_action_update isActionOf_mapLocal h hkind hmethod hendpoint hid).trans
        (congrArg (fun o => Effect.ofValue _ _ (Option.bind o _)) accepted_ok)
    rw [haction]
    refine ⟨hcompared.ne_nothing, hcompared.ne_nothing', hcompared.eq_iff.trans ?_⟩
    refine forall₂_congr fun submitted _ => ?_
    by_cases hbody : submitted.inlineBody = none
    · rw [if_pos hbody, if_pos hbody]
      exact bind_updateItem_eq_iff
    · rw [if_neg hbody, if_neg hbody]
      exact and_congr updateItem_eq_none (imp_congr_right fun _ => forall₂_congr fun _ _ => updateItem_eq_none)
  | throttling | captureFilter | upstreamProxy | dns => cases hshape

theorem compared_delete (h : ConfirmedAs preconditions action route) (hkind : route.kind = k.contract.kind)
    (hmethod : action.method = "DELETE") (hroute : route.method = "DELETE") (hshape : k.contract.shape ≠ .singleton)
    {id : Str} (hendpoint : action.endpoint = k.base ++ '/' :: id) (hid : ResourceKind.IsItemId id) :
    Compared ((k.target id).elim .refused fun id' => (Http.deleteCall (.ok id') k).effect memory)
      ((executeActionPayload env preconditions action).effect memory) (k.DeleteAgrees memory (k.target id) id) := by
  cases k with
  | ruleSets =>
    exact .of_eq (Http.elim_deleteItem .ruleSets _ (fun id => .item ⟨.http, .delete id⟩) _)
      (effect_action_delete isActionOf_ruleSets h hkind hmethod hroute hendpoint hid) bind_deleteItem_eq_iff
  | mapRemote =>
    exact .of_eq (Http.elim_deleteItem .mapRemoteRules _ (fun id => ⟨.http, .delete id⟩) _)
      (effect_action_delete isActionOf_mapRemote h hkind hmethod hroute hendpoint hid) bind_deleteItem_eq_iff
  | mapLocal =>
    exact .of_eq (Http.elim_deleteItem .mapLocalRules _ (fun id => ⟨.http, .delete id⟩) _)
      (effect_action_delete isActionOf_mapLocal h hkind hmethod hroute hendpoint hid) bind_deleteItem_eq_iff
  | access =>
    exact .of_eq (Http.elim_deleteItem .accessRules _ (fun id => ⟨.http, .delete id⟩) _)
      (effect_action_delete isActionOf_access h hkind hmethod hroute hendpoint hid) bind_deleteItem_eq_iff
  | breakpoints =>
    exact .of_eq (Http.elim_deleteItem .breakpoints [] (fun id => ⟨.http, .delete id⟩) _)
      (effect_action_delete isActionOf_breakpoints h hkind hmethod hroute hendpoint hid) bind_withoutItem_eq_iff
  | mock =>
    exact .of_eq (Http.elim_deleteItem .mockRules _ (fun id => .item ⟨.http, .delete id⟩) _)
      (effect_action_delete isActionOf_mock h hkind hmethod hroute hendpoint hid) bind_deleteItem_eq_iff
  | scripts =>
    exact .of_eq (Http.elim_deleteItem .luaScripts _ (fun id => ⟨.http, .delete id⟩) _)
      (effect_action_delete isActionOf_scripts h hkind hmethod hroute hendpoint hid) bind_deleteItem_eq_iff
  | webhooks =>
    exact .of_eq (Http.elim_deleteItem .webhooks _ (fun id => ⟨.http, .delete id⟩) _)
      (effect_action_delete isActionOf_webhooks h hkind hmethod hroute hendpoint hid) bind_deleteItem_eq_iff
  | dns =>
    have haction : (executeActionPayload env preconditions action).effect memory =
        .ofValue (.collection .dnsOverrides) [] (removeOverride id (memory (.collection .dnsOverrides))) := by
      have hclassify := classify_collection h.contract hkind
      rw [executeActionPayload_eq h, if_neg fun hnull => hnull.1 hroute]
      rw [hmethod, hendpoint] at hclassify ⊢
      unfold validateActionPayloadShape executeCollectionAction
      rw [if_pos rfl, classify_item, hclassify]
      show (executeDnsItem "DELETE" (ResourceKind.dns.base ++ '/' :: id)).effect memory = _
      have hstrip : Str.stripPrefix "/admin/dns/" (ResourceKind.dns.base ++ '/' :: id) = some id :=
        Str.stripPrefix_eq_some.2 rfl
      unfold executeDnsItem
      rw [hstrip]
      dsimp only
      rw [if_neg fun hdelete => hdelete rfl]
      exact effect_editCollection .dnsOverrides _ _
    exact .of_eq (Http.elim_deleteItem .dnsOverrides _ (fun host => .delete host) _) haction bind_removeOverride_eq_iff
  | throttling | captureFilter | upstreamProxy => exact absurd rfl hshape

theorem shape_of_put {id : Str} (h : methodFits k.contract.shape k.base (some id) "PUT" = true) :
    k.contract.shape = .idBackedCollection := by
  cases k with
  | dns =>
    have hdelete : ("PUT" : Str) = "DELETE" := of_decide_eq_true h
    exact absurd hdelete methods_known.1
  | throttling | captureFilter | upstreamProxy => cases h
  | _ => rfl

theorem shape_of_item {method id : Str} (h : methodFits k.contract.shape k.base (some id) method = true) :
    k.contract.shape ≠ .singleton := by
  intro hshape
  rw [hshape] at h
  cases h

/-- The effects of a request and of the action for the same route. -/
theorem compared_call (h : ConfirmedAs preconditions action route) (hkind : route.kind = k.contract.kind)
    (hupper : action.method.toAsciiUppercase = action.method) :
    Compared ((Http.call env action.method action.endpoint action.payload).effect memory)
      ((executeActionPayload env preconditions action).effect memory)
      (k.Agrees env memory action.payload action.method route.itemId) := by
  obtain ⟨hendpoint, hid, hfits, hroute⟩ := of_actionRouteContract k h.contract hkind
  rw [hupper] at hfits hroute
  cases hitem : route.itemId with
  | none =>
    rw [hitem] at hendpoint hfits
    have hmethod := (k.methodFits_base hfits).1
    rw [hendpoint, hmethod, Http.call_post]
    exact compared_post h hkind hmethod hendpoint
  | some id =>
    rw [hitem] at hendpoint hfits
    have hitemId := hid id hitem
    rcases (k.methodFits_item hfits).1 with hmethod | hmethod
    · rw [hmethod] at hfits
      have hshape := shape_of_item hfits
      rw [hendpoint, hmethod, Http.effect_call_item env action.payload memory hitemId hfits (by decide +kernel)
        (Http.putCall_error env action.payload hshape) (Http.mem_handlers_put env action.payload hshape)]
      exact compared_put h hkind hmethod (shape_of_put hfits) hendpoint hitemId
    · rw [hmethod] at hfits hroute
      have hshape := shape_of_item hfits
      rw [hendpoint, hmethod, Http.effect_call_item env action.payload memory hitemId hfits (by decide +kernel)
        (Http.deleteCall_error hshape) (Http.mem_handlers_delete env action.payload hshape)]
      exact compared_delete h hkind hmethod hroute hshape hendpoint hitemId

/-- A confirmed action comes to the same as the request where nothing can be saved, or the method is not in upper case,
or the two implementations agree about the resource. -/
theorem parity_iff (k : ResourceKind) (h : ConfirmedAs preconditions action route)
    (hkind : route.kind = k.contract.kind) :
    SameOutcome
        ((Http.call env action.method action.endpoint action.payload).run Http.storageErrorResponse env.disk.saveError
          memory)
        ((executeActionPayload env preconditions action).run id env.disk.saveError memory) ↔
      (env.disk.saveError = none → action.method.toAsciiUppercase = action.method →
        k.Agrees env memory action.payload action.method route.itemId) := by
  by_cases hupper : action.method.toAsciiUppercase = action.method
  · have hcompared : Compared _ ((executeActionPayload env preconditions action).effect memory) _ :=
      compared_call h hkind hupper
    rw [sameOutcome_iff hcompared.ne_nothing hcompared.ne_nothing', hcompared.eq_iff]
    exact imp_congr_right fun _ => (imp_iff_right hupper).symm
  · obtain ⟨hendpoint, hid, hfits, -⟩ := of_actionRouteContract k h.contract hkind
    have hhttp : (Http.call env action.method action.endpoint action.payload).effect memory = .refused := by
      rw [hendpoint, Http.call_of_lower env action.payload hid hfits hupper]
      rfl
    have haction : (executeActionPayload env preconditions action).effect memory = .refused :=
      effect_action_of_lower h hkind hupper
    rw [sameOutcome_iff (by rw [hhttp]; exact Effect.noConfusion) (by rw [haction]; exact Effect.noConfusion), hhttp,
      haction]
    exact iff_of_true (fun _ => rfl) fun _ hsame => absurd hsame hupper

/-- DNS overrides as texts. -/
def legacyOverrides : AssistantAction where
  actionId := "a1"
  confirmationToken := "t1"
  kind := "dns"
  summary := []
  risk := .mutate
  endpoint := "/admin/dns"
  method := "POST"
  payload := .obj [("api.test", .str "10.0.0.5")]
  requiresConfirmation := true
  preconditions := []

def dnsRoute : AssistantActionRouteContract where
  basePath := "/admin/dns"
  endpoint := "/admin/dns"
  method := "POST"
  kind := "dns"
  risk := .mutate
  refreshedResources := ["dns"]
  shape := .dnsOverrides
  itemId := none

theorem confirmedAs_legacyOverrides : ConfirmedAs (fun _ => .ok ()) legacyOverrides dnsRoute := by
  constructor
  · rfl
  · rfl
  · rfl

/-- The overrides written out. -/
def writtenOverrides : AssistantAction :=
  { legacyOverrides with payload := .obj [("api.test", .obj [("ip", .str "10.0.0.5"), ("enabled", .bool true)])] }

theorem confirmedAs_writtenOverrides : ConfirmedAs (fun _ => .ok ()) writtenOverrides dnsRoute := by
  constructor
  · rfl
  · rfl
  · rfl

/-- DNS overrides, as the request is answered: written out, and as texts. -/
theorem parity_legacyOverrides :
    SameOutcome
        ((Http.call (envOf none) writtenOverrides.method writtenOverrides.endpoint writtenOverrides.payload).run
          Http.storageErrorResponse (envOf none).disk.saveError emptyMemory)
        ((executeActionPayload (envOf none) (fun _ => .ok ()) writtenOverrides).run id (envOf none).disk.saveError
          emptyMemory) ∧
      (SameOutcome
          ((Http.call (envOf none) legacyOverrides.method legacyOverrides.endpoint legacyOverrides.payload).run
            Http.storageErrorResponse (envOf none).disk.saveError emptyMemory)
          ((executeActionPayload (envOf none) (fun _ => .ok ()) legacyOverrides).run id (envOf none).disk.saveError
            emptyMemory) ↔
        ((envOf none).disk.saveError = none →
          legacyOverrides.method.toAsciiUppercase = legacyOverrides.method →
            ResourceKind.dns.Agrees (envOf none) emptyMemory legacyOverrides.payload legacyOverrides.method
              dnsRoute.itemId)) := by
  constructor
  · refine (parity_iff .dns confirmedAs_writtenOverrides rfl).2 fun _ _ => ?_
    have hsingle : singleDnsOverride writtenOverrides.payload = none := by decide +kernel
    have hentries : (dnsMap dnsEntry writtenOverrides.payload).isSome = true := by decide +kernel
    refine ⟨fun e he => ?_, fun _ => hentries⟩
    rw [hsingle] at he
    cases he
  · exact parity_iff .dns confirmedAs_legacyOverrides rfl

/-- The request may give the address of a host alone, the action may not. -/
theorem not_parity : ¬ ∀ (env : Env) (memory : Memory)
    (preconditions : List AssistantActionPrecondition → Except Str Unit) (action : AssistantAction)
    (route : AssistantActionRouteContract) (k : ResourceKind), ConfirmedAs preconditions action route →
    route.kind = k.contract.kind →
      SameOutcome
        ((Http.call env action.method action.endpoint action.payload).run Http.storageErrorResponse env.disk.saveError
          memory)
        ((executeActionPayload env preconditions action).run id env.disk.saveError memory) := by
  intro h
  have hsame := h (envOf none) emptyMemory (fun _ => .ok ()) legacyOverrides dnsRoute .dns
    confirmedAs_legacyOverrides rfl
  have hhttp : ((Http.call (envOf none) "POST" "/admin/dns" legacyOverrides.payload).run Http.storageErrorResponse none
      emptyMemory).answer.isOk = true := by
    rw [call_dns]
    rfl
  have haction : ((executeActionPayload (envOf none) (fun _ => .ok ()) legacyOverrides).run id none
      emptyMemory).answer.isOk = false := by
    decide +kernel
  exact Bool.false_ne_true (haction.symm.trans (hsame.1.1 hhttp))

end Assistant

end Oproxy
