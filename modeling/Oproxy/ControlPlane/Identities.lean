import Oproxy.ControlPlane.PersistedRules
import Oproxy.Lib.Json
import Oproxy.Lib.Keys

/-!
# Identities (`control_plane/policy.rs`, `extensions.rs`, `webhooks.rs`, `assistant_actions.rs`)

Requests find the items of a collection by their ids.  What a collection does with the ids of its items comes down to
two choices: under which id it puts a new item in, and under which id it leaves an item that is replaced.
-/

namespace Oproxy

namespace Persisted

open Machine Keys SharedFile

/-- An item has the id which it is given. -/
class LawfulItem (T : Type) [CollectionItem T] : Prop where
  id_setId : ∀ (id : Str) (item : T), CollectionItem.id (CollectionItem.setId id item) = id

instance : LawfulItem AccessRule := ⟨fun _ _ => rfl⟩

instance : LawfulItem RewriteRuleSet := ⟨fun _ _ => rfl⟩

instance : LawfulItem MapLocalRule := ⟨fun _ _ => rfl⟩

instance : LawfulItem MapRemoteRule := ⟨fun _ _ => rfl⟩

instance : LawfulItem MockRule := ⟨fun _ _ => rfl⟩

instance : LawfulItem LuaScript := ⟨fun _ _ => rfl⟩

instance : LawfulItem WebhookConfig := ⟨fun _ _ => rfl⟩

/-! ### Requests -/

/-- A request with its body; `newId` is the id which is made up for it. -/
inductive BodyRequest where
  | create (newId : Str) (body : Json)
  | update (id : Str) (body : Json)
  | delete (id : Str)
  | reorder (body : Json)

/-- The ids of a request to reorder. -/
def reorderIds (body : Json) : Option (List Str) :=
  ((body.get? "ids").bind Json.asArray).map fun items => items.filterMap Json.asStr

/-- What the decoding and the checks of a handler make of a body; none where they refuse it. -/
abbrev BodyReader (T : Type) : Type := Origin → Json → Option T

section

variable {T : Type}

/-- The request for an item; none has another order of the items. -/
def itemRequest (reader : BodyReader T) (origin : Origin) : BodyRequest → Option (OriginRequest T)
  | .create newId body => (reader origin body).map fun item => ⟨origin, .create newId item⟩
  | .update id body => (reader origin body).map fun item => ⟨origin, .update id item⟩
  | .delete id => some ⟨origin, .delete id⟩
  | .reorder _ => none

/-- Under which ids a collection keeps new items and replaced ones. -/
structure IdChoice (T : Type) where
  created : Origin → (newId : Str) → T → Str
  updated : Origin → (pathId : Str) → T → Str

/-- What a request does to the ids. -/
def IdChoice.edit (choice : IdChoice T) (reorders : Bool) (reader : BodyReader T) (origin : Origin) :
    BodyRequest → Option (Edit Str)
  | .create newId body => (reader origin body).map fun item => .push (choice.created origin newId item)
  | .update id body => (reader origin body).map fun item => .rename id (choice.updated origin id item)
  | .delete id => some (.drop id)
  | .reorder body => if reorders then (reorderIds body).map .reorder else none

end

/-- The ids of some items. -/
def idsOf {T : Type} [CollectionItem T] (items : List T) : List Str := items.map CollectionItem.id

/-- A collection whose items have ids, with what its requests do to these. -/
structure IdBacked where
  Item : Type
  item : CollectionItem Item
  /-- The items after a request, none where it is refused. -/
  serve : BodyReader Item → Origin → BodyRequest → List Item → Option (List Item)
  choice : IdChoice Item
  reorders : Bool
  ids_serve : ∀ reader origin request items, (serve reader origin request items).map idsOf =
    (choice.edit reorders reader origin request).bind fun e => e.apply (idsOf items)
  reorder_serve : ∀ reader origin body items after, serve reader origin (.reorder body) items = some after →
    ∃ order, reorderIds body = some order ∧ after = reorderedBy CollectionItem.id order items

attribute [instance] IdBacked.item

/-! ### Edits of items -/

section

variable {T : Type} [CollectionItem T]

theorem ids_pushItem (item : T) (items : List T) :
    (pushItem item items).map idsOf = (Edit.push (CollectionItem.id item)).apply (idsOf items) := by
  unfold pushItem Edit.apply idsOf
  rw [Option.map_some, List.map_append]
  rfl

theorem any_id_iff (id : Str) (items : List T) :
    (items.any fun item => CollectionItem.id item = id) = true ↔ id ∈ idsOf items := by
  unfold idsOf
  rw [List.any_eq_true, List.mem_map]
  simp

theorem ids_changeFirst {id new : Str} {change : T → T}
    (h : ∀ item, CollectionItem.id item = id → CollectionItem.id (change item) = new) (items : List T) :
    idsOf (changeFirst id change items) = renamed id new (idsOf items) := by
  unfold idsOf
  induction items with
  | nil => rfl
  | cons item items ih =>
    unfold changeFirst
    rw [List.map_cons, renamed_cons]
    split
    · rename_i heq
      rw [List.map_cons, h item heq]
    · rw [List.map_cons, ih]

theorem ids_updateItem {id new : Str} {change : T → T}
    (h : ∀ item, CollectionItem.id item = id → CollectionItem.id (change item) = new) (items : List T) :
    (updateItem id change items).map idsOf = (Edit.rename id new).apply (idsOf items) := by
  unfold updateItem Edit.apply
  dsimp only
  by_cases hmem : id ∈ idsOf items
  · rw [if_pos hmem, if_pos ((any_id_iff id items).2 hmem), Option.map_some, ids_changeFirst h]
  · rw [if_neg hmem, if_neg (mt (any_id_iff id items).1 hmem)]
    rfl

theorem ids_withoutItem (id : Str) (items : List T) :
    idsOf (withoutItem id items) = (idsOf items).filter (· ≠ id) := by
  unfold idsOf withoutItem
  rw [List.filter_map]
  rfl

theorem ids_deleteItem (id : Str) (items : List T) :
    (deleteItem id items).map idsOf = (Edit.drop id).apply (idsOf items) := by
  unfold deleteItem Edit.apply
  dsimp only
  have hlength : (withoutItem id items).length = items.length ↔ id ∉ idsOf items := by
    unfold withoutItem
    rw [List.length_filter_eq_length_iff]
    unfold idsOf
    simp
  by_cases hmem : id ∈ idsOf items
  · rw [if_pos hmem, if_neg (mt hlength.1 (not_not_intro hmem)), Option.map_some, ids_withoutItem]
  · rw [if_neg hmem, if_pos (hlength.2 hmem)]
    rfl

end

/-! ### Choices of the handlers -/

section

variable {T : Type} [CollectionItem T]

/-- A handler of items makes the choices. -/
structure Chooses (choice : IdChoice T) (handler : OriginRequest T → Handler (List T)) : Prop where
  create : ∀ origin newId item items, ((handler ⟨origin, .create newId item⟩).edit items).map idsOf =
    (Edit.push (choice.created origin newId item)).apply (idsOf items)
  update : ∀ origin id item items, ((handler ⟨origin, .update id item⟩).edit items).map idsOf =
    (Edit.rename id (choice.updated origin id item)).apply (idsOf items)
  delete : ∀ origin id items, ((handler ⟨origin, .delete id⟩).edit items).map idsOf =
    (Edit.drop id).apply (idsOf items)

def serveItems (handler : OriginRequest T → Handler (List T)) (reader : BodyReader T) (origin : Origin)
    (request : BodyRequest) (items : List T) : Option (List T) :=
  (itemRequest reader origin request).bind fun r => (handler r).edit items

theorem Chooses.ids_serveItems {choice : IdChoice T} {handler : OriginRequest T → Handler (List T)}
    (h : Chooses choice handler) (reorders : Bool) (reader : BodyReader T) (origin : Origin) (request : BodyRequest)
    (items : List T) (hreorder : reorders = true → ∀ body, request ≠ .reorder body) :
    (serveItems handler reader origin request items).map idsOf =
      (choice.edit reorders reader origin request).bind fun e => e.apply (idsOf items) := by
  unfold serveItems itemRequest IdChoice.edit
  cases request with
  | create newId body =>
    dsimp only
    cases reader origin body with
    | none => rfl
    | some item => exact h.create origin newId item items
  | update id body =>
    dsimp only
    cases reader origin body with
    | none => rfl
    | some item => exact h.update origin id item items
  | delete id => exact h.delete origin id items
  | reorder body =>
    dsimp only
    rw [if_neg fun hreorders => hreorder hreorders body rfl]
    rfl

/-- A collection which takes no order of its items. -/
def IdBacked.ofItems {handler : OriginRequest T → Handler (List T)} {choice : IdChoice T}
    (h : Chooses choice handler) : IdBacked where
  Item := T
  item := inferInstance
  serve := serveItems handler
  choice := choice
  reorders := false
  ids_serve reader origin request items := h.ids_serveItems false reader origin request items Bool.noConfusion
  reorder_serve := by
    intro reader origin body items after hserve
    cases hserve

/-- The id is made up for a new item, and that of the path for a replaced one. -/
def pathChoice : IdChoice T := ⟨fun _ newId _ => newId, fun _ pathId _ => pathId⟩

/-- Over HTTP, a replaced item has the id of the body; from the assistant, a new one does. -/
def extensionChoice : IdChoice T where
  created
    | .http, newId, _ => newId
    | .assistant, newId, item => CollectionItem.id (withNewId newId item)
  updated
    | .http, _, item => CollectionItem.id item
    | .assistant, pathId, _ => pathId

/-- A new item has the id of the body, and over HTTP a replaced one does. -/
def webhookChoice : IdChoice T where
  created _ newId item := CollectionItem.id (withNewId newId item)
  updated := extensionChoice.updated

variable [LawfulItem T]

theorem chooses_policyOrAssistant : Chooses (T := T) pathChoice policyOrAssistant where
  create origin newId item items := by
    cases origin <;> exact (ids_pushItem _ items).trans (by rw [LawfulItem.id_setId]; rfl)
  update origin id item items := by
    cases origin <;> exact ids_updateItem (fun _ _ => LawfulItem.id_setId id item) items
  delete origin id items := by
    cases origin <;> exact ids_deleteItem id items

end

theorem chooses_mockHandler : Chooses extensionChoice fun r => mockHandler (.item r) where
  create origin newId rule items := by
    cases origin <;> exact ids_pushItem _ items
  update origin id rule items := by
    cases origin with
    | http =>
      have hid : ∀ old : MockRule, CollectionItem.id old = id →
          CollectionItem.id { rule with callCount := old.callCount } = rule.id := fun _ _ => rfl
      exact ids_updateItem hid items
    | assistant =>
      have hid : ∀ old : MockRule, CollectionItem.id old = id →
          CollectionItem.id { rule with id := id, callCount := old.callCount } = id := fun _ _ => rfl
      exact ids_updateItem hid items
  delete origin id items := by
    cases origin <;> exact ids_deleteItem id items

theorem chooses_scriptHandler : Chooses extensionChoice scriptHandler where
  create origin newId script items := by
    cases origin <;> exact ids_pushItem _ items
  update origin id script items := by
    cases origin <;> exact ids_updateItem (fun _ _ => rfl) items
  delete origin id items := by
    cases origin <;> exact ids_deleteItem id items

theorem chooses_webhookHandler : Chooses webhookChoice webhookHandler where
  create origin newId hook items := by
    cases origin <;> exact ids_pushItem _ items
  update origin id hook items := by
    cases origin <;> exact ids_updateItem (fun _ _ => rfl) items
  delete origin id items := by
    cases origin <;> exact ids_deleteItem id items

/-- Rule sets, which can be put into another order. -/
def serveRuleSets (reader : BodyReader RewriteRuleSet) (origin : Origin) (request : BodyRequest)
    (items : List RewriteRuleSet) : Option (List RewriteRuleSet) :=
  match request with
  | .reorder body => (reorderIds body).bind fun ids => (ruleSetHandler (.reorder ids)).edit items
  | request => serveItems (fun r => ruleSetHandler (.item r)) reader origin request items

theorem reordered_eq (ids : List Str) (rules : List RewriteRuleSet) :
    reordered ids rules = reorderedBy CollectionItem.id ids rules := by
  unfold reordered reorderedBy
  refine congrArg₂ (· ++ ·) (List.filterMap_congr fun id _ => ?_) (List.filter_congr fun r _ => ?_)
  · congr 1
  · exact decide_eq_decide.2 Iff.rfl

def ruleSetsBacked : IdBacked where
  Item := RewriteRuleSet
  item := inferInstance
  serve := serveRuleSets
  choice := pathChoice
  reorders := true
  ids_serve reader origin request items := by
    have hitems := fun hreorder => chooses_policyOrAssistant.ids_serveItems true reader origin request items hreorder
    cases request with
    | reorder body =>
      unfold serveRuleSets IdChoice.edit
      dsimp only
      rw [if_pos rfl]
      cases reorderIds body with
      | none => rfl
      | some ids =>
        have hmap := map_reorderedBy CollectionItem.id ids items
        rw [← reordered_eq] at hmap
        exact congrArg some hmap
    | create newId body => exact hitems fun _ _ => BodyRequest.noConfusion
    | update id body => exact hitems fun _ _ => BodyRequest.noConfusion
    | delete id => exact hitems fun _ _ => BodyRequest.noConfusion
  reorder_serve := by
    intro reader origin body items after hserve
    obtain ⟨ids, hids, hafter⟩ := Option.bind_eq_some_iff.1 hserve
    cases hafter
    exact ⟨ids, hids, reordered_eq ids items⟩

inductive IdBackedName where
  | accessRules | ruleSets | mapLocalRules | mapRemoteRules | mockRules | luaScripts | webhooks

def IdBackedName.backed : IdBackedName → IdBacked
  | accessRules => @IdBacked.ofItems AccessRule _ accessRuleHandler _ chooses_policyOrAssistant
  | ruleSets => ruleSetsBacked
  | mapLocalRules => @IdBacked.ofItems MapLocalRule _ mapLocalHandler _ chooses_policyOrAssistant
  | mapRemoteRules => @IdBacked.ofItems MapRemoteRule _ mapRemoteHandler _ chooses_policyOrAssistant
  | mockRules => .ofItems chooses_mockHandler
  | luaScripts => .ofItems chooses_scriptHandler
  | webhooks => .ofItems chooses_webhookHandler

/-! ### Runs of requests -/

namespace IdBacked

variable (c : IdBacked) (reader : BodyReader c.Item)

/-- The items after a request. -/
def step (items : List c.Item) (r : Origin × BodyRequest) : List c.Item := (c.serve reader r.1 r.2 items).getD items

/-- The ids are not empty and different from each other. -/
def Identified (items : List c.Item) : Prop := Valid (· ≠ []) (idsOf items)

/-- What is expected of a request. -/
structure Stable (items : List c.Item) (r : Origin × BodyRequest) : Prop where
  identified : c.Identified (c.step reader items r)
  updated : ∀ id body after, r.2 = .update id body → c.serve reader r.1 r.2 items = some after →
    ((idsOf after).countP fun other => other = id) = 1 ∧ ∀ other, other ∈ idsOf after ↔ other ∈ idsOf items
  reordered : ∀ body after, r.2 = .reorder body → c.serve reader r.1 r.2 items = some after → after.Perm items

/-- A new item has an id of its own, a replaced one that of the path, and an order names each item at most once. -/
def KeepsIds (items : List c.Item) (r : Origin × BodyRequest) : Prop :=
  ∀ e, c.choice.edit c.reorders reader r.1 r.2 = some e → e.Keeps (· ≠ []) (idsOf items)

variable {c reader} {items : List c.Item} {r : Origin × BodyRequest}

theorem edit_of_serve {after : List c.Item} (hserve : c.serve reader r.1 r.2 items = some after) :
    ∃ e, c.choice.edit c.reorders reader r.1 r.2 = some e ∧ e.apply (idsOf items) = some (idsOf after) := by
  have hids := c.ids_serve reader r.1 r.2 items
  rw [hserve, Option.map_some] at hids
  obtain ⟨e, he, happly⟩ := Option.bind_eq_some_iff.1 hids.symm
  exact ⟨e, he, happly⟩

theorem refused_of_serve (hserve : c.serve reader r.1 r.2 items = none) {e : Edit Str}
    (he : c.choice.edit c.reorders reader r.1 r.2 = some e) : e.apply (idsOf items) = none := by
  have hids := c.ids_serve reader r.1 r.2 items
  rw [hserve, he] at hids
  exact hids.symm

/-- A change of the ids comes from a request for it. -/
theorem edit_rename {T : Type} {choice : IdChoice T} {reorders : Bool} {reader : BodyReader T} {origin : Origin}
    {request : BodyRequest} {old new : Str} (h : choice.edit reorders reader origin request = some (.rename old new)) :
    ∃ body, request = .update old body := by
  unfold IdChoice.edit at h
  cases request with
  | create newId body =>
    obtain ⟨item, -, heq⟩ := Option.map_eq_some_iff.1 h
    cases heq
  | update id body =>
    obtain ⟨item, -, heq⟩ := Option.map_eq_some_iff.1 h
    cases heq
    exact ⟨body, rfl⟩
  | delete id => cases h
  | reorder body =>
    dsimp only at h
    split at h
    · obtain ⟨order, -, heq⟩ := Option.map_eq_some_iff.1 h
      cases heq
    · cases h

theorem edit_of_update {T : Type} {choice : IdChoice T} {reorders : Bool} {reader : BodyReader T} {origin : Origin}
    {id : Str} {body : Json} {e : Edit Str} (h : choice.edit reorders reader origin (.update id body) = some e) :
    ∃ new, e = .rename id new := by
  obtain ⟨item, -, heq⟩ := Option.map_eq_some_iff.1 h
  exact ⟨_, heq.symm⟩

theorem edit_reorder {T : Type} {choice : IdChoice T} {reorders : Bool} {reader : BodyReader T} {origin : Origin}
    {request : BodyRequest} {order : List Str}
    (h : choice.edit reorders reader origin request = some (.reorder order)) : ∃ body, request = .reorder body := by
  unfold IdChoice.edit at h
  cases request with
  | create newId body =>
    obtain ⟨item, -, heq⟩ := Option.map_eq_some_iff.1 h
    cases heq
  | update id body =>
    obtain ⟨item, -, heq⟩ := Option.map_eq_some_iff.1 h
    cases heq
  | delete id => cases h
  | reorder body => exact ⟨body, rfl⟩

theorem edit_of_reorder {T : Type} {choice : IdChoice T} {reorders : Bool} {reader : BodyReader T} {origin : Origin}
    {body : Json} {e : Edit Str} (h : choice.edit reorders reader origin (.reorder body) = some e) :
    ∃ order, e = .reorder order := by
  unfold IdChoice.edit at h
  dsimp only at h
  split at h
  · obtain ⟨order, -, heq⟩ := Option.map_eq_some_iff.1 h
    exact ⟨order, heq.symm⟩
  · cases h

/-- The items of a request to reorder are in another order where their ids are. -/
theorem perm_iff_of_reorder (h : c.Identified items) {body : Json} {after : List c.Item}
    (hserve : c.serve reader r.1 (.reorder body) items = some after) :
    after.Perm items ↔ (idsOf after).Perm (idsOf items) := by
  obtain ⟨order, -, rfl⟩ := c.reorder_serve reader r.1 body items after hserve
  rw [reorderedBy_perm_iff CollectionItem.id h.nodup, ← map_reorderedBy]
  exact Iff.rfl

/-- An accepted request does what is expected of it where its edit of the ids does. -/
theorem stable_iff_sound (h : c.Identified items) {after : List c.Item} {e : Edit Str}
    (hserve : c.serve reader r.1 r.2 items = some after) (he : c.choice.edit c.reorders reader r.1 r.2 = some e) :
    c.Stable reader items r ↔ e.Sound (· ≠ []) (idsOf items) (idsOf after) := by
  have hstep : c.step reader items r = after := by
    unfold step
    rw [hserve]
    rfl
  constructor
  · intro hstable
    refine ⟨hstep ▸ hstable.identified, ?_, ?_⟩
    · rintro old new rfl
      obtain ⟨body, hrequest⟩ := edit_rename he
      exact hstable.updated old body after hrequest hserve
    · rintro order rfl
      obtain ⟨body, hrequest⟩ := edit_reorder he
      have hperm := hstable.reordered body after hrequest hserve
      rw [hrequest] at hserve
      exact (perm_iff_of_reorder h hserve).1 hperm
  · intro hsound
    refine ⟨hstep.symm ▸ hsound.valid, ?_, ?_⟩
    · intro id body after' hrequest hserve'
      rw [hserve] at hserve'
      cases hserve'
      rw [hrequest] at he
      obtain ⟨new, rfl⟩ := edit_of_update he
      exact hsound.renamed id new rfl
    · intro body after' hrequest hserve'
      rw [hserve] at hserve'
      cases hserve'
      rw [hrequest] at he hserve
      obtain ⟨order, rfl⟩ := edit_of_reorder he
      exact (perm_iff_of_reorder h hserve).2 (hsound.reordered order rfl)

theorem stable_of_refused (h : c.Identified items) (hserve : c.serve reader r.1 r.2 items = none) :
    c.Stable reader items r := by
  refine ⟨?_, ?_, ?_⟩
  · unfold step
    rw [hserve]
    exact h
  · intro id body after _ hsome
    rw [hserve] at hsome
    cases hsome
  · intro body after _ hsome
    rw [hserve] at hsome
    cases hsome

/-- The exact condition on one request. -/
theorem stable_iff_keepsIds (h : c.Identified items) : c.Stable reader items r ↔ c.KeepsIds reader items r := by
  unfold KeepsIds
  cases hserve : c.serve reader r.1 r.2 items with
  | none =>
    refine iff_of_true (stable_of_refused h hserve) ?_
    intro e he
    exact Edit.keeps_of_refused (refused_of_serve hserve he)
  | some after =>
    obtain ⟨e, he, happly⟩ := edit_of_serve hserve
    rw [stable_iff_sound h hserve he, Edit.sound_iff h happly]
    constructor
    · intro hkeeps e' he'
      rw [he] at he'
      cases he'
      exact hkeeps
    · intro hall
      exact hall e he

/-- A run of requests is stable where every request keeps the ids. -/
theorem everyStep_stable_iff (c : IdBacked) (reader : BodyReader c.Item) {items : List c.Item} (h : c.Identified items)
    (requests : List (Origin × BodyRequest)) :
    EveryStep (c.step reader) (c.Stable reader) items requests ↔
      EveryStep (c.step reader) (c.KeepsIds reader) items requests :=
  everyStep_iff_of (I := c.Identified) (fun _ _ hitems => stable_iff_keepsIds hitems)
    (fun _ _ _ hstable => hstable.identified) h requests

end IdBacked

/-- In every run of requests for one of the collections, the identities are stable exactly where every request of the
run keeps the ids. -/
theorem stable_run_iff (name : IdBackedName) (reader : BodyReader name.backed.Item) {items : List name.backed.Item}
    (h : name.backed.Identified items) (requests : List (Origin × BodyRequest)) :
    EveryStep (name.backed.step reader) (name.backed.Stable reader) items requests ↔
      EveryStep (name.backed.step reader) (name.backed.KeepsIds reader) items requests :=
  name.backed.everyStep_stable_iff reader h requests

/-! ### Ids of bodies -/

/-- A body that is a script, which may have no id. -/
def luaScriptFromValue (body : Json) : Option LuaScript := do
  let id ← ((body.get? "id").map Json.asStr).getD (some [])
  let name ← (body.get? "name").bind Json.asStr
  let code ← (body.get? "code").bind Json.asStr
  let enabled ← (body.get? "enabled").bind Json.asBool
  return ⟨id, name, code, enabled⟩

def auditScript : LuaScript := ⟨"s1", "audit", "-- first", true⟩

/-- The body of a request, without an id. -/
def auditBody : Json := .obj [("name", .str "audit"), ("code", .str "-- second"), ("enabled", .bool true)]

private theorem identified_auditScript : IdBackedName.luaScripts.backed.Identified [auditScript] := by
  refine ⟨?_, List.nodup_singleton _⟩
  intro id hid
  rw [List.mem_singleton.1 hid]
  exact List.cons_ne_nil _ _

/-- A script is made over HTTP, and replaced by the assistant. -/
theorem stable_run_audit :
    EveryStep (IdBackedName.luaScripts.backed.step fun _ => luaScriptFromValue)
      (IdBackedName.luaScripts.backed.Stable fun _ => luaScriptFromValue) [auditScript]
      [(.http, .create "s2" auditBody), (.assistant, .update "s1" auditBody)] := by
  refine (stable_run_iff .luaScripts _ identified_auditScript _).2 ?_
  refine everyStep_cons.2 ⟨?_, everyStep_cons.2 ⟨?_, everyStep_nil⟩⟩
  · rintro e he
    obtain rfl : e = .push "s2" := (Option.some.inj he).symm
    exact ⟨List.cons_ne_nil _ _, by decide⟩
  · rintro e he
    obtain rfl : e = .rename "s1" "s1" := (Option.some.inj he).symm
    exact fun _ => rfl

/-- The ids which are made up are not empty and not in use. -/
def IdBacked.Fresh (c : IdBacked) (items : List c.Item) (r : Origin × BodyRequest) : Prop :=
  ∀ newId body, r.2 = .create newId body → newId ≠ [] ∧ newId ∉ idsOf items

/-- A script which is replaced over HTTP by a body without an id cannot be found any more. -/
theorem not_stable_run : ¬ ∀ (name : IdBackedName) (reader : BodyReader name.backed.Item)
    (items : List name.backed.Item), name.backed.Identified items →
    ∀ requests, EveryStep (name.backed.step reader) name.backed.Fresh items requests →
      EveryStep (name.backed.step reader) (name.backed.Stable reader) items requests := by
  intro h
  have hstable := h .luaScripts (fun _ => luaScriptFromValue) [auditScript] identified_auditScript
    [(.http, .update "s1" auditBody)] (everyStep_cons.2 ⟨fun _ _ => BodyRequest.noConfusion, everyStep_nil⟩)
  rw [everyStep_cons] at hstable
  exact hstable.1.identified.allowed [] (List.mem_singleton.2 rfl) rfl

/-- The collections which take no id from a body and no order keep the ids in every run with fresh ids. -/
theorem stable_run_of_fresh {name : IdBackedName}
    (hname : name = .accessRules ∨ name = .mapLocalRules ∨ name = .mapRemoteRules)
    (reader : BodyReader name.backed.Item) {items : List name.backed.Item} (h : name.backed.Identified items)
    {requests : List (Origin × BodyRequest)}
    (hfresh : EveryStep (name.backed.step reader) name.backed.Fresh items requests) :
    EveryStep (name.backed.step reader) (name.backed.Stable reader) items requests := by
  rw [IdBacked.everyStep_stable_iff _ reader h]
  intro pre r hpre e he
  have hchoice : name.backed.choice = pathChoice ∧ name.backed.reorders = false := by
    rcases hname with rfl | rfl | rfl <;> exact ⟨rfl, rfl⟩
  rw [hchoice.1, hchoice.2] at he
  obtain ⟨origin, request⟩ := r
  cases request with
  | create newId body =>
    obtain ⟨item, -, rfl⟩ := Option.map_eq_some_iff.1 he
    exact hfresh pre _ hpre newId body rfl
  | update id body =>
    obtain ⟨item, -, rfl⟩ := Option.map_eq_some_iff.1 he
    exact fun _ => rfl
  | delete id =>
    cases he
    trivial
  | reorder body => cases he

end Persisted

end Oproxy
