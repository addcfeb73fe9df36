import Oproxy.Lib.SharedFile
import Oproxy.Middleware.Plugins.AccessControl
import Oproxy.Middleware.Plugins.Breakpoints
import Oproxy.Middleware.Plugins.DnsOverride
import Oproxy.Middleware.Plugins.LuaEngine
import Oproxy.Middleware.Plugins.MapLocal
import Oproxy.Middleware.Plugins.MapRemote
import Oproxy.Middleware.Plugins.Mock
import Oproxy.Middleware.Plugins.Rules

/-!
# Persisted collections (`policy.rs`, `breakpoints.rs`, `extensions.rs`, `webhooks.rs`, `assistant_actions.rs`)

Each collection of rules is kept in memory behind a lock and in a file, and both the HTTP handlers and the actions of
the assistant edit it.  A request that its handler refuses before it takes the lock is none here, and the values of
requests are as their checks leave them.  The file is taken as the collection which it holds; a missing one holds the
empty one.
-/

namespace Oproxy

open SharedFile

/-- The items which requests find by their id. -/
class CollectionItem (T : Type) where
  id : T → Str
  setId : Str → T → T

inductive WebhookEvent where
  | requestCaptured | responseCaptured | breakpointHit | error
  deriving DecidableEq

structure WebhookConfig where
  id : Str
  name : Option Str
  url : Str
  events : List WebhookEvent
  enabled : Bool
  secret : Option Str

instance : CollectionItem AccessRule := ⟨AccessRule.id, fun id rule => { rule with id := id }⟩

instance : CollectionItem RewriteRuleSet := ⟨RewriteRuleSet.id, fun id rule => { rule with id := id }⟩

instance : CollectionItem MapLocalRule := ⟨MapLocalRule.id, fun id rule => { rule with id := id }⟩

instance : CollectionItem MapRemoteRule := ⟨MapRemoteRule.id, fun id rule => { rule with id := id }⟩

instance : CollectionItem BreakpointRule := ⟨BreakpointRule.id, fun id rule => { rule with id := id }⟩

instance : CollectionItem MockRule := ⟨MockRule.id, fun id rule => { rule with id := id }⟩

instance : CollectionItem LuaScript := ⟨LuaScript.id, fun id script => { script with id := id }⟩

instance : CollectionItem WebhookConfig := ⟨WebhookConfig.id, fun id hook => { hook with id := id }⟩

namespace Persisted

/-! ### Edits -/

section

variable {T : Type} [CollectionItem T]

def pushItem (item : T) (items : List T) : Option (List T) := some (items ++ [item])

/-- Change the first item with an id. -/
def changeFirst (id : Str) (change : T → T) : List T → List T
  | [] => []
  | item :: items => if CollectionItem.id item = id then change item :: items else item :: changeFirst id change items

/-- Change the first item with an id; refused where there is none. -/
def updateItem (id : Str) (change : T → T) (items : List T) : Option (List T) :=
  if items.any fun item => CollectionItem.id item = id then some (changeFirst id change items) else none

def withoutItem (id : Str) (items : List T) : List T := items.filter fun item => CollectionItem.id item ≠ id

/-- Delete the items with an id; refused where there is none. -/
def deleteItem (id : Str) (items : List T) : Option (List T) :=
  let kept := withoutItem id items
  if kept.length = items.length then none else some kept

/-- `new_id` where the item has none. -/
def withNewId (newId : Str) (item : T) : T :=
  if (CollectionItem.id item).isEmpty then CollectionItem.setId newId item else item

/-- A request for one item; `newId` is the id which is made up for it. -/
inductive ItemRequest (T : Type) where
  | create (newId : Str) (item : T)
  | update (id : Str) (item : T)
  | delete (id : Str)

/-- The HTTP handlers of the policy rules: they edit, copy the rules and save the copy. -/
def policyHandler : ItemRequest T → Handler (List T)
  | .create newId item => ⟨pushItem (CollectionItem.setId newId item), .copied⟩
  | .update id item => ⟨updateItem id fun _ => CollectionItem.setId id item, .copied⟩
  | .delete id => ⟨deleteItem id, .copied⟩

/-- `mutate_collection` under the lock of its caller. -/
def mutateCollection : ItemRequest T → Handler (List T)
  | .create newId item => ⟨pushItem (CollectionItem.setId newId item), .held⟩
  | .update id item => ⟨updateItem id fun _ => CollectionItem.setId id item, .held⟩
  | .delete id => ⟨deleteItem id, .held⟩

/-- Who makes a request. -/
inductive Origin where
  | http
  | assistant

structure OriginRequest (T : Type) where
  origin : Origin
  request : ItemRequest T

/-- A collection whose HTTP handlers save copies while the assistant keeps the lock. -/
def policyOrAssistant (r : OriginRequest T) : Handler (List T) :=
  match r.origin with
  | .http => policyHandler r.request
  | .assistant => mutateCollection r.request

end

/-! ### Handlers -/

/-- `create_access_rule`, `update_access_rule`, `delete_access_rule`. -/
def accessRuleHandler : OriginRequest AccessRule → Handler (List AccessRule) := policyOrAssistant

/-- `create_map_local_rule`, `update_map_local_rule`, `delete_map_local_rule`. -/
def mapLocalHandler : OriginRequest MapLocalRule → Handler (List MapLocalRule) := policyOrAssistant

/-- `create_map_remote_rule`, `update_map_remote_rule`, `delete_map_remote_rule`. -/
def mapRemoteHandler : OriginRequest MapRemoteRule → Handler (List MapRemoteRule) := policyOrAssistant

inductive RuleSetRequest where
  | item (request : OriginRequest RewriteRuleSet)
  | reorder (ids : List Str)

/-- The rule sets in the order of the ids, and behind them those which the ids do not name. -/
def reordered (ids : List Str) (rules : List RewriteRuleSet) : List RewriteRuleSet :=
  (ids.filterMap fun id => rules.find? fun r => r.id = id) ++ rules.filter fun r => r.id ∉ ids

def reorderRuleSets (ids : List Str) : Handler (List RewriteRuleSet) :=
  ⟨fun rules => some (reordered ids rules), .copied⟩

/-- `create_rule_set`, `update_rule_set`, `delete_rule_set`, `reorder_rule_sets`. -/
def ruleSetHandler : RuleSetRequest → Handler (List RewriteRuleSet)
  | .item request => policyOrAssistant request
  | .reorder ids => reorderRuleSets ids

/-- `add_bp_rule`, `update_bp_rule`, `delete_bp_rule`, and `execute_breakpoint_action`, which do the same: through
`BreakpointManager`, which takes the lock for each call.  A deletion is never refused. -/
def breakpointHandler (r : OriginRequest BreakpointRule) : Handler (List BreakpointRule) :=
  match r.request with
  | .create newId rule => ⟨pushItem (CollectionItem.setId newId rule), .copied⟩
  | .update id rule => ⟨updateItem id fun _ => CollectionItem.setId id rule, .copied⟩
  | .delete id => ⟨fun rules => some (withoutItem id rules), .copied⟩

inductive MockRequest where
  | item (request : OriginRequest MockRule)
  | reset (id : Str)

def createMockRule (newId : Str) (rule : MockRule) : Handler (List MockRule) :=
  ⟨pushItem (CollectionItem.setId newId rule), .held⟩

/-- The count of the calls is kept; the id is that of the new rule. -/
def updateMockRule (id : Str) (updated : MockRule) : Handler (List MockRule) :=
  ⟨updateItem id fun old => { updated with callCount := old.callCount }, .readHeld⟩

def deleteMockRule (id : Str) : Handler (List MockRule) := ⟨deleteItem id, .held⟩

def resetMockRule (id : Str) : Handler (List MockRule) := ⟨updateItem id fun old => { old with callCount := 0 }, .held⟩

def executeMockAction : ItemRequest MockRule → Handler (List MockRule)
  | .create newId rule => ⟨pushItem (withNewId newId rule), .held⟩
  | .update id updated => ⟨updateItem id fun old => { updated with id := id, callCount := old.callCount }, .held⟩
  | .delete id => ⟨deleteItem id, .held⟩

def mockHandler : MockRequest → Handler (List MockRule)
  | .item ⟨.http, .create newId rule⟩ => createMockRule newId rule
  | .item ⟨.http, .update id rule⟩ => updateMockRule id rule
  | .item ⟨.http, .delete id⟩ => deleteMockRule id
  | .item ⟨.assistant, request⟩ => executeMockAction request
  | .reset id => resetMockRule id

def createScript (newId : Str) (script : LuaScript) : Handler (List LuaScript) :=
  ⟨pushItem (CollectionItem.setId newId script), .held⟩

/-- The id is that of the new script. -/
def updateScript (id : Str) (updated : LuaScript) : Handler (List LuaScript) := ⟨updateItem id fun _ => updated, .held⟩

def deleteScript (id : Str) : Handler (List LuaScript) := ⟨deleteItem id, .held⟩

/-- `execute_script_action` and `execute_webhook_action`. -/
def executeItemAction {T : Type} [CollectionItem T] : ItemRequest T → Handler (List T)
  | .create newId item => ⟨pushItem (withNewId newId item), .held⟩
  | .update id updated => ⟨updateItem id fun _ => CollectionItem.setId id updated, .held⟩
  | .delete id => ⟨deleteItem id, .held⟩

def scriptHandler : OriginRequest LuaScript → Handler (List LuaScript)
  | ⟨.http, .create newId script⟩ => createScript newId script
  | ⟨.http, .update id script⟩ => updateScript id script
  | ⟨.http, .delete id⟩ => deleteScript id
  | ⟨.assistant, request⟩ => executeItemAction request

def createWebhook (newId : Str) (hook : WebhookConfig) : Handler (List WebhookConfig) :=
  ⟨pushItem (withNewId newId hook), .held⟩

/-- The id is that of the new webhook. -/
def updateWebhook (id : Str) (updated : WebhookConfig) : Handler (List WebhookConfig) :=
  ⟨updateItem id fun _ => updated, .held⟩

def deleteWebhook (id : Str) : Handler (List WebhookConfig) := ⟨deleteItem id, .held⟩

def webhookHandler : OriginRequest WebhookConfig → Handler (List WebhookConfig)
  | ⟨.http, .create newId hook⟩ => createWebhook newId hook
  | ⟨.http, .update id hook⟩ => updateWebhook id hook
  | ⟨.http, .delete id⟩ => deleteWebhook id
  | ⟨.assistant, request⟩ => executeItemAction request

inductive DnsRequest where
  /-- One entry, by `update_dns` or `upsert_dns`. -/
  | upsert (host : Str) (entry : DnsEntry)
  | replace (overrides : DnsOverrides)
  | delete (host : Str)
  | assistantReplace (overrides : DnsOverrides)
  | assistantDelete (host : Str)

/-- The overrides without a host; refused where it has none. -/
def removeOverride (host : Str) (overrides : DnsOverrides) : Option DnsOverrides :=
  if overrides.contains host then
    some (overrides.entries.foldl (fun m e => if e.1 = host then m else m.insert e.1 e.2) IndexMap.empty)
  else none

/-- `update_dns`, `upsert_dns`, `delete_dns`, and the two actions, of which the replacement saves a copy. -/
def dnsHandler : DnsRequest → Handler DnsOverrides
  | .upsert host entry => ⟨fun overrides => some (overrides.insert host entry), .held⟩
  | .replace new => ⟨fun _ => some new, .held⟩
  | .delete host => ⟨removeOverride host, .held⟩
  | .assistantReplace new => ⟨fun _ => some new, .copied⟩
  | .assistantDelete host => ⟨removeOverride host, .held⟩

/-! ### The collections -/

/-- A collection with the requests for it, the changes which are never saved, and what it is without them. -/
structure Collection where
  Value : Type
  Request : Type
  Change : Type
  Visible : Type
  handler : Request → Handler Value
  tick : Change → Value → Value
  view : Value → Visible
  view_tick : ∀ change value, view (tick change value) = view value

/-- A collection which only requests change. -/
def Collection.plain {Value Request : Type} (handler : Request → Handler Value) : Collection where
  Value := Value
  Request := Request
  Change := Empty
  Visible := Value
  handler := handler
  tick := Empty.elim
  view := id
  view_tick := by intro change; cases change

def withoutCalls (rules : List MockRule) : List MockRule := rules.map fun rule => { rule with callCount := 0 }

theorem withoutCalls_countCall (id : Str) (rules : List MockRule) :
    withoutCalls (Mock.countCall id rules) = withoutCalls rules := by
  induction rules with
  | nil => rfl
  | cons rule rules ih =>
    unfold Mock.countCall
    split
    · rfl
    · unfold withoutCalls at ih ⊢
      rw [List.map_cons, List.map_cons, ih]

def accessRules : Collection := .plain accessRuleHandler

def ruleSets : Collection := .plain ruleSetHandler

def mapLocalRules : Collection := .plain mapLocalHandler

def mapRemoteRules : Collection := .plain mapRemoteHandler

def breakpoints : Collection := .plain breakpointHandler

/-- Traffic counts calls. -/
def mockRules : Collection where
  Value := List MockRule
  Request := MockRequest
  Change := Str
  Visible := List MockRule
  handler := mockHandler
  tick := Mock.countCall
  view := withoutCalls
  view_tick := withoutCalls_countCall

def luaScripts : Collection := .plain scriptHandler

def webhooks : Collection := .plain webhookHandler

def dnsOverrides : Collection := .plain dnsHandler

inductive CollectionName where
  | accessRules | ruleSets | mapLocalRules | mapRemoteRules | breakpoints | mockRules | luaScripts | webhooks
  | dnsOverrides
  deriving DecidableEq

namespace CollectionName

def collection : CollectionName → Collection
  | accessRules => Persisted.accessRules
  | ruleSets => Persisted.ruleSets
  | mapLocalRules => Persisted.mapLocalRules
  | mapRemoteRules => Persisted.mapRemoteRules
  | breakpoints => Persisted.breakpoints
  | mockRules => Persisted.mockRules
  | luaScripts => Persisted.luaScripts
  | webhooks => Persisted.webhooks
  | dnsOverrides => Persisted.dnsOverrides

/-- The collections all of whose requests keep the lock until they have saved. -/
def KeepsLock (name : CollectionName) : Prop := name = mockRules ∨ name = luaScripts ∨ name = webhooks

end CollectionName

open Machine

/-- In every state of a run in which all requests have returned, the file of a collection holds the collection. -/
def SavedInRun (c : Collection) (value : c.Value) (as : List (Step c.Request c.Change)) : Prop :=
  EveryState (step c.handler c.tick) (Saved c.view) (start value) as

/-- Every copy of the run that is saved when all other requests have returned is still the collection. -/
def FreshInRun (c : Collection) (value : c.Value) (as : List (Step c.Request c.Change)) : Prop :=
  EveryStep (step c.handler c.tick) (Fresh c.view) (start value) as

/-- The exact condition on a run of the requests for any of the collections. -/
theorem savedInRun_iff (name : CollectionName) (value : name.collection.Value)
    (as : List (Step name.collection.Request name.collection.Change)) :
    SavedInRun name.collection value as ↔ FreshInRun name.collection value as :=
  saved_run_iff name.collection.view_tick value as

/-! ### Which collections always end up right -/

theorem executeItemAction_discipline {T : Type} [CollectionItem T] (request : ItemRequest T) :
    (executeItemAction request).discipline = .held := by
  cases request <;> rfl

theorem mockHandler_discipline (r : MockRequest) : (mockHandler r).discipline ≠ .copied := by
  rcases r with ⟨⟨⟨⟩, ⟨⟩⟩⟩ | ⟨⟨⟨⟩, ⟨⟩⟩⟩ <;> exact Discipline.noConfusion

theorem scriptHandler_discipline (r : OriginRequest LuaScript) : (scriptHandler r).discipline = .held := by
  obtain ⟨origin, request⟩ := r
  cases origin with
  | http => cases request <;> rfl
  | assistant => exact executeItemAction_discipline request

theorem webhookHandler_discipline (r : OriginRequest WebhookConfig) : (webhookHandler r).discipline = .held := by
  obtain ⟨origin, request⟩ := r
  cases origin with
  | http => cases request <;> rfl
  | assistant => exact executeItemAction_discipline request

theorem discipline_of_keepsLock {name : CollectionName} (h : name.KeepsLock) (request : name.collection.Request) :
    (name.collection.handler request).discipline ≠ .copied := by
  have hheld : Discipline.held ≠ .copied := by decide
  rcases h with rfl | rfl | rfl
  · exact mockHandler_discipline request
  · exact (scriptHandler_discipline request).symm ▸ hheld
  · exact (webhookHandler_discipline request).symm ▸ hheld

/-- A collection is lost where one request copies it and another one changes it before the copy is saved. -/
private theorem not_savedInRun {c : Collection} {first second : c.Request} {value value₁ value₂ : c.Value}
    (hcopied : (c.handler first).discipline = .copied) (h₁ : (c.handler first).edit value = some value₁)
    (h₂ : (c.handler second).edit value₁ = some value₂) (hne : c.view value₁ ≠ c.view value₂) :
    ∃ value as, ¬ SavedInRun c value as :=
  ⟨value, _, not_saved_of_copy hcopied h₁ h₂ hne⟩

private theorem append_singleton_ne {T : Type} (items : List T) (item : T) : items ≠ items ++ [item] := by
  intro h
  have hlength := congrArg List.length h
  rw [List.length_append, List.length_singleton] at hlength
  omega

/-- The collections which always end up right in their file are those whose requests keep the lock. -/
theorem forall_savedInRun_iff (name : CollectionName) :
    (∀ value as, SavedInRun name.collection value as) ↔ name.KeepsLock := by
  constructor
  · intro h
    by_contra hnot
    -- two creations, of which the first one is the last to save; of the DNS overrides, two replacements
    have hlost : ∃ value as, ¬ SavedInRun name.collection value as := by
      cases name with
      | accessRules =>
        let rule : AccessRule := ⟨"a1", "rule", true, Location.default, .allow⟩
        exact @not_savedInRun accessRules ⟨.http, .create "a1" rule⟩ ⟨.http, .create "a2" rule⟩ [] _ _ rfl rfl rfl
          (append_singleton_ne _ _)
      | ruleSets =>
        let rule : RewriteRuleSet := ⟨"r1", "rule", true, Location.default, .both, []⟩
        exact @not_savedInRun ruleSets (.item ⟨.http, .create "r1" rule⟩) (.item ⟨.http, .create "r2" rule⟩) [] _ _
          rfl rfl
          rfl (append_singleton_ne _ _)
      | mapLocalRules =>
        let rule : MapLocalRule := ⟨"l1", "rule", true, Location.default, "fixture.json"⟩
        exact @not_savedInRun mapLocalRules ⟨.http, .create "l1" rule⟩ ⟨.http, .create "l2" rule⟩ [] _ _ rfl rfl rfl
          (append_singleton_ne _ _)
      | mapRemoteRules =>
        let rule : MapRemoteRule := ⟨"m1", "rule", true, Location.default, "http://files.test"⟩
        exact @not_savedInRun mapRemoteRules ⟨.http, .create "m1" rule⟩ ⟨.http, .create "m2" rule⟩ [] _ _ rfl rfl rfl
          (append_singleton_ne _ _)
      | breakpoints =>
        let rule : BreakpointRule := ⟨"b1", Location.default, .request, .head, true⟩
        exact @not_savedInRun breakpoints ⟨.http, .create "b1" rule⟩ ⟨.http, .create "b2" rule⟩ [] _ _ rfl rfl rfl
          (append_singleton_ne _ _)
      | mockRules => exact absurd (Or.inl rfl) hnot
      | luaScripts => exact absurd (Or.inr (Or.inl rfl)) hnot
      | webhooks => exact absurd (Or.inr (Or.inr rfl)) hnot
      | dnsOverrides =>
        let overrides : DnsOverrides := IndexMap.empty
        let host : Str := "api.test"
        let entry : DnsEntry := ⟨"127.0.0.1", true⟩
        have hne : overrides ≠ overrides.insert host entry := fun heq => absurd (congrArg IndexMap.len heq) (by decide)
        exact @not_savedInRun dnsOverrides (.assistantReplace overrides) (.upsert host entry) overrides _ _
          rfl rfl rfl hne
    obtain ⟨value, as, hlost⟩ := hlost
    exact hlost (h value as)
  · intro h value as
    exact saved_run_of_held name.collection.view_tick (discipline_of_keepsLock h) value as

/-- Of two rules created at the same time, the file has one. -/
theorem not_savedInRun_created : ¬ ∀ (name : CollectionName) value as, SavedInRun name.collection value as := by
  intro h
  let rule : AccessRule := ⟨"a1", "rule", true, Location.default, .allow⟩
  exact @not_saved_of_copy _ _ _ _ accessRules.handler accessRules.tick accessRules.view ⟨.http, .create "a1" rule⟩
    ⟨.http, .create "a2" rule⟩ [] _ _ rfl rfl rfl (append_singleton_ne _ _) (h .accessRules [] _)

end Persisted

end Oproxy
