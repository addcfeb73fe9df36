import Oproxy.ControlPlane.PersistedRules
import Oproxy.Session.Retention
import Oproxy.Session.Traces

/-!
# Change notifications (`session/mod.rs`, `webhooks.rs`)

Each arm of `processWriteOp` publishes on its own what it did.  The dispatcher of webhooks receives the changes, perhaps
later and not all of them, and looks the session up; it fires one request for every hook that listens.
-/

namespace Oproxy

open Machine

/-! ### The dispatcher -/

def webhookEvent : SessionChangeKind → Option WebhookEvent
  | .requestCaptured => some .requestCaptured
  | .responseCaptured => some .responseCaptured
  | _ => none

/-- The payload of a webhook. -/
structure WebhookPayload where
  event : WebhookEvent
  sessionId : Str
  timestamp : Timestamp
  method : Str
  uri : Str
  status : Option Nat

/-- One turn of the loop of the dispatcher, for one of its hooks. -/
def WebhookConfig.dispatch (hook : WebhookConfig) (change : SessionChange) (sm : SessionStore) :
    Option WebhookPayload := do
  let event ← webhookEvent change.kind
  let sessionId ← change.sessionId
  let session ← sm.exchanges.get? sessionId
  if hook.enabled && hook.events.contains event then
    some ⟨event, session.id, session.timestamp, session.request.method, session.request.uri,
      session.response.map ResponseContext.status⟩
  else none

namespace WriteOp

/-- The id which an operation names. -/
def named : WriteOp → Option Str
  | recordRequest id _ _ | recordResponse id _ | recordResponseWithMetrics id _ _ | appendWsFrame id _
  | appendEvent id _ | annotate id _ _ | updateInspectorData id _ | markPaused id | clearPaused id => some id
  | importSessions _ | clearSessions | loadData _ | flush => none

/-- The operations on the whole store. -/
def storeWide : WriteOp → Bool
  | importSessions _ | clearSessions | loadData _ => true
  | _ => false

def requests (id : Str) : WriteOp → Bool
  | recordRequest id' _ _ => id' = id
  | _ => false

def responds (id : Str) : WriteOp → Bool
  | recordResponse id' _ | recordResponseWithMetrics id' _ _ => id' = id
  | _ => false

/-- An operation brings in an exchange without a response. -/
def Reopens (id : Str) : WriteOp → Prop
  | importSessions exchanges => ∃ exchange ∈ exchanges, exchange.id = id ∧ exchange.response = none
  | loadData map => ∃ exchange, map.get? id = some exchange ∧ exchange.response = none
  | _ => False

end WriteOp

namespace SessionStore

/-! ### Faithful notifications -/

/-- What an operation publishes. -/
def changes (s : SessionStore) (t : TimedOp) : List SessionChange := (processWriteOp t.clock t.op s).changes

/-- The step fills in the response of an exchange. -/
def StoresResponse (s : SessionStore) (t : TimedOp) (id : Str) : Prop :=
  ∃ before after, s.exchanges.get? id = some before ∧ before.response = none ∧
    (s.step t).exchanges.get? id = some after ∧ after.response.isSome = true

/-- What is published of a step: something for the exchange which it names, if that is another one afterwards;
something for the whole store, if it is about that; and no response which was not stored. -/
structure FaithfulStep (s : SessionStore) (t : TimedOp) : Prop where
  named : ∀ id, t.op.named = some id → (s.step t).exchanges.get? id ≠ s.exchanges.get? id →
    ∃ change ∈ s.changes t, change.sessionId = some id
  storeWide : t.op.storeWide = true → ∃ change ∈ s.changes t, change.sessionId = none
  stored : ∀ id, ⟨some id, .responseCaptured⟩ ∈ s.changes t → s.StoresResponse t id

/-- The changes of a run, each with the store it leaves. -/
def published (s : SessionStore) : List TimedOp → List (SessionChange × SessionStore)
  | [] => []
  | t :: ts => (s.changes t).map (fun change => (change, s.step t)) ++ published (s.step t) ts

/-- A change as the dispatcher receives it, with the store in which it looks the session up and a hook as it is then. -/
structure Delivery where
  change : SessionChange
  store : SessionStore
  hook : WebhookConfig

/-- What the dispatcher may receive of the changes of a run: some of them, each of them at any later time. -/
def Received (s : SessionStore) (ts : List TimedOp) (received : List Delivery) : Prop :=
  ∃ sent, sent.Sublist (s.published ts) ∧
    List.Forall₂ (fun delivery p => delivery.change = p.1 ∧ ∃ later, delivery.store = run step p.2 later) received sent

/-- The hook fires for a captured response. -/
def Delivery.fires (id : Str) (delivery : Delivery) : Bool :=
  decide (delivery.change = ⟨some id, .responseCaptured⟩) &&
    (delivery.hook.dispatch delivery.change delivery.store).isSome

/-- The operations from one request under an id to the next. -/
structure Between (id : Str) (pre mid post : List TimedOp) : Prop where
  opened : ∃ t ∈ pre.getLast?, t.op.requests id = true
  inside : ∀ t ∈ mid, t.op.requests id = false
  closed : ∃ t ∈ post.head?, t.op.requests id = true

/-- Every step of a run is faithful, and between two requests under an id a hook fires at most once for a response. -/
structure Faithful (s : SessionStore) (ts : List TimedOp) : Prop where
  steps : EveryStep step FaithfulStep s ts
  once : ∀ id pre mid post, ts = pre ++ mid ++ post → Between id pre mid post →
    ∀ received, (run step s pre).Received mid received → received.countP (Delivery.fires id) ≤ 1

/-! ### The condition -/

/-- The condition on a step: inspector data which is stored anew is what is stored already, and a response is recorded
for an exchange without one. -/
def Announced (s : SessionStore) (t : TimedOp) : Prop :=
  match t.op with
  | .updateInspectorData id data => ∀ exchange, s.exchanges.get? id = some exchange → exchange.inspectorData = some data
  | .recordResponse id _ | .recordResponseWithMetrics id _ _ =>
    ∃ exchange, s.exchanges.get? id = some exchange ∧ exchange.response = none
  | _ => True

/-- The condition on a run: between two requests under an id, no import and no load comes between two responses under
it with an exchange under it that has none. -/
def NotReopened (ts : List TimedOp) : Prop :=
  ∀ id pre mid post, ts = pre ++ mid ++ post → Between id pre mid post →
    ∀ before first between reopening after second rest,
      mid = before ++ first :: (between ++ reopening :: (after ++ second :: rest)) →
      first.op.responds id = true → second.op.responds id = true → ¬ reopening.op.Reopens id

variable {s : SessionStore} {t : TimedOp} {id : Str}

/-- A response which is recorded for an exchange without one is stored. -/
theorem storesResponse_iff (h : t.op.responds id = true) :
    s.StoresResponse t id ↔ ∃ exchange, s.exchanges.get? id = some exchange ∧ exchange.response = none := by
  constructor
  · rintro ⟨before, -, hbefore, hnone, -⟩
    exact ⟨before, hbefore, hnone⟩
  · rintro ⟨before, hbefore, hnone⟩
    have hkeeps : keepsIds t.op = true := by
      obtain ⟨clock, op⟩ := t
      cases op <;> first | rfl | cases h
    have htouched := get?_unbudgeted_of_keepsIds s t id hkeeps
    rw [hbefore, Option.map_some] at htouched
    have hanswered : (touch t id before).response.isSome = true := by
      obtain ⟨clock, op⟩ := t
      unfold touch
      cases op with
      | recordResponse id' response =>
        obtain rfl : id' = id := of_decide_eq_true h
        dsimp only
        rw [if_pos ⟨rfl, hnone⟩]
        rfl
      | recordResponseWithMetrics id' response metrics =>
        obtain rfl : id' = id := of_decide_eq_true h
        dsimp only
        rw [if_pos ⟨rfl, hnone⟩]
        rfl
      | _ => cases h
    obtain ⟨after, hafter, hcases⟩ := get?_step_of_unbudgeted id htouched
    refine ⟨before, after, hbefore, hnone, hafter, ?_⟩
    rcases hcases with rfl | rfl
    · exact hanswered
    · simpa [clearExchangeBodies] using hanswered

/-- Responses are announced by the operations that record them, once each. -/
theorem countP_changes (s : SessionStore) (t : TimedOp) (id : Str) :
    (s.changes t).countP (fun change => decide (change = ⟨some id, .responseCaptured⟩)) =
      if t.op.responds id then 1 else 0 := by
  obtain ⟨clock, op⟩ := t
  unfold changes processWriteOp
  cases op with
  | annotate id' note tags =>
    dsimp only
    split <;> simp [WriteOp.responds]
  | recordResponse id' response => by_cases hid : id' = id <;> simp [WriteOp.responds, hid]
  | recordResponseWithMetrics id' response metrics => by_cases hid : id' = id <;> simp [WriteOp.responds, hid]
  | _ => simp [WriteOp.responds]

theorem responseCaptured_mem_changes :
    (⟨some id, .responseCaptured⟩ : SessionChange) ∈ s.changes t ↔ t.op.responds id = true := by
  have hcount := countP_changes s t id
  constructor
  · intro hmem
    by_contra hnot
    rw [if_neg hnot, List.countP_eq_zero] at hcount
    exact hcount _ hmem (decide_eq_true rfl)
  · intro hresponds
    rw [if_pos hresponds] at hcount
    obtain ⟨change, hmem, hchange⟩ := List.countP_pos_iff.1 (by rw [hcount]; exact Nat.one_pos)
    rw [← of_decide_eq_true hchange]
    exact hmem

/-- Storing inspector data leaves an exchange as it is exactly if it has them. -/
theorem get?_updateInspectorData_eq_iff (s : SessionStore) (id : Str) (data : InspectorData) :
    (s.updateInspectorData id data).exchanges.get? id = s.exchanges.get? id ↔
      ∀ exchange, s.exchanges.get? id = some exchange → exchange.inspectorData = some data := by
  unfold updateInspectorData
  rw [IndexMap.get?_modify]
  cases hid : s.exchanges.get? id with
  | none => simp
  | some exchange =>
    simp only [Option.map_some, if_true, Option.some.injEq, forall_eq']
    constructor
    · intro h
      rw [← h]
    · intro h
      cases exchange
      cases h
      rfl

/-- An operation which announces the exchange that it names, and no response, is faithful. -/
theorem faithfulStep_of_named {id : Str} (hnamed : t.op.named = some id)
    (hchange : ∃ change ∈ s.changes t, change.sessionId = some id) (hresponds : ∀ id, t.op.responds id = false) :
    FaithfulStep s t where
  named := by
    rintro id' hid' -
    obtain rfl := Option.some.inj (hnamed.symm.trans hid')
    exact hchange
  storeWide := by
    obtain ⟨clock, op⟩ := t
    cases op <;> first | (cases hnamed; done) | (intro h; cases h)
  stored := by
    intro id' hmem
    rw [responseCaptured_mem_changes, hresponds] at hmem
    cases hmem

/-- An operation on the whole store announces itself. -/
theorem faithfulStep_of_storeWide (hnamed : t.op.named = none)
    (hchange : t.op.storeWide = true → ∃ change ∈ s.changes t, change.sessionId = none)
    (hresponds : ∀ id, t.op.responds id = false) : FaithfulStep s t where
  named := by
    intro id hid
    rw [hnamed] at hid
    cases hid
  storeWide := hchange
  stored := by
    intro id hmem
    rw [responseCaptured_mem_changes, hresponds] at hmem
    cases hmem

/-- A response is announced, and faithfully if it is stored. -/
theorem faithfulStep_response_iff {id : Str} (hnamed : t.op.named = some id)
    (hresponds : ∀ id', t.op.responds id' = true ↔ id' = id) :
    FaithfulStep s t ↔ ∃ exchange, s.exchanges.get? id = some exchange ∧ exchange.response = none := by
  have hself := (hresponds id).2 rfl
  rw [← storesResponse_iff hself]
  constructor
  · intro h
    exact h.stored id (responseCaptured_mem_changes.2 hself)
  · intro h
    refine ⟨?_, ?_, ?_⟩
    · rintro id' hid' -
      obtain rfl := Option.some.inj (hnamed.symm.trans hid')
      exact ⟨_, responseCaptured_mem_changes.2 hself, rfl⟩
    · obtain ⟨clock, op⟩ := t
      cases op <;> first | (cases hnamed; done) | (intro h; cases h)
    · intro id' hmem
      rw [responseCaptured_mem_changes, hresponds] at hmem
      rw [hmem]
      exact h

/-- An operation publishes faithfully exactly under the condition on steps. -/
theorem faithfulStep_iff (s : SessionStore) (t : TimedOp) : FaithfulStep s t ↔ Announced s t := by
  obtain ⟨clock, op⟩ := t
  cases op with
  | recordRequest id request source =>
    exact iff_of_true (faithfulStep_of_named rfl ⟨_, List.mem_cons_self, rfl⟩ fun _ => rfl) trivial
  | recordResponse id response => exact faithfulStep_response_iff rfl fun id' => by simp [WriteOp.responds, eq_comm]
  | recordResponseWithMetrics id response metrics =>
    exact faithfulStep_response_iff rfl fun id' => by simp [WriteOp.responds, eq_comm]
  | appendWsFrame id frame =>
    exact iff_of_true (faithfulStep_of_named rfl ⟨_, List.mem_cons_self, rfl⟩ fun _ => rfl) trivial
  | appendEvent id event =>
    exact iff_of_true (faithfulStep_of_named rfl ⟨_, List.mem_cons_self, rfl⟩ fun _ => rfl) trivial
  | annotate id note tags =>
    refine iff_of_true ?_ trivial
    by_cases hfound : s.exchanges.contains id = true
    · refine faithfulStep_of_named rfl ⟨⟨some id, .sessionUpdated⟩, ?_, rfl⟩ fun _ => rfl
      simp [changes, processWriteOp, annotate, hfound]
    · have hsame : s.step ⟨clock, .annotate id note tags⟩ = s := by
        simp [step, processWriteOp, annotate, hfound]
      refine ⟨fun id' _ hchanged => absurd (by rw [hsame]) hchanged, (by intro h; cases h), fun id' hmem => ?_⟩
      rw [responseCaptured_mem_changes] at hmem
      cases hmem
  | importSessions exchanges =>
    exact iff_of_true (faithfulStep_of_storeWide rfl (fun _ => ⟨_, List.mem_cons_self, rfl⟩) fun _ => rfl) trivial
  | clearSessions =>
    exact iff_of_true (faithfulStep_of_storeWide rfl (fun _ => ⟨_, List.mem_cons_self, rfl⟩) fun _ => rfl) trivial
  | updateInspectorData id data =>
    show FaithfulStep s ⟨clock, .updateInspectorData id data⟩ ↔
      ∀ exchange, s.exchanges.get? id = some exchange → exchange.inspectorData = some data
    rw [← get?_updateInspectorData_eq_iff]
    constructor
    · intro h
      by_contra hchanged
      obtain ⟨change, hmem, -⟩ := h.named id rfl hchanged
      cases hmem
    · intro hsame
      refine ⟨fun id' hid' hchanged => ?_, (by intro h; cases h), (by intro id' hmem; cases hmem)⟩
      obtain rfl := Option.some.inj hid'
      exact absurd hsame hchanged
  | markPaused id =>
    exact iff_of_true (faithfulStep_of_named rfl ⟨_, List.mem_cons_self, rfl⟩ fun _ => rfl) trivial
  | clearPaused id =>
    exact iff_of_true (faithfulStep_of_named rfl ⟨_, List.mem_cons_self, rfl⟩ fun _ => rfl) trivial
  | loadData map =>
    exact iff_of_true (faithfulStep_of_storeWide rfl (fun _ => ⟨_, List.mem_cons_self, rfl⟩) fun _ => rfl) trivial
  | flush => exact iff_of_true (faithfulStep_of_storeWide rfl (fun h => by cases h) fun _ => rfl) trivial

/-! ### Runs -/

theorem published_append (s : SessionStore) (pre post : List TimedOp) :
    s.published (pre ++ post) = s.published pre ++ (run step s pre).published post := by
  induction pre generalizing s with
  | nil => rfl
  | cons t pre ih =>
    rw [List.cons_append, published, ih, published, List.append_assoc]
    rfl

/-- A run announces as many responses as it records. -/
theorem countP_published (s : SessionStore) (ts : List TimedOp) (id : Str) :
    (s.published ts).countP (fun p => decide (p.1 = ⟨some id, .responseCaptured⟩)) =
      ts.countP fun t => t.op.responds id := by
  induction ts generalizing s with
  | nil => rfl
  | cons t ts ih =>
    have hchanges : ((s.changes t).map fun change => (change, s.step t)).countP
        (fun p => decide (p.1 = ⟨some id, .responseCaptured⟩)) = if t.op.responds id then 1 else 0 := by
      rw [List.countP_map]
      exact countP_changes s t id
    rw [published, List.countP_append, hchanges, ih, List.countP_cons, Nat.add_comm]

/-- A hook fires no more often than responses are recorded. -/
theorem countP_fires_le {ts : List TimedOp} {received : List Delivery} (h : s.Received ts received) (id : Str) :
    received.countP (Delivery.fires id) ≤ ts.countP fun t => t.op.responds id := by
  obtain ⟨sent, hsent, hreceived⟩ := h
  have hle : received.countP (Delivery.fires id) ≤
      sent.countP fun p => decide (p.1 = ⟨some id, .responseCaptured⟩) := by
    clear hsent
    induction hreceived with
    | nil => exact Nat.le_refl _
    | @cons delivery p received sent hdelivery _ ih =>
      rw [List.countP_cons, List.countP_cons]
      refine Nat.add_le_add ih ?_
      by_cases hp : p.1 = ⟨some id, .responseCaptured⟩
      · rw [if_pos (decide_eq_true hp)]
        split <;> omega
      · have hfires : delivery.fires id = false := by
          unfold Delivery.fires
          rw [hdelivery.1, decide_eq_false hp, Bool.false_and]
        rw [hfires]
        exact Nat.zero_le _
  rw [← countP_published s]
  exact hle.trans hsent.countP_le

/-- An exchange under the id has its response. -/
def Answered (id : Str) (s : SessionStore) : Prop :=
  ∀ exchange, s.exchanges.get? id = some exchange → exchange.response.isSome = true

theorem response_touch {exchange : Exchange} (h : exchange.response.isSome = true) (t : TimedOp) (id : Str) :
    (touch t id exchange).response.isSome = true := by
  obtain ⟨clock, op⟩ := t
  unfold touch
  cases op <;> dsimp only
  all_goals
    first
    | exact h
    | (split <;> first | exact h | rfl)

/-- An exchange keeps its response until it is requested again or brought in without one. -/
theorem answered_step (h : s.Answered id) (hrequests : t.op.requests id = false) (hreopens : ¬ t.op.Reopens id) :
    (s.step t).Answered id := by
  intro exchange hexchange
  rw [get?_step, Option.map_eq_some_iff] at hexchange
  obtain ⟨left, hleft, hcleared⟩ := hexchange
  have hanswered : left.response.isSome = true := by
    by_cases hinserts : t.op.Inserts id
    · obtain ⟨clock, op⟩ := t
      cases op with
      | recordRequest id' request source =>
        have hother : ¬ id' = id := of_decide_eq_false hrequests
        exact absurd hinserts hother
      | importSessions exchanges =>
        simp only [unbudgeted, step, processWriteOp, importAll, foldl_importOne_cap, enforceBodyBudget_unlimited]
          at hleft
        rcases mem_of_get?_foldl_importOne hleft with ⟨hmem, hid⟩ | hbefore
        · rw [Option.isSome_iff_ne_none]
          exact fun hnone => hreopens ⟨left, hmem, hid, hnone⟩
        · exact h left hbefore
      | loadData map =>
        simp only [unbudgeted, step, processWriteOp, replace, enforceBodyBudget_unlimited] at hleft
        rw [Option.isSome_iff_ne_none]
        exact fun hnone => hreopens ⟨left, hleft, hnone⟩
      | _ => exact hinserts.elim
    · obtain ⟨before, hbefore, rfl⟩ := get?_unbudgeted s t id hleft hinserts
      exact response_touch (h before hbefore) t id
  rw [← hcleared]
  split
  · simpa [clearExchangeBodies] using hanswered
  · exact hanswered

/-- Two inputs which meet a condition stand in a list one after the other. -/
private theorem exists_of_two_le_countP {α : Type} {p : α → Bool} {l : List α} (h : 2 ≤ l.countP p) :
    ∃ before first between second rest, l = before ++ first :: (between ++ second :: rest) ∧ p first = true ∧
      p second = true := by
  rw [List.countP_eq_length_filter] at h
  rcases hfilter : l.filter p with - | ⟨first, - | ⟨second, others⟩⟩
  · rw [hfilter] at h
    cases h
  · rw [hfilter] at h
    exact absurd h (Nat.not_succ_le_self 1)
  · have hfirst : first ∈ l.filter p := by simp [hfilter]
    have hsecond : second ∈ l.filter p := by simp [hfilter]
    have hsublist : (first :: second :: others).Sublist l := hfilter ▸ List.filter_sublist
    obtain ⟨l₁, l₂, rfl, hmem₁, hrest⟩ := List.cons_sublist_iff.1 hsublist
    obtain ⟨before, between₁, rfl⟩ := List.append_of_mem hmem₁
    obtain ⟨between₂, rest, rfl⟩ := List.append_of_mem (hrest.subset List.mem_cons_self)
    refine ⟨before, first, between₁ ++ between₂, second, rest, by simp, ?_, ?_⟩
    · exact (List.mem_filter.1 hfirst).2
    · exact (List.mem_filter.1 hsecond).2

theorem answered_run {ts : List TimedOp} (h : s.Answered id) (hrequests : ∀ t ∈ ts, t.op.requests id = false)
    (hreopens : ∀ t ∈ ts, ¬ t.op.Reopens id) : (run step s ts).Answered id := by
  induction ts generalizing s with
  | nil => exact h
  | cons t ts ih =>
    rw [List.forall_mem_cons] at hrequests hreopens
    exact ih (answered_step h hrequests.1 hreopens.1) hrequests.2 hreopens.2

theorem unanswered_of_announced (h : s.Announced t) (hresponds : t.op.responds id = true) :
    ∃ exchange, s.exchanges.get? id = some exchange ∧ exchange.response = none := by
  obtain ⟨clock, op⟩ := t
  cases op with
  | recordResponse id' response =>
    obtain rfl : id' = id := of_decide_eq_true hresponds
    exact h
  | recordResponseWithMetrics id' response metrics =>
    obtain rfl : id' = id := of_decide_eq_true hresponds
    exact h
  | _ => cases hresponds

/-- Between two responses under an id which both are stored, the exchange is requested or brought in anew. -/
theorem reopened_of_announced {first second : TimedOp} {between rest : List TimedOp}
    (h : EveryStep step Announced s (first :: (between ++ second :: rest))) (hfirst : first.op.responds id = true)
    (hsecond : second.op.responds id = true) (hrequests : ∀ t ∈ between, t.op.requests id = false) :
    ∃ t ∈ between, t.op.Reopens id := by
  by_contra hnone
  have hnone' : ∀ t ∈ between, ¬ t.op.Reopens id := fun t ht hreopens => hnone ⟨t, ht, hreopens⟩
  obtain ⟨hannounced, hlater⟩ := everyStep_cons.1 h
  -- the first response is stored, and stays until the second one comes
  obtain ⟨-, after, -, -, hafter, hstored⟩ := (storesResponse_iff hfirst).2 (unanswered_of_announced hannounced hfirst)
  have hanswered : (s.step first).Answered id := by
    intro exchange hexchange
    obtain rfl := Option.some.inj (hafter.symm.trans hexchange)
    exact hstored
  have hsecond' : (run step (s.step first) between).Announced second := hlater between second (by simp)
  obtain ⟨exchange, hexchange, hresponse⟩ := unanswered_of_announced hsecond' hsecond
  have hkept := answered_run hanswered hrequests hnone' exchange hexchange
  rw [hresponse] at hkept
  cases hkept

theorem fires_of_get? {hook : WebhookConfig} {exchange : Exchange} (henabled : hook.enabled = true)
    (hlistens : hook.events.contains .responseCaptured = true) (h : s.exchanges.get? id = some exchange) :
    Delivery.fires id ⟨⟨some id, .responseCaptured⟩, s, hook⟩ = true := by
  simp only [Delivery.fires, WebhookConfig.dispatch, webhookEvent, decide_true, Bool.true_and, Option.bind_eq_bind,
    Option.bind_some, h, henabled, hlistens, Bool.and_self, if_true, Option.isSome_some]

/-- A hook that listens fires for each of two responses which are stored. -/
theorem exists_received {first second : TimedOp} {before between : List TimedOp} (rest : List TimedOp)
    (hfirst : (run step s before).StoresResponse first id)
    (hsecond : (run step s (before ++ first :: between)).StoresResponse second id)
    (hfirst' : first.op.responds id = true) (hsecond' : second.op.responds id = true) :
    ∃ received, s.Received (before ++ first :: (between ++ second :: rest)) received ∧
      received.countP (Delivery.fires id) = 2 := by
  obtain ⟨-, after, -, -, hafter, -⟩ := hfirst
  obtain ⟨-, after', -, -, hafter', -⟩ := hsecond
  let hook : WebhookConfig := ⟨"h1", none, "http://hook.test/", [.responseCaptured], true, none⟩
  let change : SessionChange := ⟨some id, .responseCaptured⟩
  let s₁ := (run step s before).step first
  let s₂ := (run step s (before ++ first :: between)).step second
  refine ⟨[⟨change, s₁, hook⟩, ⟨change, s₂, hook⟩], ⟨[(change, s₁), (change, s₂)], ?_, ?_⟩, ?_⟩
  · have hmem : (change, s₁) ∈ ((run step s before).changes first).map fun change => (change, s₁) :=
      List.mem_map_of_mem (responseCaptured_mem_changes.2 hfirst')
    have hmem' : (change, s₂) ∈ ((run step s (before ++ first :: between)).changes second).map
        fun change => (change, s₂) :=
      List.mem_map_of_mem (responseCaptured_mem_changes.2 hsecond')
    have hrun : run step s (before ++ first :: between) = run step ((run step s before).step first) between := by
      rw [run_append, run_cons]
    rw [published_append, published, published_append, published, ← hrun]
    refine List.sublist_append_of_sublist_right ?_
    change ([_] ++ [_]).Sublist _
    refine List.Sublist.append (List.singleton_sublist.2 hmem) ?_
    refine List.sublist_append_of_sublist_right ?_
    exact List.sublist_append_of_sublist_left (List.singleton_sublist.2 hmem')
  · exact .cons ⟨rfl, [], rfl⟩ (.cons ⟨rfl, [], rfl⟩ .nil)
  · rw [List.countP_cons_of_pos (fires_of_get? rfl rfl hafter), List.countP_cons_of_pos (fires_of_get? rfl rfl hafter')]
    rfl

/-- A run is faithful exactly if responses are recorded for exchanges without one, inspector data are not changed, and
no exchange is brought in without a response between two responses under its id. -/
theorem faithful_iff (s : SessionStore) (ts : List TimedOp) :
    s.Faithful ts ↔ EveryStep step Announced s ts ∧ NotReopened ts := by
  have hsteps : EveryStep step FaithfulStep s ts ↔ EveryStep step Announced s ts :=
    everyStep_iff_of (I := fun _ => True) (fun s t _ => faithfulStep_iff s t) (fun _ _ _ _ => trivial) trivial ts
  constructor
  · intro h
    refine ⟨hsteps.1 h.steps, ?_⟩
    intro id pre mid post hts hbetween before first between reopening after second rest hmid hfirst hsecond _
    have hmid' : mid = before ++ first :: ((between ++ reopening :: after) ++ second :: rest) := by simp [hmid]
    have hstored : ∀ pre' t post', mid = pre' ++ t :: post' → t.op.responds id = true →
        (run step (run step s pre) pre').StoresResponse t id := by
      intro pre' t post' hsplit hresponds
      rw [← run_append]
      refine (h.steps (pre ++ pre') t ?_).stored id (responseCaptured_mem_changes.2 hresponds)
      exact ⟨post' ++ post, by simp [hts, hsplit]⟩
    have hsecond' := hstored (before ++ first :: (between ++ reopening :: after)) second rest (by simp [hmid']) hsecond
    obtain ⟨received, hreceived, htwo⟩ :=
      exists_received rest (hstored before first _ hmid' hfirst) hsecond' hfirst hsecond
    have hone := h.once id pre mid post hts hbetween received (hmid' ▸ hreceived)
    omega
  · rintro ⟨hannounced, hreopened⟩
    refine ⟨hsteps.2 hannounced, ?_⟩
    intro id pre mid post hts hbetween received hreceived
    by_contra htwice
    have hcount := countP_fires_le hreceived id
    obtain ⟨before, first, between, second, rest, hmid, hfirst, hsecond⟩ :=
      exists_of_two_le_countP (p := fun t : TimedOp => t.op.responds id) (l := mid) (by omega)
    have hfrom : EveryStep step Announced (run step s (pre ++ before)) (first :: (between ++ second :: rest)) := by
      intro pre' t hpre'
      rw [← run_append]
      refine hannounced (pre ++ before ++ pre') t ?_
      obtain ⟨tail, htail⟩ := hpre'
      exact ⟨tail ++ post, by simp [hts, hmid, ← htail]⟩
    obtain ⟨reopening, hmem, hreopens⟩ := reopened_of_announced hfrom hfirst hsecond fun t ht =>
      hbetween.inside t (by simp [hmid, ht])
    obtain ⟨between₁, between₂, rfl⟩ := List.append_of_mem hmem
    exact hreopened id pre mid post hts hbetween before first between₁ reopening between₂ second rest
      (by simp [hmid]) hfirst hsecond hreopens

/-- The store is cleared while the response of a request is on its way. -/
private def clearedMeanwhile : List TimedOp :=
  [⟨fun _ => 0, .recordRequest "s".toList RequestContext.default .proxy⟩, ⟨fun _ => 0, .clearSessions⟩,
    ⟨fun _ => 0, .recordResponse "s".toList ResponseContext.default⟩]

/-- The response of an exchange which was cleared is announced. -/
theorem not_faithful : ¬ ∀ (M B : Nat) (ts : List TimedOp), (empty M B).Faithful ts := by
  intro h
  have hlast := (h 10 1000 clearedMeanwhile).steps (clearedMeanwhile.take 2) _ (List.prefix_refl clearedMeanwhile)
  obtain ⟨before, -, hbefore, -⟩ := hlast.stored "s".toList (responseCaptured_mem_changes.2 (by decide))
  cases hbefore

end SessionStore

end Oproxy
