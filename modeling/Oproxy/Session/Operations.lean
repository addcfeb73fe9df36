import Oproxy.Session.Bounds
import Oproxy.Session.Budget

/-!
# What an operation does to the exchange of an id

An operation first does its own part: it changes the exchange of one id, or puts exchanges in, for which the oldest
may be thrown out.  The operations that add bytes then enforce the budget.
-/

namespace Oproxy

/-- An operation puts an exchange in under an id. -/
def WriteOp.Inserts (id : Str) : WriteOp → Prop
  | recordRequest id' _ _ => id' = id
  | importSessions exchanges => id ∈ exchanges.map Exchange.id
  | loadData map => map.contains id = true
  | _ => False

namespace SessionStore

/-- What an operation leaves before the budget is enforced. -/
def unbudgeted (s : SessionStore) (t : TimedOp) : SessionStore :=
  { { s with maxRetainedBodyBytes := usizeMax }.step t with maxRetainedBodyBytes := s.maxRetainedBodyBytes }

/-- An operation enforces the budget as its last act. -/
def enforces (s : SessionStore) : WriteOp → Bool
  | .recordRequest _ _ _ | .appendWsFrame _ _ | .appendEvent _ _ | .importSessions _ | .loadData _ => true
  | .recordResponse id _ | .recordResponseWithMetrics id _ _ => ((s.exchanges.get? id).bind Exchange.response).isNone
  | _ => false

variable (s : SessionStore) (t : TimedOp) (id : Str)

/-- What an operation makes of a stored exchange which it does not overwrite. -/
def touch (t : TimedOp) (id : Str) (exchange : Exchange) : Exchange :=
  match t.op with
  | .recordResponse id' response =>
    if id = id' ∧ exchange.response = none then withResponse (t.clock 0) response none exchange else exchange
  | .recordResponseWithMetrics id' response metrics =>
    if id = id' ∧ exchange.response = none then withResponse (t.clock 0) response (some metrics) exchange else exchange
  | .appendWsFrame id' frame => if id = id' then withWsFrame frame exchange else exchange
  | .appendEvent id' event => if id = id' then withEvent (t.clock 0) event exchange else exchange
  | .annotate id' note tags => if id = id' then annotated (t.clock 0) note tags exchange else exchange
  | .updateInspectorData id' data => if id = id' then { exchange with inspectorData := some data } else exchange
  | .markPaused id' =>
    if id = id' then { exchange with pausedAt := some (t.clock 0), updatedAt := some (t.clock 1) } else exchange
  | .clearPaused id' => if id = id' then { exchange with pausedAt := none, updatedAt := some (t.clock 0) } else exchange
  | _ => exchange

/-- Without a cap there is nothing to enforce. -/
theorem enforceBodyBudget_unlimited (exchanges : IndexMap Str Exchange) (maxSessions bodyBytes : Nat) :
    enforceBodyBudget ⟨exchanges, maxSessions, usizeMax, bodyBytes⟩ =
      ⟨exchanges, maxSessions, usizeMax, bodyBytes⟩ := by
  unfold enforceBodyBudget
  rw [if_neg]
  rintro ⟨hfinite, -⟩
  exact hfinite rfl

theorem evictSessionIfFull_cap (s : SessionStore) (id : Str) (cap : Nat) :
    { s with maxRetainedBodyBytes := cap }.evictSessionIfFull id =
      { s.evictSessionIfFull id with maxRetainedBodyBytes := cap } := by
  unfold evictSessionIfFull
  dsimp only
  split
  · split <;> rfl
  · rfl

theorem foldl_importOne_cap (exchanges : List Exchange) (s : SessionStore) (cap : Nat) :
    exchanges.foldl importOne { s with maxRetainedBodyBytes := cap } =
      { exchanges.foldl importOne s with maxRetainedBodyBytes := cap } := by
  induction exchanges generalizing s with
  | nil => rfl
  | cons exchange rest ih =>
    have hone : { s with maxRetainedBodyBytes := cap }.importOne exchange =
        { s.importOne exchange with maxRetainedBodyBytes := cap } := by
      unfold importOne
      rw [evictSessionIfFull_cap]
    rw [List.foldl_cons, List.foldl_cons, hone, ih]

/-- An operation is what it does without a budget, and the enforcement of the budget. -/
theorem step_eq_unbudgeted :
    s.step t = if s.enforces t.op then (s.unbudgeted t).enforceBodyBudget else s.unbudgeted t := by
  obtain ⟨clock, op⟩ := t
  have hresponse : ∀ id response metrics,
      s.recordResponse (clock 0) id response metrics =
        if ((s.exchanges.get? id).bind Exchange.response).isNone then
          SessionStore.enforceBodyBudget
            { { s with maxRetainedBodyBytes := usizeMax }.recordResponse (clock 0) id response metrics with
              maxRetainedBodyBytes := s.maxRetainedBodyBytes }
        else
          { { s with maxRetainedBodyBytes := usizeMax }.recordResponse (clock 0) id response metrics with
            maxRetainedBodyBytes := s.maxRetainedBodyBytes } := by
    intro id response metrics
    unfold recordResponse
    dsimp only
    cases hid : s.exchanges.get? id with
    | none =>
      rw [enforceBodyBudget_unlimited]
      rfl
    | some exchange =>
      cases hanswered : exchange.response with
      | none => simp [hanswered, enforceBodyBudget_unlimited]
      | some _ => simp [hanswered]
  cases op with
  | recordRequest id request source =>
    simp only [enforces, if_true, unbudgeted, step, processWriteOp, recordRequest, evictSessionIfFull_cap,
      enforceBodyBudget_unlimited]
    rw [← (caps_evictSessionIfFull s id).2]
  | recordResponse id response => exact hresponse id response none
  | recordResponseWithMetrics id response metrics => exact hresponse id response (some metrics)
  | appendWsFrame id frame =>
    simp only [enforces, if_true, unbudgeted, step, processWriteOp, appendWsFrame]
    split <;> rw [enforceBodyBudget_unlimited]
  | appendEvent id event =>
    simp only [enforces, if_true, unbudgeted, step, processWriteOp, appendEvent]
    split <;> rw [enforceBodyBudget_unlimited]
  | annotate id note tags =>
    simp only [enforces, unbudgeted, step, processWriteOp, annotate]
    split <;> rfl
  | importSessions exchanges =>
    simp only [enforces, if_true, unbudgeted, step, processWriteOp, importAll, foldl_importOne_cap,
      enforceBodyBudget_unlimited]
    rw [← (caps_foldl_importOne s exchanges).2]
  | clearSessions => rfl
  | updateInspectorData id data => rfl
  | markPaused id => rfl
  | clearPaused id => rfl
  | loadData map =>
    simp only [enforces, if_true, unbudgeted, step, processWriteOp, replace, enforceBodyBudget_unlimited]
  | flush => rfl

/-- The exchange of an id after an operation is the one before the enforcement of the budget, with or without its
bodies. -/
theorem get?_step (id : Str) : (s.step t).exchanges.get? id =
    ((s.unbudgeted t).exchanges.get? id).map fun exchange =>
      if s.enforces t.op = true ∧ (s.unbudgeted t).Sweeps id exchange then clearExchangeBodies exchange
      else exchange := by
  rw [step_eq_unbudgeted]
  by_cases henforces : s.enforces t.op = true
  · simp only [henforces, if_true, get?_enforceBodyBudget, true_and]
  · simp [henforces]

theorem get?_evictSessionIfFull {s : SessionStore} {incomingId id : Str} {exchange : Exchange}
    (h : (s.evictSessionIfFull incomingId).exchanges.get? id = some exchange) :
    s.exchanges.get? id = some exchange := by
  unfold evictSessionIfFull at h
  split at h
  · have hrest : ∀ rest, s.exchanges.shiftRemoveFirst.2 = rest → rest.get? id = some exchange →
        s.exchanges.get? id = some exchange := by
      rintro rest rfl hrest
      exact IndexMap.get?_of_shiftRemoveFirst hrest
    split at h
    · rename_i first rest heq
      exact hrest _ (by rw [heq]) h
    · exact h
  · exact h

theorem get?_foldl_importOne {exchanges : List Exchange} {s : SessionStore} {id : Str} {exchange : Exchange}
    (h : (exchanges.foldl importOne s).exchanges.get? id = some exchange) (hid : id ∉ exchanges.map Exchange.id) :
    s.exchanges.get? id = some exchange := by
  induction exchanges generalizing s with
  | nil => exact h
  | cons first rest ih =>
    rw [List.map_cons, List.mem_cons, not_or] at hid
    have hone := ih h hid.2
    unfold importOne at hone
    dsimp only at hone
    rw [IndexMap.get?_insert, if_neg (Ne.symm hid.1)] at hone
    exact get?_evictSessionIfFull hone

/-- Which operations neither put exchanges in nor throw any out. -/
def keepsIds : WriteOp → Bool
  | .recordRequest _ _ _ | .importSessions _ | .loadData _ | .clearSessions => false
  | _ => true

private theorem get?_recordResponse_unlimited (now : Timestamp) (id' : Str) (response : ResponseContext)
    (metrics : Option InspectionMetrics) :
    ({ s with maxRetainedBodyBytes := usizeMax }.recordResponse now id' response metrics).exchanges.get? id =
      (s.exchanges.get? id).map fun exchange =>
        if id = id' ∧ exchange.response = none then withResponse now response metrics exchange else exchange := by
  unfold recordResponse
  dsimp only
  cases hid : s.exchanges.get? id' with
  | none =>
    dsimp only
    rw [enforceBodyBudget_unlimited]
    by_cases heq : id = id'
    · rw [heq, hid]
      rfl
    · simp [heq]
  | some stored =>
    cases hanswered : stored.response with
    | none =>
      simp only [hanswered, Option.isSome_none, Bool.false_eq_true, if_false, enforceBodyBudget_unlimited]
      rw [IndexMap.get?_modify]
      by_cases heq : id = id'
      · rw [heq, hid]
        simp [hanswered]
      · simp [heq]
    | some answer =>
      simp only [hanswered, Option.isSome_some, if_true]
      by_cases heq : id = id'
      · rw [heq, hid]
        simp [hanswered]
      · simp [heq]

theorem get?_unbudgeted_of_keepsIds (h : keepsIds t.op = true) :
    (s.unbudgeted t).exchanges.get? id = (s.exchanges.get? id).map (touch t id) := by
  obtain ⟨clock, op⟩ := t
  have hmodify : ∀ (id' : Str) (f : Exchange → Exchange), s.exchanges.get? id' = none →
      s.exchanges.get? id = (s.exchanges.get? id).map fun exchange => if id = id' then f exchange else exchange := by
    intro id' f hnone
    by_cases heq : id = id'
    · rw [heq, hnone]
      rfl
    · simp [heq]
  cases op with
  | recordRequest id' request source => cases h
  | importSessions exchanges => cases h
  | loadData map => cases h
  | clearSessions => cases h
  | recordResponse id' response => exact get?_recordResponse_unlimited s id _ id' response none
  | recordResponseWithMetrics id' response metrics =>
    exact get?_recordResponse_unlimited s id _ id' response (some metrics)
  | appendWsFrame id' frame =>
    simp only [unbudgeted, step, processWriteOp, appendWsFrame]
    split
    · rw [enforceBodyBudget_unlimited, IndexMap.get?_modify]
      rfl
    · rename_i hnone
      rw [enforceBodyBudget_unlimited]
      exact hmodify id' _ hnone
  | appendEvent id' event =>
    simp only [unbudgeted, step, processWriteOp, appendEvent]
    split
    · rw [enforceBodyBudget_unlimited, IndexMap.get?_modify]
      rfl
    · rename_i hnone
      rw [enforceBodyBudget_unlimited]
      exact hmodify id' _ hnone
  | annotate id' note tags =>
    simp only [unbudgeted, step, processWriteOp, annotate]
    split
    · dsimp only
      rw [IndexMap.get?_modify]
      rfl
    · rename_i habsent
      exact hmodify id' _ (IndexMap.get?_eq_none.2 (by simpa using habsent))
  | updateInspectorData id' data => exact IndexMap.get?_modify _ _ _ _
  | markPaused id' => exact IndexMap.get?_modify _ _ _ _
  | clearPaused id' => exact IndexMap.get?_modify _ _ _ _
  | flush =>
    show s.exchanges.get? id = (s.exchanges.get? id).map fun exchange => exchange
    simp

/-- What is under an id which an operation does not put in was there before. -/
theorem get?_unbudgeted {exchange : Exchange} (h : (s.unbudgeted t).exchanges.get? id = some exchange)
    (hinserts : ¬ t.op.Inserts id) : ∃ before, s.exchanges.get? id = some before ∧ exchange = touch t id before := by
  by_cases hkeeps : keepsIds t.op = true
  · rw [get?_unbudgeted_of_keepsIds s t id hkeeps, Option.map_eq_some_iff] at h
    obtain ⟨before, hbefore, rfl⟩ := h
    exact ⟨before, hbefore, rfl⟩
  · obtain ⟨clock, op⟩ := t
    cases op with
    | recordRequest id' request source =>
      refine ⟨exchange, ?_, rfl⟩
      simp only [unbudgeted, step, processWriteOp, recordRequest, evictSessionIfFull_cap,
        enforceBodyBudget_unlimited] at h
      rw [IndexMap.get?_insert, if_neg (show ¬ id' = id from hinserts)] at h
      exact get?_evictSessionIfFull h
    | importSessions exchanges =>
      refine ⟨exchange, ?_, rfl⟩
      simp only [unbudgeted, step, processWriteOp, importAll, foldl_importOne_cap, enforceBodyBudget_unlimited] at h
      exact get?_foldl_importOne h hinserts
    | loadData map =>
      simp only [unbudgeted, step, processWriteOp, replace, enforceBodyBudget_unlimited] at h
      have hin : map.contains id = true := by
        unfold IndexMap.contains
        rw [h]
        rfl
      exact absurd hin hinserts
    | clearSessions => cases h
    | _ => exact absurd rfl hkeeps

variable {s t} {exchange : Exchange}

theorem get?_step_of_unbudgeted (h : (s.unbudgeted t).exchanges.get? id = some exchange) :
    ∃ after, (s.step t).exchanges.get? id = some after ∧ (after = exchange ∨ after = clearExchangeBodies exchange) := by
  rw [get?_step, h]
  refine ⟨_, rfl, ?_⟩
  dsimp only
  split
  · exact Or.inr rfl
  · exact Or.inl rfl

end SessionStore

end Oproxy
