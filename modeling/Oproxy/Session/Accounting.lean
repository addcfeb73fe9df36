import Oproxy.Lib.Run
import Oproxy.Session.Store

/-!
# The byte counter of the session store

`bodyBytes` should be the number of bytes held by the exchanges in the map.  The counter may run ahead of that
number: an exchange which is overwritten by another one with its id leaves the map, but its bytes stay in the
counter.  `Drift` measures by how much the counter is ahead.  Every operation either keeps the drift, or adds the
bytes it overwrites, or (`ClearSessions`, `LoadData`) counts afresh.
-/

namespace Oproxy

open Machine

namespace SessionStore

/-- The bytes which the exchanges in the map hold. -/
def retained (s : SessionStore) : Nat := s.exchanges.total exchangeBodySize

/-- The counter is `d` bytes ahead of the map. -/
def Drift (d : Nat) (s : SessionStore) : Prop := s.bodyBytes = s.retained + d

/-- The counter is the number of bytes in the map. -/
def Accurate (s : SessionStore) : Prop := s.bodyBytes = s.retained

instance (s : SessionStore) : Decidable s.Accurate := inferInstanceAs (Decidable (_ = _))

/-- The bytes of the exchange stored under `id`. -/
def bytesAt (s : SessionStore) (id : Str) : Nat := s.exchanges.weightAt exchangeBodySize id

/-- The bytes which the turns of an import overwrite. -/
def importOverwrites (s : SessionStore) : List Exchange → Nat
  | [] => 0
  | exchange :: rest => s.bytesAt exchange.id + (s.importOne exchange).importOverwrites rest

/-- The bytes of stored exchanges which an operation overwrites. -/
def overwrites (s : SessionStore) : WriteOp → Nat
  | .recordRequest id _ _ => s.bytesAt id
  | .importSessions newExchanges => s.importOverwrites newExchanges
  | _ => 0

end SessionStore

/-- The operations which put the counter right whatever it was. -/
def WriteOp.recounts : WriteOp → Bool
  | clearSessions => true
  | loadData _ => true
  | _ => false

theorem accurate_iff_drift_zero {s : SessionStore} : s.Accurate ↔ s.Drift 0 := Iff.rfl

theorem accurate_iff_of_drift {s : SessionStore} {d : Nat} (h : s.Drift d) : s.Accurate ↔ d = 0 := by
  unfold SessionStore.Drift at h
  unfold SessionStore.Accurate
  omega

/-! ### Sizes of changed exchanges -/

@[simp] theorem exchangeBodySize_clearExchangeBodies (ex : Exchange) :
    exchangeBodySize (clearExchangeBodies ex) = 0 := by
  unfold exchangeBodySize clearExchangeBodies
  cases ex.response <;> simp [List.map_map, Function.comp_def]

theorem exchangeBodySize_recordedExchange (now : Timestamp) (id : Str) (request : RequestContext)
    (source : SessionSource) : exchangeBodySize (SessionStore.recordedExchange now id request source) =
      request.body.length := by
  simp [exchangeBodySize, SessionStore.recordedExchange]

theorem exchangeBodySize_withResponse (now : Timestamp) (response : ResponseContext)
    (metrics : Option InspectionMetrics) {exchange : Exchange} (h : exchange.response = none) :
    exchangeBodySize (SessionStore.withResponse now response metrics exchange) =
      exchangeBodySize exchange + response.body.length := by
  simp only [exchangeBodySize, SessionStore.withResponse, h, Option.map_some, Option.map_none, Option.getD_some,
    Option.getD_none]
  omega

/-- A frame is counted twice, as the exchange keeps it in both its lists. -/
theorem exchangeBodySize_withWsFrame (frame : WsFrame) (exchange : Exchange) :
    exchangeBodySize (SessionStore.withWsFrame frame exchange) =
      exchangeBodySize exchange + frame.retainedSize * 2 := by
  simp only [exchangeBodySize, SessionStore.withWsFrame, List.map_append, List.map_cons, List.map_nil,
    List.sum_append, List.sum_cons, List.sum_nil, SessionEvent.retainedBodySize]
  omega

theorem exchangeBodySize_withEvent (now : Timestamp) (event : SessionEvent) (exchange : Exchange) :
    exchangeBodySize (SessionStore.withEvent now event exchange) =
      exchangeBodySize exchange + event.retainedBodySize := by
  simp only [exchangeBodySize, SessionStore.withEvent, List.map_append, List.map_cons, List.map_nil,
    List.sum_append, List.sum_cons, List.sum_nil]
  omega

namespace SessionStore

/-! ### What each helper does to the drift -/

theorem drift_empty (maxSessions maxRetainedBodyBytes : Nat) : (empty maxSessions maxRetainedBodyBytes).Drift 0 :=
  rfl

theorem drift_enforceBodyBudget {s : SessionStore} {d : Nat} (h : s.Drift d) : s.enforceBodyBudget.Drift d := by
  unfold enforceBodyBudget
  split
  · have loop := IndexMap.valuesMut_induction exchangeBodySize
      (fun bodyBytes passed ahead => bodyBytes = passed + ahead + d)
      (f := enforceBudgetTurn s.maxRetainedBodyBytes) (m := s.exchanges) (s := s.bodyBytes)
      (by
        intro bodyBytes ex passed ahead hb
        unfold enforceBudgetTurn
        split
        · show bodyBytes = passed + exchangeBodySize ex + ahead + d
          omega
        · split
          · show bodyBytes = passed + exchangeBodySize ex + ahead + d
            omega
          · show bodyBytes - exchangeBodySize ex = passed + exchangeBodySize (clearExchangeBodies ex) + ahead + d
            rw [exchangeBodySize_clearExchangeBodies]
            omega)
      (by rw [Nat.zero_add]; exact h)
    exact loop
  · exact h

theorem drift_evictSessionIfFull {s : SessionStore} {d : Nat} (h : s.Drift d) (incomingId : Str) :
    (s.evictSessionIfFull incomingId).Drift d := by
  unfold evictSessionIfFull
  split
  · cases hm : s.exchanges.shiftRemoveFirst with
    | mk first rest =>
      cases first with
      | none => exact h
      | some e =>
        have hpos : 0 < s.exchanges.len := IndexMap.len_pos_of_shiftRemoveFirst (by rw [hm])
        obtain ⟨e', he', -, htotal, -⟩ := IndexMap.shiftRemoveFirst_of_pos hpos
        rw [hm] at he' htotal
        cases he'
        have := htotal exchangeBodySize
        unfold Drift retained at h ⊢
        show s.bodyBytes - exchangeBodySize e.2 = rest.total exchangeBodySize + d
        dsimp only at this
        omega
  · exact h

/-- Eviction never removes the exchange that is about to be overwritten. -/
theorem bytesAt_evictSessionIfFull (s : SessionStore) (id : Str) :
    (s.evictSessionIfFull id).bytesAt id = s.bytesAt id := by
  unfold evictSessionIfFull
  split
  · rename_i hfull
    have hid : s.exchanges.get? id = none := IndexMap.get?_eq_none.2 hfull.2
    cases hm : s.exchanges.shiftRemoveFirst with
    | mk first rest =>
      cases first with
      | none => rfl
      | some e =>
        have hpos : 0 < s.exchanges.len := IndexMap.len_pos_of_shiftRemoveFirst (by rw [hm])
        obtain ⟨e', -, -, -, hkeys⟩ := IndexMap.shiftRemoveFirst_of_pos hpos
        rw [hm] at hkeys
        have hrest : rest.get? id = none := by
          rw [IndexMap.get?_eq_none, Bool.eq_false_iff]
          intro hc
          have hmem : id ∈ s.exchanges.keys := by
            rw [hkeys]
            exact List.mem_cons_of_mem _ (IndexMap.contains_iff.1 hc)
          rw [← IndexMap.contains_iff, hfull.2] at hmem
          cases hmem
        simp [bytesAt, IndexMap.weightAt, hid, hrest]
  · rfl

/-- Insertion of an exchange whose bytes are added to the counter. -/
theorem drift_insert {s : SessionStore} {d : Nat} (h : s.Drift d) (id : Str) (exchange : Exchange) :
    { s with
      bodyBytes := s.bodyBytes + exchangeBodySize exchange
      exchanges := s.exchanges.insert id exchange }.Drift (d + s.bytesAt id) := by
  have := IndexMap.total_insert exchangeBodySize s.exchanges id exchange
  unfold Drift retained bytesAt at *
  dsimp only
  omega

/-- A change of a stored exchange whose growth is added to the counter. -/
theorem drift_modify {s : SessionStore} {d : Nat} (h : s.Drift d) {id : Str} {exchange : Exchange}
    (hid : s.exchanges.get? id = some exchange) {f : Exchange → Exchange} {added : Nat}
    (hf : exchangeBodySize (f exchange) = exchangeBodySize exchange + added) :
    { s with
      exchanges := s.exchanges.modify id f
      bodyBytes := s.bodyBytes + added }.Drift d := by
  have := IndexMap.total_modify exchangeBodySize f hid
  unfold Drift retained at *
  dsimp only
  omega

/-! ### What each operation does

An operation takes the store to one with drift `d` in one of two ways: by enforcing the budget as its last act, or
by a change after which the map holds no more bytes than before. -/

def Settles (s : SessionStore) (d : Nat) (s' : SessionStore) : Prop :=
  (∃ s₀ : SessionStore, s₀.Drift d ∧ s' = s₀.enforceBodyBudget) ∨ (s'.Drift d ∧ s'.retained ≤ s.retained)

theorem Settles.enforced {s s₀ : SessionStore} {d : Nat} (h : s₀.Drift d) : s.Settles d s₀.enforceBodyBudget :=
  Or.inl ⟨s₀, h, rfl⟩

theorem Settles.unchanged {s : SessionStore} {d : Nat} (h : s.Drift d) : s.Settles d s := Or.inr ⟨h, le_refl _⟩

theorem Settles.drift {s s' : SessionStore} {d : Nat} (h : s.Settles d s') : s'.Drift d := by
  rcases h with ⟨s₀, h₀, rfl⟩ | ⟨h, -⟩
  · exact drift_enforceBodyBudget h₀
  · exact h

/-- A change which touches no body. -/
theorem settles_modify_of_eq {s : SessionStore} {d : Nat} (h : s.Drift d) (id : Str) {f : Exchange → Exchange}
    (hf : ∀ exchange, exchangeBodySize (f exchange) = exchangeBodySize exchange) :
    s.Settles d { s with exchanges := s.exchanges.modify id f } := by
  have same : (s.exchanges.modify id f).total exchangeBodySize = s.exchanges.total exchangeBodySize :=
    IndexMap.total_modify_of_eq exchangeBodySize s.exchanges id hf
  refine Or.inr ?_
  constructor
  · show s.bodyBytes = (s.exchanges.modify id f).total exchangeBodySize + d
    rw [same]
    exact h
  · exact le_of_eq same

theorem settles_recordRequest {s : SessionStore} {d : Nat} (h : s.Drift d) (now : Timestamp) (id : Str)
    (request : RequestContext) (source : SessionSource) :
    s.Settles (d + s.bytesAt id) (s.recordRequest now id request source) := by
  have hinsert := drift_insert (drift_evictSessionIfFull h id) id (recordedExchange now id request source)
  rw [bytesAt_evictSessionIfFull, exchangeBodySize_recordedExchange] at hinsert
  exact .enforced hinsert

theorem settles_recordResponse {s : SessionStore} {d : Nat} (h : s.Drift d) (now : Timestamp) (id : Str)
    (response : ResponseContext) (metrics : Option InspectionMetrics) :
    s.Settles d (s.recordResponse now id response metrics) := by
  unfold recordResponse
  cases hid : s.exchanges.get? id with
  | none => exact .enforced h
  | some exchange =>
    cases hresponse : exchange.response with
    | some _ => simpa [hresponse] using Settles.unchanged h
    | none =>
      simp only [hresponse, Option.isSome_none, Bool.false_eq_true, if_false]
      apply Settles.enforced
      exact drift_modify h hid (exchangeBodySize_withResponse now response metrics hresponse)

theorem settles_appendWsFrame {s : SessionStore} {d : Nat} (h : s.Drift d) (id : Str) (frame : WsFrame) :
    s.Settles d (s.appendWsFrame id frame) := by
  unfold appendWsFrame
  cases hid : s.exchanges.get? id with
  | none => exact .enforced h
  | some exchange => exact .enforced (drift_modify h hid (exchangeBodySize_withWsFrame frame exchange))

theorem settles_appendEvent {s : SessionStore} {d : Nat} (h : s.Drift d) (now : Timestamp) (id : Str)
    (event : SessionEvent) : s.Settles d (s.appendEvent now id event) := by
  unfold appendEvent
  cases hid : s.exchanges.get? id with
  | none => exact .enforced h
  | some exchange => exact .enforced (drift_modify h hid (exchangeBodySize_withEvent now event exchange))

theorem settles_annotate {s : SessionStore} {d : Nat} (h : s.Drift d) (now : Timestamp) (id : Str)
    (note : Option Str) (tags : Option (List Str)) : s.Settles d (s.annotate now id note tags).1 := by
  unfold annotate
  split
  · exact settles_modify_of_eq h id fun _ => rfl
  · exact .unchanged h

theorem drift_importOne {s : SessionStore} {d : Nat} (h : s.Drift d) (exchange : Exchange) :
    (s.importOne exchange).Drift (d + s.bytesAt exchange.id) := by
  have hinsert := drift_insert (drift_evictSessionIfFull h exchange.id) exchange.id exchange
  rw [bytesAt_evictSessionIfFull] at hinsert
  exact hinsert

theorem drift_foldl_importOne {s : SessionStore} {d : Nat} (h : s.Drift d) (newExchanges : List Exchange) :
    (newExchanges.foldl importOne s).Drift (d + s.importOverwrites newExchanges) := by
  induction newExchanges generalizing s d with
  | nil => exact h
  | cons exchange rest ih =>
    have hrest := ih (drift_importOne h exchange)
    rw [Nat.add_assoc] at hrest
    exact hrest

theorem settles_importAll {s : SessionStore} {d : Nat} (h : s.Drift d) (newExchanges : List Exchange) :
    s.Settles (d + s.importOverwrites newExchanges) (s.importAll newExchanges) :=
  .enforced (drift_foldl_importOne h newExchanges)

theorem settles_clear (s : SessionStore) : s.Settles 0 s.clear := Or.inr ⟨rfl, Nat.zero_le _⟩

theorem settles_replace (s : SessionStore) (map : IndexMap Str Exchange) : s.Settles 0 (s.replace map) :=
  @Settles.enforced s { s with exchanges := map, bodyBytes := map.total exchangeBodySize } 0 rfl

/-- The step lemma. -/
theorem settles_step {s : SessionStore} {d : Nat} (h : s.Drift d) (t : TimedOp) :
    s.Settles (if t.op.recounts then 0 else d + s.overwrites t.op) (s.step t) := by
  obtain ⟨clock, op⟩ := t
  cases op with
  | recordRequest id request source => exact settles_recordRequest h _ id request source
  | recordResponse id response => exact settles_recordResponse h _ id response none
  | recordResponseWithMetrics id response metrics => exact settles_recordResponse h _ id response (some metrics)
  | appendWsFrame id frame => exact settles_appendWsFrame h id frame
  | appendEvent id event => exact settles_appendEvent h _ id event
  | annotate id note tags => exact settles_annotate h _ id note tags
  | importSessions newExchanges => exact settles_importAll h newExchanges
  | clearSessions => exact settles_clear s
  | updateInspectorData id data => exact settles_modify_of_eq h id fun _ => rfl
  | markPaused id => exact settles_modify_of_eq h id fun _ => rfl
  | clearPaused id => exact settles_modify_of_eq h id fun _ => rfl
  | loadData map => exact settles_replace s map
  | flush => exact .unchanged h

/-- The counter is never behind the map. -/
theorem exists_drift_run (maxSessions maxRetainedBodyBytes : Nat) (ops : List TimedOp) :
    EveryState step (fun s => ∃ d, s.Drift d) (empty maxSessions maxRetainedBodyBytes) ops :=
  everyState_of_step (fun _ t ⟨_, h⟩ => ⟨_, (settles_step h t).drift⟩) ⟨0, drift_empty _ _⟩ ops

theorem overwrites_of_recounts {s : SessionStore} {op : WriteOp} (h : op.recounts = true) : s.overwrites op = 0 := by
  cases op <;> first | rfl | cases h

theorem accurate_step {s : SessionStore} (h : s.Accurate) (t : TimedOp) :
    (s.step t).Accurate ↔ s.overwrites t.op = 0 := by
  rw [accurate_iff_of_drift (settles_step (accurate_iff_drift_zero.1 h) t).drift]
  split
  · rename_i hr
    simp [overwrites_of_recounts hr]
  · rw [Nat.zero_add]

/-- The counter is right in every state of a run exactly when no operation of the run overwrites a stored exchange
which holds bytes. -/
theorem accurate_run_iff (maxSessions maxRetainedBodyBytes : Nat) (ops : List TimedOp) :
    EveryState step Accurate (empty maxSessions maxRetainedBodyBytes) ops ↔
      EveryStep step (fun s t => s.overwrites t.op = 0) (empty maxSessions maxRetainedBodyBytes) ops :=
  everyState_iff_everyStep (P := Accurate) (I := fun _ => True) (fun _ _ _ => trivial)
    (fun _ t _ h => accurate_step h t) trivial (drift_empty maxSessions maxRetainedBodyBytes) ops

/-- A request with a one-byte body, recorded twice under the id `s`, is held once and counted twice. -/
theorem not_accurate_run :
    ¬ EveryState step Accurate (empty 10 1000) (List.replicate 2
      ⟨fun _ => 0, .recordRequest ("s" : Str) { RequestContext.default with body := [120] } .proxy⟩) := by
  intro h
  have hlast : Accurate _ := h.last
  revert hlast
  decide

end SessionStore

end Oproxy
