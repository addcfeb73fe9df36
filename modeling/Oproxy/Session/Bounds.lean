import Oproxy.Session.Accounting

/-!
# The two caps of the session store

A store has room for `maxSessions` exchanges and for `maxRetainedBodyBytes` bytes of bodies.  The byte cap is
enforced against the counter; as the counter is never behind the map, it holds of the map in every state.  The
count is enforced where single exchanges are inserted, and not where `LoadData` puts a whole map in place.
-/

namespace Oproxy

open Machine

/-- A loaded map has room in a store for `maxSessions` exchanges.  No other operation is restricted. -/
def WriteOp.fits (maxSessions : Nat) : WriteOp → Prop
  | loadData map => map.len ≤ maxSessions
  | _ => True

namespace SessionStore

/-- The count and the bytes of the exchanges in the map are within the caps. -/
def WithinBounds (s : SessionStore) : Prop :=
  s.exchanges.len ≤ s.maxSessions ∧ s.retained ≤ s.maxRetainedBodyBytes

instance (s : SessionStore) : Decidable s.WithinBounds := inferInstanceAs (Decidable (_ ∧ _))

/-- What every run keeps: the caps it started with, and a counter which is not behind the map. -/
structure Sane (maxSessions maxRetainedBodyBytes : Nat) (s : SessionStore) : Prop where
  sessions_eq : s.maxSessions = maxSessions
  bytes_eq : s.maxRetainedBodyBytes = maxRetainedBodyBytes
  drift : ∃ d, s.Drift d

/-! ### The caps are constants of the store -/

@[simp] theorem caps_enforceBodyBudget (s : SessionStore) :
    s.enforceBodyBudget.maxSessions = s.maxSessions ∧
      s.enforceBodyBudget.maxRetainedBodyBytes = s.maxRetainedBodyBytes := by
  unfold enforceBodyBudget
  split <;> exact ⟨rfl, rfl⟩

@[simp] theorem caps_evictSessionIfFull (s : SessionStore) (incomingId : Str) :
    (s.evictSessionIfFull incomingId).maxSessions = s.maxSessions ∧
      (s.evictSessionIfFull incomingId).maxRetainedBodyBytes = s.maxRetainedBodyBytes := by
  unfold evictSessionIfFull
  split
  · split <;> exact ⟨rfl, rfl⟩
  · exact ⟨rfl, rfl⟩

theorem caps_foldl_importOne (s : SessionStore) (newExchanges : List Exchange) :
    (newExchanges.foldl importOne s).maxSessions = s.maxSessions ∧
      (newExchanges.foldl importOne s).maxRetainedBodyBytes = s.maxRetainedBodyBytes := by
  induction newExchanges generalizing s with
  | nil => exact ⟨rfl, rfl⟩
  | cons exchange rest ih =>
    rw [List.foldl_cons, (ih _).1, (ih _).2]
    simp [importOne]

theorem caps_step (s : SessionStore) (t : TimedOp) :
    (s.step t).maxSessions = s.maxSessions ∧ (s.step t).maxRetainedBodyBytes = s.maxRetainedBodyBytes := by
  obtain ⟨clock, op⟩ := t
  have response : ∀ now id response metrics,
      (s.recordResponse now id response metrics).maxSessions = s.maxSessions ∧
        (s.recordResponse now id response metrics).maxRetainedBodyBytes = s.maxRetainedBodyBytes := by
    intro now id response metrics
    unfold recordResponse
    split
    · split <;> simp
    · simp
  cases op with
  | recordRequest id request source => simp [step, processWriteOp, recordRequest]
  | recordResponse id r => exact response _ id r none
  | recordResponseWithMetrics id r metrics => exact response _ id r (some metrics)
  | appendWsFrame id frame => simp only [step, processWriteOp, appendWsFrame]; split <;> simp
  | appendEvent id event => simp only [step, processWriteOp, appendEvent]; split <;> simp
  | annotate id note tags => simp only [step, processWriteOp, annotate]; split <;> exact ⟨rfl, rfl⟩
  | importSessions newExchanges => simp [step, processWriteOp, importAll, caps_foldl_importOne]
  | clearSessions => exact ⟨rfl, rfl⟩
  | updateInspectorData id data => exact ⟨rfl, rfl⟩
  | markPaused id => exact ⟨rfl, rfl⟩
  | clearPaused id => exact ⟨rfl, rfl⟩
  | loadData map => simp [step, processWriteOp, replace]
  | flush => exact ⟨rfl, rfl⟩

theorem sane_step {M B : Nat} {s : SessionStore} (h : s.Sane M B) (t : TimedOp) : (s.step t).Sane M B where
  sessions_eq := (caps_step s t).1.trans h.sessions_eq
  bytes_eq := (caps_step s t).2.trans h.bytes_eq
  drift := h.drift.elim fun _ hd => ⟨_, (settles_step hd t).drift⟩

theorem sane_empty (M B : Nat) : (empty M B).Sane M B := ⟨rfl, rfl, 0, drift_empty M B⟩

/-! ### The byte cap -/

/-- Enforcement brings the bytes in the map under the cap, whatever the drift of the counter. -/
theorem retained_enforceBodyBudget {s : SessionStore} {d : Nat} (h : s.Drift d)
    (hfinite : s.maxRetainedBodyBytes ≠ usizeMax) : s.enforceBodyBudget.retained ≤ s.maxRetainedBodyBytes := by
  unfold Drift at h
  unfold enforceBodyBudget
  split
  · -- the loop empties every exchange it passes until the counter is under the cap
    have loop := IndexMap.valuesMut_induction exchangeBodySize
      (fun bodyBytes passed ahead =>
        passed + ahead ≤ bodyBytes ∧ (bodyBytes ≤ s.maxRetainedBodyBytes ∨ passed = 0))
      (f := enforceBudgetTurn s.maxRetainedBodyBytes) (m := s.exchanges) (s := s.bodyBytes)
      (by
        intro bodyBytes ex passed ahead hb
        unfold enforceBudgetTurn
        split
        · dsimp only
          omega
        · split
          · dsimp only
            omega
          · dsimp only
            rw [exchangeBodySize_clearExchangeBodies]
            omega)
      (by
        have : s.exchanges.total exchangeBodySize ≤ s.bodyBytes := by unfold retained at h; omega
        omega)
    rcases loop with ⟨hle, hcap | hempty⟩
    · exact le_trans hle hcap
    · have : (enforceBudget s.exchanges s.maxRetainedBodyBytes s.bodyBytes).1.total exchangeBodySize = 0 := hempty
      unfold retained
      dsimp only
      omega
  · omega

theorem retained_step {M B : Nat} {s : SessionStore} (hs : s.Sane M B) (hB : B ≠ usizeMax) (hcap : s.retained ≤ B)
    (t : TimedOp) : (s.step t).retained ≤ B := by
  obtain ⟨d, hd⟩ := hs.drift
  have hcaps := (sane_step hs t).bytes_eq
  rcases settles_step hd t with ⟨s₀, h₀, heq⟩ | ⟨-, hle⟩
  · rw [heq] at hcaps ⊢
    rw [(caps_enforceBodyBudget s₀).2] at hcaps
    rw [← hcaps]
    exact retained_enforceBodyBudget h₀ (by rw [hcaps]; exact hB)
  · exact le_trans hle hcap

/-- The byte cap holds in every state of every run. -/
theorem retained_run (M : Nat) {B : Nat} (hB : B ≠ usizeMax) (ops : List TimedOp) :
    EveryState step (fun s => s.retained ≤ B) (empty M B) ops := by
  have both : EveryState step (fun s => s.Sane M B ∧ s.retained ≤ B) (empty M B) ops :=
    everyState_of_step (fun _ t ⟨hs, hcap⟩ => ⟨sane_step hs t, retained_step hs hB hcap t⟩)
      ⟨sane_empty M B, Nat.zero_le _⟩ ops
  exact both.imp fun _ h => h.2

/-! ### The count -/

theorem len_enforceBodyBudget (s : SessionStore) : s.enforceBodyBudget.exchanges.len = s.exchanges.len := by
  unfold enforceBodyBudget
  split
  · exact IndexMap.len_valuesMut _ _ _
  · rfl

/-- Eviction makes room for the incoming exchange. -/
theorem len_insert_evictSessionIfFull {s : SessionStore} (hM : 1 ≤ s.maxSessions)
    (hcap : s.exchanges.len ≤ s.maxSessions) (id : Str) (exchange : Exchange) :
    ((s.evictSessionIfFull id).exchanges.insert id exchange).len ≤ s.maxSessions := by
  unfold evictSessionIfFull
  split
  · rename_i hfull
    obtain ⟨e, he, hlen, -⟩ := IndexMap.shiftRemoveFirst_of_pos (m := s.exchanges) (by omega)
    cases hm : s.exchanges.shiftRemoveFirst with
    | mk first rest =>
      rw [hm] at he hlen
      cases he
      dsimp only at hlen ⊢
      rw [IndexMap.len_insert]
      split <;> omega
  · rename_i hroom
    rw [IndexMap.len_insert]
    by_cases hid : s.exchanges.contains id = true
    · rw [if_pos hid]
      exact hcap
    · rw [if_neg hid]
      have : ¬ s.exchanges.len ≥ s.maxSessions := fun hfull => hroom ⟨hfull, by simpa using hid⟩
      omega

theorem len_foldl_importOne {s : SessionStore} (hM : 1 ≤ s.maxSessions) (hcap : s.exchanges.len ≤ s.maxSessions)
    (newExchanges : List Exchange) : (newExchanges.foldl importOne s).exchanges.len ≤ s.maxSessions := by
  induction newExchanges generalizing s with
  | nil => exact hcap
  | cons exchange rest ih =>
    have hcaps : (s.importOne exchange).maxSessions = s.maxSessions := (caps_foldl_importOne s [exchange]).1
    rw [← hcaps]
    exact ih (by rw [hcaps]; exact hM) (by rw [hcaps]; exact len_insert_evictSessionIfFull hM hcap _ exchange)

/-- Only `LoadData` can put more exchanges in the map than there is room for. -/
theorem len_step {s : SessionStore} (hM : 1 ≤ s.maxSessions) (hcap : s.exchanges.len ≤ s.maxSessions)
    (t : TimedOp) : (s.step t).exchanges.len ≤ s.maxSessions ↔ t.op.fits s.maxSessions := by
  obtain ⟨clock, op⟩ := t
  have modified : ∀ id f, (s.exchanges.modify id f).len ≤ s.maxSessions := by
    intro id f
    rw [IndexMap.len_modify]
    exact hcap
  have response : ∀ now id response metrics,
      (s.recordResponse now id response metrics).exchanges.len ≤ s.maxSessions := by
    intro now id response metrics
    unfold recordResponse
    split
    · split
      · exact hcap
      · rw [len_enforceBodyBudget]
        exact modified _ _
    · rw [len_enforceBodyBudget]
      exact hcap
  -- only loadData can exceed the bound: it replaces the map without evicting
  cases op with
  | loadData map =>
    show (s.replace map).exchanges.len ≤ s.maxSessions ↔ map.len ≤ s.maxSessions
    unfold replace
    rw [len_enforceBodyBudget]
  | recordRequest id request source =>
    refine iff_of_true ?_ trivial
    show (s.recordRequest _ id request source).exchanges.len ≤ s.maxSessions
    unfold recordRequest
    rw [len_enforceBodyBudget]
    exact len_insert_evictSessionIfFull hM hcap id _
  | recordResponse id r => exact iff_of_true (response _ id r none) trivial
  | recordResponseWithMetrics id r metrics => exact iff_of_true (response _ id r (some metrics)) trivial
  | appendWsFrame id frame =>
    refine iff_of_true ?_ trivial
    show (s.appendWsFrame id frame).exchanges.len ≤ s.maxSessions
    unfold appendWsFrame
    split <;> rw [len_enforceBodyBudget]
    · exact modified _ _
    · exact hcap
  | appendEvent id event =>
    refine iff_of_true ?_ trivial
    show (s.appendEvent _ id event).exchanges.len ≤ s.maxSessions
    unfold appendEvent
    split <;> rw [len_enforceBodyBudget]
    · exact modified _ _
    · exact hcap
  | annotate id note tags =>
    refine iff_of_true ?_ trivial
    show (s.annotate _ id note tags).1.exchanges.len ≤ s.maxSessions
    unfold annotate
    split
    · exact modified _ _
    · exact hcap
  | importSessions newExchanges =>
    refine iff_of_true ?_ trivial
    show (s.importAll newExchanges).exchanges.len ≤ s.maxSessions
    unfold importAll
    rw [len_enforceBodyBudget]
    exact len_foldl_importOne hM hcap newExchanges
  | clearSessions => exact iff_of_true (Nat.zero_le _) trivial
  | updateInspectorData id data => exact iff_of_true (modified _ _) trivial
  | markPaused id => exact iff_of_true (modified _ _) trivial
  | clearPaused id => exact iff_of_true (modified _ _) trivial
  | flush => exact iff_of_true hcap trivial

/-- The caps hold in every state of a run exactly when every map that is loaded in the run has room. -/
theorem withinBounds_run_iff {M B : Nat} (hM : 1 ≤ M) (hB : B ≠ usizeMax) (ops : List TimedOp) :
    EveryState step WithinBounds (empty M B) ops ↔ ∀ t ∈ ops, t.op.fits M := by
  have hconst := @everyStep_const SessionStore TimedOp step (fun t => t.op.fits M) (empty M B) ops
  rw [← hconst]
  refine everyState_iff_everyStep (P := WithinBounds) (I := Sane M B) (fun _ t h => sane_step h t) ?_
    (sane_empty M B) ⟨Nat.zero_le _, Nat.zero_le _⟩ ops
  intro s t hs hw
  have hbytes : (s.step t).retained ≤ (s.step t).maxRetainedBodyBytes := by
    rw [(sane_step hs t).bytes_eq]
    exact retained_step hs hB (by rw [← hs.bytes_eq]; exact hw.2) t
  have hcount := len_step (by rw [hs.sessions_eq]; exact hM) hw.1 t
  rw [hs.sessions_eq] at hcount
  unfold WithinBounds
  rw [(sane_step hs t).sessions_eq, hcount]
  exact and_iff_left hbytes

/-- A store for one exchange which loads a map of two. -/
private def overfullLoad : List TimedOp :=
  [⟨fun _ => 0, .loadData <|
    (IndexMap.empty.insert ("a" : Str) (recordedExchange 0 "a" RequestContext.default .imported)).insert
      ("b" : Str) (recordedExchange 0 "b" RequestContext.default .imported)⟩]

theorem not_withinBounds_run : ¬ EveryState step WithinBounds (empty 1 1000) overfullLoad := by
  intro h
  have hlast : WithinBounds _ := h.last
  revert hlast
  decide

theorem withinBounds_run_overfull :
    EveryState step WithinBounds (empty 2 1000) overfullLoad ↔ ∀ t ∈ overfullLoad, t.op.fits 2 :=
  withinBounds_run_iff (by decide) (by decide) overfullLoad

end SessionStore

end Oproxy
