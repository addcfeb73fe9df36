import Oproxy.Lib.Run
import Oproxy.Session.Operations

/-!
# Polling for changed sessions (`api/mod.rs`)

A client which asks for the sessions since an instant gets those that `matches_since` lets through: the ones without
a response, and the ones whose stamps are later than the instant.  The stamps are set by each operation for itself.
Some set none: a frame, inspector data, and the sweep that empties the bodies of other exchanges; and an import keeps
the stamps that an exchange comes with.
-/

namespace Oproxy

open Machine

def matchesSince (session : Exchange) (since : Option Timestamp) : Bool :=
  match since with
  | some since =>
    decide (session.timestamp > since) || session.response.isNone ||
      session.updatedAt.any fun t => decide (t > since)
  | none => true

/-- The fields in which a client of `list_sessions` sees a change. -/
structure SameReported (a b : Exchange) : Prop where
  response : a.response = b.response
  metrics : a.metrics = b.metrics
  wsFrames : a.wsFrames = b.wsFrames
  events : a.events = b.events
  note : a.note = b.note
  tags : a.tags = b.tags
  inspectorData : a.inspectorData = b.inspectorData
  pausedAt : a.pausedAt = b.pausedAt

/-- An operation changes an exchange, and does not stamp it. -/
def WriteOp.Unstamped (id : Str) (exchange : Exchange) : WriteOp → Prop
  | appendWsFrame id' _ => id' = id
  | updateInspectorData id' data => id' = id ∧ exchange.inspectorData ≠ some data
  | _ => False

/-- The clock is not read again within an operation, but for the second reading of `mark_paused`. -/
def TimedOp.lastReading (t : TimedOp) : Timestamp :=
  match t.op with
  | .markPaused _ => t.clock 1
  | _ => t.clock 0

/-- The readings of the clock do not decrease. -/
def Ticking (ops : List TimedOp) : Prop :=
  (∀ t ∈ ops, t.clock 0 ≤ t.lastReading) ∧ ops.Pairwise fun t t' => t.lastReading ≤ t'.clock 0

namespace SessionStore

/-- An operation adds the exchange of an id, or changes what is reported of it. -/
def Changes (s : SessionStore) (t : TimedOp) (id : Str) : Prop :=
  t.op.Inserts id ∨ ∃ before after, s.exchanges.get? id = some before ∧ (s.step t).exchanges.get? id = some after ∧
    ¬ SameReported after before

/-- Whoever has asked at an instant, and asks after the run for what is new, sees every exchange which an operation
after that instant has changed. -/
def MissesNothing (s : SessionStore) (ops : List TimedOp) : Prop :=
  ∀ pre t post, ops = pre ++ t :: post → ∀ id, (run step s pre).Changes t id →
    ∀ exchange, (run step s ops).exchanges.get? id = some exchange →
      ∀ since < t.clock 0, matchesSince exchange (some since) = true

/-- An exchange is let through for every instant before `now`. -/
def ShownFrom (now : Timestamp) (exchange : Exchange) : Prop :=
  ∀ since < now, matchesSince exchange (some since) = true

/-- The exchanges which an operation changes without a stamp are shown for another reason. -/
structure MarksChanges (s : SessionStore) (t : TimedOp) : Prop where
  unstamped : ∀ id exchange, s.exchanges.get? id = some exchange → t.op.Unstamped id exchange →
    ShownFrom (t.clock 0) exchange
  inserted : ∀ id exchange, (s.unbudgeted t).exchanges.get? id = some exchange → t.op.Inserts id →
    ShownFrom (t.clock 0) exchange
  swept : s.enforces t.op = true → ∀ id exchange, (s.unbudgeted t).exchanges.get? id = some exchange →
    (s.unbudgeted t).Sweeps id exchange → ¬ SameReported (clearExchangeBodies exchange) exchange →
    ShownFrom (t.clock 0) exchange

/-! ### Stamps -/

variable {now : Timestamp} {exchange : Exchange}

theorem shownFrom_iff : ShownFrom now exchange ↔
    exchange.response = none ∨ now ≤ exchange.timestamp ∨ ∃ t, exchange.updatedAt = some t ∧ now ≤ t := by
  unfold ShownFrom matchesSince
  simp only [gt_iff_lt, Bool.or_eq_true, decide_eq_true_eq, Option.isNone_iff_eq_none, Option.any_eq_true]
  constructor
  · intro h
    -- the last instant before the reading decides
    rcases h (now - 1) (Int.sub_one_lt_of_le (Int.le_refl now)) with (htime | hnone) | ⟨t, ht, htime⟩
    · exact Or.inr (Or.inl (Int.le_of_sub_one_lt htime))
    · exact Or.inl hnone
    · exact Or.inr (Or.inr ⟨t, ht, Int.le_of_sub_one_lt htime⟩)
  · intro h since hsince
    rcases h with hnone | htime | ⟨t, ht, htime⟩
    · exact Or.inl (Or.inr hnone)
    · exact Or.inl (Or.inl (Int.lt_of_lt_of_le hsince htime))
    · exact Or.inr ⟨t, ht, Int.lt_of_lt_of_le hsince htime⟩

theorem ShownFrom.anti {now' : Timestamp} (h : ShownFrom now exchange) (hle : now' ≤ now) : ShownFrom now' exchange :=
  fun since hsince => h since (Int.lt_of_lt_of_le hsince hle)

theorem shownFrom_of_updatedAt {t : Timestamp} (h : exchange.updatedAt = some t) (hle : now ≤ t) :
    ShownFrom now exchange :=
  shownFrom_iff.2 (Or.inr (Or.inr ⟨t, h, hle⟩))

/-- A change which keeps the stamps, and keeps whether there is a response. -/
private theorem shownFrom_congr {a b : Exchange} (hresponse : a.response = none ↔ b.response = none)
    (htimestamp : a.timestamp = b.timestamp) (hupdated : a.updatedAt = b.updatedAt) :
    ShownFrom now a ↔ ShownFrom now b := by
  rw [shownFrom_iff, shownFrom_iff, hresponse, htimestamp, hupdated]

theorem shownFrom_clearExchangeBodies : ShownFrom now (clearExchangeBodies exchange) ↔ ShownFrom now exchange := by
  refine shownFrom_congr ?_ rfl rfl
  simp [clearExchangeBodies]

variable (s : SessionStore) (t : TimedOp) (id : Str)

/-- A stored exchange stays as it is, or is stamped, or is changed without a stamp. -/
theorem touch_cases (hclock : t.clock 0 ≤ t.lastReading) (before : Exchange) :
    touch t id before = before ∨ ShownFrom (t.clock 0) (touch t id before) ∨ t.op.Unstamped id before := by
  obtain ⟨clock, op⟩ := t
  have hstamped : ∀ stamp exchange, exchange.updatedAt = some stamp → clock 0 ≤ stamp →
      ShownFrom (clock 0) exchange := fun _ _ => shownFrom_of_updatedAt
  unfold touch
  cases op with
  | recordResponse id' response =>
    dsimp only
    split
    · exact Or.inr (Or.inl (hstamped _ _ rfl (Int.le_refl _)))
    · exact Or.inl rfl
  | recordResponseWithMetrics id' response metrics =>
    dsimp only
    split
    · exact Or.inr (Or.inl (hstamped _ _ rfl (Int.le_refl _)))
    · exact Or.inl rfl
  | appendWsFrame id' frame =>
    dsimp only
    split
    · rename_i heq
      exact Or.inr (Or.inr heq.symm)
    · exact Or.inl rfl
  | appendEvent id' event =>
    dsimp only
    split
    · exact Or.inr (Or.inl (hstamped _ _ rfl (Int.le_refl _)))
    · exact Or.inl rfl
  | annotate id' note tags =>
    dsimp only
    split
    · exact Or.inr (Or.inl (hstamped _ _ rfl (Int.le_refl _)))
    · exact Or.inl rfl
  | updateInspectorData id' data =>
    dsimp only
    split
    · rename_i heq
      by_cases hsame : before.inspectorData = some data
      · rw [← hsame]
        exact Or.inl rfl
      · exact Or.inr (Or.inr ⟨heq.symm, hsame⟩)
    · exact Or.inl rfl
  | markPaused id' =>
    dsimp only
    split
    · exact Or.inr (Or.inl (hstamped _ _ rfl hclock))
    · exact Or.inl rfl
  | clearPaused id' =>
    dsimp only
    split
    · exact Or.inr (Or.inl (hstamped _ _ rfl (Int.le_refl _)))
    · exact Or.inl rfl
  | _ => exact Or.inl rfl

/-- A change without a stamp takes no stamp away. -/
theorem shownFrom_touch_of_unstamped {before : Exchange} (h : t.op.Unstamped id before) :
    ShownFrom now (touch t id before) ↔ ShownFrom now before := by
  obtain ⟨clock, op⟩ := t
  unfold touch
  cases op with
  | appendWsFrame id' frame =>
    dsimp only
    split <;> exact shownFrom_congr Iff.rfl rfl rfl
  | updateInspectorData id' data =>
    dsimp only
    split <;> exact shownFrom_congr Iff.rfl rfl rfl
  | _ => cases h

/-! ### One operation -/

variable {s t}

private theorem shownFrom_of_swept {after : Exchange}
    (hafter : after = exchange ∨ after = clearExchangeBodies exchange) :
    ShownFrom now after ↔ ShownFrom now exchange := by
  rcases hafter with rfl | rfl
  · exact Iff.rfl
  · exact shownFrom_clearExchangeBodies

/-- A frame or inspector data that an operation adds without a stamp is a change, whether or not the exchange is
swept. -/
private theorem not_sameReported_of_unstamped {before after : Exchange} (h : t.op.Unstamped id before)
    (hafter : after = touch t id before ∨ after = clearExchangeBodies (touch t id before)) :
    ¬ SameReported after before := by
  obtain ⟨clock, op⟩ := t
  intro hsame
  cases op with
  | appendWsFrame id' frame =>
    have hid : id = id' := Eq.symm h
    have hlength : after.wsFrames.length = before.wsFrames.length + 1 := by
      rcases hafter with rfl | rfl <;> simp [touch, hid, withWsFrame, clearExchangeBodies]
    rw [hsame.wsFrames] at hlength
    omega
  | updateInspectorData id' data =>
    obtain ⟨hid, hdata⟩ := h
    have hnew : after.inspectorData = some data := by
      rcases hafter with rfl | rfl <;> simp [touch, hid.symm, clearExchangeBodies]
    exact hdata (hsame.inspectorData.symm.trans hnew)
  | _ => cases h

private theorem keepsIds_of_unstamped {before : Exchange} (h : t.op.Unstamped id before) : keepsIds t.op = true := by
  obtain ⟨clock, op⟩ := t
  cases op with
  | appendWsFrame id' frame => rfl
  | updateInspectorData id' data => rfl
  | _ => cases h

/-- All that an operation changes is shown afterwards exactly where the operation marks its changes. -/
theorem shown_iff_marksChanges (hclock : t.clock 0 ≤ t.lastReading) :
    (∀ id, s.Changes t id → ∀ after, (s.step t).exchanges.get? id = some after → ShownFrom (t.clock 0) after) ↔
      s.MarksChanges t := by
  constructor
  · intro h
    -- a change that leaves no new time shows only if the time was new already
    have hunstamped : ∀ id exchange, s.exchanges.get? id = some exchange → t.op.Unstamped id exchange →
        ShownFrom (t.clock 0) exchange := by
      intro id before hbefore hunstamped
      have htouch : (s.unbudgeted t).exchanges.get? id = some (touch t id before) := by
        rw [get?_unbudgeted_of_keepsIds s t id (keepsIds_of_unstamped id hunstamped), hbefore]
        rfl
      obtain ⟨after, hget, hafter⟩ := get?_step_of_unbudgeted id htouch
      have hchanged := not_sameReported_of_unstamped id hunstamped hafter
      have hshown := h id (Or.inr ⟨before, after, hbefore, hget, hchanged⟩) after hget
      rwa [shownFrom_of_swept hafter, shownFrom_touch_of_unstamped t id hunstamped] at hshown
    refine ⟨hunstamped, ?_, ?_⟩
    · intro id exchange hget hinserts
      obtain ⟨after, hstep, hafter⟩ := get?_step_of_unbudgeted id hget
      exact (shownFrom_of_swept hafter).1 (h id (Or.inl hinserts) after hstep)
    · intro henforces id exchange hget hsweeps hchanged
      have hstep : (s.step t).exchanges.get? id = some (clearExchangeBodies exchange) := by
        rw [get?_step, hget, Option.map_some, if_pos ⟨henforces, hsweeps⟩]
      by_cases hinserts : t.op.Inserts id
      · exact shownFrom_clearExchangeBodies.1 (h id (Or.inl hinserts) _ hstep)
      · obtain ⟨before, hbefore, rfl⟩ := get?_unbudgeted s t id hget hinserts
        rcases touch_cases t id hclock before with hsame | hshown | hplain
        · -- the sweep is all that has changed it
          rw [hsame] at hstep hchanged ⊢
          exact shownFrom_clearExchangeBodies.1 (h id (Or.inr ⟨before, _, hbefore, hstep, hchanged⟩) _ hstep)
        · exact hshown
        · exact (shownFrom_touch_of_unstamped t id hplain).2 (hunstamped id before hbefore hplain)
  · intro h id hchanges after hget
    rw [get?_step, Option.map_eq_some_iff] at hget
    obtain ⟨exchange, hget, rfl⟩ := hget
    have hshown : ShownFrom (t.clock 0) exchange := by
      by_cases hinserts : t.op.Inserts id
      · exact h.inserted id exchange hget hinserts
      · rcases hchanges with hin | ⟨before, after, hbefore, hafter, hchanged⟩
        · exact absurd hin hinserts
        · obtain ⟨before', hbefore', rfl⟩ := get?_unbudgeted s t id hget hinserts
          rw [hbefore, Option.some.injEq] at hbefore'
          subst hbefore'
          rcases touch_cases t id hclock before with hsame | hshown | hplain
          · rw [get?_step, hget, Option.map_some, Option.some.injEq, hsame] at hafter
            rw [hsame] at hget ⊢
            split at hafter
            · rename_i hswept
              rw [← hafter] at hchanged
              exact h.swept hswept.1 id before hget hswept.2 hchanged
            · rw [← hafter] at hchanged
              exact absurd ⟨rfl, rfl, rfl, rfl, rfl, rfl, rfl, rfl⟩ hchanged
          · exact hshown
          · exact (shownFrom_touch_of_unstamped t id hplain).2 (h.unstamped id before hbefore hplain)
    split
    · exact shownFrom_clearExchangeBodies.2 hshown
    · exact hshown

/-- What is shown stays shown until it is overwritten. -/
theorem shownFrom_step (hclock : t.clock 0 ≤ t.lastReading) (hnow : now ≤ t.clock 0) {after : Exchange}
    (hafter : (s.step t).exchanges.get? id = some after) (hinserts : ¬ t.op.Inserts id)
    (h : ∀ before, s.exchanges.get? id = some before → ShownFrom now before) : ShownFrom now after := by
  rw [get?_step, Option.map_eq_some_iff] at hafter
  obtain ⟨exchange, hget, rfl⟩ := hafter
  have hshown : ShownFrom now exchange := by
    obtain ⟨before, hbefore, rfl⟩ := get?_unbudgeted s t id hget hinserts
    rcases touch_cases t id hclock before with hsame | hshown | hplain
    · rw [hsame]
      exact h before hbefore
    · exact hshown.anti hnow
    · exact (shownFrom_touch_of_unstamped t id hplain).2 (h before hbefore)
  split
  · exact shownFrom_clearExchangeBodies.2 hshown
  · exact hshown

/-! ### Runs -/

theorem ticking_of_initial {pre ops : List TimedOp} (h : Ticking ops) (hpre : pre <+: ops) : Ticking pre :=
  ⟨fun t ht => h.1 t (hpre.subset ht), h.2.sublist hpre.sublist⟩

/-- A run after which nothing is missed, with one more operation which marks its changes. -/
private theorem missesNothing_append {ops : List TimedOp} (hticking : Ticking (ops ++ [t])) (h : s.MissesNothing ops)
    (hmarks : (run step s ops).MarksChanges t) : s.MissesNothing (ops ++ [t]) := by
  have hclock : t.clock 0 ≤ t.lastReading := hticking.1 t (List.mem_append_right _ List.mem_cons_self)
  have hlast := (shown_iff_marksChanges hclock).2 hmarks
  intro pre t' post heq id hchanges after hafter
  rw [run_append] at hafter
  rcases List.eq_nil_or_concat post with rfl | ⟨post, last, rfl⟩
  · -- the change is the last operation's
    obtain ⟨rfl, hsingle⟩ := List.append_inj' heq rfl
    cases hsingle
    exact hlast id hchanges after hafter
  · rw [List.concat_eq_append, ← List.cons_append, ← List.append_assoc] at heq
    obtain ⟨hops, hsingle⟩ := List.append_inj' heq rfl
    cases hsingle
    have hbefore : t'.clock 0 ≤ t.clock 0 := by
      have hmem : t' ∈ ops := by
        rw [hops]
        exact List.mem_append_right _ List.mem_cons_self
      have hfirst := hticking.1 t' (List.mem_append_left _ hmem)
      have hnext := (List.pairwise_append.1 hticking.2).2.2 t' hmem t List.mem_cons_self
      exact Int.le_trans hfirst hnext
    by_cases hinserts : t.op.Inserts id
    · exact (hlast id (Or.inl hinserts) after hafter).anti hbefore
    · exact shownFrom_step id hclock hbefore hafter hinserts fun before hget =>
        h pre t' post hops id hchanges before hget

/-- Whoever polls during a run misses nothing exactly where every operation of the run marks its changes. -/
theorem missesNothing_run_iff (s : SessionStore) {ops : List TimedOp} (hticking : Ticking ops) :
    (∀ pre, pre <+: ops → s.MissesNothing pre) ↔ EveryStep step MarksChanges s ops := by
  constructor
  · intro h pre t hpre
    have hclock : t.clock 0 ≤ t.lastReading := hticking.1 t (hpre.subset (by simp))
    refine (shown_iff_marksChanges hclock).1 ?_
    intro id hchanges after hafter
    refine h (pre ++ [t]) hpre pre t [] rfl id hchanges after ?_
    rw [run_append]
    exact hafter
  · intro h pre
    induction pre using List.reverseRecOn with
    | nil =>
      intro _ pre t post heq
      simp at heq
    | append_singleton pre t ih =>
      intro hpre
      have hshorter : pre <+: ops := (List.prefix_append pre [t]).trans hpre
      exact missesNothing_append (ticking_of_initial hticking hpre) (ih hshorter) (h pre t hpre)

/-! ### A frame of an upgraded connection -/

private def framedRun : List TimedOp :=
  [⟨fun _ => 0, .recordRequest "s" RequestContext.default .proxy⟩,
    ⟨fun _ => 1, .recordResponse "s" (ResponseContext.default)⟩,
    ⟨fun _ => 5, .appendWsFrame "s" ⟨5, .clientToServer, 1, 2, some "hi", none⟩⟩]

private theorem ticking_framedRun : Ticking framedRun := by
  constructor
  · intro t ht
    simp only [framedRun, List.mem_cons, List.not_mem_nil, or_false] at ht
    rcases ht with rfl | rfl | rfl <;> exact Int.le_refl _
  · unfold framedRun
    simp [TimedOp.lastReading]

theorem missesNothing_run_framed :
    (∀ pre, pre <+: framedRun → (empty 10 1000).MissesNothing pre) ↔
      EveryStep step MarksChanges (empty 10 1000) framedRun :=
  missesNothing_run_iff (empty 10 1000) ticking_framedRun

/-- A client which has asked at 2 is not shown the frame of 5. -/
theorem not_missesNothing_run : ¬ ∀ ops, Ticking ops → (empty 10 1000).MissesNothing ops := by
  intro h
  obtain ⟨before, hbefore⟩ : ∃ before, (run step (empty 10 1000) (framedRun.take 2)).exchanges.get? "s" = some before :=
    ⟨_, rfl⟩
  obtain ⟨after, hafter⟩ : ∃ after, (run step (empty 10 1000) framedRun).exchanges.get? "s" = some after := ⟨_, rfl⟩
  have hchanges : (run step (empty 10 1000) (framedRun.take 2)).Changes
      ⟨fun _ => 5, .appendWsFrame "s" ⟨5, .clientToServer, 1, 2, some "hi", none⟩⟩ "s" := by
    refine Or.inr ⟨before, after, hbefore, hafter, ?_⟩
    intro hsame
    cases hbefore
    cases hafter
    cases hsame.wsFrames
  have hshown := h framedRun ticking_framedRun (framedRun.take 2) _ [] rfl "s" hchanges after hafter 2 (by decide)
  cases hafter
  cases hshown

end SessionStore

end Oproxy
