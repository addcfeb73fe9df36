import Oproxy.Middleware.Plugins.BreakpointManager

/-!
# What becomes of a resolution

`resolve_breakpoint` takes an entry out of the map and sends the resolution to its handler; it returns `Ok` whether
or not the handler still listens.
-/

namespace Oproxy

namespace BreakpointManager

open Machine

/-- A handler has acted on a call, or will when it is woken: it has the call in its channel. -/
def ActsOn (s : BreakpointManager) (call : ResolveCall) : Prop :=
  call ∈ s.acted ∨ s.phase call.id = some (.waiting (some call))

/-- The calls that have returned `Ok` are those on which the handlers act, and no breakpoint is acted on twice. -/
structure Delivers (s : BreakpointManager) : Prop where
  acknowledged_iff : ∀ call, call ∈ s.acknowledged ↔ s.ActsOn call
  once : (s.acted.map ResolveCall.id).Nodup

/-- A step that loses no resolution: a call does not find the entry of a handler which has stopped to listen, and no
handler is dropped with an answer in its channel. -/
def KeepsAnswer (s : BreakpointManager) : PauseStep → Prop
  | .resolve id _ => (s.pending id).isSome = true → s.phase id = some (.waiting none)
  | .drop id => ∀ call, s.phase id ≠ some (.waiting (some call))
  | _ => True

/-- What holds in every state of every run. -/
structure Sound (s : BreakpointManager) : Prop where
  acted_finished : ∀ call ∈ s.acted, ∃ answer, s.phase call.id = some (.finished answer)
  acted_once : (s.acted.map ResolveCall.id).Nodup
  acted_acknowledged : ∀ call ∈ s.acted, call ∈ s.acknowledged
  delivered : ∀ id call, s.phase id = some (.waiting (some call)) →
    call.id = id ∧ call ∈ s.acknowledged ∧ s.pending id = none
  numbered : ∀ call ∈ s.acknowledged, call.number < s.calls
  registered : ∀ id, s.pending id ≠ none →
    s.phase id = some (.waiting none) ∨ s.phase id = some .expired ∨ s.phase id = some .dropped

variable {s : BreakpointManager}

theorem sound_empty : empty.Sound where
  acted_finished := by intro call h; cases h
  acted_once := List.nodup_nil
  acted_acknowledged := by intro call h; cases h
  delivered := by intro id call h; cases h
  numbered := by intro call h; cases h
  registered := by intro id h; exact absurd rfl h

/-- A step of one handler keeps a state sound, if it takes the handler to a phase which suits its entry and its
answer. -/
private theorem Sound.move (h : s.Sound) {s' : BreakpointManager} {id : Str} {handler : PausedHandler}
    (hhandlers : s'.handlers = Function.update s.handlers id (some handler))
    (hrunning : ∀ answer, s.phase id ≠ some (.finished answer))
    (hpending : s'.pending = s.pending ∨ ∃ entry, s'.pending = Function.update s.pending id entry)
    (hregistered : s'.pending id ≠ none →
      handler.phase = .waiting none ∨ handler.phase = .expired ∨ handler.phase = .dropped)
    (hdelivered : ∀ call, handler.phase = .waiting (some call) →
      call.id = id ∧ call ∈ s'.acknowledged ∧ s'.pending id = none)
    (hacted : s'.acted = s.acted ∨ ∃ call answer, s'.acted = call :: s.acted ∧ call.id = id ∧
      call ∈ s'.acknowledged ∧ handler.phase = .finished answer)
    (hgrows : ∀ call ∈ s.acknowledged, call ∈ s'.acknowledged)
    (hnumbered : ∀ call ∈ s'.acknowledged, call.number < s'.calls) : s'.Sound := by
  have hother : ∀ id', id' ≠ id → s'.phase id' = s.phase id' ∧ s'.pending id' = s.pending id' := by
    intro id' hne
    refine ⟨by rw [phase_update hhandlers, if_neg hne], ?_⟩
    rcases hpending with heq | ⟨entry, heq⟩
    · rw [heq]
    · rw [heq, Function.update_of_ne hne]
  have hself : s'.phase id = some handler.phase := by rw [phase_update hhandlers, if_pos rfl]
  -- what has been acted on before has been by a handler which is through
  have hold : ∀ call ∈ s.acted, call.id ≠ id ∧ ∃ answer, s'.phase call.id = some (.finished answer) := by
    intro call hcall
    obtain ⟨answer, hanswer⟩ := h.acted_finished call hcall
    have hne : call.id ≠ id := by
      intro heq
      rw [heq] at hanswer
      exact hrunning answer hanswer
    exact ⟨hne, answer, (hother _ hne).1.trans hanswer⟩
  refine ⟨?_, ?_, ?_, ?_, hnumbered, ?_⟩
  · intro call hcall
    rcases hacted with heq | ⟨new, answer, heq, hid, -, hfinished⟩
    · rw [heq] at hcall
      exact (hold call hcall).2
    · rw [heq] at hcall
      rcases List.mem_cons.1 hcall with rfl | hcall
      · rw [hid, hself, hfinished]
        exact ⟨answer, rfl⟩
      · exact (hold call hcall).2
  · rcases hacted with heq | ⟨new, answer, heq, hid, -, -⟩
    · rw [heq]
      exact h.acted_once
    · rw [heq, List.map_cons, List.nodup_cons]
      refine ⟨?_, h.acted_once⟩
      intro hmem
      obtain ⟨call, hcall, hsame⟩ := List.mem_map.1 hmem
      exact (hold call hcall).1 (hsame.trans hid)
  · intro call hcall
    rcases hacted with heq | ⟨new, answer, heq, -, hnew, -⟩
    · rw [heq] at hcall
      exact hgrows call (h.acted_acknowledged call hcall)
    · rw [heq] at hcall
      rcases List.mem_cons.1 hcall with rfl | hcall
      · exact hnew
      · exact hgrows call (h.acted_acknowledged call hcall)
  · intro id' call hcall
    by_cases heq : id' = id
    · rw [heq, hself, Option.some.injEq] at hcall
      rw [heq]
      exact hdelivered call hcall
    · rw [(hother id' heq).1] at hcall
      obtain ⟨hid, hack, hentry⟩ := h.delivered id' call hcall
      exact ⟨hid, hgrows call hack, (hother id' heq).2.trans hentry⟩
  · intro id' hentry
    by_cases heq : id' = id
    · rw [heq] at hentry ⊢
      rw [hself]
      simpa using hregistered hentry
    · rw [(hother id' heq).2] at hentry
      rw [(hother id' heq).1]
      exact h.registered id' hentry

private theorem running_of_phase {id : Str} {phase : PausePhase} (h : s.phase id = some phase)
    (hphase : ∀ answer, phase ≠ .finished answer) : ∀ answer, s.phase id ≠ some (.finished answer) := by
  intro answer hfinished
  rw [h, Option.some.injEq] at hfinished
  exact hphase answer hfinished

theorem sound_step (s : BreakpointManager) (a : PauseStep) (h : s.Sound) : (s.step a).Sound := by
  cases a with
  | pause id sessionId context =>
    rcases @step_pause s id sessionId context with heq | ⟨hnone, heq⟩
    · rw [heq]
      exact h
    · have hphase : s.phase id = none := by
        unfold phase
        rw [hnone]
        rfl
      -- an entry belongs to a handler that has begun
      have hentry : s.pending id = none := by
        by_contra hsome
        rcases h.registered id hsome with hp | hp | hp <;> rw [hphase] at hp <;> cases hp
      rw [heq]
      refine h.move rfl ?_ (Or.inl rfl) (fun hsome => absurd hentry hsome) ?_ (Or.inl rfl) (fun _ hc => hc) h.numbered
      · intro answer hfinished
        rw [hphase] at hfinished
        cases hfinished
      · intro call hwaiting
        cases hwaiting
  | register id =>
    rcases @step_register s id with heq | ⟨sessionId, context, hhandler, heq⟩
    · rw [heq]
      exact h
    · rw [heq]
      refine h.move rfl ?_ (Or.inr ⟨_, rfl⟩) (fun _ => Or.inl rfl) ?_ (Or.inl rfl) (fun _ hc => hc) h.numbered
      · exact running_of_phase (phase_of_handlers hhandler) (fun answer hf => by cases hf)
      · intro call hwaiting
        cases hwaiting
  | resolve id resolution =>
    -- the calls are numbered in their order, and this one comes last
    have hnumbered : ∀ call ∈ (⟨s.calls, id, resolution⟩ : ResolveCall) :: s.acknowledged,
        call.number < s.calls + 1 := by
      intro call hcall
      rcases List.mem_cons.1 hcall with rfl | hcall
      · exact Nat.lt_succ_self _
      · exact Nat.lt_succ_of_lt (h.numbered call hcall)
    rcases @step_resolve s id resolution with ⟨-, heq⟩ | ⟨entry, sessionId, context, hentry, hhandler, heq⟩ |
      ⟨entry, hentry, hphase, heq⟩
    · rw [heq]
      exact ⟨h.1, h.2, h.3, h.4, fun call hcall => Nat.lt_succ_of_lt (h.numbered call hcall), h.6⟩
    · rw [heq]
      refine h.move rfl ?_ (Or.inr ⟨_, rfl⟩) ?_ ?_ (Or.inl rfl) (fun _ hc => List.mem_cons_of_mem _ hc) hnumbered
      · exact running_of_phase (phase_of_handlers hhandler) (fun answer hf => by cases hf)
      · intro hsome
        exact absurd (Function.update_self id none s.pending) hsome
      · intro call hwaiting
        cases hwaiting
        exact ⟨rfl, List.mem_cons_self, Function.update_self id none s.pending⟩
    · rw [heq]
      -- the entry is taken out, but nobody waits for the answer
      refine ⟨h.1, h.2, fun call hcall => List.mem_cons_of_mem _ (h.acted_acknowledged call hcall), ?_, hnumbered, ?_⟩
      · intro id' call hcall
        obtain ⟨hid, hack, hnone⟩ := h.delivered id' call hcall
        refine ⟨hid, List.mem_cons_of_mem _ hack, ?_⟩
        dsimp only
        rw [Function.update_apply]
        split
        · rfl
        · exact hnone
      · intro id' hsome
        dsimp only at hsome
        rw [Function.update_apply] at hsome
        split at hsome
        · exact absurd rfl hsome
        · exact h.registered id' hsome
  | wake id =>
    rcases @step_wake s id with heq | ⟨sessionId, context, call, hhandler, heq⟩
    · rw [heq]
      exact h
    · -- the handler takes the answer of the call that was acknowledged
      obtain ⟨hid, hack, hnone⟩ := h.delivered id call (phase_of_handlers hhandler)
      rw [heq]
      refine h.move rfl ?_ (Or.inl rfl) (fun hsome => absurd hnone hsome) ?_
        (Or.inr ⟨call, _, rfl, hid, hack, rfl⟩) (fun _ hc => hc) h.numbered
      · exact running_of_phase (phase_of_handlers hhandler) (fun answer hf => by cases hf)
      · intro call hwaiting
        cases hwaiting
  | expire id =>
    rcases @step_expire s id with heq | ⟨sessionId, context, hhandler, heq⟩
    · rw [heq]
      exact h
    · rw [heq]
      refine h.move rfl ?_ (Or.inl rfl) (fun _ => Or.inr (Or.inl rfl)) ?_ (Or.inl rfl) (fun _ hc => hc) h.numbered
      · exact running_of_phase (phase_of_handlers hhandler) (fun answer hf => by cases hf)
      · intro call hwaiting
        cases hwaiting
  | remove id =>
    rcases @step_remove s id with heq | ⟨sessionId, context, hhandler, heq⟩
    · rw [heq]
      exact h
    · rw [heq]
      refine h.move rfl ?_ (Or.inr ⟨_, rfl⟩) ?_ ?_ (Or.inl rfl) (fun _ hc => hc) h.numbered
      · exact running_of_phase (phase_of_handlers hhandler) (fun answer hf => by cases hf)
      · intro hsome
        exact absurd (Function.update_self id none s.pending) hsome
      · intro call hwaiting
        cases hwaiting
  | drop id =>
    rcases @step_drop s id with ⟨-, heq⟩ | ⟨⟨phase, hphase, hin⟩, handler, hhandler, heq⟩
    · rw [heq]
      exact h
    · rw [heq]
      refine h.move rfl ?_ (Or.inl rfl) (fun _ => Or.inr (Or.inr rfl)) ?_ (Or.inl rfl) (fun _ hc => hc) h.numbered
      · refine running_of_phase hphase fun answer hf => ?_
        rw [hf] at hin
        rcases hin with hin | ⟨_, hin⟩ | hin <;> cases hin
      · intro call hwaiting
        cases hwaiting

/-! ### The calls that return `Ok` -/

private theorem delivers_of_phases {s' : BreakpointManager} (h : s.Delivers) (hacted : s'.acted = s.acted)
    (hacknowledged : s'.acknowledged = s.acknowledged)
    (hphase : ∀ call, s'.phase call.id = some (.waiting (some call)) ↔ s.phase call.id = some (.waiting (some call))) :
    s'.Delivers := by
  refine ⟨?_, by rw [hacted]; exact h.once⟩
  intro call
  unfold ActsOn
  rw [hacknowledged, hacted, hphase]
  exact h.acknowledged_iff call

/-- A handler which moves between phases without an answer changes nothing about the calls. -/
private theorem phase_iff {s' : BreakpointManager} {id : Str} {handler : PausedHandler}
    (hhandlers : s'.handlers = Function.update s.handlers id (some handler))
    (hbefore : ∀ call, s.phase id ≠ some (.waiting (some call))) (hafter : ∀ call, handler.phase ≠ .waiting (some call))
    (call : ResolveCall) :
    s'.phase call.id = some (.waiting (some call)) ↔ s.phase call.id = some (.waiting (some call)) := by
  rw [phase_update hhandlers]
  split
  · rename_i heq
    rw [heq]
    constructor
    · intro h
      rw [Option.some.injEq] at h
      exact absurd h (hafter call)
    · intro h
      exact absurd h (hbefore call)
  · exact Iff.rfl

private theorem delivers_of_move (h : s.Delivers) {s' : BreakpointManager} {id : Str} {handler : PausedHandler}
    (hhandlers : s'.handlers = Function.update s.handlers id (some handler))
    (hbefore : ∀ call, s.phase id ≠ some (.waiting (some call))) (hafter : ∀ call, handler.phase ≠ .waiting (some call))
    (hacted : s'.acted = s.acted) (hacknowledged : s'.acknowledged = s.acknowledged) : s'.Delivers :=
  delivers_of_phases h hacted hacknowledged (phase_iff hhandlers hbefore hafter)

private theorem delivers_wake (hsound : s.Sound) (h : s.Delivers) (id : Str) : (s.step (.wake id)).Delivers := by
  have hsound' := sound_step s (.wake id) hsound
  rcases @step_wake s id with heq | ⟨sessionId, context, new, hhandler, heq⟩
  · rw [heq]
    exact h
  · have hwaiting : s.phase id = some (.waiting (some new)) := phase_of_handlers hhandler
    obtain ⟨hid, hack, -⟩ := hsound.delivered id new hwaiting
    refine ⟨?_, hsound'.acted_once⟩
    intro call
    unfold ActsOn
    rw [heq]
    dsimp only
    rw [h.acknowledged_iff call, List.mem_cons]
    have hphase : ∀ call : ResolveCall, call.id ≠ id →
        (s.step (.wake id)).phase call.id = s.phase call.id := by
      intro call hne
      rw [heq, phase_update rfl, if_neg hne]
    rw [heq] at hphase
    constructor
    · rintro (hacted | hin)
      · exact Or.inl (Or.inr hacted)
      · by_cases heq' : call.id = id
        · rw [heq', hwaiting] at hin
          cases hin
          exact Or.inl (Or.inl rfl)
        · exact Or.inr ((hphase call heq').trans hin)
    · rintro ((rfl | hacted) | hin)
      · exact (h.acknowledged_iff call).1 hack
      · exact Or.inl hacted
      · by_cases heq' : call.id = id
        · rw [phase_update rfl, if_pos heq'] at hin
          cases hin
        · exact Or.inr ((hphase call heq').symm.trans hin)

private theorem delivers_resolve_iff (hsound : s.Sound) (h : s.Delivers) (id : Str)
    (resolution : BreakpointResolution) :
    (s.step (.resolve id resolution)).Delivers ↔ s.KeepsAnswer (.resolve id resolution) := by
  have hsound' := sound_step s (.resolve id resolution) hsound
  -- the number of the call is new
  have hfresh : (⟨s.calls, id, resolution⟩ : ResolveCall) ∉ s.acknowledged := by
    intro hmem
    exact Nat.lt_irrefl _ (hsound.numbered _ hmem)
  rcases @step_resolve s id resolution with ⟨hnone, heq⟩ | ⟨entry, sessionId, context, hentry, hhandler, heq⟩ |
    ⟨entry, hentry, hphase, heq⟩
  · constructor
    · intro _ hsome
      rw [hnone] at hsome
      cases hsome
    · intro _
      rw [heq]
      exact delivers_of_phases h rfl rfl fun _ => Iff.rfl
  · have hwaiting : s.phase id = some (.waiting none) := phase_of_handlers hhandler
    refine ⟨fun _ _ => hwaiting, fun _ => ⟨?_, hsound'.acted_once⟩⟩
    intro call
    unfold ActsOn
    rw [heq]
    dsimp only
    rw [List.mem_cons, h.acknowledged_iff call, phase_update rfl]
    constructor
    · rintro (rfl | hacted | hin)
      · rw [if_pos rfl]
        exact Or.inr rfl
      · exact Or.inl hacted
      · by_cases heq' : call.id = id
        · rw [heq', hwaiting] at hin
          cases hin
        · rw [if_neg heq']
          exact Or.inr hin
    · rintro (hacted | hin)
      · exact Or.inr (Or.inl hacted)
      · by_cases heq' : call.id = id
        · rw [if_pos heq'] at hin
          cases hin
          exact Or.inl rfl
        · rw [if_neg heq'] at hin
          exact Or.inr (Or.inr hin)
  · constructor
    · intro hdelivers
      exfalso
      have hacts := (hdelivers.acknowledged_iff ⟨s.calls, id, resolution⟩).1 (by rw [heq]; exact List.mem_cons_self)
      rw [heq] at hacts
      rcases hacts with hacted | hin
      · exact hfresh (hsound.acted_acknowledged _ hacted)
      · exact hfresh (hsound.delivered id _ hin).2.1
    · intro hkeeps
      exact absurd (hkeeps (by rw [hentry]; rfl)) hphase

private theorem delivers_drop_iff (hsound : s.Sound) (h : s.Delivers) (id : Str) :
    (s.step (.drop id)).Delivers ↔ s.KeepsAnswer (.drop id) := by
  rcases @step_drop s id with ⟨hout, heq⟩ | ⟨-, handler, -, heq⟩
  · rw [heq]
    refine ⟨fun _ call hwaiting => ?_, fun _ => h⟩
    exact hout ⟨_, hwaiting, Or.inr (Or.inl ⟨_, rfl⟩)⟩
  · constructor
    · intro hdelivers call hwaiting
      obtain ⟨hid, hack, -⟩ := hsound.delivered id call hwaiting
      have hacts := (hdelivers.acknowledged_iff call).1 (by rw [heq]; exact hack)
      rw [heq] at hacts
      rcases hacts with hacted | hin
      · obtain ⟨answer, hfinished⟩ := hsound.acted_finished call hacted
        rw [hid, hwaiting] at hfinished
        cases hfinished
      · rw [phase_update rfl, if_pos hid] at hin
        cases hin
    · intro hkeeps
      rw [heq]
      exact delivers_of_move h rfl hkeeps (fun call hwaiting => by cases hwaiting) rfl rfl

/-- A step keeps the calls in line with what the handlers do exactly where it loses no resolution. -/
theorem delivers_step_iff (hsound : s.Sound) (h : s.Delivers) (a : PauseStep) :
    (s.step a).Delivers ↔ s.KeepsAnswer a := by
  cases a with
  | pause id sessionId context =>
    refine iff_of_true ?_ trivial
    rcases @step_pause s id sessionId context with heq | ⟨hnone, heq⟩
    · rw [heq]
      exact h
    · have hphase : s.phase id = none := by
        unfold phase
        rw [hnone]
        rfl
      rw [heq]
      refine delivers_of_move h rfl ?_ (fun call hwaiting => by cases hwaiting) rfl rfl
      intro call hwaiting
      rw [hphase] at hwaiting
      cases hwaiting
  | register id =>
    refine iff_of_true ?_ trivial
    rcases @step_register s id with heq | ⟨sessionId, context, hhandler, heq⟩
    · rw [heq]
      exact h
    · rw [heq]
      refine delivers_of_move h rfl ?_ (fun call hwaiting => by cases hwaiting) rfl rfl
      intro call hwaiting
      rw [phase_of_handlers hhandler] at hwaiting
      cases hwaiting
  | resolve id resolution => exact delivers_resolve_iff hsound h id resolution
  | wake id => exact iff_of_true (delivers_wake hsound h id) trivial
  | expire id =>
    refine iff_of_true ?_ trivial
    rcases @step_expire s id with heq | ⟨sessionId, context, hhandler, heq⟩
    · rw [heq]
      exact h
    · rw [heq]
      refine delivers_of_move h rfl ?_ (fun call hwaiting => by cases hwaiting) rfl rfl
      intro call hwaiting
      rw [phase_of_handlers hhandler] at hwaiting
      cases hwaiting
  | remove id =>
    refine iff_of_true ?_ trivial
    rcases @step_remove s id with heq | ⟨sessionId, context, hhandler, heq⟩
    · rw [heq]
      exact h
    · rw [heq]
      refine delivers_of_move h rfl ?_ (fun call hwaiting => by cases hwaiting) rfl rfl
      intro call hwaiting
      rw [phase_of_handlers hhandler] at hwaiting
      cases hwaiting
  | drop id => exact delivers_drop_iff hsound h id

theorem delivers_empty : empty.Delivers := by
  refine ⟨?_, List.nodup_nil⟩
  intro call
  constructor
  · intro h
    cases h
  · rintro (h | h) <;> cases h

/-- In every interleaving, the calls that return `Ok` are those on which the handlers act, and no breakpoint is acted
on twice, exactly where no step of it loses a resolution. -/
theorem delivers_run_iff (steps : List PauseStep) :
    EveryState step Delivers empty steps ↔ EveryStep step KeepsAnswer empty steps :=
  everyState_iff_everyStep sound_step (fun _ a hsound h => delivers_step_iff hsound h a) sound_empty delivers_empty
    steps

/-- Once nobody waits any more, the acknowledged calls are those that have been acted on. -/
theorem Delivers.acknowledged_iff_acted (h : s.Delivers) (hdone : ∀ id, ¬ s.InPause id) (call : ResolveCall) :
    call ∈ s.acknowledged ↔ call ∈ s.acted := by
  rw [h.acknowledged_iff call]
  constructor
  · rintro (hacted | hwaiting)
    · exact hacted
    · exact absurd ⟨_, hwaiting, Or.inr (Or.inl ⟨_, rfl⟩)⟩ (hdone call.id)
  · exact Or.inl

/-- A resolution which comes between the time-out of a handler and its clean-up is acknowledged and lost. -/
theorem not_delivers_run : ¬ ∀ steps, EveryState step Delivers empty steps := by
  intro h
  have hlast := (h [.pause "b1" (some "s1") (.request RequestContext.default), .register "b1", .expire "b1",
    .resolve "b1" .proceed]).last
  rcases (hlast.acknowledged_iff ⟨0, "b1", .proceed⟩).1 List.mem_cons_self with hacted | hwaiting
  · cases hacted
  · cases hwaiting

end BreakpointManager

end Oproxy
