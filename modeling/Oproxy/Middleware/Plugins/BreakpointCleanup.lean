import Oproxy.Middleware.Plugins.BreakpointDelivery

/-!
# What a pause leaves behind

A handler cleans up behind its wait: it takes its entry out of the map, unless a resolver has, and enqueues
`clear_paused` for its session.  None of this runs where the future of the handler is dropped while it waits.
-/

namespace Oproxy

namespace BreakpointManager

open Machine

/-- The handler whose pause of a session is the last and has not been cleared since; the latest operation is first. -/
def openPause (sessionId : Str) : List (Str × WriteOp) → Option Str
  | [] => none
  | (id, .markPaused session) :: queue => if session = sessionId then some id else openPause sessionId queue
  | (_, .clearPaused session) :: queue => if session = sessionId then none else openPause sessionId queue
  | _ :: queue => openPause sessionId queue

/-- Every entry of the map belongs to a handler in its pause, and a session whose last pause is by a handler that is
through has been cleared since. -/
structure NoOrphans (s : BreakpointManager) : Prop where
  pending : ∀ id, s.pending id ≠ none → s.InPause id
  paused : ∀ sessionId id, openPause sessionId s.queue = some id → s.InPause id

/-- A step that leaves nothing behind: a handler is dropped in its pause only where its entry is not in the map and no
session is paused by it. -/
def LeavesNothing (s : BreakpointManager) : PauseStep → Prop
  | .drop id => s.InPause id → s.pending id = none ∧ ∀ sessionId, openPause sessionId s.queue ≠ some id
  | _ => True

/-- What holds in every state of every run: a handler pauses its own session. -/
structure Owned (s : BreakpointManager) : Prop extends Sound s where
  session : ∀ sessionId id, openPause sessionId s.queue = some id →
    ∃ handler, s.handlers id = some handler ∧ handler.sessionId = some sessionId

variable {s : BreakpointManager}

theorem openPause_pauseOps (sessionId id : Str) (session : Option Str) (queue : List (Str × WriteOp)) :
    openPause sessionId (pauseOps id session ++ queue) =
      if session = some sessionId then some id else openPause sessionId queue := by
  cases session with
  | none => rfl
  | some session => simp [pauseOps, openPause]

theorem openPause_clearOps (sessionId id : Str) (session : Option Str) (queue : List (Str × WriteOp)) :
    openPause sessionId (clearOps id session ++ queue) =
      if session = some sessionId then none else openPause sessionId queue := by
  cases session with
  | none => rfl
  | some session => simp [clearOps, openPause]

theorem inPause_update {s' : BreakpointManager} {id : Str} {handler : PausedHandler}
    (h : s'.handlers = Function.update s.handlers id (some handler)) (id' : Str) :
    s'.InPause id' ↔ if id' = id then
      handler.phase = .marked ∨ (∃ delivered, handler.phase = .waiting delivered) ∨ handler.phase = .expired
      else s.InPause id' := by
  unfold InPause
  rw [phase_update h]
  split
  · simp
  · exact Iff.rfl

/-- A handler that stays in its pause keeps everything as it is. -/
private theorem noOrphans_of_stays (h : s.NoOrphans) {s' : BreakpointManager} {id : Str} {handler : PausedHandler}
    (hhandlers : s'.handlers = Function.update s.handlers id (some handler))
    (hphase : handler.phase = .marked ∨ (∃ delivered, handler.phase = .waiting delivered) ∨ handler.phase = .expired)
    (hpending : ∀ id', id' ≠ id → s'.pending id' ≠ none → s.pending id' ≠ none)
    (hqueue : ∀ sessionId id', id' ≠ id → openPause sessionId s'.queue = some id' →
      openPause sessionId s.queue = some id') : s'.NoOrphans := by
  constructor
  · intro id' hentry
    rw [inPause_update hhandlers]
    by_cases heq : id' = id
    · rw [if_pos heq]
      exact hphase
    · rw [if_neg heq]
      exact h.pending id' (hpending id' heq hentry)
  · intro sessionId id' hopen
    rw [inPause_update hhandlers]
    by_cases heq : id' = id
    · rw [if_pos heq]
      exact hphase
    · rw [if_neg heq]
      exact h.paused sessionId id' (hqueue sessionId id' heq hopen)

/-- A handler that leaves its pause leaves nothing, if its entry is out and its session is not paused by it. -/
private theorem noOrphans_of_leaves (h : s.NoOrphans) {s' : BreakpointManager} {id : Str} {handler : PausedHandler}
    (hhandlers : s'.handlers = Function.update s.handlers id (some handler))
    (hpending : ∀ id', s'.pending id' ≠ none → id' ≠ id ∧ s.pending id' ≠ none)
    (hqueue : ∀ sessionId id', openPause sessionId s'.queue = some id' →
      id' ≠ id ∧ openPause sessionId s.queue = some id') : s'.NoOrphans := by
  constructor
  · intro id' hentry
    obtain ⟨hne, hold⟩ := hpending id' hentry
    rw [inPause_update hhandlers, if_neg hne]
    exact h.pending id' hold
  · intro sessionId id' hopen
    obtain ⟨hne, hold⟩ := hqueue sessionId id' hopen
    rw [inPause_update hhandlers, if_neg hne]
    exact h.paused sessionId id' hold

/-- What is open behind the clearing of a handler's session is not by that handler. -/
private theorem open_of_clearOps (h : s.Owned) {id : Str} {session : Option Str} {context : BreakpointContext}
    {phase : PausePhase} (hhandler : s.handlers id = some ⟨session, context, phase⟩) (sessionId id' : Str)
    (hopen : openPause sessionId (clearOps id session ++ s.queue) = some id') :
    id' ≠ id ∧ openPause sessionId s.queue = some id' := by
  rw [openPause_clearOps] at hopen
  split at hopen
  · cases hopen
  · rename_i hother
    refine ⟨?_, hopen⟩
    rintro rfl
    obtain ⟨handler, hsame, hsession⟩ := h.session sessionId id' hopen
    rw [hhandler, Option.some.injEq] at hsame
    rw [← hsame] at hsession
    exact hother hsession

theorem owned_empty : empty.Owned := { sound_empty with session := by intro sessionId id h; cases h }

private theorem session_of_update (h : s.Owned) {id : Str} {handler handler' : PausedHandler}
    (hhandler : s.handlers id = some handler) (hsame : handler'.sessionId = handler.sessionId) (sessionId id' : Str)
    (hopen : openPause sessionId s.queue = some id') :
    ∃ after, Function.update s.handlers id (some handler') id' = some after ∧ after.sessionId = some sessionId := by
  obtain ⟨before, hbefore, hsession⟩ := h.session sessionId id' hopen
  by_cases heq : id' = id
  · rw [heq, hhandler, Option.some.injEq] at hbefore
    rw [heq, Function.update_self]
    exact ⟨handler', rfl, by rw [hsame, hbefore, hsession]⟩
  · rw [Function.update_of_ne heq]
    exact ⟨before, hbefore, hsession⟩

theorem owned_step (s : BreakpointManager) (a : PauseStep) (h : s.Owned) : (s.step a).Owned := by
  -- only the sessions are new here
  refine { sound_step s a h.toSound with session := ?_ }
  cases a with
  | pause id session context =>
    rcases @step_pause s id session context with heq | ⟨hnone, heq⟩
    · rw [heq]
      exact h.session
    · rw [heq]
      intro sessionId id' hopen
      dsimp only at hopen ⊢
      -- the pause that is open under a session is now that of the new handler, or an older one
      rw [openPause_pauseOps] at hopen
      split at hopen
      · rename_i hsession
        rw [Option.some.injEq] at hopen
        rw [← hopen, Function.update_self]
        exact ⟨_, rfl, hsession⟩
      · obtain ⟨handler, hhandler, hsession⟩ := h.session sessionId id' hopen
        rw [Function.update_of_ne]
        · exact ⟨handler, hhandler, hsession⟩
        · rintro rfl
          rw [hnone] at hhandler
          cases hhandler
  | register id =>
    rcases @step_register s id with heq | ⟨session, context, hhandler, heq⟩
    · rw [heq]
      exact h.session
    · rw [heq]
      exact session_of_update h hhandler rfl
  | resolve id resolution =>
    rcases @step_resolve s id resolution
      with ⟨-, heq⟩ | ⟨entry, session, context, -, hhandler, heq⟩ | ⟨entry, -, -, heq⟩
    · rw [heq]
      exact h.session
    · rw [heq]
      exact session_of_update h hhandler rfl
    · rw [heq]
      exact h.session
  | wake id =>
    rcases @step_wake s id with heq | ⟨session, context, call, hhandler, heq⟩
    · rw [heq]
      exact h.session
    · rw [heq]
      intro sessionId id' hopen
      -- the handler clears its own pause, and no other
      have hkept := (open_of_clearOps h hhandler sessionId id' hopen).2
      exact @session_of_update s h id _ ⟨session, context, .finished call.resolution.answer⟩ hhandler rfl sessionId id'
        hkept
  | expire id =>
    rcases @step_expire s id with heq | ⟨session, context, hhandler, heq⟩
    · rw [heq]
      exact h.session
    · rw [heq]
      exact session_of_update h hhandler rfl
  | remove id =>
    rcases @step_remove s id with heq | ⟨session, context, hhandler, heq⟩
    · rw [heq]
      exact h.session
    · rw [heq]
      intro sessionId id' hopen
      have hkept := (open_of_clearOps h hhandler sessionId id' hopen).2
      exact @session_of_update s h id _ ⟨session, context, .finished BreakpointAnswer.timedOut⟩ hhandler rfl sessionId
        id' hkept
  | drop id =>
    rcases @step_drop s id with ⟨-, heq⟩ | ⟨-, handler, hhandler, heq⟩
    · rw [heq]
      exact h.session
    · rw [heq]
      exact session_of_update h hhandler rfl

private theorem noOrphans_drop_iff (h : s.NoOrphans) (id : Str) :
    (s.step (.drop id)).NoOrphans ↔ s.LeavesNothing (.drop id) := by
  rcases @step_drop s id with ⟨hout, heq⟩ | ⟨hin, handler, hhandler, heq⟩
  · rw [heq]
    exact ⟨fun _ hin => absurd hin hout, fun _ => h⟩
  · rw [heq]
    constructor
    · intro horphans _
      have hgone : ¬ InPause { s with
        handlers := Function.update s.handlers id (some { handler with phase := .dropped }) }
          id := by
        rw [inPause_update rfl, if_pos rfl]
        rintro (h | ⟨_, h⟩ | h) <;> cases h
      refine ⟨?_, ?_⟩
      · by_contra hentry
        exact hgone (horphans.pending id hentry)
      · intro sessionId hopen
        exact hgone (horphans.paused sessionId id hopen)
    · intro hleaves
      obtain ⟨hentry, hopen⟩ := hleaves hin
      refine noOrphans_of_leaves h rfl ?_ ?_
      · intro id' hentry'
        refine ⟨?_, hentry'⟩
        rintro rfl
        exact hentry' hentry
      · intro sessionId id' hopen'
        refine ⟨?_, hopen'⟩
        rintro rfl
        exact hopen sessionId hopen'

/-- A step leaves no orphan exactly where it is no drop that leaves something behind. -/
theorem noOrphans_step_iff (howned : s.Owned) (h : s.NoOrphans) (a : PauseStep) :
    (s.step a).NoOrphans ↔ s.LeavesNothing a := by
  cases a with
  | pause id session context =>
    refine iff_of_true ?_ trivial
    rcases @step_pause s id session context with heq | ⟨hnone, heq⟩
    · rw [heq]
      exact h
    · rw [heq]
      refine noOrphans_of_stays h rfl (Or.inl rfl) (fun _ _ hentry => hentry) ?_
      intro sessionId id' hne hopen
      dsimp only at hopen
      rw [openPause_pauseOps] at hopen
      split at hopen
      · rw [Option.some.injEq] at hopen
        exact absurd hopen.symm hne
      · exact hopen
  | register id =>
    refine iff_of_true ?_ trivial
    rcases @step_register s id with heq | ⟨session, context, hhandler, heq⟩
    · rw [heq]
      exact h
    · rw [heq]
      refine noOrphans_of_stays h rfl (Or.inr (Or.inl ⟨_, rfl⟩)) ?_ (fun _ _ _ hopen => hopen)
      intro id' hne hentry
      dsimp only at hentry
      rwa [Function.update_of_ne hne] at hentry
  | resolve id resolution =>
    refine iff_of_true ?_ trivial
    have hsmaller : ∀ id', Function.update s.pending id none id' ≠ none → s.pending id' ≠ none := by
      intro id' hentry
      rw [Function.update_apply] at hentry
      split at hentry
      · exact absurd rfl hentry
      · exact hentry
    rcases @step_resolve s id resolution
      with ⟨-, heq⟩ | ⟨entry, session, context, -, hhandler, heq⟩ | ⟨entry, -, -, heq⟩
    · rw [heq]
      exact ⟨h.pending, h.paused⟩
    · rw [heq]
      exact noOrphans_of_stays h rfl (Or.inr (Or.inl ⟨_, rfl⟩)) (fun id' _ => hsmaller id') (fun _ _ _ hopen => hopen)
    · rw [heq]
      exact ⟨fun id' hentry => h.pending id' (hsmaller id' hentry), h.paused⟩
  | wake id =>
    refine iff_of_true ?_ trivial
    rcases @step_wake s id with heq | ⟨session, context, call, hhandler, heq⟩
    · rw [heq]
      exact h
    · rw [heq]
      refine noOrphans_of_leaves h rfl ?_ (open_of_clearOps howned hhandler)
      -- the resolver has taken the entry out
      intro id' hentry
      refine ⟨?_, hentry⟩
      rintro rfl
      exact hentry (howned.delivered id' call (phase_of_handlers hhandler)).2.2
  | expire id =>
    refine iff_of_true ?_ trivial
    rcases @step_expire s id with heq | ⟨session, context, hhandler, heq⟩
    · rw [heq]
      exact h
    · rw [heq]
      exact noOrphans_of_stays h rfl (Or.inr (Or.inr rfl)) (fun _ _ hentry => hentry) (fun _ _ _ hopen => hopen)
  | remove id =>
    refine iff_of_true ?_ trivial
    rcases @step_remove s id with heq | ⟨session, context, hhandler, heq⟩
    · rw [heq]
      exact h
    · rw [heq]
      refine noOrphans_of_leaves h rfl ?_ (open_of_clearOps howned hhandler)
      intro id' hentry
      dsimp only at hentry
      rw [Function.update_apply] at hentry
      split at hentry
      · exact absurd rfl hentry
      · rename_i hne
        exact ⟨hne, hentry⟩
  | drop id => exact noOrphans_drop_iff h id

theorem noOrphans_empty : empty.NoOrphans := by
  constructor
  · intro id hentry
    exact absurd rfl hentry
  · intro sessionId id hopen
    cases hopen

/-- A run leaves no orphan in any of its states exactly where no drop of it leaves something behind. -/
theorem noOrphans_run_iff (steps : List PauseStep) :
    EveryState step NoOrphans empty steps ↔ EveryStep step LeavesNothing empty steps :=
  everyState_iff_everyStep owned_step (fun _ a howned h => noOrphans_step_iff howned h a) owned_empty noOrphans_empty
    steps

/-- The entry of a handler whose client goes away stays in the map. -/
theorem not_noOrphans_run : ¬ ∀ steps, EveryState step NoOrphans empty steps := by
  intro h
  have hlast := (h [.pause "b1" (some "s1") (.request RequestContext.default), .register "b1", .drop "b1"]).last
  obtain ⟨phase, hphase, hin⟩ := hlast.pending "b1" (fun hnone => by cases hnone)
  cases hphase
  rcases hin with hin | ⟨_, hin⟩ | hin <;> cases hin

end BreakpointManager

end Oproxy
