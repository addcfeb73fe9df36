import Mathlib.Logic.Function.Basic
import Oproxy.Lib.Run
import Oproxy.Middleware.Plugins.Breakpoints
import Oproxy.Session.Store

/-!
# Pending breakpoints (`middleware/plugins/breakpoints.rs`)

Any number of handlers (`on_request`, `on_response`, `pause_frame`) wait for the operator.  Each makes up an id,
marks its session as paused, puts an entry under its id into the map of pending breakpoints, and waits for the
receiving end of the channel whose sending end is in the entry.  The steps here are what happens between two points
at which a handler or a resolver waits for a lock or for the channel; the steps of all of them come in any order.
-/

namespace Oproxy

/-- A call of `resolve_breakpoint`, with its number among the calls. -/
structure ResolveCall where
  number : Nat
  id : Str
  resolution : BreakpointResolution

/-- How far a handler is. -/
inductive PausePhase where
  /-- The session is marked; the handler waits for the lock of the map. -/
  | marked
  /-- The entry is in the map; the channel may hold an answer. -/
  | waiting (delivered : Option ResolveCall)
  /-- The time is up and the receiver is gone; the handler waits for the lock to take its entry out. -/
  | expired
  | finished (answer : BreakpointAnswer)
  /-- The client has gone away, and the handler with it. -/
  | dropped

structure PausedHandler where
  sessionId : Option Str
  context : BreakpointContext
  phase : PausePhase

/-- An entry of the map.  Its sending end belongs to the receiver of the handler with the same id. -/
structure PendingBreakpoint where
  bpType : BreakpointType
  context : BreakpointContext

def BreakpointContext.bpType : BreakpointContext → BreakpointType
  | .request _ => .request
  | .response _ => .response

/-- The map with its handlers, the calls of `resolve_breakpoint` that have returned `Ok`, the calls on which a handler
has acted, and the operations which the handlers have enqueued, the latest first. -/
structure BreakpointManager where
  handlers : Str → Option PausedHandler
  pending : Str → Option PendingBreakpoint
  calls : Nat
  acknowledged : List ResolveCall
  acted : List ResolveCall
  queue : List (Str × WriteOp)

inductive PauseStep where
  | pause (id : Str) (sessionId : Option Str) (context : BreakpointContext)
  | register (id : Str)
  | resolve (id : Str) (resolution : BreakpointResolution)
  | wake (id : Str)
  | expire (id : Str)
  | remove (id : Str)
  | drop (id : Str)

namespace BreakpointManager

def empty : BreakpointManager := ⟨fun _ => none, fun _ => none, 0, [], [], []⟩

def setPhase (s : BreakpointManager) (id : Str) (handler : PausedHandler) (phase : PausePhase) : BreakpointManager :=
  { s with handlers := Function.update s.handlers id (some { handler with phase := phase }) }

/-- What a handler enqueues when it starts to wait, the latest first. -/
def pauseOps (id : Str) (sessionId : Option Str) : List (Str × WriteOp) :=
  match sessionId with
  | some sessionId => [(id, .appendEvent sessionId (.breakpointPaused id)), (id, .markPaused sessionId)]
  | none => []

/-- What a handler enqueues when it goes on. -/
def clearOps (id : Str) (sessionId : Option Str) : List (Str × WriteOp) :=
  match sessionId with
  | some sessionId => [(id, .clearPaused sessionId)]
  | none => []

/-- One step.  A step for which its handler is not ready changes nothing. -/
def step (s : BreakpointManager) : PauseStep → BreakpointManager
  | .pause id sessionId context =>
    match s.handlers id with
    | some _ => s
    | none =>
      { s with
        handlers := Function.update s.handlers id (some ⟨sessionId, context, .marked⟩)
        queue := pauseOps id sessionId ++ s.queue }
  | .register id =>
    match s.handlers id with
    | some ⟨sessionId, context, .marked⟩ =>
      { s.setPhase id ⟨sessionId, context, .marked⟩ (.waiting none) with
        pending := Function.update s.pending id (some ⟨context.bpType, context⟩) }
    | _ => s
  | .resolve id resolution =>
    match s.pending id with
    | none => { s with calls := s.calls + 1 }
    | some _ =>
      let call : ResolveCall := ⟨s.calls, id, resolution⟩
      let s := { s with
        calls := s.calls + 1
        pending := Function.update s.pending id none
        acknowledged := call :: s.acknowledged }
      -- the result of sending is not looked at
      match s.handlers id with
      | some ⟨sessionId, context, .waiting none⟩ =>
        s.setPhase id ⟨sessionId, context, .waiting none⟩ (.waiting (some call))
      | _ => s
  | .wake id =>
    match s.handlers id with
    | some ⟨sessionId, context, .waiting (some call)⟩ =>
      { s.setPhase id ⟨sessionId, context, .waiting (some call)⟩ (.finished call.resolution.answer) with
        acted := call :: s.acted
        queue := clearOps id sessionId ++ s.queue }
    | _ => s
  | .expire id =>
    match s.handlers id with
    | some ⟨sessionId, context, .waiting none⟩ => s.setPhase id ⟨sessionId, context, .waiting none⟩ .expired
    | _ => s
  | .remove id =>
    match s.handlers id with
    | some ⟨sessionId, context, .expired⟩ =>
      { s.setPhase id ⟨sessionId, context, .expired⟩ (.finished .timedOut) with
        pending := Function.update s.pending id none
        queue := clearOps id sessionId ++ s.queue }
    | _ => s
  | .drop id =>
    match s.handlers id with
    | none => s
    | some ⟨_, _, .finished _⟩ => s
    | some ⟨_, _, .dropped⟩ => s
    | some handler => s.setPhase id handler .dropped

def phase (s : BreakpointManager) (id : Str) : Option PausePhase := (s.handlers id).map PausedHandler.phase

/-! ### What each step does -/

variable {s : BreakpointManager} {id : Str}

theorem phase_of_handlers {sessionId : Option Str} {context : BreakpointContext} {phase : PausePhase}
    (h : s.handlers id = some ⟨sessionId, context, phase⟩) : s.phase id = some phase := by
  unfold BreakpointManager.phase
  rw [h]
  rfl

theorem phase_update {s' : BreakpointManager} {handler : PausedHandler}
    (h : s'.handlers = Function.update s.handlers id (some handler)) (id' : Str) :
    s'.phase id' = if id' = id then some handler.phase else s.phase id' := by
  unfold phase
  rw [h, Function.update_apply]
  split <;> rfl

theorem step_pause (sessionId : Option Str) (context : BreakpointContext) :
    s.step (.pause id sessionId context) = s ∨
      s.handlers id = none ∧ s.step (.pause id sessionId context) =
        { s with
          handlers := Function.update s.handlers id (some ⟨sessionId, context, .marked⟩)
          queue := pauseOps id sessionId ++ s.queue } := by
  cases h : s.handlers id with
  | some handler => exact Or.inl (by simp only [step, h])
  | none => exact Or.inr ⟨rfl, by simp only [step, h]⟩

theorem step_register :
    s.step (.register id) = s ∨
      ∃ sessionId context, s.handlers id = some ⟨sessionId, context, .marked⟩ ∧ s.step (.register id) =
        { s with
          handlers := Function.update s.handlers id (some ⟨sessionId, context, .waiting none⟩)
          pending := Function.update s.pending id (some ⟨context.bpType, context⟩) } := by
  rcases h : s.handlers id with _ | ⟨sessionId, context, _ | delivered | _ | answer | _⟩
  · exact Or.inl (by simp only [step, h])
  · exact Or.inr ⟨sessionId, context, rfl, by simp only [step, h, setPhase]⟩
  all_goals exact Or.inl (by simp only [step, h])

/-- A call which finds an entry takes it out; it reaches its handler where that one still waits. -/
theorem step_resolve (resolution : BreakpointResolution) :
    (s.pending id = none ∧ s.step (.resolve id resolution) = { s with calls := s.calls + 1 }) ∨
      (∃ entry sessionId context, s.pending id = some entry ∧
        s.handlers id = some ⟨sessionId, context, .waiting none⟩ ∧ s.step (.resolve id resolution) =
          { s with
            handlers := Function.update s.handlers id
              (some ⟨sessionId, context, .waiting (some ⟨s.calls, id, resolution⟩)⟩)
            calls := s.calls + 1
            pending := Function.update s.pending id none
            acknowledged := ⟨s.calls, id, resolution⟩ :: s.acknowledged }) ∨
      ∃ entry, s.pending id = some entry ∧ s.phase id ≠ some (.waiting none) ∧ s.step (.resolve id resolution) =
        { s with
          calls := s.calls + 1
          pending := Function.update s.pending id none
          acknowledged := ⟨s.calls, id, resolution⟩ :: s.acknowledged } := by
  cases hentry : s.pending id with
  | none => exact Or.inl ⟨rfl, by simp only [step, hentry]⟩
  | some entry =>
    right
    rcases h : s.handlers id with _ | ⟨sessionId, context, _ | (_ | call) | _ | answer | _⟩
    case some.some.waiting.none =>
      exact Or.inl ⟨entry, sessionId, context, rfl, rfl, by simp only [step, hentry, h, setPhase]⟩
    all_goals exact Or.inr ⟨entry, rfl, by simp [phase, h], by simp only [step, hentry, h]⟩

theorem step_wake :
    s.step (.wake id) = s ∨
      ∃ sessionId context call, s.handlers id = some ⟨sessionId, context, .waiting (some call)⟩ ∧
        s.step (.wake id) =
          { s with
            handlers := Function.update s.handlers id (some ⟨sessionId, context, .finished call.resolution.answer⟩)
            acted := call :: s.acted
            queue := clearOps id sessionId ++ s.queue } := by
  rcases h : s.handlers id with _ | ⟨sessionId, context, _ | (_ | call) | _ | answer | _⟩
  case some.waiting.some => exact Or.inr ⟨sessionId, context, call, rfl, by simp only [step, h, setPhase]⟩
  all_goals exact Or.inl (by simp only [step, h])

theorem step_expire :
    s.step (.expire id) = s ∨
      ∃ sessionId context, s.handlers id = some ⟨sessionId, context, .waiting none⟩ ∧ s.step (.expire id) =
        { s with handlers := Function.update s.handlers id (some ⟨sessionId, context, .expired⟩) } := by
  rcases h : s.handlers id with _ | ⟨sessionId, context, _ | (_ | call) | _ | answer | _⟩
  case some.waiting.none => exact Or.inr ⟨sessionId, context, rfl, by simp only [step, h, setPhase]⟩
  all_goals exact Or.inl (by simp only [step, h])

theorem step_remove :
    s.step (.remove id) = s ∨
      ∃ sessionId context, s.handlers id = some ⟨sessionId, context, .expired⟩ ∧ s.step (.remove id) =
        { s with
          handlers := Function.update s.handlers id (some ⟨sessionId, context, .finished .timedOut⟩)
          pending := Function.update s.pending id none
          queue := clearOps id sessionId ++ s.queue } := by
  rcases h : s.handlers id with _ | ⟨sessionId, context, _ | (_ | call) | _ | answer | _⟩
  case some.expired => exact Or.inr ⟨sessionId, context, rfl, by simp only [step, h, setPhase]⟩
  all_goals exact Or.inl (by simp only [step, h])

/-- Whether a handler is in its pause: its future is alive, and not yet past what follows the wait. -/
def InPause (s : BreakpointManager) (id : Str) : Prop :=
  ∃ phase, s.phase id = some phase ∧ (phase = .marked ∨ (∃ delivered, phase = .waiting delivered) ∨ phase = .expired)

theorem step_drop :
    (¬ s.InPause id ∧ s.step (.drop id) = s) ∨
      s.InPause id ∧ ∃ handler, s.handlers id = some handler ∧ s.step (.drop id) =
        { s with handlers := Function.update s.handlers id (some { handler with phase := .dropped }) } := by
  rcases h : s.handlers id with _ | ⟨sessionId, context, _ | delivered | _ | answer | _⟩
  · left
    refine ⟨?_, by simp only [step, h]⟩
    rintro ⟨phase, hphase, -⟩
    unfold BreakpointManager.phase at hphase
    rw [h] at hphase
    cases hphase
  · exact Or.inr ⟨⟨_, phase_of_handlers h, Or.inl rfl⟩, _, rfl, by simp only [step, h, setPhase]⟩
  · exact Or.inr ⟨⟨_, phase_of_handlers h, Or.inr (Or.inl ⟨_, rfl⟩)⟩, _, rfl, by simp only [step, h, setPhase]⟩
  · exact Or.inr ⟨⟨_, phase_of_handlers h, Or.inr (Or.inr rfl)⟩, _, rfl, by simp only [step, h, setPhase]⟩
  · left
    refine ⟨?_, by simp only [step, h]⟩
    rintro ⟨phase, hphase, hin⟩
    rw [phase_of_handlers h] at hphase
    cases hphase
    rcases hin with hin | ⟨_, hin⟩ | hin <;> cases hin
  · left
    refine ⟨?_, by simp only [step, h]⟩
    rintro ⟨phase, hphase, hin⟩
    rw [phase_of_handlers h] at hphase
    cases hphase
    rcases hin with hin | ⟨_, hin⟩ | hin <;> cases hin

end BreakpointManager

end Oproxy
