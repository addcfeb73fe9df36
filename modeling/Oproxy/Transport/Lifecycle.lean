import Oproxy.Lib.Run

/-!
# Tracked tasks (`transport/lifecycle.rs`)

A tracked task is counted when it is spawned and discounted by its guard when it ends.  Both are done in two steps, the
update of the counter and the sending of the value which the update has given, and the steps of any number of tasks
come in any order.  The shutdown waits until the last value sent is zero.
-/

namespace Oproxy

inductive CounterOp where
  | increment
  | decrement
deriving DecidableEq

/-- An `increment` or a `decrement` between its two steps, with the value which it is going to send. -/
structure PendingUpdate where
  op : CounterOp
  task : Nat
  active : Nat
deriving DecidableEq

/-- The counter with the tasks around it.  A task is in `running` from the end of its `spawn_tracked` to the update by
its guard; what is between its two steps is in the order of the updates; and a wait knows the tasks which were running
when it began.  A counted task occupies memory, so the counter does not overflow. -/
structure TrackedTasks where
  active : Nat
  updates : Nat
  spawned : Nat
  running : List Nat
  between : List PendingUpdate
  waits : List (List Nat)
deriving DecidableEq

inductive TrackedStep where
  | increment
  | decrement (task : Nat)
  | send (task : Nat)
  | startWait
  /-- The wait looks at the last value, and returns if it is zero. -/
  | endWait (number : Nat)
deriving DecidableEq

namespace TrackedTasks

open Machine

def new : TrackedTasks := ⟨0, 0, 0, [], [], []⟩

/-- The operation of a task which is between its steps. -/
def pendingUpdate (s : TrackedTasks) (task : Nat) : Option PendingUpdate := s.between.find? fun p => p.task = task

/-- One step.  A step for which its task is not ready changes nothing. -/
def step (s : TrackedTasks) : TrackedStep → TrackedTasks
  | .increment =>
    { s with
      active := s.active + 1
      spawned := s.spawned + 1
      between := s.between ++ [⟨.increment, s.spawned, s.active + 1⟩] }
  | .decrement task =>
    if task ∈ s.running then
      { s with
        active := s.active - 1
        running := s.running.erase task
        between := s.between ++ [⟨.decrement, task, s.active - 1⟩] }
    else s
  | .send task =>
    match s.pendingUpdate task with
    | none => s
    | some p =>
      { s with
        updates := p.active
        between := s.between.erase p
        running := if p.op = .increment then task :: s.running else s.running }
  | .startWait => { s with waits := s.running :: s.waits }
  | .endWait number => if s.updates = 0 then { s with waits := s.waits.eraseIdx number } else s

/-- The last value sent is the counter whenever nobody is between the steps, and no wait which may return awaits a task
which is still running. -/
structure Drains (s : TrackedTasks) : Prop where
  published : s.between = [] → s.updates = s.active
  waits : s.updates = 0 → ∀ awaited ∈ s.waits, ∀ task ∈ awaited, task ∉ s.running

/-- A step that keeps the waits right: what is sent last is still the counter, a zero is sent while no wait awaits a
running task, and no wait begins behind a zero which is older than a running task. -/
def Timely (s : TrackedTasks) : TrackedStep → Prop
  | .send task => ∀ p, s.pendingUpdate task = some p →
      (s.between.erase p = [] → p.active = s.active) ∧
        (p.active = 0 → ∀ awaited ∈ s.waits, ∀ task ∈ awaited, task ∉ s.running)
  | .startWait => s.updates = 0 → s.running = []
  | _ => True

/-- No increment sends a zero. -/
def CountsUp (s : TrackedTasks) : Prop := ∀ p ∈ s.between, p.op = .increment → p.active ≠ 0

theorem countsUp_step (s : TrackedTasks) (a : TrackedStep) (h : s.CountsUp) : (s.step a).CountsUp := by
  cases a with
  | increment =>
    intro p hp hop
    rcases List.mem_append.1 hp with hp | hp
    · exact h p hp hop
    · rw [List.mem_singleton.1 hp]
      exact Nat.succ_ne_zero _
  | decrement task =>
    unfold step
    dsimp only
    split
    · intro p hp hop
      rcases List.mem_append.1 hp with hp | hp
      · exact h p hp hop
      · rw [List.mem_singleton.1 hp] at hop
        cases hop
    · exact h
  | send task =>
    unfold step
    dsimp only
    split
    · exact h
    · intro p hp
      exact h p (List.mem_of_mem_erase hp)
  | startWait => exact h
  | endWait number =>
    unfold step
    dsimp only
    split
    · exact h
    · exact h

/-- What a send leaves right, and when. -/
private theorem drains_send {s : TrackedTasks} {task : Nat} (hup : s.CountsUp) (h : s.Drains) :
    (s.step (.send task)).Drains ↔ s.Timely (.send task) := by
  cases hp : s.pendingUpdate task with
  | none =>
    have hsame : s.step (.send task) = s := by simp only [step, hp]
    rw [hsame]
    constructor
    · intro _ p hsome
      rw [hp] at hsome
      cases hsome
    · intro _
      exact h
  | some p =>
    have hmem : p ∈ s.between := List.mem_of_find?_eq_some hp
    have hrunning : p.active = 0 → (s.step (.send task)).running = s.running := by
      intro hzero
      have hop : p.op ≠ .increment := fun hop => hup p hmem hop hzero
      simp only [step, hp, if_neg hop]
    constructor
    · intro hafter q hq
      obtain rfl : p = q := by rw [hp] at hq; exact Option.some.inj hq
      have hpublished := hafter.published
      have hwaits := hafter.waits
      simp only [step, hp] at hpublished
      refine ⟨hpublished, ?_⟩
      intro hzero
      rw [hrunning hzero] at hwaits
      simp only [step, hp] at hwaits
      exact hwaits hzero
    · intro htimely
      obtain ⟨hpublished, hwaits⟩ := htimely p hp
      constructor
      · simp only [step, hp]
        exact hpublished
      · intro hzero
        have hzero' : p.active = 0 := by simpa only [step, hp] using hzero
        rw [hrunning hzero']
        simp only [step, hp]
        exact hwaits hzero'

private theorem drains_startWait {s : TrackedTasks} (h : s.Drains) :
    (s.step .startWait).Drains ↔ s.Timely .startWait := by
  constructor
  · intro hafter hzero
    rw [List.eq_nil_iff_forall_not_mem]
    intro task htask
    exact hafter.waits hzero s.running (List.mem_cons_self ..) task htask htask
  · intro htimely
    refine ⟨h.published, ?_⟩
    intro hzero awaited hawaited task htask
    rcases List.mem_cons.1 hawaited with rfl | hawaited
    · rw [htimely hzero] at htask
      cases htask
    · exact h.waits hzero awaited hawaited task htask

/-- The exact condition on one step. -/
theorem drains_step_iff (s : TrackedTasks) (a : TrackedStep) (hup : s.CountsUp) (h : s.Drains) :
    (s.step a).Drains ↔ s.Timely a := by
  cases a with
  | increment =>
    refine iff_of_true ⟨?_, h.waits⟩ trivial
    intro hnil
    exact absurd hnil (List.append_ne_nil_of_right_ne_nil _ (List.cons_ne_nil _ _))
  | decrement task =>
    refine iff_of_true ?_ trivial
    unfold step
    dsimp only
    split
    · refine ⟨?_, ?_⟩
      · intro hnil
        exact absurd hnil (List.append_ne_nil_of_right_ne_nil _ (List.cons_ne_nil _ _))
      · intro hzero awaited hawaited other hother hrunning
        exact h.waits hzero awaited hawaited other hother (List.mem_of_mem_erase hrunning)
    · exact h
  | send task => exact drains_send hup h
  | startWait => exact drains_startWait h
  | endWait number =>
    refine iff_of_true ?_ trivial
    unfold step
    dsimp only
    split
    · refine ⟨h.published, ?_⟩
      intro hzero awaited hawaited
      exact h.waits hzero awaited (List.mem_of_mem_eraseIdx hawaited)
    · exact h

theorem drains_new : new.Drains := ⟨fun _ => rfl, fun _ awaited h => by cases h⟩

theorem everyState_drains_iff (as : List TrackedStep) :
    EveryState step Drains new as ↔ EveryStep step Timely new as :=
  everyState_iff_everyStep countsUp_step drains_step_iff (by intro p hp; cases hp) drains_new as

/-! ### Sending in the order of the updates -/

def increments (between : List PendingUpdate) : Nat := between.countP fun p => p.op = .increment

def decrements (between : List PendingUpdate) : Nat := between.countP fun p => p.op = .decrement

/-- The operation which sends has made its update before all others that are between their steps. -/
def InOrder (s : TrackedTasks) : TrackedStep → Prop
  | .send task => s.pendingUpdate task = s.between.head?
  | _ => True

/-- `active` is the counter as it was before the updates of `later`. -/
def Before (s : TrackedTasks) (active : Nat) (later : List PendingUpdate) : Prop :=
  active + increments later = s.active + decrements later

/-- What holds while everything is sent in order: every value is the counter as its operation has left it, the last
value sent is that of the latest update that is not between the steps, and the counter counts the tasks. -/
structure Ordered (s : TrackedTasks) : Prop where
  values : ∀ earlier p later, s.between = earlier ++ p :: later → s.Before p.active later
  updates : s.Before s.updates s.between
  active : s.active = s.running.length + increments s.between

theorem increments_append (l l' : List PendingUpdate) : increments (l ++ l') = increments l + increments l' :=
  List.countP_append

theorem decrements_append (l l' : List PendingUpdate) : decrements (l ++ l') = decrements l + decrements l' :=
  List.countP_append

/-- What is before an update which has just been made. -/
private theorem before_concat {s s' : TrackedTasks} {p : PendingUpdate} {active : Nat} {later : List PendingUpdate}
    (h : s.Before active later)
    (hstep : s.active + increments [p] = s'.active + decrements [p]) : s'.Before active (later ++ [p]) := by
  unfold Before at h ⊢
  rw [increments_append, decrements_append]
  omega

private theorem ordered_update {s s' : TrackedTasks} {p : PendingUpdate} (h : s.Ordered)
    (hbetween : s'.between = s.between ++ [p]) (hvalue : p.active = s'.active) (hupdates : s'.updates = s.updates)
    (hstep : s.active + increments [p] = s'.active + decrements [p])
    (hactive : s'.active = s'.running.length + increments s'.between) : s'.Ordered := by
  refine ⟨?_, ?_, hactive⟩
  · intro earlier q later heq
    rw [hbetween] at heq
    -- the new operation is the last one
    rcases List.eq_nil_or_concat later with rfl | ⟨later, r, rfl⟩
    · obtain ⟨-, hsame⟩ := List.append_inj' heq rfl
      obtain rfl : p = q := List.head_eq_of_cons_eq hsame
      unfold Before
      rw [hvalue]
      rfl
    · rw [List.concat_eq_append, ← List.cons_append, ← List.append_assoc] at heq
      obtain ⟨hold, hsame⟩ := List.append_inj' heq rfl
      obtain rfl : p = r := List.head_eq_of_cons_eq hsame
      rw [List.concat_eq_append]
      exact before_concat (h.values earlier q later hold) hstep
  · rw [hbetween, hupdates]
    exact before_concat h.updates hstep

theorem ordered_step (s : TrackedTasks) (a : TrackedStep) (h : s.Ordered) (hin : s.InOrder a) : (s.step a).Ordered := by
  cases a with
  | increment =>
    -- the counter grows with the updates in flight
    refine ordered_update h rfl rfl rfl rfl ?_
    have hactive := h.active
    simp only [step, increments_append]
    simp only [increments, List.countP_singleton] at hactive ⊢
    simp only [decide_true, if_true]
    omega
  | decrement task =>
    unfold step
    dsimp only
    split
    · rename_i hmem
      have hactive := h.active
      have hlength := List.length_erase_of_mem hmem
      have hpos := List.length_pos_of_mem hmem
      have hincrements : increments [⟨.decrement, task, s.active - 1⟩] = 0 := rfl
      have hdecrements : decrements [⟨.decrement, task, s.active - 1⟩] = 1 := rfl
      refine ordered_update h rfl rfl rfl ?_ ?_
      · rw [hincrements, hdecrements]
        dsimp only
        omega
      · dsimp only
        rw [increments_append, hincrements, hlength]
        omega
    · exact h
  | send task =>
    unfold InOrder at hin
    cases hbetween : s.between with
    | nil =>
      have hsame : s.step (.send task) = s := by simp only [step, hin, hbetween, List.head?_nil]
      rw [hsame]
      exact h
    | cons p later =>
      rw [hbetween, List.head?_cons] at hin
      have hvalue : s.Before p.active later := h.values [] p later hbetween
      have hactive := h.active
      have hincrements : increments (p :: later) = increments [p] + increments later :=
        increments_append [p] later
      rw [hbetween, hincrements] at hactive
      simp only [step, hin, hbetween, List.erase_cons_head]
      refine ⟨?_, hvalue, ?_⟩
      · intro earlier q rest heq
        dsimp only at heq
        refine h.values (p :: earlier) q rest ?_
        rw [hbetween, heq, List.cons_append]
      · dsimp only
        rw [hactive]
        -- an update in flight becomes one that is sent
        by_cases hop : p.op = .increment
        · have hone : increments [p] = 1 := by simp [increments, hop]
          rw [if_pos hop, hone, List.length_cons]
          omega
        · have hzero : increments [p] = 0 := by simp [increments, hop]
          rw [if_neg hop, hzero]
          omega
  | startWait => exact ⟨h.values, h.updates, h.active⟩
  | endWait number =>
    unfold step
    dsimp only
    split
    · exact ⟨h.values, h.updates, h.active⟩
    · exact h

theorem ordered_new : new.Ordered := by
  refine ⟨?_, rfl, rfl⟩
  intro earlier p later heq
  cases earlier <;> cases heq

/-- A zero which has been sent in order finds no task running. -/
theorem Ordered.drains {s : TrackedTasks} (h : s.Ordered) : s.Drains := by
  have hupdates := h.updates
  have hactive := h.active
  unfold Before at hupdates
  constructor
  · intro hnil
    rw [hnil] at hupdates
    exact hupdates
  · intro hzero awaited _ task _ hrunning
    have hpos := List.length_pos_of_mem hrunning
    omega

/-- Where the values are sent in the order of the updates, the drain counts every task. -/
theorem drains_of_inOrder {as : List TrackedStep} (h : EveryStep step InOrder new as) : EveryState step Drains new as :=
  (everyState_of_everyStep ordered_step ordered_new h).imp fun _ => Ordered.drains

/-- The drain counts every task in every state of a run exactly when every step of the run is timely, and so in the runs
in which the values are sent in the order of the updates. -/
theorem drains_run_iff (as : List TrackedStep) :
    (EveryState step Drains new as ↔ EveryStep step Timely new as) ∧
      (EveryStep step InOrder new as → EveryStep step Timely new as ∧ EveryState step Drains new as) :=
  ⟨everyState_drains_iff as, fun h => ⟨(everyState_drains_iff as).1 (drains_of_inOrder h), drains_of_inOrder h⟩⟩

/-- A task ends, another one is spawned and awaited, and then the first one sends its zero: the wait may return. -/
theorem not_drains_run : ¬ ∀ as, EveryState step Drains new as := by
  intro h
  have hlast := (h [.increment, .send 0, .decrement 0, .increment, .send 1, .startWait, .send 0]).last
  have hpublished := hlast.published (by decide)
  revert hpublished
  decide

end TrackedTasks

end Oproxy
