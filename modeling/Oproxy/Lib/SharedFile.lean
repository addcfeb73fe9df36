import Mathlib.Logic.Function.Basic
import Oproxy.Lib.Run

/-!
# A shared value and its file

A value behind a readers-writer lock, and a file which is to hold it.  A request edits the value under the lock for
writing and then saves it; the steps are what happens between two points at which a request waits for the lock or for
the file, and those of any number of requests come in any order.  A save is one step: the file is written aside and
renamed.  Two values that look the same to `view` count as equal.
-/

namespace SharedFile

open Machine

/-- What a request does with the lock between its edit and its save. -/
inductive Discipline where
  /-- The lock is kept. -/
  | held
  /-- The lock is released, taken for reading and kept. -/
  | readHeld
  /-- The lock is released, and taken for reading to copy the value; the copy is saved. -/
  | copied
  deriving DecidableEq

/-- How a request is handled; an edit without a result is refused and saves nothing. -/
structure Handler (C : Type) where
  edit : C → Option C
  discipline : Discipline

/-- How far a request is. -/
inductive Phase (C : Type) where
  /-- Between its two locks; `reads` tells whether it is going to keep the second one. -/
  | edited (reads : Bool)
  | saving (discipline : Discipline) (content : C)
  | returned

structure State (C : Type) where
  value : C
  file : C
  writer : Option Nat
  readers : List Nat
  phases : Nat → Option (Phase C)

inductive Step (R T : Type) where
  | request (id : Nat) (request : R)
  | read (id : Nat)
  | save (id : Nat)
  /-- A change of the value by something that never saves. -/
  | tick (change : T)

variable {C R T V : Type} (handler : R → Handler C) (tick : T → C → C) (view : C → V)

/-- The value has been loaded from its file. -/
def start (value : C) : State C := ⟨value, value, none, [], fun _ => none⟩

def State.unlocked (s : State C) : Bool := s.writer.isNone && s.readers.isEmpty

def State.setPhase (s : State C) (id : Nat) (phase : Phase C) : State C :=
  { s with phases := Function.update s.phases id (some phase) }

/-- One step.  A step for which its request is not ready, or which has to wait for the lock, changes nothing. -/
def step (s : State C) : Step R T → State C
  | .request id request =>
    match s.unlocked, s.phases id with
    | true, none =>
      match (handler request).edit s.value, (handler request).discipline with
      | none, _ => s.setPhase id .returned
      | some value, .held => { s.setPhase id (.saving .held value) with value := value, writer := some id }
      | some value, .readHeld => { s.setPhase id (.edited true) with value := value }
      | some value, .copied => { s.setPhase id (.edited false) with value := value }
    | _, _ => s
  | .read id =>
    match s.writer, s.phases id with
    | none, some (.edited true) => { s.setPhase id (.saving .readHeld s.value) with readers := id :: s.readers }
    | none, some (.edited false) => s.setPhase id (.saving .copied s.value)
    | _, _ => s
  | .save id =>
    match s.phases id with
    | some (.saving _ content) =>
      { s.setPhase id .returned with
        file := content
        writer := if s.writer = some id then none else s.writer
        readers := s.readers.erase id }
    | _ => s
  | .tick change => if s.unlocked then { s with value := tick change s.value } else s

def State.Returned (s : State C) (id : Nat) : Prop := ∀ phase, s.phases id = some phase → phase = .returned

/-- Whenever all requests have returned, the file holds the value. -/
def Saved (s : State C) : Prop := (∀ id, s.Returned id) → view s.file = view s.value

/-- A copy that is saved after all other requests have returned is still the value. -/
def Fresh (s : State C) : Step R T → Prop
  | .save id => ∀ content, s.phases id = some (.saving .copied content) → (∀ other, other ≠ id → s.Returned other) →
      view content = view s.value
  | _ => True

/-- What is saved under the lock is the value. -/
structure Locked (s : State C) : Prop where
  held : ∀ id content, s.phases id = some (.saving .held content) → s.writer = some id ∧ content = s.value
  readHeld : ∀ id content, s.phases id = some (.saving .readHeld content) → id ∈ s.readers ∧ content = s.value

variable {handler tick view} {s : State C}

theorem returned_setPhase_returned (id other : Nat) :
    (s.setPhase id .returned).Returned other ↔ other = id ∨ s.Returned other := by
  unfold State.Returned State.setPhase
  dsimp only
  by_cases heq : other = id
  · rw [heq, Function.update_self]
    simp
  · rw [Function.update_of_ne heq]
    simp [heq]

/-- Behind a request in another phase somebody has not returned. -/
theorem not_returned_setPhase (s : State C) (id : Nat) {phase : Phase C} (h : phase ≠ .returned) :
    ¬ (s.setPhase id phase).Returned id := by
  intro hreturned
  exact h (hreturned phase (Function.update_self ..))

private theorem phases_setPhase {id other : Nat} {phase p : Phase C} (h : (s.setPhase id phase).phases other = some p) :
    (other = id ∧ phase = p) ∨ (other ≠ id ∧ s.phases other = some p) := by
  unfold State.setPhase at h
  dsimp only at h
  by_cases heq : other = id
  · rw [heq, Function.update_self, Option.some.injEq] at h
    exact Or.inl ⟨heq, h⟩
  · rw [Function.update_of_ne heq] at h
    exact Or.inr ⟨heq, h⟩

private theorem not_saving_of_unlocked (h : Locked s) (hunlocked : s.unlocked = true) (id : Nat) (content : C) :
    s.phases id ≠ some (.saving .held content) ∧ s.phases id ≠ some (.saving .readHeld content) := by
  unfold State.unlocked at hunlocked
  obtain ⟨hwriter, hreaders⟩ := Bool.and_eq_true_iff.1 hunlocked
  constructor
  · intro hphase
    rw [(h.held id content hphase).1] at hwriter
    cases hwriter
  · intro hphase
    have hmem := (h.readHeld id content hphase).1
    rw [List.isEmpty_iff.1 hreaders] at hmem
    cases hmem

/-- Where nobody has the lock, the value may change. -/
private theorem locked_of_unlocked (h : Locked s) (hunlocked : s.unlocked = true) {s' : State C}
    (hphases : ∀ id discipline content, s'.phases id = some (.saving discipline content) →
      s.phases id = some (.saving discipline content) ∨
        discipline = .held ∧ s'.writer = some id ∧ content = s'.value) : Locked s' := by
  constructor
  · intro id content hphase
    rcases hphases id _ content hphase with hold | ⟨-, hwriter, hvalue⟩
    · exact absurd hold (not_saving_of_unlocked h hunlocked id content).1
    · exact ⟨hwriter, hvalue⟩
  · intro id content hphase
    rcases hphases id _ content hphase with hold | ⟨hheld, -⟩
    · exact absurd hold (not_saving_of_unlocked h hunlocked id content).2
    · cases hheld

private theorem locked_request (h : Locked s) (id : Nat) (request : R) :
    Locked (step handler tick s (.request id request)) := by
  unfold step
  dsimp only
  split
  · rename_i hunlocked hnone
    -- the request may start to save, but only as the writer
    split
    · refine locked_of_unlocked h hunlocked fun other discipline content hphase => ?_
      rcases phases_setPhase hphase with ⟨-, hsame⟩ | ⟨-, hold⟩
      · cases hsame
      · exact Or.inl hold
    · refine locked_of_unlocked h hunlocked fun other discipline content hphase => ?_
      rcases phases_setPhase hphase with ⟨rfl, hsame⟩ | ⟨-, hold⟩
      · cases hsame
        exact Or.inr ⟨rfl, rfl, rfl⟩
      · exact Or.inl hold
    · refine locked_of_unlocked h hunlocked fun other discipline content hphase => ?_
      rcases phases_setPhase hphase with ⟨-, hsame⟩ | ⟨-, hold⟩
      · cases hsame
      · exact Or.inl hold
    · refine locked_of_unlocked h hunlocked fun other discipline content hphase => ?_
      rcases phases_setPhase hphase with ⟨-, hsame⟩ | ⟨-, hold⟩
      · cases hsame
      · exact Or.inl hold
  · exact h

private theorem locked_read (h : Locked s) (id : Nat) : Locked (step handler tick s (.read id : Step R T)) := by
  unfold step
  dsimp only
  split
  · refine ⟨fun other content hphase => ?_, fun other content hphase => ?_⟩
    · rcases phases_setPhase hphase with ⟨-, hsame⟩ | ⟨-, hold⟩
      · cases hsame
      · exact h.held other content hold
    · rcases phases_setPhase hphase with ⟨rfl, hsame⟩ | ⟨-, hold⟩
      · cases hsame
        exact ⟨List.mem_cons_self, rfl⟩
      · exact ⟨List.mem_cons_of_mem _ (h.readHeld other content hold).1, (h.readHeld other content hold).2⟩
  · refine ⟨fun other content hphase => ?_, fun other content hphase => ?_⟩
    · rcases phases_setPhase hphase with ⟨-, hsame⟩ | ⟨-, hold⟩
      · cases hsame
      · exact h.held other content hold
    · rcases phases_setPhase hphase with ⟨-, hsame⟩ | ⟨-, hold⟩
      · cases hsame
      · exact h.readHeld other content hold
  · exact h

private theorem locked_save (h : Locked s) (id : Nat) : Locked (step handler tick s (.save id : Step R T)) := by
  unfold step
  dsimp only
  split
  · refine ⟨fun other content hphase => ?_, fun other content hphase => ?_⟩
    · rcases phases_setPhase hphase with ⟨-, hsame⟩ | ⟨hne, hold⟩
      · cases hsame
      · obtain ⟨hwriter, hvalue⟩ := h.held other content hold
        refine ⟨?_, hvalue⟩
        dsimp only
        rw [hwriter, if_neg]
        intro heq
        exact hne (Option.some.inj heq)
    · rcases phases_setPhase hphase with ⟨-, hsame⟩ | ⟨hne, hold⟩
      · cases hsame
      · obtain ⟨hmem, hvalue⟩ := h.readHeld other content hold
        exact ⟨(List.mem_erase_of_ne hne).2 hmem, hvalue⟩
  · exact h

theorem locked_step (s : State C) (a : Step R T) (h : Locked s) : Locked (step handler tick s a) := by
  cases a with
  | request id request => exact locked_request h id request
  | read id => exact locked_read h id
  | save id => exact locked_save h id
  | tick change =>
    unfold step
    dsimp only
    split
    · rename_i hunlocked
      exact locked_of_unlocked h hunlocked fun id discipline content hphase => Or.inl hphase
    · exact h

theorem locked_start (value : C) : Locked (start value) := by
  constructor
  · intro id content hphase
    cases hphase
  · intro id content hphase
    cases hphase

/-! ### The exact condition -/

private theorem saved_of_not_returned {id : Nat} (h : ¬ s.Returned id) : Saved view s := fun hall => absurd (hall id) h

private theorem saved_request (h : Saved view s) (id : Nat) (request : R) :
    Saved view (step handler tick s (.request id request)) := by
  unfold step
  dsimp only
  split
  · rename_i _ hnone
    split
    · -- nothing has changed
      intro hall
      apply h
      intro other
      by_cases heq : other = id
      · intro phase hphase
        rw [heq, hnone] at hphase
        cases hphase
      · exact ((returned_setPhase_returned id other).1 (hall other)).resolve_left heq
    · exact saved_of_not_returned (not_returned_setPhase s id (by simp))
    · exact saved_of_not_returned (not_returned_setPhase s id (by simp))
    · exact saved_of_not_returned (not_returned_setPhase s id (by simp))
  · exact h

private theorem saved_read (h : Saved view s) (id : Nat) : Saved view (step handler tick s (.read id : Step R T)) := by
  unfold step
  dsimp only
  split
  · exact saved_of_not_returned (not_returned_setPhase s id (by simp))
  · exact saved_of_not_returned (not_returned_setPhase s id (by simp))
  · exact h

/-- A save leaves the file right where the content is the value, or somebody else has yet to save. -/
private theorem saved_save_iff (hlocked : Locked s) (h : Saved view s) (id : Nat) :
    Saved view (step handler tick s (.save id : Step R T)) ↔ Fresh view s (.save id : Step R T) := by
  unfold step
  dsimp only
  split
  · rename_i discipline content hphase
    have hsaved : Saved view { s.setPhase id .returned with
        file := content
        writer := if s.writer = some id then none else s.writer
        readers := s.readers.erase id } ↔
        ((∀ other, other ≠ id → s.Returned other) → view content = view s.value) := by
      unfold Saved
      apply imp_congr _ Iff.rfl
      apply forall_congr'
      intro other
      rw [← Classical.or_iff_not_imp_left]
      exact returned_setPhase_returned id other
    rw [hsaved]
    unfold Fresh
    dsimp only
    rw [hphase]
    cases discipline with
    | copied =>
      constructor
      · rintro hfresh content' hcontent
        cases hcontent
        exact hfresh
      · intro hfresh
        exact hfresh content rfl
    | held =>
      refine iff_of_true ?_ ?_
      · intro _
        rw [(hlocked.held id content hphase).2]
      · rintro content' hcontent
        cases hcontent
    | readHeld =>
      refine iff_of_true ?_ ?_
      · intro _
        rw [(hlocked.readHeld id content hphase).2]
      · rintro content' hcontent
        cases hcontent
  · rename_i hother
    refine iff_of_true h ?_
    intro content hphase
    exact absurd hphase (hother _ content)

theorem saved_step_iff (hview : ∀ change value, view (tick change value) = view value) (s : State C) (a : Step R T)
    (hlocked : Locked s) (h : Saved view s) : Saved view (step handler tick s a) ↔ Fresh view s a := by
  cases a with
  | request id request => exact iff_of_true (saved_request h id request) trivial
  | read id => exact iff_of_true (saved_read h id) trivial
  | save id => exact saved_save_iff hlocked h id
  | tick change =>
    refine iff_of_true ?_ trivial
    unfold step
    dsimp only
    split
    · intro hall
      rw [hview]
      exact h hall
    · exact h

/-- The file holds the value whenever all requests of a run have returned, exactly where every copy which is saved last
is fresh. -/
theorem saved_run_iff (hview : ∀ change value, view (tick change value) = view value) (value : C)
    (as : List (Step R T)) :
    EveryState (step handler tick) (Saved view) (start value) as ↔
      EveryStep (step handler tick) (Fresh view) (start value) as :=
  everyState_iff_everyStep locked_step (saved_step_iff hview) (locked_start value) (fun _ => rfl) as

/-- A copy is overtaken by another request, and saved after it. -/
theorem not_saved_of_copy {first second : R} {value value₁ value₂ : C} (hcopied : (handler first).discipline = .copied)
    (h₁ : (handler first).edit value = some value₁) (h₂ : (handler second).edit value₁ = some value₂)
    (hne : view value₁ ≠ view value₂) :
    ¬ EveryState (step handler tick) (Saved view) (start value)
      [.request 0 first, .read 0, .request 1 second, .read 1, .save 1, .save 0] := by
  intro h
  -- the first copy is in the file in the end, whatever the second request does with the lock
  have hlast : (∀ id phase, (if id = 0 then some Phase.returned
      else if id = 1 then some Phase.returned
      else if id = 0 then some (Phase.saving .copied value₁) else none) = some phase → phase = .returned) →
      view value₁ = view value₂ := by
    cases hdiscipline : (handler second).discipline <;>
      simpa [run, step, start, State.unlocked, State.setPhase, Saved, State.Returned, h₁, h₂, hcopied, hdiscipline,
        Function.update_apply] using h.last
  apply hne
  apply hlast
  intro id phase hphase
  by_cases hzero : id = 0
  · rw [if_pos hzero, Option.some.injEq] at hphase
    exact hphase.symm
  · rw [if_neg hzero, if_neg hzero] at hphase
    by_cases hone : id = 1
    · rw [if_pos hone, Option.some.injEq] at hphase
      exact hphase.symm
    · rw [if_neg hone] at hphase
      cases hphase

/-! ### Requests which keep the lock -/

/-- No request saves a copy. -/
structure NoCopies (s : State C) : Prop where
  edited : ∀ id, s.phases id ≠ some (.edited false)
  saving : ∀ id content, s.phases id ≠ some (.saving .copied content)

private theorem noCopies_setPhase (h : NoCopies s) {s' : State C} {id : Nat} {phase : Phase C}
    (hphases : s'.phases = (s.setPhase id phase).phases) (hedited : phase ≠ .edited false)
    (hsaving : ∀ content, phase ≠ .saving .copied content) : NoCopies s' := by
  constructor
  · intro other hphase
    rw [hphases] at hphase
    rcases phases_setPhase hphase with ⟨-, hsame⟩ | ⟨-, hold⟩
    · exact hedited hsame
    · exact h.edited other hold
  · intro other content hphase
    rw [hphases] at hphase
    rcases phases_setPhase hphase with ⟨-, hsame⟩ | ⟨-, hold⟩
    · exact hsaving content hsame
    · exact h.saving other content hold

theorem noCopies_step (hheld : ∀ request, (handler request).discipline ≠ .copied) (s : State C) (a : Step R T)
    (h : NoCopies s) : NoCopies (step handler tick s a) := by
  cases a with
  | request id request =>
    unfold step
    dsimp only
    split
    · split
      · exact noCopies_setPhase h rfl (by simp) (by simp)
      · exact noCopies_setPhase h rfl (by simp) (by simp)
      · exact noCopies_setPhase h rfl (by simp) (by simp)
      · rename_i hcopied
        exact absurd hcopied (hheld request)
    · exact h
  | read id =>
    unfold step
    dsimp only
    split
    · exact noCopies_setPhase h rfl (by simp) (by simp)
    · rename_i hedited
      exact absurd hedited (h.edited id)
    · exact h
  | save id =>
    unfold step
    dsimp only
    split
    · exact noCopies_setPhase h rfl (by simp) (by simp)
    · exact h
  | tick change =>
    unfold step
    dsimp only
    split
    · exact ⟨h.edited, h.saving⟩
    · exact h

/-- Where every request keeps the lock until it has saved, the file always ends up right. -/
theorem saved_run_of_held (hview : ∀ change value, view (tick change value) = view value)
    (hheld : ∀ request, (handler request).discipline ≠ .copied) (value : C) (as : List (Step R T)) :
    EveryState (step handler tick) (Saved view) (start value) as := by
  rw [saved_run_iff hview]
  have hstart : NoCopies (start value) := by
    constructor
    · intro id hphase
      cases hphase
    · intro id content hphase
      cases hphase
  refine (everyState_of_step (noCopies_step hheld) hstart as).everyStep ?_
  intro s a h
  cases a with
  | save id =>
    intro content hphase
    exact absurd hphase (h.saving id content)
  | request id request => trivial
  | read id => trivial
  | tick change => trivial

end SharedFile
