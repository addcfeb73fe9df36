import Mathlib.Logic.Function.Basic
import Oproxy.Lib.Run

/-!
# Files replaced as a whole

A save writes its contents to a file of its own, bit by bit, and then renames it to the file which is to be replaced.
Any number of saves are under way at a time, each system call may fail, and the program may break off at any point and
begin again; then it numbers its saves from the beginning.  The files which are replaced are what they would be if the
saves which come to a good end were carried out whole, one after the other.
-/

namespace AtomicReplace

open Machine

variable {N A S : Type}

/-- Where a save goes, what it writes, and the file which it writes to first, by its number. -/
structure Layout (N A S : Type) where
  target : S → N
  contents : S → List A
  temp : N → Nat → N

inductive Phase where
  | begun
  /-- So much has been written. -/
  | writing (written : Nat)
  | returned (ok : Bool)
  deriving DecidableEq

structure Job (N S : Type) where
  save : S
  temp : N
  phase : Phase

/-- The files by name, the number of the next save, and the saves which have begun. -/
structure State (N A S : Type) where
  dir : N → Option (List A)
  next : Nat
  jobs : Nat → Option (Job N S)

inductive Event (S : Type) where
  | save (id : Nat) (save : S)
  /-- The next system call of a save; where it writes, it writes `more`. -/
  | advance (id : Nat) (more : Nat) (fails : Bool)
  | crash

/-- Nothing is under way. -/
def State.idle (dir : N → Option (List A)) : State N A S := ⟨dir, 0, fun _ => none⟩

def Phase.Running (phase : Phase) : Prop := ∀ ok, phase ≠ .returned ok

section

variable [DecidableEq N] (L : Layout N A S)

def Job.advance (dir : N → Option (List A)) (more : Nat) (fails : Bool) (job : Job N S) :
    (N → Option (List A)) × Phase :=
  match job.phase with
  | .returned ok => (dir, .returned ok)
  | .begun => if fails then (dir, .returned false) else (Function.update dir job.temp (some []), .writing 0)
  | .writing written =>
    if fails then (dir, .returned false)
    else if written < (L.contents job.save).length then
      (Function.update dir job.temp (some ((L.contents job.save).take (written + more))), .writing (written + more))
    else (Function.update (Function.update dir (L.target job.save) (dir job.temp)) job.temp none, .returned true)

def step (s : State N A S) : Event S → State N A S
  | .save id save =>
    if (s.jobs id).isSome then s
    else
      { s with
        next := s.next + 1
        jobs := Function.update s.jobs id (some ⟨save, L.temp (L.target save) s.next, .begun⟩) }
  | .advance id more fails =>
    match s.jobs id with
    | none => s
    | some job =>
      let r := job.advance L s.dir more fails
      { s with
        dir := r.1
        jobs := Function.update s.jobs id (some { job with phase := r.2 }) }
  | .crash => .idle s.dir

/-- The save which comes to a good end with a step. -/
def ended (s : State N A S) : Event S → Option S
  | .advance id more fails =>
    (s.jobs id).bind fun job =>
      if job.phase ≠ .returned true ∧ (job.advance L s.dir more fails).2 = .returned true then some job.save else none
  | .save _ _ | .crash => none

/-- The saves which come to a good end in a run, in this order. -/
def endedIn (s : State N A S) : List (Event S) → List S
  | [] => []
  | e :: events => (ended L s e).toList ++ endedIn (step L s e) events

/-- A save in one step. -/
def replace (dir : N → Option (List A)) (save : S) : N → Option (List A) :=
  Function.update dir (L.target save) (some (L.contents save))

end

/-! ### What keeps saves apart -/

/-- Saves write to files of their own, as long as there are fewer than `bound` of them. -/
structure Separate (L : Layout N A S) (bound : Nat) : Prop where
  apart : ∀ {t t' n n'}, n < bound → n' < bound → L.temp t n = L.temp t' n' → n = n'
  hidden : ∀ v w n, L.target v ≠ L.temp (L.target w) n

/-- Fewer than `bound` saves have begun before another one does. -/
def Admitted (bound : Nat) (s : State N A S) : Event S → Prop
  | .save _ _ => s.next < bound
  | _ => True

/-- A save that is under way has a file of its own, with what it has written. -/
structure Underway (L : Layout N A S) (s : State N A S) (job : Job N S) : Prop where
  temp : ∃ n < s.next, job.temp = L.temp (L.target job.save) n
  written : ∀ {written}, job.phase = .writing written → s.dir job.temp = some ((L.contents job.save).take written)

structure Inv (L : Layout N A S) (bound : Nat) (s : State N A S) : Prop where
  numbered : s.next ≤ bound
  underway : ∀ id job, s.jobs id = some job → job.phase.Running → Underway L s job
  apart : ∀ id id' job job', s.jobs id = some job → s.jobs id' = some job' → job.phase.Running →
    job'.phase.Running → id ≠ id' → job.temp ≠ job'.temp

/-- What a call of a save does to the files. -/
inductive Called [DecidableEq N] (L : Layout N A S) (dir : N → Option (List A)) (job : Job N S) :
    (N → Option (List A)) × Phase → Prop
  | stays (ok : Bool) (h : job.phase = .returned ok) : Called L dir job (dir, .returned ok)
  | failed (h : job.phase.Running) : Called L dir job (dir, .returned false)
  | wrote (written : Nat) (h : job.phase.Running) :
    Called L dir job (Function.update dir job.temp (some ((L.contents job.save).take written)), .writing written)
  | renamed (written : Nat) (h : job.phase = .writing written) (hwhole : (L.contents job.save).length ≤ written) :
    Called L dir job
      (Function.update (Function.update dir (L.target job.save) (dir job.temp)) job.temp none, .returned true)

theorem running_begun : Phase.begun.Running := fun _ heq => Phase.noConfusion heq

theorem running_writing (written : Nat) : (Phase.writing written).Running := fun _ heq => Phase.noConfusion heq

theorem Separate.ne_temp {L : Layout N A S} {bound : Nat} (h : Separate L bound) {s : State N A S} {job : Job N S}
    (hjob : Underway L s job) (w : S) : L.target w ≠ job.temp := by
  obtain ⟨n, -, hname⟩ := hjob.temp
  rw [hname]
  exact h.hidden w job.save n

/-- The saves after one of them has changed. -/
theorem of_update_jobs {jobs : Nat → Option (Job N S)} {id id' : Nat} {job job' : Job N S}
    (h : Function.update jobs id (some job) id' = some job') :
    (id' = id ∧ job' = job) ∨ (id' ≠ id ∧ jobs id' = some job') := by
  by_cases hid : id' = id
  · subst hid
    rw [Function.update_self] at h
    exact Or.inl ⟨rfl, (Option.some.inj h).symm⟩
  · rw [Function.update_of_ne hid] at h
    exact Or.inr ⟨hid, h⟩

/-- Saves which are apart stay apart where one of them changes and is apart from each other one. -/
theorem apart_update {jobs : Nat → Option (Job N S)} {id : Nat} {job : Job N S}
    (h : ∀ id₁ id₂ job₁ job₂, jobs id₁ = some job₁ → jobs id₂ = some job₂ → job₁.phase.Running →
      job₂.phase.Running → id₁ ≠ id₂ → job₁.temp ≠ job₂.temp)
    (hjob : ∀ id' job', id' ≠ id → jobs id' = some job' → job.phase.Running → job'.phase.Running →
      job'.temp ≠ job.temp) :
    ∀ id₁ id₂ job₁ job₂, Function.update jobs id (some job) id₁ = some job₁ →
      Function.update jobs id (some job) id₂ = some job₂ → job₁.phase.Running → job₂.phase.Running → id₁ ≠ id₂ →
        job₁.temp ≠ job₂.temp := by
  intro id₁ id₂ job₁ job₂ hjob₁ hjob₂ hrunning₁ hrunning₂ hne
  rcases of_update_jobs hjob₁ with ⟨rfl, rfl⟩ | ⟨hid₁, hold₁⟩
  · rcases of_update_jobs hjob₂ with ⟨hid₂, -⟩ | ⟨hid₂, hold₂⟩
    · exact absurd hid₂.symm hne
    · exact (hjob id₂ job₂ hid₂ hold₂ hrunning₁ hrunning₂).symm
  · rcases of_update_jobs hjob₂ with ⟨-, rfl⟩ | ⟨-, hold₂⟩
    · exact hjob id₁ job₁ hid₁ hold₁ hrunning₂ hrunning₁
    · exact h id₁ id₂ job₁ job₂ hold₁ hold₂ hrunning₁ hrunning₂ hne

section

variable [DecidableEq N] {L : Layout N A S} {bound : Nat} {s : State N A S}

@[simp] theorem endedIn_nil : endedIn L s [] = [] := rfl

@[simp] theorem endedIn_cons (e : Event S) (events : List (Event S)) :
    endedIn L s (e :: events) = (ended L s e).toList ++ endedIn L (step L s e) events := rfl

theorem step_advance {id more : Nat} {fails : Bool} {job : Job N S} (h : s.jobs id = some job) :
    step L s (.advance id more fails) =
      { s with
        dir := (job.advance L s.dir more fails).1
        jobs := Function.update s.jobs id (some { job with phase := (job.advance L s.dir more fails).2 }) } := by
  unfold step
  dsimp only
  rw [h]

theorem step_advance_none {id more : Nat} {fails : Bool} (h : s.jobs id = none) :
    step L s (.advance id more fails) = s := by
  unfold step
  dsimp only
  rw [h]

theorem called (dir : N → Option (List A)) (more : Nat) (fails : Bool) (job : Job N S) :
    Called L dir job (job.advance L dir more fails) := by
  unfold Job.advance
  cases hphase : job.phase with
  | returned ok => exact .stays ok hphase
  | begun =>
    have hrunning : job.phase.Running := hphase ▸ running_begun
    dsimp only
    split
    · exact .failed hrunning
    · exact .wrote 0 hrunning
  | writing written =>
    have hrunning : job.phase.Running := hphase ▸ running_writing written
    dsimp only
    split
    · exact .failed hrunning
    · split
      · exact .wrote (written + more) hrunning
      · rename_i hwhole
        exact .renamed written hphase (Nat.not_lt.1 hwhole)

/-- A save which is not over after a call was not over before. -/
theorem Called.running {dir : N → Option (List A)} {job : Job N S} {r : (N → Option (List A)) × Phase}
    (h : Called L dir job r) (hr : r.2.Running) : job.phase.Running := by
  cases h with
  | stays ok _ => exact absurd rfl (hr ok)
  | failed hjob => exact hjob
  | wrote _ hjob => exact hjob
  | renamed _ _ _ => exact absurd rfl (hr true)

/-- The file of another save is left alone. -/
theorem Called.dir_temp {job job' : Job N S} {r : (N → Option (List A)) × Phase} (h : Called L s.dir job r)
    (hapart : job.phase.Running → job'.temp ≠ job.temp) (htarget : L.target job.save ≠ job'.temp) :
    r.1 job'.temp = s.dir job'.temp := by
  cases h with
  | stays _ _ => rfl
  | failed _ => rfl
  | wrote _ hjob => exact Function.update_of_ne (hapart hjob) _ _
  | renamed written hphase _ =>
    have hrunning : job.phase.Running := hphase ▸ running_writing written
    show Function.update (Function.update s.dir (L.target job.save) (s.dir job.temp)) job.temp none job'.temp = _
    rw [Function.update_of_ne (hapart hrunning), Function.update_of_ne htarget.symm]

omit [DecidableEq N] in
theorem inv_idle (dir : N → Option (List A)) : Inv L bound (.idle dir) := by
  refine ⟨Nat.zero_le _, fun id job hjob => ?_, fun id id' job job' hjob => ?_⟩
  · cases hjob
  · cases hjob

theorem inv_save (h : Inv L bound s) (hseparate : Separate L bound) (id : Nat) (save : S) (hbound : s.next < bound) :
    Inv L bound (step L s (.save id save)) := by
  unfold step
  dsimp only
  split
  · exact h
  · -- the new file is one which no other save writes to
    have hnew : ∀ {id' job}, s.jobs id' = some job → job.phase.Running →
        job.temp ≠ L.temp (L.target save) s.next := by
      intro id' job hjob hrunning heq
      obtain ⟨n, hn, htemp⟩ := (h.underway id' job hjob hrunning).temp
      have hsame := hseparate.apart (Nat.lt_trans hn hbound) hbound (htemp.symm.trans heq)
      omega
    refine ⟨hbound, fun id' job hjob hrunning => ?_, apart_update h.apart fun id' job _ hjob _ hrunning =>
      hnew hjob hrunning⟩
    · rcases of_update_jobs hjob with ⟨-, rfl⟩ | ⟨-, hold⟩
      · exact ⟨⟨s.next, Nat.lt_succ_self _, rfl⟩, fun hphase => by cases hphase⟩
      · obtain ⟨⟨n, hn, htemp⟩, hwritten⟩ := h.underway id' job hold hrunning
        exact ⟨⟨n, Nat.lt_succ_of_lt hn, htemp⟩, hwritten⟩

theorem inv_advance (h : Inv L bound s) (hseparate : Separate L bound) (id more : Nat) (fails : Bool) :
    Inv L bound (step L s (.advance id more fails)) := by
  cases hid : s.jobs id with
  | none =>
    rw [step_advance_none hid]
    exact h
  | some job =>
    rw [step_advance hid]
    have hcalled := @called _ _ _ _ L s.dir more fails job
    generalize job.advance L s.dir more fails = r at hcalled ⊢
    refine ⟨h.numbered, fun id' job' hjob hrunning => ?_, apart_update h.apart fun id' job' hne hold hnow hrunning =>
      h.apart id' id job' job hold hid hrunning (hcalled.running hnow) hne⟩
    · rcases of_update_jobs hjob with ⟨-, rfl⟩ | ⟨hne, hold⟩
      · obtain ⟨htemp, -⟩ := h.underway id job hid (hcalled.running hrunning)
        refine ⟨htemp, fun hphase => ?_⟩
        cases hcalled with
        | stays ok _ => cases hphase
        | failed _ => cases hphase
        | renamed _ _ _ => cases hphase
        | wrote written _ =>
          cases hphase
          exact Function.update_self _ _ _
      · have hunderway := h.underway id' job' hold hrunning
        refine ⟨hunderway.temp, fun hphase => ?_⟩
        have hapart : job.phase.Running → job'.temp ≠ job.temp := fun hjobrunning =>
          h.apart id' id job' job hold hid hrunning hjobrunning hne
        exact (hcalled.dir_temp hapart (hseparate.ne_temp hunderway job.save)).trans (hunderway.written hphase)

theorem inv_step (hseparate : Separate L bound) (h : Inv L bound s) {e : Event S} (he : Admitted bound s e) :
    Inv L bound (step L s e) := by
  cases e with
  | save id save => exact inv_save h hseparate id save he
  | advance id more fails => exact inv_advance h hseparate id more fails
  | crash => exact inv_idle s.dir

/-! ### Saves in one step -/

theorem replace_apply_congr {dir dir' : N → Option (List A)} (h : ∀ w, dir (L.target w) = dir' (L.target w))
    (save w : S) : replace L dir save (L.target w) = replace L dir' save (L.target w) := by
  unfold replace
  by_cases hw : L.target w = L.target save
  · rw [hw, Function.update_self, Function.update_self]
  · rw [Function.update_of_ne hw, Function.update_of_ne hw]
    exact h w

theorem foldl_replace_congr {dir dir' : N → Option (List A)} (h : ∀ w, dir (L.target w) = dir' (L.target w))
    (saves : List S) (w : S) :
    saves.foldl (replace L) dir (L.target w) = saves.foldl (replace L) dir' (L.target w) := by
  induction saves generalizing dir dir' with
  | nil => exact h w
  | cons save saves ih => exact ih fun w => replace_apply_congr h save w

/-- A step leaves every target as it is, but that of a save which comes to a good end with it. -/
theorem dir_step (hseparate : Separate L bound) (h : Inv L bound s) (e : Event S) (w : S) :
    (step L s e).dir (L.target w) = (ended L s e).toList.foldl (replace L) s.dir (L.target w) := by
  cases e with
  | crash => rfl
  | save id save =>
    unfold step
    dsimp only
    split <;> rfl
  | advance id more fails =>
    cases hid : s.jobs id with
    | none =>
      have hnone : ended L s (.advance id more fails) = none := by
        unfold ended
        dsimp only
        rw [hid]
        rfl
      rw [step_advance_none hid, hnone]
      rfl
    | some job =>
      have hended : ended L s (.advance id more fails) =
          if job.phase ≠ .returned true ∧ (job.advance L s.dir more fails).2 = .returned true then some job.save
          else none := by
        unfold ended
        dsimp only
        rw [hid]
        rfl
      rw [step_advance hid, hended]
      have hcalled := @called _ _ _ _ L s.dir more fails job
      generalize job.advance L s.dir more fails = r at hcalled ⊢
      cases hcalled with
      | stays ok hphase =>
        rw [if_neg fun hboth => hboth.1 (hphase.trans hboth.2)]
        rfl
      | failed _ =>
        rw [if_neg fun hboth => by cases hboth.2]
        rfl
      | wrote written hrunning =>
        rw [if_neg fun hboth => by cases hboth.2]
        exact Function.update_of_ne (hseparate.ne_temp (h.underway id job hid hrunning) w) _ _
      | renamed written hphase hwhole =>
        have hrunning : job.phase.Running := hphase ▸ running_writing written
        have hunderway := h.underway id job hid hrunning
        rw [if_pos ⟨hrunning true, rfl⟩]
        show Function.update (Function.update s.dir (L.target job.save) (s.dir job.temp)) job.temp none (L.target w) =
          Function.update s.dir (L.target job.save) (some (L.contents job.save)) (L.target w)
        rw [Function.update_of_ne (hseparate.ne_temp hunderway w), hunderway.written hphase,
          List.take_of_length_le hwhole]

/-- In every interleaving, whatever fails and wherever the program breaks off, the targets are what the saves which came
to a good end make of them, whole and in this order. -/
theorem dir_run (hseparate : Separate L bound) (h : Inv L bound s) {events : List (Event S)}
    (hadmitted : EveryStep (step L) (Admitted bound) s events) (w : S) :
    (run (step L) s events).dir (L.target w) = (endedIn L s events).foldl (replace L) s.dir (L.target w) := by
  induction events generalizing s with
  | nil => rfl
  | cons e events ih =>
    obtain ⟨he, hevents⟩ := everyStep_cons.1 hadmitted
    rw [run_cons, ih (inv_step hseparate h he) hevents, endedIn_cons, List.foldl_append]
    exact foldl_replace_congr (fun w => dir_step hseparate h e w) _ w

/-! ### Saves which were asked for -/

/-- Only saves which were asked for are under way. -/
def Asked (asked : S → Prop) (s : State N A S) : Prop := ∀ id job, s.jobs id = some job → asked job.save

theorem asked_step {asked : S → Prop} (h : Asked asked s) {e : Event S} (he : ∀ id w, e = .save id w → asked w) :
    Asked asked (step L s e) := by
  intro id job hjob
  cases e with
  | save id' save =>
    unfold step at hjob
    dsimp only at hjob
    split at hjob
    · exact h id job hjob
    · rcases of_update_jobs hjob with ⟨-, rfl⟩ | ⟨-, hold⟩
      · exact he id' save rfl
      · exact h id job hold
  | advance id' more fails =>
    cases hid : s.jobs id' with
    | none =>
      rw [step_advance_none hid] at hjob
      exact h id job hjob
    | some job' =>
      rw [step_advance hid] at hjob
      rcases of_update_jobs hjob with ⟨-, rfl⟩ | ⟨-, hold⟩
      · exact h id' job' hid
      · exact h id job hold
  | crash => cases hjob

theorem asked_of_ended {asked : S → Prop} (h : Asked asked s) {e : Event S} {w : S} (he : ended L s e = some w) :
    asked w := by
  cases e with
  | save _ _ => cases he
  | crash => cases he
  | advance id more fails =>
    obtain ⟨job, hjob, hsave⟩ := Option.bind_eq_some_iff.1 he
    split at hsave
    · exact Option.some.inj hsave ▸ h id job hjob
    · cases hsave

theorem asked_of_mem_endedIn {asked : S → Prop} (h : Asked asked s) {events : List (Event S)}
    (hevents : ∀ id w, Event.save id w ∈ events → asked w) {w : S} (hw : w ∈ endedIn L s events) : asked w := by
  induction events generalizing s with
  | nil => cases hw
  | cons e events ih =>
    rw [endedIn_cons] at hw
    rcases List.mem_append.1 hw with hfirst | hrest
    · exact asked_of_ended h (Option.mem_toList.1 hfirst)
    · have hstep : Asked asked (step L s e) :=
        asked_step h fun id w he => hevents id w (he ▸ List.mem_cons_self)
      exact ih hstep (fun id w hmem => hevents id w (List.mem_cons_of_mem _ hmem)) hrest

/-! ### The numbers of the saves -/

theorem next_step_le (L : Layout N A S) (s : State N A S) (e : Event S) : (step L s e).next ≤ s.next + 1 := by
  cases e with
  | save id save =>
    unfold step
    dsimp only
    split
    · exact Nat.le_succ _
    · exact Nat.le_refl _
  | advance id more fails =>
    unfold step
    dsimp only
    split <;> exact Nat.le_succ _
  | crash => exact Nat.zero_le _

theorem next_run_le (L : Layout N A S) (s : State N A S) (events : List (Event S)) :
    (run (step L) s events).next ≤ s.next + events.length := by
  induction events generalizing s with
  | nil => exact Nat.le_refl _
  | cons e events ih =>
    have hfirst := next_step_le L s e
    have hrest := ih (step L s e)
    rw [run_cons, List.length_cons]
    omega

/-- A run with fewer steps than numbers admits all of its saves. -/
theorem everyStep_admitted {dir : N → Option (List A)} {events : List (Event S)} (hlength : events.length ≤ bound) :
    EveryStep (step L) (Admitted bound) (.idle dir) events := by
  intro pre e hpre
  cases e with
  | save id save =>
    have hshort := hpre.length_le
    have hnext : (run (step L) (State.idle dir) pre).next ≤ 0 + pre.length := next_run_le L (.idle dir) pre
    rw [List.length_append, List.length_singleton] at hshort
    show (run (step L) (State.idle dir) pre).next < bound
    omega
  | advance _ _ _ | crash => trivial

end

end AtomicReplace
