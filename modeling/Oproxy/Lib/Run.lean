import Mathlib.Data.List.Infix

/-!
# Runs of a state machine

A machine with a deterministic step, its runs over lists of inputs, and the two induction rules used for them: a
property kept by every step holds in every state of a run, and a property which every step keeps exactly under a
condition on the step holds in every state of a run exactly when every step of the run meets the condition.
-/

namespace Machine

variable {σ α : Type} (step : σ → α → σ)

def run (s : σ) (as : List α) : σ := as.foldl step s

/-- `P` holds in the first state of the run and after every input. -/
def EveryState (P : σ → Prop) (s : σ) (as : List α) : Prop :=
  ∀ pre, pre <+: as → P (run step s pre)

/-- Every input of the run meets `Q` in the state it is taken in. -/
def EveryStep (Q : σ → α → Prop) (s : σ) (as : List α) : Prop :=
  ∀ pre a, pre ++ [a] <+: as → Q (run step s pre) a

variable {step} {P : σ → Prop} {Q : σ → α → Prop}

@[simp] theorem run_nil (s : σ) : run step s [] = s := rfl

@[simp] theorem run_cons (s : σ) (a : α) (as : List α) : run step s (a :: as) = run step (step s a) as := rfl

theorem run_append (s : σ) (as bs : List α) : run step s (as ++ bs) = run step (run step s as) bs := List.foldl_append

/-- A run over the first inputs of two lists. -/
theorem run_take_append (s : σ) (as bs : List α) (n : Nat) :
    run step s ((as ++ bs).take n) = run step (run step s (as.take n)) (bs.take (n - as.length)) := by
  rw [List.take_append, run_append]

theorem everyState_nil {s : σ} : EveryState step P s [] ↔ P s := by
  constructor
  · intro h; exact h [] (List.prefix_refl _)
  · intro h pre hpre
    rw [List.prefix_nil.1 hpre]; exact h

theorem everyState_cons {s : σ} {a : α} {as : List α} :
    EveryState step P s (a :: as) ↔ P s ∧ EveryState step P (step s a) as := by
  constructor
  · intro h
    refine ⟨h [] List.nil_prefix, fun pre hpre => ?_⟩
    exact h (a :: pre) (List.cons_prefix_cons.2 ⟨rfl, hpre⟩)
  · rintro ⟨h0, h⟩ pre hpre
    cases pre with
    | nil => exact h0
    | cons b pre =>
      obtain ⟨rfl, htl⟩ := List.cons_prefix_cons.1 hpre
      exact h pre htl

theorem everyStep_nil {s : σ} : EveryStep step Q s [] := by
  intro pre a h
  have := List.prefix_nil.1 h
  simp at this

theorem everyStep_cons {s : σ} {a : α} {as : List α} :
    EveryStep step Q s (a :: as) ↔ Q s a ∧ EveryStep step Q (step s a) as := by
  constructor
  · intro h
    refine ⟨h [] a (by simp), fun pre b hpre => ?_⟩
    exact h (a :: pre) b (List.cons_prefix_cons.2 ⟨rfl, hpre⟩)
  · rintro ⟨h0, h⟩ pre b hpre
    cases pre with
    | nil =>
      obtain ⟨rfl, -⟩ := List.cons_prefix_cons.1 hpre
      exact h0
    | cons c pre =>
      obtain ⟨rfl, htl⟩ := List.cons_prefix_cons.1 hpre
      exact h pre b htl

/-- A condition which does not look at the state is a condition on the inputs. -/
theorem everyStep_const {R : α → Prop} {s : σ} {as : List α} :
    EveryStep step (fun _ a => R a) s as ↔ ∀ a ∈ as, R a := by
  induction as generalizing s with
  | nil => simp [everyStep_nil]
  | cons a as ih => rw [everyStep_cons, ih, List.forall_mem_cons]

theorem EveryState.last {s : σ} {as : List α} (h : EveryState step P s as) : P (run step s as) :=
  h as (List.prefix_refl _)

theorem EveryState.imp {P' : σ → Prop} {s : σ} {as : List α} (h : EveryState step P s as)
    (hP : ∀ s, P s → P' s) : EveryState step P' s as :=
  fun pre hpre => hP _ (h pre hpre)

/-- What every state of a run allows is met by every step. -/
theorem EveryState.everyStep {s : σ} {as : List α} (h : EveryState step P s as) (hQ : ∀ s a, P s → Q s a) :
    EveryStep step Q s as :=
  fun pre a hpre => hQ _ a (h pre ((List.prefix_append pre [a]).trans hpre))

/-- The invariant rule. -/
theorem everyState_of_step (h : ∀ s a, P s → P (step s a)) {s : σ} (h0 : P s) (as : List α) :
    EveryState step P s as := by
  induction as generalizing s with
  | nil => exact everyState_nil.2 h0
  | cons a as ih => exact everyState_cons.2 ⟨h0, ih (h s a h0)⟩

/-- The invariant rule for runs whose steps all meet a condition. -/
theorem everyState_of_everyStep (h : ∀ s a, P s → Q s a → P (step s a)) {s : σ} (h0 : P s) {as : List α}
    (hQ : EveryStep step Q s as) : EveryState step P s as := by
  induction as generalizing s with
  | nil => exact everyState_nil.2 h0
  | cons a as ih =>
    obtain ⟨ha, has⟩ := everyStep_cons.1 hQ
    exact everyState_cons.2 ⟨h0, ih (h s a h0 ha) has⟩

/-- Two conditions on steps which agree where an invariant holds, and keep it, are conditions on the same runs. -/
theorem everyStep_iff_of {I : σ → Prop} {P Q : σ → α → Prop} (h : ∀ s a, I s → (P s a ↔ Q s a))
    (hI : ∀ s a, I s → P s a → I (step s a)) {s : σ} (hI0 : I s) (as : List α) :
    EveryStep step P s as ↔ EveryStep step Q s as := by
  induction as generalizing s with
  | nil => exact iff_of_true everyStep_nil everyStep_nil
  | cons a as ih =>
    rw [everyStep_cons, everyStep_cons, ← h s a hI0]
    exact and_congr_right fun ha => ih (hI s a hI0 ha)

/-- The exact invariant rule for runs whose steps all meet `F`, relative to an invariant `I` of these runs. -/
theorem everyState_iff_everyStep_of {I : σ → Prop} {F : σ → α → Prop} (hI : ∀ s a, I s → F s a → I (step s a))
    (h : ∀ s a, I s → F s a → P s → (P (step s a) ↔ Q s a)) {s : σ} (hI0 : I s) (h0 : P s) {as : List α}
    (hF : EveryStep step F s as) : EveryState step P s as ↔ EveryStep step Q s as := by
  induction as generalizing s with
  | nil => exact ⟨fun _ => everyStep_nil, fun _ => everyState_nil.2 h0⟩
  | cons a as ih =>
    obtain ⟨ha, has⟩ := everyStep_cons.1 hF
    rw [everyState_cons, everyStep_cons]
    constructor
    · rintro ⟨-, h1⟩
      have hP : P (step s a) := h1 [] List.nil_prefix
      exact ⟨(h s a hI0 ha h0).1 hP, (ih (hI s a hI0 ha) hP has).1 h1⟩
    · rintro ⟨hQ, h1⟩
      have hP := (h s a hI0 ha h0).2 hQ
      exact ⟨h0, (ih (hI s a hI0 ha) hP has).2 h1⟩

/-- The exact invariant rule, relative to an invariant `I` of every run. -/
theorem everyState_iff_everyStep {I : σ → Prop} (hI : ∀ s a, I s → I (step s a))
    (h : ∀ s a, I s → P s → (P (step s a) ↔ Q s a)) {s : σ} (hI0 : I s) (h0 : P s) (as : List α) :
    EveryState step P s as ↔ EveryStep step Q s as :=
  everyState_iff_everyStep_of (F := fun _ _ => True) (fun s a hs _ => hI s a hs) (fun s a hs _ hP => h s a hs hP) hI0 h0
    (everyStep_const.2 fun _ _ => trivial)

end Machine

/-! ### Histories -/

namespace History

variable {ε : Type} {P : List ε → ε → Prop}

/-- Every event of a history is allowed after the ones before it. -/
def EveryEvent (P : List ε → ε → Prop) (log : List ε) : Prop := ∀ pre e post, log = pre ++ e :: post → P pre e

theorem everyEvent_nil : EveryEvent P [] := by
  intro pre e post h
  have hlength := congrArg List.length h
  simp at hlength

theorem everyEvent_concat {log : List ε} {e : ε} : EveryEvent P (log ++ [e]) ↔ EveryEvent P log ∧ P log e := by
  constructor
  · intro h
    refine ⟨fun pre e' post heq => h pre e' (post ++ [e]) ?_, h log e [] rfl⟩
    rw [heq, List.append_assoc]
    rfl
  · rintro ⟨hlog, he⟩ pre e' post heq
    rcases List.eq_nil_or_concat post with rfl | ⟨post, last, rfl⟩
    · obtain ⟨rfl, hlast⟩ := List.append_inj' heq rfl
      cases hlast
      exact he
    · have hsplit : log ++ [e] = (pre ++ e' :: post) ++ [last] := by
        rw [heq, List.append_assoc, List.concat_eq_append]
        rfl
      obtain ⟨rfl, -⟩ := List.append_inj' hsplit rfl
      exact hlog pre e' post rfl

/-- Events which are always allowed make no difference. -/
theorem everyEvent_append {log es : List ε} (h : ∀ e ∈ es, ∀ pre, P pre e) :
    EveryEvent P (log ++ es) ↔ EveryEvent P log := by
  induction es using List.reverseRecOn with
  | nil => rw [List.append_nil]
  | append_singleton es e ih =>
    have hes : ∀ e' ∈ es, ∀ pre, P pre e' := fun e' he' => h e' (List.mem_append_left _ he')
    have he := h e (by simp) (log ++ es)
    rw [← List.append_assoc, everyEvent_concat, ih hes]
    exact and_iff_left he

end History
