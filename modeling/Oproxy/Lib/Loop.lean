import Mathlib.Data.Nat.Basic

/-!
# Loops

A loop is a function of one turn: it goes on with another state, or leaves with a result.  A loop whose turns keep an
invariant and decrease a measure returns, and a property of its states which every turn keeps decides on the result.
-/

inductive Turn (σ β : Type) where
  | again (s : σ)
  | leave (b : β)

namespace Loop

variable {σ β : Type} (turn : σ → Turn σ β)

/-- A loop leaves with a result after finitely many turns. -/
inductive Returns : σ → β → Prop
  | leave {s : σ} {b : β} : turn s = .leave b → Returns s b
  | again {s s' : σ} {b : β} : turn s = .again s' → Returns s' b → Returns s b

/-- A number of turns. -/
def run : Nat → σ → Option β
  | 0, _ => none
  | turns + 1, s =>
    match turn s with
    | .leave b => some b
    | .again s' => run turns s'

variable {turn}

theorem run_again {s s' : σ} (h : turn s = .again s') (turns : Nat) : run turn (turns + 1) s = run turn turns s' := by
  rw [run, h]

theorem run_leave {s : σ} {b : β} (h : turn s = .leave b) (turns : Nat) : run turn (turns + 1) s = some b := by
  rw [run, h]

theorem returns_of_run {turns : Nat} {s : σ} {b : β} (h : run turn turns s = some b) : Returns turn s b := by
  induction turns generalizing s with
  | zero => cases h
  | succ turns ih =>
    unfold run at h
    split at h
    · rename_i b' hturn
      cases h
      exact .leave hturn
    · rename_i s' hturn
      exact .again hturn (ih h)

theorem Returns.of_again {s s' : σ} {b : β} (h : Returns turn s b) (hturn : turn s = .again s') :
    Returns turn s' b := by
  cases h with
  | leave hturn' =>
    rw [hturn] at hturn'
    cases hturn'
  | again hturn' hrest =>
    rw [hturn] at hturn'
    cases hturn'
    exact hrest

theorem Returns.of_leave {s : σ} {b b' : β} (h : Returns turn s b) (hturn : turn s = .leave b') : b = b' := by
  cases h with
  | leave hturn' =>
    rw [hturn] at hturn'
    cases hturn'
    rfl
  | again hturn' _ =>
    rw [hturn] at hturn'
    cases hturn'

theorem Returns.unique {s : σ} {b b' : β} (h : Returns turn s b) (h' : Returns turn s b') : b' = b := by
  induction h with
  | leave hturn => exact h'.of_leave hturn
  | again hturn _ ih => exact ih (h'.of_again hturn)

/-- More turns than the measure are enough. -/
theorem exists_run {Inv : σ → Prop} {measure : σ → Nat}
    (hstep : ∀ s s', Inv s → turn s = .again s' → Inv s' ∧ measure s' < measure s) {turns : Nat} {s : σ} (hinv : Inv s)
    (henough : measure s < turns) : ∃ b, run turn turns s = some b := by
  induction turns generalizing s with
  | zero => omega
  | succ turns ih =>
    unfold run
    cases hturn : turn s with
    | leave b => exact ⟨b, rfl⟩
    | again s' =>
      obtain ⟨hinv', hless⟩ := hstep s s' hinv hturn
      exact ih hinv' (by omega)

/-- A loop whose turns keep an invariant leaves in a state which meets it. -/
theorem Returns.last {Inv : σ → Prop} (hstep : ∀ s s', Inv s → turn s = .again s' → Inv s') {s : σ} {b : β}
    (hinv : Inv s) (h : Returns turn s b) : ∃ last, Inv last ∧ turn last = .leave b := by
  induction h with
  | leave hturn => exact ⟨_, hinv, hturn⟩
  | again hturn _ ih => exact ih (hstep _ _ hinv hturn)

/-- What every turn keeps exactly is decided by the result. -/
theorem Returns.iff {Inv : σ → Prop} {P : σ → Prop} {Q : β → Prop}
    (hstep : ∀ s s', Inv s → turn s = .again s' → Inv s' ∧ (P s' ↔ P s))
    (hleave : ∀ s b, Inv s → turn s = .leave b → (Q b ↔ P s)) {s : σ} {b : β} (hinv : Inv s) (h : Returns turn s b) :
    Q b ↔ P s := by
  induction h with
  | leave hturn => exact hleave _ _ hinv hturn
  | again hturn _ ih =>
    obtain ⟨hinv', hkept⟩ := hstep _ _ hinv hturn
    exact (ih hinv').trans hkept

end Loop
