import Mathlib.Data.List.Nodup

/-!
# Normal forms

A normaliser turns an entry into its normal form, drops it or refuses it.  It is idempotent when the normal forms which
it gives are their own normal forms.  Of a list, the normal forms of the entries are kept once each, in the order in
which they come up first; the result is then its own normal form.
-/

namespace Normalize

variable {α ε : Type} [DecidableEq α] {norm : α → Except ε (Option α)}

/-- A normal form is its own normal form. -/
def Idempotent (norm : α → Except ε (Option α)) : Prop := ∀ x y, norm x = .ok (some y) → norm y = .ok (some y)

/-- The normal forms of the entries which are not in `seen`, behind `seen`. -/
def into (norm : α → Except ε (Option α)) (seen : List α) : List α → Except ε (List α)
  | [] => .ok seen
  | x :: xs =>
    match norm x with
    | .error e => .error e
    | .ok none => into norm seen xs
    | .ok (some y) => into norm (if y ∈ seen then seen else seen ++ [y]) xs

/-- The normal forms of the entries, each one once. -/
def all (norm : α → Except ε (Option α)) (xs : List α) : Except ε (List α) := into norm [] xs

private theorem mem_of_into {seen xs ys : List α} (h : into norm seen xs = .ok ys) {y : α} (hy : y ∈ ys) :
    y ∈ seen ∨ ∃ x ∈ xs, norm x = .ok (some y) := by
  induction xs generalizing seen with
  | nil =>
    obtain rfl : seen = ys := by simpa [into] using h
    exact Or.inl hy
  | cons x xs ih =>
    simp only [into] at h
    split at h
    · cases h
    · rcases ih h with h' | ⟨x', hx', hn⟩
      · exact Or.inl h'
      · exact Or.inr ⟨x', List.mem_cons_of_mem _ hx', hn⟩
    · rename_i z hz
      rcases ih h with h' | ⟨x', hx', hn⟩
      · split at h'
        · exact Or.inl h'
        · rcases List.mem_append.1 h' with h' | h'
          · exact Or.inl h'
          · exact Or.inr ⟨x, List.mem_cons_self, by rw [List.mem_singleton.1 h']; exact hz⟩
      · exact Or.inr ⟨x', List.mem_cons_of_mem _ hx', hn⟩

private theorem nodup_of_into {seen xs ys : List α} (h : into norm seen xs = .ok ys) (hs : seen.Nodup) : ys.Nodup := by
  induction xs generalizing seen with
  | nil =>
    obtain rfl : seen = ys := by simpa [into] using h
    exact hs
  | cons x xs ih =>
    simp only [into] at h
    split at h
    · cases h
    · exact ih h hs
    · rename_i z hz
      refine ih h ?_
      split
      · exact hs
      · rename_i hmem
        exact List.nodup_append.2 ⟨hs, List.nodup_singleton z, fun a ha b hb => by
          rw [List.mem_singleton.1 hb]
          rintro rfl
          exact hmem ha⟩

private theorem length_of_into {seen xs ys : List α} (h : into norm seen xs = .ok ys) :
    ys.length ≤ seen.length + xs.length := by
  induction xs generalizing seen with
  | nil =>
    obtain rfl : seen = ys := by simpa [into] using h
    simp
  | cons x xs ih =>
    simp only [into] at h
    split at h
    · cases h
    · have := ih h
      simp only [List.length_cons]
      omega
    · have := ih h
      split at this <;> simp only [List.length_append, List.length_cons, List.length_nil] at this ⊢ <;> omega

private theorem into_of_normal {seen ys : List α} (hnorm : ∀ y ∈ ys, norm y = .ok (some y))
    (hnodup : (seen ++ ys).Nodup) :
    into norm seen ys = .ok (seen ++ ys) := by
  induction ys generalizing seen with
  | nil => simp [into]
  | cons y ys ih =>
    have hy : y ∉ seen := fun hmem =>
      (List.nodup_append.1 hnodup).2.2 y hmem y List.mem_cons_self rfl
    simp only [into, hnorm y List.mem_cons_self, if_neg hy]
    rw [ih (fun z hz => hnorm z (List.mem_cons_of_mem _ hz)) (by simpa using hnodup)]
    simp

/-- Different entries in normal form are left as they are. -/
theorem all_of_normal {ys : List α} (hnorm : ∀ y ∈ ys, norm y = .ok (some y)) (hnodup : ys.Nodup) :
    all norm ys = .ok ys :=
  into_of_normal hnorm (by simpa using hnodup)

/-- What is kept is the normal form of some entry. -/
theorem mem_of_all {xs ys : List α} (h : all norm xs = .ok ys) {y : α} (hy : y ∈ ys) :
    ∃ x ∈ xs, norm x = .ok (some y) := by
  rcases mem_of_into h hy with h | h
  · cases h
  · exact h

theorem length_of_all {xs ys : List α} (h : all norm xs = .ok ys) : ys.length ≤ xs.length := by
  simpa using length_of_into h

/-- The normal form of a list is its own normal form. -/
theorem all_idem (hnorm : Idempotent norm) {xs ys : List α} (h : all norm xs = .ok ys) : all norm ys = .ok ys := by
  refine all_of_normal (fun y hy => ?_) (nodup_of_into h List.nodup_nil)
  obtain ⟨x, -, hx⟩ := mem_of_all h hy
  exact hnorm x y hx

/-! ### Edits that may fail -/

omit [DecidableEq α] in
theorem bind_eq_ok {β : Type} {x : Except ε α} {f : α → Except ε β} {b : β} :
    (x >>= f) = .ok b ↔ ∃ a, x = .ok a ∧ f a = .ok b := by
  cases x with
  | error e => simp [bind, Except.bind]
  | ok a => simp [bind, Except.bind]

/-- Refused with `e` where `c` does not hold. -/
def ensure (c : Prop) [Decidable c] (e : ε) : Except ε Unit := if c then .ok () else .error e

omit [DecidableEq α] in
theorem ensure_eq_ok {c : Prop} [Decidable c] {e : ε} {u : Unit} : ensure c e = .ok u ↔ c := by
  unfold ensure
  split <;> simp [*]

/-- The new value of a field: `f` of what a patch has for it, the old value where the patch has nothing. -/
def patched {β : Type} (f : α → Except ε β) (old : β) : Option α → Except ε β
  | some a => f a
  | none => .ok old

omit [DecidableEq α] in
/-- A field which is patched with normal forms stays normal. -/
theorem patched_normal {f : α → Except ε α} (hf : ∀ x y, f x = .ok y → f y = .ok y) {old new : α} {o : Option α}
    (hold : f old = .ok old) (h : patched f old o = .ok new) : f new = .ok new := by
  cases o with
  | none =>
    obtain rfl : old = new := by simpa [patched] using h
    exact hold
  | some x => exact hf x new h

/-- An optional entry is normalised where there is one. -/
def opt (norm : α → Except ε (Option α)) : Option α → Except ε (Option α)
  | some x => norm x
  | none => .ok none

omit [DecidableEq α] in
theorem opt_idem (hnorm : Idempotent norm) {x y : Option α} (h : opt norm x = .ok y) : opt norm y = .ok y := by
  cases y with
  | none => rfl
  | some y =>
    cases x with
    | none => cases h
    | some x => exact hnorm x y h

end Normalize
