import Mathlib.Data.List.Basic

/-!
# Streams in segments

What is sent as one list arrives in segments, which are cut anywhere.  A reader which asks for a number of elements gets
them from as many segments as it needs, and so what it reads depends on the whole alone (`readExact_eq`).
-/

namespace Segments

variable {α : Type}

/-- The first elements of a list, and the others; none where there are too few. -/
def takeExact (n : Nat) (s : List α) : Option (List α × List α) :=
  if n ≤ s.length then some (s.take n, s.drop n) else none

theorem takeExact_eq_some {n : Nat} {s a b : List α} : takeExact n s = some (a, b) ↔ s = a ++ b ∧ a.length = n := by
  unfold takeExact
  constructor
  · intro h
    split at h
    · rename_i hle
      cases h
      exact ⟨(List.take_append_drop n s).symm, List.length_take_of_le hle⟩
    · cases h
  · rintro ⟨rfl, rfl⟩
    rw [if_pos (by simp)]
    simp

/-- A whole segment first. -/
theorem takeExact_append (m : Nat) (segment s : List α) :
    takeExact (segment.length + m) (segment ++ s) = (takeExact m s).map fun r => (segment ++ r.1, r.2) := by
  unfold takeExact
  by_cases hle : m ≤ s.length
  · have hall : segment.length + m ≤ (segment ++ s).length := by
      rw [List.length_append]
      omega
    rw [if_pos hle, if_pos hall, List.take_length_add_append, List.drop_length_add_append]
    rfl
  · have hall : ¬ segment.length + m ≤ (segment ++ s).length := by
      rw [List.length_append]
      omega
    rw [if_neg hle, if_neg hall]
    rfl

/-- The first elements of the segments, and what is left of these. -/
def readExact : Nat → List (List α) → Option (List α × List (List α))
  | 0, segments => some ([], segments)
  | _ + 1, [] => none
  | n + 1, segment :: segments =>
    if n + 1 ≤ segment.length then some (segment.take (n + 1), segment.drop (n + 1) :: segments)
    else (readExact (n + 1 - segment.length) segments).map fun r => (segment ++ r.1, r.2)

theorem readExact_eq (n : Nat) (segments : List (List α)) :
    (readExact n segments).map (Prod.map id List.flatten) = takeExact n segments.flatten := by
  induction segments generalizing n with
  | nil => cases n <;> rfl
  | cons segment segments ih =>
    cases n with
    | zero => simp [readExact, takeExact]
    | succ n =>
      unfold readExact
      by_cases hle : n + 1 ≤ segment.length
      · have hall : n + 1 ≤ (segment :: segments).flatten.length := by
          rw [List.flatten_cons, List.length_append]
          omega
        unfold takeExact
        rw [if_pos hle, if_pos hall, List.flatten_cons, List.take_append_of_le_length hle,
          List.drop_append_of_le_length hle]
        rfl
      · have hsplit : n + 1 = segment.length + (n + 1 - segment.length) := by omega
        rw [if_neg hle, List.flatten_cons, hsplit, takeExact_append, ← ih, ← hsplit, Option.map_map, Option.map_map]
        rfl

end Segments
