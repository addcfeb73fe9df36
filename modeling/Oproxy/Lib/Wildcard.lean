import Mathlib.Data.List.Forall2

/-!
# Wildcard patterns

Patterns over any alphabet, with one symbol which stands for any run of elements and one which stands for any single
element.  A value matches a pattern where it can be split into parts for which the symbols of the pattern stand.  A
split is verbatim where a run symbol which meets itself in the value stands for just this element.
-/

namespace Wildcard

variable {α : Type} (many one : α)

/-- What a symbol of a pattern stands for. -/
def Stands (q : α) (part : List α) : Prop := q ≠ many → ∃ c, part = [c] ∧ (q = one ∨ q = c)

/-- A value can be split into the parts for which the symbols of a pattern stand. -/
def Matches (pattern value : List α) : Prop :=
  ∃ parts, List.Forall₂ (Stands many one) pattern parts ∧ parts.flatten = value

/-- A run symbol which meets itself in the value stands for just this element. -/
def Verbatim : List α → List (List α) → Prop
  | q :: pattern, part :: parts =>
    (q = many → (part ++ parts.flatten).head? = some many → part = [many]) ∧ Verbatim pattern parts
  | _, _ => True

def MatchesVerbatim (pattern value : List α) : Prop :=
  ∃ parts, List.Forall₂ (Stands many one) pattern parts ∧ parts.flatten = value ∧ Verbatim many pattern parts

variable {many one}

theorem MatchesVerbatim.toMatches {pattern value : List α} (h : MatchesVerbatim many one pattern value) :
    Matches many one pattern value := by
  obtain ⟨parts, hparts, hvalue, -⟩ := h
  exact ⟨parts, hparts, hvalue⟩

/-- A value without the run symbol has no other splits. -/
theorem Matches.verbatim {pattern value : List α} (hvalue : many ∉ value) (h : Matches many one pattern value) :
    MatchesVerbatim many one pattern value := by
  obtain ⟨parts, hparts, rfl⟩ := h
  refine ⟨parts, hparts, rfl, ?_⟩
  induction hparts with
  | nil => trivial
  | @cons q part pattern parts _ _ ih =>
    rw [List.flatten_cons] at hvalue
    refine ⟨fun _ hhead => absurd (List.mem_of_head? hhead) hvalue, ih ?_⟩
    intro hmem
    exact hvalue (List.mem_append_right _ hmem)

/-! ### One symbol at a time -/

theorem matchesVerbatim_nil {value : List α} : MatchesVerbatim many one [] value ↔ value = [] := by
  constructor
  · rintro ⟨parts, hparts, rfl, -⟩
    cases hparts
    rfl
  · rintro rfl
    exact ⟨[], .nil, rfl, trivial⟩

private theorem matchesVerbatim_cons {q : α} {pattern value : List α} :
    MatchesVerbatim many one (q :: pattern) value ↔
      ∃ part rest, value = part ++ rest ∧ Stands many one q part ∧
        (q = many → value.head? = some many → part = [many]) ∧ MatchesVerbatim many one pattern rest := by
  constructor
  · rintro ⟨parts, hparts, rfl, hverbatim⟩
    obtain ⟨part, parts, hstands, hrest, rfl⟩ := List.forall₂_cons_left_iff.1 hparts
    exact ⟨part, parts.flatten, rfl, hstands, hverbatim.1, parts, hrest, rfl, hverbatim.2⟩
  · rintro ⟨part, rest, rfl, hstands, hmeets, parts, hparts, rfl, hverbatim⟩
    exact ⟨part :: parts, .cons hstands hparts, rfl, hmeets, hverbatim⟩

/-- A symbol which is no run symbol stands for one element. -/
theorem matchesVerbatim_cons_single {q : α} (hq : q ≠ many) {pattern value : List α} :
    MatchesVerbatim many one (q :: pattern) value ↔
      ∃ c rest, value = c :: rest ∧ (q = one ∨ q = c) ∧ MatchesVerbatim many one pattern rest := by
  rw [matchesVerbatim_cons]
  constructor
  · rintro ⟨part, rest, rfl, hstands, -, hrest⟩
    obtain ⟨c, rfl, hc⟩ := hstands hq
    exact ⟨c, rest, rfl, hc, hrest⟩
  · rintro ⟨c, rest, rfl, hc, hrest⟩
    exact ⟨[c], rest, rfl, fun _ => ⟨c, rfl, hc⟩, fun h => absurd h hq, hrest⟩

/-- A run symbol which meets itself. -/
theorem matchesVerbatim_many_self {pattern value : List α} :
    MatchesVerbatim many one (many :: pattern) (many :: value) ↔ MatchesVerbatim many one pattern value := by
  rw [matchesVerbatim_cons]
  constructor
  · rintro ⟨part, rest, hvalue, -, hmeets, hrest⟩
    rw [hmeets rfl rfl] at hvalue
    cases hvalue
    exact hrest
  · intro h
    exact ⟨[many], value, rfl, fun hne => absurd rfl hne, fun _ _ => rfl, h⟩

/-- A run symbol which meets another element, or the end. -/
theorem matchesVerbatim_many_other {pattern value : List α} (hhead : value.head? ≠ some many) :
    MatchesVerbatim many one (many :: pattern) value ↔ ∃ k, MatchesVerbatim many one pattern (value.drop k) := by
  rw [matchesVerbatim_cons]
  constructor
  · rintro ⟨part, rest, rfl, -, -, hrest⟩
    refine ⟨part.length, ?_⟩
    rw [List.drop_left]
    exact hrest
  · rintro ⟨k, hk⟩
    exact ⟨value.take k, value.drop k, (List.take_append_drop k value).symm, fun hne => absurd rfl hne,
      fun _ h => absurd h hhead, hk⟩

/-- A run symbol stands for some run. -/
theorem exists_of_matchesVerbatim_many {pattern value : List α}
    (h : MatchesVerbatim many one (many :: pattern) value) : ∃ k, MatchesVerbatim many one pattern (value.drop k) := by
  obtain ⟨part, rest, rfl, -, -, hrest⟩ := matchesVerbatim_cons.1 h
  refine ⟨part.length, ?_⟩
  rw [List.drop_left]
  exact hrest

/-- Nothing is matched by run symbols alone. -/
theorem matchesVerbatim_empty {pattern : List α} :
    MatchesVerbatim many one pattern [] ↔ ∀ q ∈ pattern, q = many := by
  induction pattern with
  | nil => simp [matchesVerbatim_nil]
  | cons q pattern ih =>
    by_cases hq : q = many
    · subst hq
      rw [matchesVerbatim_many_other (by simp), List.forall_mem_cons]
      simp only [List.drop_nil, exists_const, true_and]
      exact ih
    · rw [matchesVerbatim_cons_single hq, List.forall_mem_cons]
      simp [hq]

/-! ### A match which starts later -/

/-- What has been passed with every symbol for one element: a run symbol has met itself. -/
def Passed (many : α) : List α → List α → Prop := List.Forall₂ fun q c => q = many → c = many

/-- A verbatim match which starts later is nowhere behind one which has taken one element for every symbol: it has a
later match of what is left of the pattern. -/
theorem exists_drop_of_passed {passed elements pattern value : List α} (hpassed : Passed many passed elements) (k : Nat)
    (h : MatchesVerbatim many one (passed ++ pattern) ((elements ++ value).drop k)) :
    ∃ t, MatchesVerbatim many one pattern (value.drop t) := by
  induction hpassed generalizing k with
  | nil => exact ⟨k, h⟩
  | @cons q c passed elements hmeets _ ih =>
    rw [List.cons_append, List.cons_append] at h
    by_cases hq : q = many
    · subst hq
      cases k with
      | zero =>
        rw [List.drop_zero, hmeets rfl, matchesVerbatim_many_self] at h
        exact ih 0 h
      | succ k =>
        rw [List.drop_succ_cons] at h
        obtain ⟨j, hj⟩ := exists_of_matchesVerbatim_many h
        rw [List.drop_drop] at hj
        exact ih _ hj
    · obtain ⟨d, rest, hvalue, -, hrest⟩ := (matchesVerbatim_cons_single hq).1 h
      cases k with
      | zero =>
        rw [List.drop_zero] at hvalue
        cases hvalue
        exact ih 0 hrest
      | succ k =>
        rw [List.drop_succ_cons] at hvalue
        have hnext : rest = (elements ++ value).drop (k + 1) := by
          rw [← List.drop_drop, hvalue]
          rfl
        rw [hnext] at hrest
        exact ih _ hrest

end Wildcard
