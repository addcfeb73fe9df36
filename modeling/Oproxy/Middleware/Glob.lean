import Oproxy.Lib.Loop
import Oproxy.Lib.Wildcard
import Oproxy.Middleware.Matcher

/-!
# Glob patterns (`middleware/matcher.rs`)

The backtracking loop of `glob_match` against the matches of a wildcard pattern.  A `*` of the pattern which meets a
`*` of the value is compared with it before it is read as a wildcard, so that the loop finds the verbatim matches.
-/

namespace Oproxy

namespace Matcher

/-- The variables of the loop. -/
structure GlobState where
  pi : Nat
  vi : Nat
  star : Option Nat
  mark : Nat

/-- The last branches of a turn: back to the last `*`, which takes one more character, or no match. -/
def globBack (s : GlobState) : Turn GlobState Bool :=
  match s.star with
  | some star => .again ⟨star + 1, s.mark + 1, s.star, s.mark + 1⟩
  | none => .leave false

/-- One turn of the loop. -/
def globTurn (p v : Str) (s : GlobState) : Turn GlobState Bool :=
  match v[s.vi]? with
  | some c =>
    match p[s.pi]? with
    | some q =>
      if q = '?' ∨ q = c then .again { s with pi := s.pi + 1, vi := s.vi + 1 }
      else if q = '*' then .again ⟨s.pi + 1, s.vi, some s.pi, s.vi⟩
      else globBack s
    | none => globBack s
  | none => .leave ((p.drop s.pi).all (· = '*'))

/-- Before the first turn. -/
def globStart : GlobState := ⟨0, 0, none, 0⟩

/-! ### What a turn does -/

/-- What a turn may find. -/
theorem globTurn_cases {p v : Str} {s : GlobState} {t : Turn GlobState Bool} (h : globTurn p v s = t) :
    (∃ q c, p[s.pi]? = some q ∧ v[s.vi]? = some c ∧ (q = '?' ∨ q = c) ∧
      t = .again { s with pi := s.pi + 1, vi := s.vi + 1 }) ∨
    (∃ c, p[s.pi]? = some '*' ∧ v[s.vi]? = some c ∧ c ≠ '*' ∧ t = .again ⟨s.pi + 1, s.vi, some s.pi, s.vi⟩) ∨
    (∃ c, v[s.vi]? = some c ∧ (∀ q, p[s.pi]? = some q → q ≠ '*' ∧ q ≠ '?' ∧ q ≠ c) ∧ t = globBack s) ∨
    (v[s.vi]? = none ∧ t = .leave ((p.drop s.pi).all (· = '*'))) := by
  subst h
  unfold globTurn
  cases hv : v[s.vi]? with
  | none => exact Or.inr (Or.inr (Or.inr ⟨rfl, rfl⟩))
  | some c =>
    cases hp : p[s.pi]? with
    | none => exact Or.inr (Or.inr (Or.inl ⟨c, rfl, by simp, rfl⟩))
    | some q =>
      dsimp only
      by_cases hsingle : q = '?' ∨ q = c
      · rw [if_pos hsingle]
        exact Or.inl ⟨q, c, rfl, rfl, hsingle, rfl⟩
      · rw [if_neg hsingle]
        obtain ⟨hone, hself⟩ := not_or.1 hsingle
        by_cases hq : q = '*'
        · subst hq
          rw [if_pos rfl]
          exact Or.inr (Or.inl ⟨c, rfl, rfl, fun hc => hself hc.symm, rfl⟩)
        · rw [if_neg hq]
          refine Or.inr (Or.inr (Or.inl ⟨c, rfl, ?_, rfl⟩))
          intro q' hq'
          cases hq'
          exact ⟨hq, hone, hself⟩

/-- The invariant of the loop: since the last `*`, or since the start, every symbol of the pattern has been passed with
one character of the value, a `*` with a `*`. -/
structure GlobInv (p v : Str) (s : GlobState) : Prop where
  pi_le : s.pi ≤ p.length
  vi_le : s.vi ≤ v.length
  mark_le : s.mark ≤ s.vi
  star_lt : ∀ star, s.star = some star → star < p.length
  passed : ∀ star, s.star = some star → ∃ passed elements, p.drop (star + 1) = passed ++ p.drop s.pi ∧
    v.drop s.mark = elements ++ v.drop s.vi ∧ Wildcard.Passed '*' passed elements

/-- `globMatch` takes the turns of the loop. -/
theorem globLoop_eq_run (p v : Str) (turns : Nat) (s : GlobState) :
    globLoop p v turns s.pi s.vi s.star s.mark = (Loop.run (globTurn p v) turns s).getD false := by
  induction turns generalizing s with
  | zero => rfl
  | succ turns ih =>
    obtain ⟨q, c, hp, hv, hsingle, hturn⟩ | ⟨c, hp, hv, hc, hturn⟩ | ⟨c, hv, hq, hturn⟩ | ⟨hv, hturn⟩ :=
      globTurn_cases (Eq.refl (globTurn p v s))
    · unfold globLoop
      rw [Loop.run_again hturn, ← ih]
      simp only [hv, hp, if_pos hsingle]
    · unfold globLoop
      rw [Loop.run_again hturn, ← ih]
      simp [hv, hp, hc.symm]
    · have hback : globLoop p v (turns + 1) s.pi s.vi s.star s.mark =
          match s.star with
          | some star => globLoop p v turns (star + 1) (s.mark + 1) s.star (s.mark + 1)
          | none => false := by
        conv_lhs => unfold globLoop
        rw [hv]
        cases hp : p[s.pi]? with
        | none => rfl
        | some q =>
          obtain ⟨hmany, hone, hself⟩ := hq q hp
          have hnot : ¬ (q = '?' ∨ q = c) := not_or.2 ⟨hone, hself⟩
          exact (if_neg hnot).trans (if_neg hmany)
      unfold globBack at hturn
      cases hstar : s.star with
      | none =>
        rw [hstar] at hturn hback
        rw [Loop.run_leave hturn, hback]
        rfl
      | some star =>
        rw [hstar] at hturn hback
        rw [Loop.run_again hturn, ← ih, hback]
    · unfold globLoop
      rw [Loop.run_leave hturn, hv]
      rfl

theorem GlobInv.start (p v : Str) : GlobInv p v globStart where
  pi_le := Nat.zero_le _
  vi_le := Nat.zero_le _
  mark_le := Nat.le_refl _
  star_lt := fun star h => by cases h
  passed := fun star h => by cases h

private theorem length_of_getElem? {l : Str} {i : Nat} {c : Char} (h : l[i]? = some c) : i < l.length :=
  (List.getElem?_eq_some_iff.1 h).1

private theorem drop_of_getElem? {l : Str} {i : Nat} {c : Char} (h : l[i]? = some c) :
    l.drop i = c :: l.drop (i + 1) := by
  obtain ⟨hlt, rfl⟩ := List.getElem?_eq_some_iff.1 h
  exact List.drop_eq_getElem_cons hlt

/-- The turns left: each goes on in the pattern, or moves the mark. -/
def globMeasure (p v : Str) (s : GlobState) : Nat := (v.length - s.mark) * (p.length + 1) + (p.length - s.pi)

theorem GlobInv.step {p v : Str} {s s' : GlobState} (h : GlobInv p v s) (hturn : globTurn p v s = .again s') :
    GlobInv p v s' := by
  obtain ⟨q, c, hp, hv, hsingle, hs⟩ | ⟨c, hp, hv, hc, hs⟩ | ⟨c, hv, hq, hs⟩ | ⟨hv, hs⟩ := globTurn_cases hturn
  · cases hs
    have hpi := length_of_getElem? hp
    have hvi := length_of_getElem? hv
    refine ⟨hpi, hvi, Nat.le_succ_of_le h.mark_le, h.star_lt, fun star hstar => ?_⟩
    obtain ⟨passed, elements, hpattern, hvalue, hpassed⟩ := h.passed star hstar
    refine ⟨passed ++ [q], elements ++ [c], ?_, ?_, ?_⟩
    · rw [hpattern, drop_of_getElem? hp, List.append_assoc]
      rfl
    · rw [hvalue, drop_of_getElem? hv, List.append_assoc]
      rfl
    · refine List.rel_append hpassed (.cons ?_ .nil)
      rintro rfl
      rcases hsingle with hq | rfl
      · exact absurd hq (by decide)
      · rfl
  · cases hs
    have hpi := length_of_getElem? hp
    refine ⟨hpi, h.vi_le, Nat.le_refl _, fun star hstar => ?_, fun star hstar => ?_⟩
    · cases hstar
      exact hpi
    · cases hstar
      exact ⟨[], [], rfl, rfl, .nil⟩
  · unfold globBack at hs
    cases hstar : s.star with
    | none =>
      rw [hstar] at hs
      cases hs
    | some star =>
      rw [hstar] at hs
      cases hs
      have hvi := length_of_getElem? hv
      have hmark : s.mark + 1 ≤ v.length := Nat.lt_of_le_of_lt h.mark_le hvi
      have hstarlt := h.star_lt star hstar
      refine ⟨hstarlt, hmark, Nat.le_refl _, fun star' hstar' => ?_, fun star' hstar' => ?_⟩
      · cases hstar'
        exact hstarlt
      · cases hstar'
        exact ⟨[], [], rfl, rfl, .nil⟩
  · cases hs

theorem GlobInv.measure_lt {p v : Str} {s s' : GlobState} (h : GlobInv p v s) (hturn : globTurn p v s = .again s') :
    globMeasure p v s' < globMeasure p v s := by
  have hmark := h.mark_le
  unfold globMeasure
  obtain ⟨q, c, hp, hv, hsingle, hs⟩ | ⟨c, hp, hv, hc, hs⟩ | ⟨c, hv, hq, hs⟩ | ⟨hv, hs⟩ := globTurn_cases hturn
  · cases hs
    have hpi := length_of_getElem? hp
    dsimp only
    omega
  · cases hs
    have hpi := length_of_getElem? hp
    have hless : (v.length - s.vi) * (p.length + 1) ≤ (v.length - s.mark) * (p.length + 1) :=
      Nat.mul_le_mul_right _ (by omega)
    dsimp only
    omega
  · unfold globBack at hs
    cases hstar : s.star with
    | none =>
      rw [hstar] at hs
      cases hs
    | some star =>
      rw [hstar] at hs
      cases hs
      have hvi := length_of_getElem? hv
      obtain ⟨n, hn⟩ : ∃ n, v.length - s.mark = n + 1 := ⟨v.length - s.mark - 1, by omega⟩
      have hnext : v.length - (s.mark + 1) = n := by omega
      dsimp only
      rw [hn, hnext, Nat.succ_mul]
      omega
  · cases hs

/-- The loop comes to an end, with what `globMatch` returns. -/
theorem returns_globMatch (pattern value : Str) :
    Loop.Returns (globTurn pattern value) globStart (globMatch pattern value) := by
  have henough : globMeasure pattern value globStart < (pattern.length + 1) * (value.length + 1) + 1 := by
    unfold globMeasure globStart
    have hmul : (pattern.length + 1) * (value.length + 1) =
        value.length * (pattern.length + 1) + (pattern.length + 1) := by
      rw [Nat.mul_comm, Nat.succ_mul]
    rw [hmul, Nat.sub_zero, Nat.sub_zero]
    omega
  obtain ⟨b, hrun⟩ := Loop.exists_run (fun s s' hinv hturn => ⟨GlobInv.step hinv hturn, hinv.measure_lt hturn⟩)
    (GlobInv.start pattern value) henough
  have hmatch : globMatch pattern value = b := by
    have hloop := globLoop_eq_run pattern value ((pattern.length + 1) * (value.length + 1) + 1) globStart
    rw [hrun] at hloop
    exact hloop
  rw [hmatch]
  exact Loop.returns_of_run hrun

/-! ### What the loop finds -/

/-- The matches which the loop may still find: one from where it stands, or one where the last `*` takes more. -/
def GlobOpen (p v : Str) (s : GlobState) : Prop :=
  Wildcard.MatchesVerbatim '*' '?' (p.drop s.pi) (v.drop s.vi) ∨
    ∃ star k, s.star = some star ∧ Wildcard.MatchesVerbatim '*' '?' (p.drop (star + 1)) (v.drop (s.mark + 1 + k))

/-- A match where the last `*` takes more has a match of what is left of the pattern, from where the loop stands or
later. -/
theorem GlobInv.exists_later {p v : Str} {s : GlobState} (h : GlobInv p v s) {star k : Nat} (hstar : s.star = some star)
    (hmatch : Wildcard.MatchesVerbatim '*' '?' (p.drop (star + 1)) (v.drop (s.mark + 1 + k))) :
    ∃ t, Wildcard.MatchesVerbatim '*' '?' (p.drop s.pi) ((v.drop s.vi).drop t) := by
  obtain ⟨passed, elements, hpattern, hvalue, hpassed⟩ := h.passed star hstar
  rw [hpattern, Nat.add_assoc, ← List.drop_drop, hvalue] at hmatch
  exact Wildcard.exists_drop_of_passed hpassed _ hmatch

private theorem not_matches_here {p v : Str} {s : GlobState} {c : Char} (hv : v[s.vi]? = some c)
    (hq : ∀ q, p[s.pi]? = some q → q ≠ '*' ∧ q ≠ '?' ∧ q ≠ c) :
    ¬ Wildcard.MatchesVerbatim '*' '?' (p.drop s.pi) (v.drop s.vi) := by
  rw [drop_of_getElem? hv]
  cases hp : p[s.pi]? with
  | none =>
    rw [List.drop_eq_nil_of_le (List.getElem?_eq_none_iff.1 hp), Wildcard.matchesVerbatim_nil]
    exact List.cons_ne_nil _ _
  | some q =>
    obtain ⟨hmany, hone, hself⟩ := hq q hp
    rw [drop_of_getElem? hp, Wildcard.matchesVerbatim_cons_single hmany]
    rintro ⟨d, rest, hvalue, hd, -⟩
    cases hvalue
    exact hd.elim hone hself

theorem GlobInv.open_step {p v : Str} {s s' : GlobState} (h : GlobInv p v s) (hturn : globTurn p v s = .again s') :
    GlobOpen p v s' ↔ GlobOpen p v s := by
  unfold GlobOpen
  obtain ⟨q, c, hp, hv, hsingle, hs⟩ | ⟨c, hp, hv, hc, hs⟩ | ⟨c, hv, hq, hs⟩ | ⟨hv, hs⟩ := globTurn_cases hturn
  · cases hs
    have hnext : Wildcard.MatchesVerbatim '*' '?' (p.drop s.pi) (v.drop s.vi) ↔
        Wildcard.MatchesVerbatim '*' '?' (p.drop (s.pi + 1)) (v.drop (s.vi + 1)) := by
      rw [drop_of_getElem? hp, drop_of_getElem? hv]
      by_cases hmany : q = '*'
      · subst hmany
        have hc : '*' = c := hsingle.resolve_left (by decide)
        rw [← hc]
        exact Wildcard.matchesVerbatim_many_self
      · rw [Wildcard.matchesVerbatim_cons_single hmany]
        constructor
        · rintro ⟨d, rest, hvalue, -, hrest⟩
          cases hvalue
          exact hrest
        · intro hrest
          exact ⟨c, _, rfl, hsingle, hrest⟩
    rw [hnext]
  · cases hs
    -- what an earlier `*` could still do, the new one can do as well
    have hmany : Wildcard.MatchesVerbatim '*' '?' (p.drop s.pi) (v.drop s.vi) ↔
        ∃ k, Wildcard.MatchesVerbatim '*' '?' (p.drop (s.pi + 1)) ((v.drop s.vi).drop k) := by
      rw [drop_of_getElem? hp]
      refine Wildcard.matchesVerbatim_many_other ?_
      rw [drop_of_getElem? hv]
      simpa using hc
    have hopen : (∃ k, Wildcard.MatchesVerbatim '*' '?' (p.drop (s.pi + 1)) ((v.drop s.vi).drop k)) ↔
        Wildcard.MatchesVerbatim '*' '?' (p.drop (s.pi + 1)) (v.drop s.vi) ∨
          ∃ star k, some s.pi = some star ∧
            Wildcard.MatchesVerbatim '*' '?' (p.drop (star + 1)) (v.drop (s.vi + 1 + k)) := by
      constructor
      · rintro ⟨k, hk⟩
        cases k with
        | zero => exact Or.inl hk
        | succ k =>
          rw [List.drop_drop, ← Nat.add_assoc, Nat.add_right_comm] at hk
          exact Or.inr ⟨s.pi, k, rfl, hk⟩
      · rintro (h0 | ⟨star, k, hstar, hk⟩)
        · exact ⟨0, h0⟩
        · cases hstar
          refine ⟨k + 1, ?_⟩
          rw [List.drop_drop, ← Nat.add_assoc, Nat.add_right_comm]
          exact hk
    rw [← hopen, hmany]
    constructor
    · exact Or.inl
    · rintro (hhere | ⟨star, k, hstar, hk⟩)
      · exact hhere
      · obtain ⟨t, ht⟩ := h.exists_later hstar hk
        rw [drop_of_getElem? hp] at ht
        obtain ⟨j, hj⟩ := Wildcard.exists_of_matchesVerbatim_many ht
        rw [List.drop_drop] at hj
        exact ⟨_, hj⟩
  · unfold globBack at hs
    cases hstar : s.star with
    | none =>
      rw [hstar] at hs
      cases hs
    | some star =>
      rw [hstar] at hs
      cases hs
      have hnone := not_matches_here hv hq
      constructor
      · rintro (h0 | ⟨star', k, hstar', hk⟩)
        · exact Or.inr ⟨star, 0, rfl, h0⟩
        · cases hstar'
          rw [Nat.add_assoc _ 1 k] at hk
          exact Or.inr ⟨star, 1 + k, rfl, hk⟩
      · rintro (hhere | ⟨star', k, hstar', hk⟩)
        · exact absurd hhere hnone
        · cases hstar'
          cases k with
          | zero => exact Or.inl hk
          | succ k =>
            rw [← Nat.add_assoc, Nat.add_right_comm] at hk
            exact Or.inr ⟨star, k, rfl, hk⟩
  · cases hs

theorem GlobInv.open_leave {p v : Str} {s : GlobState} {b : Bool} (h : GlobInv p v s)
    (hturn : globTurn p v s = .leave b) :
    b = true ↔ GlobOpen p v s := by
  unfold GlobOpen
  obtain ⟨q, c, hp, hv, hsingle, hs⟩ | ⟨c, hp, hv, hc, hs⟩ | ⟨c, hv, hq, hs⟩ | ⟨hv, hs⟩ := globTurn_cases hturn
  · cases hs
  · cases hs
  · unfold globBack at hs
    cases hstar : s.star with
    | none =>
      rw [hstar] at hs
      cases hs
      have hnone := not_matches_here hv hq
      simp [hnone]
    | some star =>
      rw [hstar] at hs
      cases hs
  · cases hs
    have hend : v.drop s.vi = [] := List.drop_eq_nil_of_le (List.getElem?_eq_none_iff.1 hv)
    have hstars : ((p.drop s.pi).all (· = '*')) = true ↔
        Wildcard.MatchesVerbatim '*' '?' (p.drop s.pi) (v.drop s.vi) := by
      rw [hend, Wildcard.matchesVerbatim_empty]
      simp
    rw [hstars]
    constructor
    · exact Or.inl
    · rintro (hhere | ⟨star, k, hstar, hk⟩)
      · exact hhere
      · obtain ⟨t, ht⟩ := h.exists_later hstar hk
        rw [hend] at ht ⊢
        rwa [List.drop_nil] at ht

/-- `globMatch` finds exactly the verbatim matches. -/
theorem globMatch_iff (pattern value : Str) :
    globMatch pattern value = true ↔ Wildcard.MatchesVerbatim '*' '?' pattern value := by
  have hopen : globMatch pattern value = true ↔ GlobOpen pattern value globStart :=
    Loop.Returns.iff (Q := (· = true)) (fun s s' hinv hturn => ⟨GlobInv.step hinv hturn, hinv.open_step hturn⟩)
      (fun s b hinv hturn => hinv.open_leave hturn) (GlobInv.start pattern value) (returns_globMatch pattern value)
  rw [hopen]
  constructor
  · rintro (h | ⟨star, k, hstar, -⟩)
    · exact h
    · cases hstar
  · exact Or.inl

/-- A value without a `*` is matched as the pattern says. -/
theorem globMatch_iff_matches (pattern : Str) {value : Str} (hvalue : '*' ∉ value) :
    globMatch pattern value = true ↔ Wildcard.Matches '*' '?' pattern value := by
  rw [globMatch_iff]
  exact ⟨Wildcard.MatchesVerbatim.toMatches, Wildcard.Matches.verbatim hvalue⟩

/-- The loop returns for every pattern and value.  It is the anchored match of the pattern exactly where a value which
can be split has a verbatim split. -/
theorem globMatch_anchored_iff (pattern value : Str) :
    Loop.Returns (globTurn pattern value) globStart (globMatch pattern value) ∧
        (globMatch pattern value = true ↔ Wildcard.Matches '*' '?' pattern value) ↔
      (Wildcard.Matches '*' '?' pattern value → Wildcard.MatchesVerbatim '*' '?' pattern value) := by
  rw [globMatch_iff]
  constructor
  · rintro ⟨-, h⟩
    exact h.2
  · intro h
    exact ⟨returns_globMatch pattern value, Wildcard.MatchesVerbatim.toMatches, h⟩

/-- `/f/*a` is no match for `/f/*xa`: the `*` is taken for the asterisk, and there is no other to fall back on. -/
theorem not_globMatch_anchored :
    ¬ ∀ pattern value, globMatch pattern value = true ↔ Wildcard.Matches '*' '?' pattern value := by
  intro h
  have hmatches : Wildcard.Matches '*' '?' ("/f/*a" : Str) ("/f/*xa" : Str) := by
    refine ⟨[['/'], ['f'], ['/'], ['*', 'x'], ['a']], ?_, by decide⟩
    refine .cons ?_ (.cons ?_ (.cons ?_ (.cons ?_ (.cons ?_ .nil))))
    · exact fun _ => ⟨'/', rfl, Or.inr rfl⟩
    · exact fun _ => ⟨'f', rfl, Or.inr rfl⟩
    · exact fun _ => ⟨'/', rfl, Or.inr rfl⟩
    · exact fun hne => absurd rfl hne
    · exact fun _ => ⟨'a', rfl, Or.inr rfl⟩
  have hfalse : globMatch ("/f/*a" : Str) ("/f/*xa" : Str) = false := by decide +kernel
  have htrue := (h _ _).2 hmatches
  rw [hfalse] at htrue
  cases htrue

end Matcher

end Oproxy
