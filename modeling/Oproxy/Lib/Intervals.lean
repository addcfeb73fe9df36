import Mathlib.Algebra.Order.BigOperators.Group.List
import Mathlib.Algebra.Ring.Int.Defs
import Mathlib.Data.List.Induction
import Mathlib.Data.Int.Order.Basic
import Mathlib.Order.Bounds.Basic
import Mathlib.Order.MinMax

/-!
# Half-open intervals

A sweep over the endpoints of intervals finds how many of them a point can be in.  The balance is one up at each start
and one down at each end; at one point the ends come first, so that intervals which touch do not count together and an
empty one does not count.
-/

namespace Intervals

variable {T : Type} [LinearOrder T]

/-- How many intervals a point is in. -/
def covering (intervals : List (T × T)) (t : T) : Nat := intervals.countP fun i => i.1 ≤ t ∧ t < i.2

/-- One up at the start and one down at the end of each interval; an interval does not end before its start. -/
def endpoints (intervals : List (T × T)) : List (T × Int) :=
  intervals.flatMap fun i => [(i.1, 1), (max i.2 i.1, -1)]

/-- By the point, and at one point by the step. -/
def endpointLe (a b : T × Int) : Bool := decide (a.1 < b.1) || decide (a.1 = b.1) && decide (a.2 ≤ b.2)

/-- The greatest balance on the way, from the balance and the greatest one so far. -/
def sweep : Int → Int → List (T × Int) → Int
  | _, peak, [] => peak
  | cur, peak, e :: rest => sweep (cur + e.2) (max peak (cur + e.2)) rest

def peak (intervals : List (T × T)) : Int := sweep 0 0 ((endpoints intervals).mergeSort endpointLe)

/-- The sum of the steps. -/
def balance (events : List (T × Int)) : Int := (events.map Prod.snd).sum

/-! ### The greatest balance -/

section

variable {cur top : Int} {events before : List (T × Int)}

omit [LinearOrder T] in
theorem balance_append (a b : List (T × Int)) : balance (a ++ b) = balance a + balance b := by simp [balance]

omit [LinearOrder T] in
theorem le_sweep (cur top : Int) (events : List (T × Int)) : top ≤ sweep cur top events := by
  induction events generalizing cur top with
  | nil => exact le_refl _
  | cons e rest ih => exact (le_max_left _ _).trans (ih _ _)

omit [LinearOrder T] in
theorem balance_le_sweep (hle : cur ≤ top) (hbefore : before <+: events) :
    cur + balance before ≤ sweep cur top events := by
  induction events generalizing cur top before with
  | nil =>
    obtain rfl := List.prefix_nil.1 hbefore
    simpa [balance, sweep] using hle
  | cons e rest ih =>
    cases before with
    | nil => simpa [balance] using hle.trans (le_sweep cur top (e :: rest))
    | cons a before =>
      obtain ⟨rfl, hrest⟩ := List.cons_prefix_cons.1 hbefore
      have hnext := @ih (cur + a.2) (max top (cur + a.2)) before (le_max_right _ _) hrest
      simpa [balance, sweep, add_assoc] using hnext

omit [LinearOrder T] in
/-- The greatest balance is the one to start with or that of a first part of the events. -/
theorem exists_sweep_eq (cur top : Int) (events : List (T × Int)) :
    sweep cur top events = top ∨ ∃ before, before <+: events ∧ sweep cur top events = cur + balance before := by
  induction events generalizing cur top with
  | nil => exact Or.inl rfl
  | cons e rest ih =>
    rcases ih (cur + e.2) (max top (cur + e.2)) with h | ⟨before, hbefore, h⟩
    · rcases max_choice top (cur + e.2) with htop | htop
      · exact Or.inl (h.trans htop)
      · exact Or.inr ⟨[e], List.cons_prefix_cons.2 ⟨rfl, List.nil_prefix⟩, by simpa [balance, sweep] using h.trans htop⟩
    · refine Or.inr ⟨e :: before, List.cons_prefix_cons.2 ⟨rfl, hbefore⟩, ?_⟩
      simpa [balance, sweep, add_assoc] using h

end

/-! ### Events in order -/

section

variable {events : List (T × Int)} {intervals : List (T × T)}

theorem endpointLe_iff {a b : T × Int} : endpointLe a b = true ↔ a.1 < b.1 ∨ a.1 = b.1 ∧ a.2 ≤ b.2 := by
  simp [endpointLe]

theorem pairwise_sorted (events : List (T × Int)) :
    (events.mergeSort endpointLe).Pairwise fun a b => a.1 < b.1 ∨ a.1 = b.1 ∧ a.2 ≤ b.2 := by
  have hsorted := @List.pairwise_mergeSort _ (@endpointLe T _) ?_ ?_ events
  · exact hsorted.imp endpointLe_iff.1
  · intro a b c hab hbc
    rw [endpointLe_iff] at hab hbc ⊢
    rcases hab with hab | ⟨hab, hab'⟩
    · rcases hbc with hbc | ⟨hbc, -⟩
      · exact Or.inl (hab.trans hbc)
      · exact Or.inl (hbc ▸ hab)
    · rcases hbc with hbc | ⟨hbc, hbc'⟩
      · exact Or.inl (hab ▸ hbc)
      · exact Or.inr ⟨hab.trans hbc, hab'.trans hbc'⟩
  · intro a b
    rw [Bool.or_eq_true, endpointLe_iff, endpointLe_iff]
    rcases lt_trichotomy a.1 b.1 with h | h | h
    · exact Or.inl (Or.inl h)
    · rcases le_total a.2 b.2 with h' | h'
      · exact Or.inl (Or.inr ⟨h, h'⟩)
      · exact Or.inr (Or.inr ⟨h.symm, h'⟩)
    · exact Or.inr (Or.inl h)

/-- In order, the events up to a point come first. -/
theorem filter_le_isPrefix (h : events.Pairwise fun a b => a.1 < b.1 ∨ a.1 = b.1 ∧ a.2 ≤ b.2) (t : T) :
    (events.filter fun e => decide (e.1 ≤ t)) <+: events := by
  induction events with
  | nil => exact List.prefix_refl _
  | cons e rest ih =>
    rw [List.pairwise_cons] at h
    by_cases he : e.1 ≤ t
    · rw [List.filter_cons_of_pos (by simpa using he)]
      exact List.cons_prefix_cons.2 ⟨rfl, ih h.2⟩
    · have hnone : (e :: rest).filter (fun e => decide (e.1 ≤ t)) = [] := by
        refine List.filter_eq_nil_iff.2 fun a ha hle => he ?_
        have hle : a.1 ≤ t := of_decide_eq_true hle
        rcases List.mem_cons.1 ha with rfl | ha
        · exact hle
        · rcases h.1 a ha with hlt | ⟨heq, -⟩
          · exact (le_of_lt hlt).trans hle
          · exact heq.le.trans hle
      rw [hnone]
      exact List.nil_prefix

/-- The balance of the events up to a point is the number of intervals it is in. -/
theorem balance_filter (intervals : List (T × T)) (t : T) :
    balance ((endpoints intervals).filter fun e => decide (e.1 ≤ t)) = covering intervals t := by
  induction intervals with
  | nil => rfl
  | cons i rest ih =>
    have hstep : balance ([(i.1, (1 : Int)), (max i.2 i.1, -1)].filter fun e => decide (e.1 ≤ t)) =
        if i.1 ≤ t ∧ t < i.2 then 1 else 0 := by
      by_cases hstart : i.1 ≤ t
      · by_cases hend : t < i.2
        · have hmax : ¬ max i.2 i.1 ≤ t := fun h => absurd ((le_max_left _ _).trans h) (not_le.2 hend)
          simp [balance, hstart, hend]
        · have hmax : max i.2 i.1 ≤ t := max_le (not_lt.1 hend) hstart
          simp [balance, hstart, hend, not_lt.1 hend]
      · have hmax : ¬ max i.2 i.1 ≤ t := fun h => absurd ((le_max_right _ _).trans h) hstart
        simp [balance, hstart]
    have hcons : endpoints (i :: rest) = [(i.1, (1 : Int)), (max i.2 i.1, -1)] ++ endpoints rest := rfl
    rw [hcons, List.filter_append, balance_append, ih, hstep, covering, covering, List.countP_cons]
    split <;> simp_all [add_comm]

omit [LinearOrder T] in
theorem balance_perm {a b : List (T × Int)} (h : a.Perm b) : balance a = balance b := (h.map _).sum_eq

omit [LinearOrder T] in
theorem balance_nonneg (h : ∀ e ∈ events, 0 ≤ e.2) : 0 ≤ balance events :=
  List.sum_nonneg fun x hx => by
    obtain ⟨e, he, rfl⟩ := List.mem_map.1 hx
    exact h e he

theorem step_of_mem_endpoints {e : T × Int} (h : e ∈ endpoints intervals) : e.2 = 1 ∨ e.2 = -1 := by
  obtain ⟨i, -, he⟩ := List.mem_flatMap.1 h
  simp only [List.mem_cons, List.not_mem_nil, or_false] at he
  rcases he with rfl | rfl
  · exact Or.inl rfl
  · exact Or.inr rfl

/-- Every balance on the way is at most the number of intervals which some point is in. -/
theorem exists_balance_le [Nonempty T] {before after : List (T × Int)}
    (hsteps : ∀ e ∈ before ++ after, e.2 = 1 ∨ e.2 = -1)
    (hsorted : (before ++ after).Pairwise fun a b => a.1 < b.1 ∨ a.1 = b.1 ∧ a.2 ≤ b.2)
    (hcovering : ∀ t, balance ((before ++ after).filter fun e => decide (e.1 ≤ t)) = covering intervals t) :
    ∃ t, balance before ≤ covering intervals t := by
  -- the last event decides: a step down is below the balance before it, and at a step up all ends up to there are
  -- counted
  induction before using List.reverseRecOn generalizing after with
  | nil => exact ⟨Classical.arbitrary T, by simp [balance]⟩
  | append_singleton before e ih =>
    rw [List.append_assoc] at hsteps hsorted hcovering
    rcases hsteps e (by simp) with hup | hdown
    · refine ⟨e.1, ?_⟩
      obtain ⟨-, hafter, hbefore⟩ := List.pairwise_append.1 hsorted
      have hall : (before ++ [e]).filter (fun a => decide (a.1 ≤ e.1)) = before ++ [e] := by
        refine List.filter_eq_self.2 fun a ha => decide_eq_true ?_
        rcases List.mem_append.1 ha with ha | ha
        · rcases hbefore a ha e (by simp) with hlt | ⟨heq, -⟩
          · exact le_of_lt hlt
          · exact heq.le
        · rw [List.mem_singleton.1 ha]
      have hrest : 0 ≤ balance (after.filter fun a => decide (a.1 ≤ e.1)) := by
        refine balance_nonneg fun a ha => ?_
        obtain ⟨ha, hle⟩ := List.mem_filter.1 ha
        rcases (List.pairwise_cons.1 hafter).1 a ha with hlt | ⟨-, hstep⟩
        · exact absurd (of_decide_eq_true hle) (not_le.2 hlt)
        · omega
      have hsplit := hcovering e.1
      rw [← List.append_assoc, List.filter_append, hall, balance_append (before ++ [e])] at hsplit
      omega
    · obtain ⟨t, ht⟩ := ih hsteps hsorted hcovering
      refine ⟨t, ?_⟩
      have hlast : balance [e] = -1 := by simp [balance, hdown]
      rw [balance_append, hlast]
      omega

/-- The sweep finds the greatest number of intervals which a point is in. -/
theorem isGreatest_peak [Nonempty T] (intervals : List (T × T)) :
    IsGreatest (Set.range fun t => (covering intervals t : Int)) (peak intervals) := by
  have hperm := List.mergeSort_perm (endpoints intervals) endpointLe
  have hsorted := pairwise_sorted (endpoints intervals)
  have hcovering : ∀ t, balance (((endpoints intervals).mergeSort endpointLe).filter fun e => decide (e.1 ≤ t)) =
      covering intervals t := fun t => (balance_perm (hperm.filter _)).trans (balance_filter intervals t)
  have hupper : ∀ t, (covering intervals t : Int) ≤ peak intervals := by
    intro t
    rw [← hcovering t, ← zero_add (balance _)]
    exact balance_le_sweep (le_refl 0) (filter_le_isPrefix hsorted t)
  refine ⟨?_, fun n ⟨t, ht⟩ => ht ▸ hupper t⟩
  suffices h : ∃ t, peak intervals ≤ covering intervals t by
    obtain ⟨t, ht⟩ := h
    exact ⟨t, le_antisymm (hupper t) ht⟩
  rcases exists_sweep_eq 0 0 ((endpoints intervals).mergeSort endpointLe) with h | ⟨before, ⟨after, hafter⟩, h⟩
  · exact ⟨Classical.arbitrary T, by rw [peak, h]; exact Int.natCast_nonneg _⟩
  · have hsteps : ∀ e ∈ before ++ after, e.2 = 1 ∨ e.2 = -1 := fun e he =>
      step_of_mem_endpoints (hperm.mem_iff.1 (hafter ▸ he))
    rw [← hafter] at hsorted hcovering
    obtain ⟨t, ht⟩ := exists_balance_le hsteps hsorted hcovering
    exact ⟨t, by rw [peak, h, zero_add]; exact ht⟩

end

end Intervals
