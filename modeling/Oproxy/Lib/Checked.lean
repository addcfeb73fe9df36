import Mathlib.Algebra.BigOperators.Group.List.Basic
import Mathlib.Algebra.GroupWithZero.Nat

/-!
# Arithmetic in 64 bits

Sums and products as they are with overflow checks: there is no result where it would not fit.  A chain of checked sums
has a result exactly if the total fits.
-/

namespace Checked

def addU64 (a b : Nat) : Option Nat := if a + b < 2 ^ 64 then some (a + b) else none

def mulU64 (a b : Nat) : Option Nat := if a * b < 2 ^ 64 then some (a * b) else none

/-- The sum of a list, from the front. -/
def sumU64 (l : List Nat) : Option Nat := l.foldlM addU64 0

variable {a b : Nat}

theorem addU64_of_lt (h : a + b < 2 ^ 64) : addU64 a b = some (a + b) := if_pos h

theorem addU64_of_not_lt (h : ¬ a + b < 2 ^ 64) : addU64 a b = none := if_neg h

/-- A chain of sums in which each step may be a sum itself. -/
theorem foldlM_addU64 {α : Type} (step : Nat → α → Option Nat) (size : α → Nat)
    (hstep : ∀ total x, total < 2 ^ 64 →
      step total x = if total + size x < 2 ^ 64 then some (total + size x) else none)
    (l : List α) (total : Nat) (htotal : total < 2 ^ 64) :
    l.foldlM step total = if total + (l.map size).sum < 2 ^ 64 then some (total + (l.map size).sum) else none := by
  induction l generalizing total with
  | nil => simpa using htotal
  | cons x l ih =>
    rw [List.foldlM_cons, hstep total x htotal, List.map_cons, List.sum_cons]
    by_cases hfits : total + size x < 2 ^ 64
    · rw [if_pos hfits]
      have hrest := ih (total + size x) hfits
      rw [Nat.add_assoc] at hrest
      exact hrest
    · have hnot : ¬ total + (size x + (l.map size).sum) < 2 ^ 64 := by omega
      rw [if_neg hfits, if_neg hnot]
      rfl

theorem sumU64_eq (l : List Nat) : sumU64 l = if l.sum < 2 ^ 64 then some l.sum else none := by
  have h := foldlM_addU64 addU64 id (fun _ _ _ => rfl) l 0 (by decide)
  rwa [List.map_id, Nat.zero_add] at h

end Checked
