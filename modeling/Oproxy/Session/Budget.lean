import Oproxy.Session.Accounting

/-!
# Which exchanges a sweep empties

`enforce_budget` walks the exchanges from the oldest on and empties them until the counter is under the cap.  It
gets to an exchange with the counter less the bytes of all exchanges in front of it, or it has stopped before.
-/

namespace Oproxy

namespace SessionStore

/-- The bytes of the exchanges in front of an exchange. -/
def bytesBefore (s : SessionStore) (id : Str) : Nat := s.exchanges.totalBefore exchangeBodySize id

/-- A sweep of the store is not over when it gets to an exchange. -/
def SweepReaches (s : SessionStore) (id : Str) : Prop :=
  s.maxRetainedBodyBytes ≠ usizeMax ∧ s.maxRetainedBodyBytes < s.bodyBytes - s.bytesBefore id

instance (s : SessionStore) (id : Str) : Decidable (s.SweepReaches id) := inferInstanceAs (Decidable (_ ∧ _))

/-- A sweep empties an exchange. -/
def Sweeps (s : SessionStore) (id : Str) (exchange : Exchange) : Prop :=
  s.SweepReaches id ∧ exchangeBodySize exchange ≠ 0

instance (s : SessionStore) (id : Str) (exchange : Exchange) : Decidable (s.Sweeps id exchange) :=
  inferInstanceAs (Decidable (_ ∧ _))

/-- The loop gets to an exchange with the counter over the cap exactly where the exchanges in front of it do not bring
it under. -/
private theorem stateAt_enforceBudgetTurn (store : IndexMap Str Exchange) (cap bodyBytes : Nat) (id : Str) :
    cap < store.stateAt (enforceBudgetTurn cap) bodyBytes id ↔
      cap < bodyBytes - store.totalBefore exchangeBodySize id := by
  have loop := IndexMap.stateAt_induction exchangeBodySize
    (fun counter passed => counter = bodyBytes - passed ∨ (counter ≤ cap ∧ bodyBytes - passed ≤ cap))
    (f := enforceBudgetTurn cap) (s := bodyBytes)
    (by
      intro counter ex passed hcounter
      unfold enforceBudgetTurn
      split
      · dsimp only
        omega
      · split
        · dsimp only
          omega
        · dsimp only
          omega)
    (Or.inl rfl) store id
  omega

private theorem enforceBudgetTurn_fst (cap counter : Nat) (ex : Exchange) :
    (enforceBudgetTurn cap counter ex).1 =
      if cap < counter ∧ exchangeBodySize ex ≠ 0 then clearExchangeBodies ex else ex := by
  unfold enforceBudgetTurn
  by_cases hcap : counter ≤ cap
  · rw [if_pos hcap, if_neg (by omega)]
  · rw [if_neg hcap]
    by_cases hsize : exchangeBodySize ex = 0
    · rw [if_pos hsize, if_neg (by omega)]
    · rw [if_neg hsize, if_pos (by omega)]

/-- The exchange of an id after a sweep. -/
theorem get?_enforceBodyBudget (s : SessionStore) (id : Str) :
    s.enforceBodyBudget.exchanges.get? id =
      (s.exchanges.get? id).map fun ex => if s.Sweeps id ex then clearExchangeBodies ex else ex := by
  have hreach : s.maxRetainedBodyBytes < s.exchanges.stateAt (enforceBudgetTurn s.maxRetainedBodyBytes) s.bodyBytes id ↔
      s.maxRetainedBodyBytes < s.bodyBytes - s.bytesBefore id :=
    stateAt_enforceBudgetTurn s.exchanges s.maxRetainedBodyBytes s.bodyBytes id
  unfold enforceBodyBudget
  split
  · rename_i hover
    show (enforceBudget s.exchanges s.maxRetainedBodyBytes s.bodyBytes).1.get? id = _
    unfold enforceBudget
    rw [IndexMap.get?_valuesMut]
    congr 1
    funext ex
    rw [enforceBudgetTurn_fst]
    simp only [hreach, Sweeps, SweepReaches, hover.1, ne_eq, not_false_eq_true, true_and]
  · rename_i hunder
    have hnot : ∀ ex, ¬ s.Sweeps id ex := by
      rintro ex ⟨⟨hfinite, hcap⟩, -⟩
      exact hunder ⟨hfinite, by omega⟩
    simp [hnot]

end SessionStore

end Oproxy
