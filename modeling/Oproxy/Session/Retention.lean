import Oproxy.Lib.Run
import Oproxy.Session.Operations

/-!
# What the store keeps of a request

No operation changes the request of a stored exchange but the enforcement of the budget, which empties its body.
-/

namespace Oproxy

/-- An operation puts an exchange with a request in under an id. -/
def WriteOp.Puts (id : Str) (request : RequestContext) : WriteOp → Prop
  | recordRequest id' request' _ => id' = id ∧ request' = request
  | importSessions exchanges => ∃ exchange ∈ exchanges, exchange.id = id ∧ exchange.request = request
  | loadData map => ∃ exchange, map.get? id = some exchange ∧ exchange.request = request
  | _ => False

namespace SessionStore

open Machine

/-- Each exchange is put in with the body which its request had, or with none. -/
def Captures (original : Str → Bytes) (t : TimedOp) : Prop :=
  ∀ id request, t.op.Puts id request → request.body = original id ∨ request.body = []

/-- Each exchange has the body which its request had, or none. -/
def Keeps (original : Str → Bytes) (s : SessionStore) : Prop :=
  ∀ id exchange, s.exchanges.get? id = some exchange →
    exchange.request.body = original id ∨ exchange.request.body = []

variable {s : SessionStore} {t : TimedOp} {id : Str} {exchange : Exchange}

theorem request_touch (t : TimedOp) (id : Str) (exchange : Exchange) :
    (touch t id exchange).request = exchange.request := by
  obtain ⟨clock, op⟩ := t
  unfold touch
  cases op <;> dsimp only
  all_goals
    first
    | rfl
    | (split <;> rfl)

/-- An imported exchange is one of those which are imported, or was there before. -/
theorem mem_of_get?_foldl_importOne {exchanges : List Exchange}
    (h : (exchanges.foldl importOne s).exchanges.get? id = some exchange) :
    (exchange ∈ exchanges ∧ exchange.id = id) ∨ s.exchanges.get? id = some exchange := by
  induction exchanges generalizing s with
  | nil => exact Or.inr h
  | cons first rest ih =>
    rcases ih h with ⟨hmem, hid⟩ | hone
    · exact Or.inl ⟨List.mem_cons_of_mem _ hmem, hid⟩
    · unfold importOne at hone
      dsimp only at hone
      rw [IndexMap.get?_insert] at hone
      by_cases hid : first.id = id
      · rw [if_pos hid] at hone
        cases hone
        exact Or.inl ⟨List.mem_cons_self, hid⟩
      · rw [if_neg hid] at hone
        exact Or.inr (get?_evictSessionIfFull hone)

/-- A request in the store was there before the operation, or is one of those which it puts in. -/
theorem request_unbudgeted (h : (s.unbudgeted t).exchanges.get? id = some exchange) :
    t.op.Puts id exchange.request ∨ ∃ before, s.exchanges.get? id = some before ∧
      exchange.request = before.request := by
  by_cases hinserts : t.op.Inserts id
  · obtain ⟨clock, op⟩ := t
    cases op with
    | recordRequest id' request source =>
      simp only [unbudgeted, step, processWriteOp, recordRequest, enforceBodyBudget_unlimited,
        evictSessionIfFull_cap] at h
      rw [IndexMap.get?_insert, if_pos (show id' = id from hinserts)] at h
      cases h
      exact Or.inl ⟨hinserts, rfl⟩
    | importSessions exchanges =>
      simp only [unbudgeted, step, processWriteOp, importAll, foldl_importOne_cap, enforceBodyBudget_unlimited] at h
      rcases mem_of_get?_foldl_importOne h with ⟨hmem, hid⟩ | hbefore
      · exact Or.inl ⟨exchange, hmem, hid, rfl⟩
      · exact Or.inr ⟨exchange, hbefore, rfl⟩
    | loadData map =>
      simp only [unbudgeted, step, processWriteOp, replace, enforceBodyBudget_unlimited] at h
      exact Or.inl ⟨exchange, h, rfl⟩
    | _ => exact False.elim hinserts
  · obtain ⟨before, hbefore, rfl⟩ := get?_unbudgeted s t id h hinserts
    exact Or.inr ⟨before, hbefore, request_touch t id before⟩

theorem keeps_step {original : Str → Bytes} (h : s.Keeps original) (ht : Captures original t) :
    (s.step t).Keeps original := by
  intro id exchange hstored
  rw [get?_step, Option.map_eq_some_iff] at hstored
  obtain ⟨unswept, hunswept, rfl⟩ := hstored
  have hunswept' : unswept.request.body = original id ∨ unswept.request.body = [] := by
    rcases request_unbudgeted hunswept with hputs | ⟨before, hbefore, heq⟩
    · exact ht id _ hputs
    · rw [heq]
      exact h id before hbefore
  split
  · exact Or.inr rfl
  · exact hunswept'

theorem keeps_run {original : Str → Bytes} (M B : Nat) {ops : List TimedOp} (h : ∀ t ∈ ops, Captures original t) :
    (run step (empty M B) ops).Keeps original := by
  induction ops using List.reverseRecOn with
  | nil =>
    intro id exchange hstored
    cases hstored
  | append_singleton ops t ih =>
    rw [run_append, run_cons, run_nil]
    apply keeps_step
    · exact ih fun t' ht' => h t' (List.mem_append_left _ ht')
    · exact h t (List.mem_append_right _ (List.mem_singleton_self t))

end SessionStore

end Oproxy
