import Mathlib.Order.Bounds.Basic
import Oproxy.Session.Accounting

/-!
# Which exchanges a sweep empties, and what it leaves

`enforce_budget` empties the exchanges from the oldest on, and stops where the rest is within the budget.  A sweep with
the right counter empties as few as it can, and nothing of an exchange but its bodies.
-/

namespace Oproxy

/-! ### What is kept -/

structure WsFrame.SameButPayload (a b : WsFrame) : Prop where
  timestamp : b.timestamp = a.timestamp
  direction : b.direction = a.direction
  opcode : b.opcode = a.opcode
  payloadLen : b.payloadLen = a.payloadLen

inductive SessionEvent.SameButPayload : SessionEvent → SessionEvent → Prop
  | same (e : SessionEvent) : SameButPayload e e
  | wsFrame {a b : WsFrame} (h : a.SameButPayload b) : SameButPayload (.wsFrame a) (.wsFrame b)

/-- Two exchanges differ in nothing but bodies and payloads. -/
structure Exchange.SameButBodies (a b : Exchange) : Prop where
  request : b.request = { a.request with body := b.request.body }
  response : Option.Rel (fun r r' : ResponseContext => r' = { r with body := r'.body }) a.response b.response
  wsFrames : List.Forall₂ WsFrame.SameButPayload a.wsFrames b.wsFrames
  events : List.Forall₂ SessionEvent.SameButPayload a.events b.events
  rest : b = { a with request := b.request, response := b.response, wsFrames := b.wsFrames, events := b.events }

/-- The exchanges once the first few are emptied. -/
def emptied (n : Nat) (exchanges : List Exchange) : List Exchange :=
  (exchanges.take n).map clearExchangeBodies ++ exchanges.drop n

/-- A sweep empties the shortest prefix of the store which brings the total within the budget, so far as there is
something to empty, and keeps the rest. -/
structure EvictsOldest (budget : Nat) (store : IndexMap Str Exchange) (swept : IndexMap Str Exchange × Nat) : Prop where
  counted : swept.2 = swept.1.total exchangeBodySize
  within : swept.1.total exchangeBodySize ≤ budget
  keys : swept.1.keys = store.keys
  oldest : ∃ n, IsLeast {n | ((emptied n store.values).map exchangeBodySize).sum ≤ budget} n ∧
    swept.1.values =
      ((store.values.take n).map fun ex => if exchangeBodySize ex = 0 then ex else clearExchangeBodies ex) ++
        store.values.drop n
  frame : List.Forall₂ Exchange.SameButBodies store.values swept.1.values

/-! ### One exchange -/

private theorem forall₂_map {α : Type} {R : α → α → Prop} {f : α → α} (h : ∀ a, R a (f a)) (l : List α) :
    List.Forall₂ R l (l.map f) :=
  List.forall₂_map_right_iff.2 (List.forall₂_same.2 fun a _ => h a)

theorem SessionEvent.sameButPayload_clear (e : SessionEvent) : e.SameButPayload e.clearRetainedBody := by
  cases e with
  | wsFrame frame => exact .wsFrame ⟨rfl, rfl, rfl, rfl⟩
  | _ => exact .same _

theorem Exchange.sameButBodies_refl (ex : Exchange) : ex.SameButBodies ex where
  request := rfl
  response := by
    cases ex.response with
    | none => exact .none
    | some r => exact .some rfl
  wsFrames := List.forall₂_same.2 fun _ _ => ⟨rfl, rfl, rfl, rfl⟩
  events := List.forall₂_same.2 fun e _ => .same e
  rest := rfl

theorem Exchange.sameButBodies_clear (ex : Exchange) : ex.SameButBodies (clearExchangeBodies ex) where
  request := rfl
  response := by
    unfold clearExchangeBodies
    cases ex.response with
    | none => exact .none
    | some r => exact .some rfl
  wsFrames := forall₂_map (fun _ => ⟨rfl, rfl, rfl, rfl⟩) ex.wsFrames
  events := forall₂_map SessionEvent.sameButPayload_clear ex.events
  rest := rfl

/-! ### The prefix -/

theorem sum_emptied (n : Nat) (exchanges : List Exchange) :
    ((emptied n exchanges).map exchangeBodySize).sum = ((exchanges.drop n).map exchangeBodySize).sum := by
  have hzero : (((exchanges.take n).map clearExchangeBodies).map exchangeBodySize).sum = 0 :=
    List.sum_eq_zero fun size hsize => by
      rw [List.map_map] at hsize
      obtain ⟨ex, -, rfl⟩ := List.mem_map.1 hsize
      exact exchangeBodySize_clearExchangeBodies ex
  unfold emptied
  rw [List.map_append, List.sum_append, hzero, Nat.zero_add]

/-- Where the exchanges are over the budget, the shortest prefix has the first one in it. -/
theorem isLeast_succ {budget n : Nat} {ex : Exchange} {exchanges : List Exchange}
    (hover : budget < ((ex :: exchanges).map exchangeBodySize).sum)
    (h : IsLeast {n | ((emptied n exchanges).map exchangeBodySize).sum ≤ budget} n) :
    IsLeast {n | ((emptied n (ex :: exchanges)).map exchangeBodySize).sum ≤ budget} (n + 1) := by
  constructor
  · have hn : ((emptied n exchanges).map exchangeBodySize).sum ≤ budget := h.1
    rw [sum_emptied] at hn
    show ((emptied (n + 1) (ex :: exchanges)).map exchangeBodySize).sum ≤ budget
    rw [sum_emptied]
    exact hn
  · intro m hm
    change ((emptied m (ex :: exchanges)).map exchangeBodySize).sum ≤ budget at hm
    rw [sum_emptied] at hm
    cases m with
    | zero =>
      rw [List.drop_zero] at hm
      omega
    | succ m =>
      refine Nat.succ_le_succ (h.2 ?_)
      show ((emptied m exchanges).map exchangeBodySize).sum ≤ budget
      rw [sum_emptied]
      exact hm

/-! ### The loop -/

/-- Past the `break` nothing changes. -/
theorem mapAccum_within {budget counter : Nat} (h : counter ≤ budget) (entries : List (Str × Exchange)) :
    IndexMap.mapAccum (enforceBudgetTurn budget) counter entries = (entries, counter) := by
  induction entries with
  | nil => rfl
  | cons e entries ih =>
    have hturn : enforceBudgetTurn budget counter e.2 = (e.2, counter) := by
      unfold enforceBudgetTurn
      rw [if_pos h]
    unfold IndexMap.mapAccum
    rw [hturn, ih]

/-- A turn over the budget leaves the counter with the bytes of the exchanges to come. -/
theorem enforceBudgetTurn_over {budget rest : Nat} {ex : Exchange} (h : budget < exchangeBodySize ex + rest) :
    enforceBudgetTurn budget (exchangeBodySize ex + rest) ex =
      (if exchangeBodySize ex = 0 then ex else clearExchangeBodies ex, rest) := by
  unfold enforceBudgetTurn
  rw [if_neg (Nat.not_le_of_lt h)]
  split
  · rename_i hzero
    rw [hzero, Nat.zero_add]
  · rw [Nat.add_sub_cancel_left]

/-- The loop with the right counter empties the shortest prefix, and leaves with the bytes of the rest. -/
theorem mapAccum_enforceBudgetTurn (budget : Nat) (entries : List (Str × Exchange)) :
    ∃ n, IsLeast {n | ((emptied n (entries.map Prod.snd)).map exchangeBodySize).sum ≤ budget} n ∧
      (IndexMap.mapAccum (enforceBudgetTurn budget) ((entries.map Prod.snd).map exchangeBodySize).sum entries).1.map
          Prod.snd =
        (((entries.map Prod.snd).take n).map fun ex =>
          if exchangeBodySize ex = 0 then ex else clearExchangeBodies ex) ++
          (entries.map Prod.snd).drop n ∧
      (IndexMap.mapAccum (enforceBudgetTurn budget) ((entries.map Prod.snd).map exchangeBodySize).sum entries).2 =
        (((entries.map Prod.snd).drop n).map exchangeBodySize).sum := by
  induction entries with
  | nil => exact ⟨0, ⟨Nat.zero_le _, fun _ _ => Nat.zero_le _⟩, rfl, rfl⟩
  | cons e entries ih =>
    by_cases hover : budget < (((e :: entries).map Prod.snd).map exchangeBodySize).sum
    · obtain ⟨n, hleast, hvalues, hcounter⟩ := ih
      refine ⟨n + 1, isLeast_succ hover hleast, ?_, ?_⟩
      · rw [List.map_cons, List.map_cons, List.sum_cons] at hover ⊢
        rw [IndexMap.mapAccum, enforceBudgetTurn_over hover, List.map_cons, hvalues]
        rfl
      · rw [List.map_cons, List.map_cons, List.sum_cons] at hover ⊢
        rw [IndexMap.mapAccum, enforceBudgetTurn_over hover]
        exact hcounter
    · refine ⟨0, ⟨?_, fun _ _ => Nat.zero_le _⟩, ?_, ?_⟩
      · show ((emptied 0 ((e :: entries).map Prod.snd)).map exchangeBodySize).sum ≤ budget
        rw [sum_emptied]
        exact Nat.le_of_not_lt hover
      · rw [mapAccum_within (Nat.le_of_not_lt hover)]
        rfl
      · rw [mapAccum_within (Nat.le_of_not_lt hover)]
        rfl

/-- A sweep which begins with the bytes of the store as its counter evicts the oldest bodies first, and no more than
needed. -/
theorem enforceBudget_evictsOldest (store : IndexMap Str Exchange) (budget : Nat) :
    EvictsOldest budget store (enforceBudget store budget (store.total exchangeBodySize)) := by
  obtain ⟨n, hleast, hvalues, hcounter⟩ := mapAccum_enforceBudgetTurn budget store.entries
  change (enforceBudget store budget (store.total exchangeBodySize)).1.values =
    ((store.values.take n).map fun ex => if exchangeBodySize ex = 0 then ex else clearExchangeBodies ex) ++
      store.values.drop n at hvalues
  change (enforceBudget store budget (store.total exchangeBodySize)).2 =
    ((store.values.drop n).map exchangeBodySize).sum at hcounter
  have htotal : (enforceBudget store budget (store.total exchangeBodySize)).1.total exchangeBodySize =
      ((store.values.drop n).map exchangeBodySize).sum := by
    have hzero : (((store.values.take n).map fun ex =>
        if exchangeBodySize ex = 0 then ex else clearExchangeBodies ex).map exchangeBodySize).sum = 0 :=
      List.sum_eq_zero fun size hsize => by
        rw [List.map_map] at hsize
        obtain ⟨ex, -, rfl⟩ := List.mem_map.1 hsize
        by_cases hempty : exchangeBodySize ex = 0
        · rw [Function.comp_apply, if_pos hempty, hempty]
        · rw [Function.comp_apply, if_neg hempty, exchangeBodySize_clearExchangeBodies]
    show ((enforceBudget store budget (store.total exchangeBodySize)).1.values.map exchangeBodySize).sum = _
    rw [hvalues, List.map_append, List.sum_append, hzero, Nat.zero_add]
  refine ⟨hcounter.trans htotal.symm, ?_, IndexMap.keys_valuesMut _ _ _, ⟨n, hleast, hvalues⟩, ?_⟩
  · have hwithin : ((emptied n store.values).map exchangeBodySize).sum ≤ budget := hleast.1
    rw [sum_emptied] at hwithin
    rwa [htotal]
  · rw [hvalues]
    have hsplit : List.Forall₂ Exchange.SameButBodies (store.values.take n ++ store.values.drop n)
        (((store.values.take n).map fun ex => if exchangeBodySize ex = 0 then ex else clearExchangeBodies ex) ++
          store.values.drop n) := by
      refine List.rel_append (forall₂_map (fun ex => ?_) _) (List.forall₂_same.2 fun ex _ => ex.sameButBodies_refl)
      split
      · exact ex.sameButBodies_refl
      · exact ex.sameButBodies_clear
    rwa [List.take_append_drop] at hsplit

end Oproxy
