import Oproxy.Lib.Run
import Oproxy.Session.Operations

/-!
# The trace of a session

A session starts with the trace of its request, and the first response which is recorded for it adds its own.  What
the store shows of a session which is neither imported nor loaded is read off the operations under its id, in whatever
order they come among the others.
-/

namespace Oproxy

open Machine

/-- What operations leave of the trace of a session; whether the session has its response. -/
structure SessionTrace where
  flow : List RequestFlowEvent
  answered : Bool

def Exchange.trace (exchange : Exchange) : SessionTrace := ⟨exchange.flow, exchange.response.isSome⟩

namespace SessionTrace

/-- A response adds its trace where there is none before it. -/
def answer (response : ResponseContext) (trace : SessionTrace) : SessionTrace :=
  if trace.answered then trace else ⟨trace.flow ++ response.flow, true⟩

/-- What an operation makes of the trace of a session. -/
def step (id : Str) (trace : Option SessionTrace) : WriteOp → Option SessionTrace
  | .recordRequest id' request _ => if id' = id then some ⟨request.flow, false⟩ else trace
  | .recordResponse id' response => if id' = id then trace.map (answer response) else trace
  | .recordResponseWithMetrics id' response _ => if id' = id then trace.map (answer response) else trace
  | _ => trace

/-- The trace which operations leave under an id. -/
def ofOps (id : Str) (ops : List WriteOp) : Option SessionTrace := run (step id) none ops

end SessionTrace

/-- An operation records a request or a response under an id. -/
def WriteOp.concerns (id : Str) : WriteOp → Bool
  | recordRequest id' _ _ => id' = id
  | recordResponse id' _ => id' = id
  | recordResponseWithMetrics id' _ _ => id' = id
  | _ => false

/-- An operation which puts in an exchange from outside. -/
def WriteOp.Brings (id : Str) : WriteOp → Prop
  | importSessions exchanges => id ∈ exchanges.map Exchange.id
  | loadData map => map.contains id = true
  | _ => False

namespace SessionTrace

variable {id : Str}

theorem step_of_not_concerns {op : WriteOp} (h : op.concerns id = false) (trace : Option SessionTrace) :
    step id trace op = trace := by
  cases op with
  | recordRequest id' request source => exact if_neg (of_decide_eq_false h)
  | recordResponse id' response => exact if_neg (of_decide_eq_false h)
  | recordResponseWithMetrics id' response metrics => exact if_neg (of_decide_eq_false h)
  | _ => rfl

/-- Only the operations under its id count for the trace of a session. -/
theorem run_filter (ops : List WriteOp) (trace : Option SessionTrace) :
    run (step id) trace (ops.filter (WriteOp.concerns id)) = run (step id) trace ops := by
  induction ops generalizing trace with
  | nil => rfl
  | cons op ops ih =>
    cases hconcerns : op.concerns id with
    | true => rw [List.filter_cons_of_pos hconcerns, run_cons, run_cons, ih]
    | false =>
      rw [List.filter_cons_of_neg (by simp [hconcerns]), run_cons, step_of_not_concerns hconcerns, ih]

theorem trace_clearExchangeBodies (exchange : Exchange) : (clearExchangeBodies exchange).trace = exchange.trace := by
  unfold clearExchangeBodies Exchange.trace
  simp

/-- An operation which leaves an exchange in its place adds to its trace what it says. -/
theorem trace_touch (t : TimedOp) (exchange : Exchange) (h : ¬ t.op.Inserts id) :
    some (SessionStore.touch t id exchange).trace = step id (some exchange.trace) t.op := by
  have hanswer : ∀ (id' : Str) (response : ResponseContext) (metrics : Option InspectionMetrics),
      some (Exchange.trace (if id = id' ∧ exchange.response = none then
        SessionStore.withResponse (t.clock 0) response metrics exchange else exchange)) =
          if id' = id then (some exchange.trace).map (answer response) else some exchange.trace := by
    intro id' response metrics
    by_cases hid : id' = id
    · cases hresponse : exchange.response with
      | none =>
        rw [if_pos ⟨hid.symm, rfl⟩, if_pos hid]
        simp [SessionStore.withResponse, Exchange.trace, answer, hresponse]
      | some response' =>
        rw [if_neg (by simp), if_pos hid]
        simp [Exchange.trace, answer, hresponse]
    · rw [if_neg (fun h => hid h.1.symm), if_neg hid]
  obtain ⟨clock, op⟩ := t
  cases op with
  | recordRequest id' request source => exact (if_neg h).symm
  | recordResponse id' response => exact hanswer id' response none
  | recordResponseWithMetrics id' response metrics => exact hanswer id' response (some metrics)
  | importSessions exchanges => rfl
  | clearSessions => rfl
  | loadData map => rfl
  | flush => rfl
  | _ =>
    simp only [SessionStore.touch, step]
    split <;> rfl

/-- What the store shows of a session is its trace. -/
def Shows (id : Str) (s : SessionStore) (trace : Option SessionTrace) : Prop :=
  ∀ exchange, s.exchanges.get? id = some exchange → trace = some exchange.trace

theorem shows_step {s : SessionStore} {trace : Option SessionTrace} (h : Shows id s trace) (t : TimedOp)
    (hbrings : ¬ t.op.Brings id) : Shows id (s.step t) (step id trace t.op) := by
  intro exchange hexchange
  rw [SessionStore.get?_step, Option.map_eq_some_iff] at hexchange
  obtain ⟨left, hleft, hcleared⟩ := hexchange
  -- clearing its bodies leaves the trace of an exchange
  have htrace : exchange.trace = left.trace := by
    rw [← hcleared]
    split
    · exact trace_clearExchangeBodies left
    · rfl
  rw [htrace]
  by_cases hinserts : t.op.Inserts id
  · obtain ⟨clock, op⟩ := t
    cases op with
    | recordRequest id' request source =>
      obtain rfl : id' = id := hinserts
      simp only [SessionStore.unbudgeted, SessionStore.step, processWriteOp, SessionStore.recordRequest,
        SessionStore.enforceBodyBudget_unlimited, SessionStore.evictSessionIfFull_cap, IndexMap.get?_insert,
        if_true, Option.some.injEq] at hleft
      rw [← hleft]
      exact if_pos rfl
    | importSessions exchanges => exact absurd hinserts hbrings
    | loadData map => exact absurd hinserts hbrings
    | _ => exact hinserts.elim
  · obtain ⟨before, hbefore, rfl⟩ := SessionStore.get?_unbudgeted s t id hleft hinserts
    rw [trace_touch t before hinserts, h before hbefore]

/-- The trace which a store shows of a session is the one which the operations have left, whatever other operations
have come between them. -/
theorem shows_run {s : SessionStore} (hs : s.exchanges.get? id = none) {ts : List TimedOp} {ops : List WriteOp}
    (hbrings : ∀ t ∈ ts, ¬ t.op.Brings id)
    (hts : (ts.map TimedOp.op).filter (WriteOp.concerns id) = ops.filter (WriteOp.concerns id)) :
    Shows id (run SessionStore.step s ts) (ofOps id ops) := by
  have hrun : ∀ (ts : List TimedOp) (s : SessionStore) (trace : Option SessionTrace), (∀ t ∈ ts, ¬ t.op.Brings id) →
      Shows id s trace → Shows id (run SessionStore.step s ts) (run (step id) trace (ts.map TimedOp.op)) := by
    intro ts
    induction ts with
    | nil => exact fun _ _ _ h => h
    | cons t ts ih =>
      intro s trace hbrings h
      exact ih _ _ (fun t' ht' => hbrings t' (List.mem_cons_of_mem _ ht'))
        (shows_step h t (hbrings t List.mem_cons_self))
  have hshows := hrun ts s none hbrings fun exchange h => by
    rw [hs] at h
    cases h
  rw [← run_filter, hts, run_filter] at hshows
  exact hshows

end SessionTrace

end Oproxy
