import Oproxy.Middleware.Chain
import Oproxy.Middleware.Plugins.AccessControl
import Oproxy.Middleware.Plugins.Breakpoints
import Oproxy.Middleware.Plugins.CaptureFilter
import Oproxy.Middleware.Plugins.DnsOverride
import Oproxy.Middleware.Plugins.LuaEngine
import Oproxy.Middleware.Plugins.MapLocal
import Oproxy.Middleware.Plugins.MapRemote
import Oproxy.Middleware.Plugins.Mock
import Oproxy.Middleware.Plugins.Rules

/-!
# Decision traces (`middleware/mod.rs`)

A trace begins with the receipt of the request and ends with one of three terminal events; what the middlewares add in
between is neither.  A trace has room for a limited number of events, and an event which comes too late is dropped.
-/

namespace Oproxy

def RequestFlowEvent.isReceived : RequestFlowEvent → Bool
  | .requestReceived _ _ _ => true
  | _ => false

/-- `Completed`, `Failed` and `ShortCircuited`. -/
def RequestFlowEvent.isTerminal : RequestFlowEvent → Bool
  | .completed _ _ => true
  | .failed _ _ => true
  | .shortCircuited _ _ _ _ => true
  | _ => false

namespace Traces

/-- The trace of a completed exchange: received once, and ended once, by its last event. -/
structure Complete (flow : List RequestFlowEvent) : Prop where
  received : flow.countP RequestFlowEvent.isReceived = 1
  terminal : flow.countP RequestFlowEvent.isTerminal = 1
  last : ∃ event, flow.getLast? = some event ∧ event.isTerminal = true

/-- Events on the way. -/
def Passing (flow : List RequestFlowEvent) : Prop := ∀ e ∈ flow, e.isReceived = false ∧ e.isTerminal = false

/-- The beginning of a trace: the receipt, and events on the way. -/
def Begins (flow : List RequestFlowEvent) : Prop :=
  ∃ event rest, flow = event :: rest ∧ event.isReceived = true ∧ event.isTerminal = false ∧ Passing rest

/-- The rest of a trace: events on the way, and a terminal event. -/
def Ends (flow : List RequestFlowEvent) : Prop :=
  ∃ before event, flow = before ++ [event] ∧ Passing before ∧ event.isReceived = false ∧ event.isTerminal = true

/-! ### Traces in two parts -/

theorem passing_append {a b : List RequestFlowEvent} : Passing (a ++ b) ↔ Passing a ∧ Passing b :=
  List.forall_mem_append

theorem passing_nil : Passing [] := fun _ h => absurd h List.not_mem_nil

theorem Passing.countP_received {flow : List RequestFlowEvent} (h : Passing flow) :
    flow.countP RequestFlowEvent.isReceived = 0 :=
  List.countP_eq_zero.2 fun e he => by simp [(h e he).1]

theorem Passing.countP_terminal {flow : List RequestFlowEvent} (h : Passing flow) :
    flow.countP RequestFlowEvent.isTerminal = 0 :=
  List.countP_eq_zero.2 fun e he => by simp [(h e he).2]

/-- A beginning and an end make a complete trace. -/
theorem complete_of_ends {a b : List RequestFlowEvent} (ha : Begins a) (hb : Ends b) : Complete (a ++ b) := by
  obtain ⟨event, rest, rfl, hreceived, hterminal, hrest⟩ := ha
  obtain ⟨before, last, rfl, hbefore, hnot, hlast⟩ := hb
  refine ⟨?_, ?_, last, ?_, hlast⟩
  · simp [List.countP_append, hreceived, hnot, hrest.countP_received, hbefore.countP_received]
  · simp [List.countP_append, hterminal, hlast, hrest.countP_terminal, hbefore.countP_terminal]
  · rw [← List.append_assoc, List.getLast?_concat]

/-- The part of a trace behind its beginning: its events are on the way, or terminal. -/
def Continues (flow : List RequestFlowEvent) : Prop := ∀ e ∈ flow, e.isReceived = false

/-- Without a terminal event in its second part, or with more behind it, a trace is not complete. -/
theorem ends_of_complete {a b : List RequestFlowEvent} (ha : ∀ e ∈ a, e.isTerminal = false) (hb : Continues b)
    (h : Complete (a ++ b)) : Ends b := by
  obtain ⟨-, hcount, last, hlast, hterminal⟩ := h
  have hzero : a.countP RequestFlowEvent.isTerminal = 0 := List.countP_eq_zero.2 fun e he => by simp [ha e he]
  rw [List.countP_append, hzero, Nat.zero_add] at hcount
  have hne : b ≠ [] := by
    rintro rfl
    simp at hcount
  rw [List.getLast?_append, List.getLast?_eq_getLast_of_ne_nil hne, Option.some_or] at hlast
  have hsplit := List.dropLast_append_getLast hne
  rw [Option.some.inj hlast] at hsplit
  rw [← hsplit, List.countP_append] at hcount
  have hbefore : b.dropLast.countP RequestFlowEvent.isTerminal = 0 := by
    simpa [hterminal] using hcount
  refine ⟨b.dropLast, last, hsplit.symm, fun e he => ⟨hb e (List.dropLast_subset b he), ?_⟩, ?_, hterminal⟩
  · have := List.countP_eq_zero.1 hbefore e he
    simpa using this
  · exact hb last (by rw [← hsplit]; simp)

theorem complete_iff_ends {a b : List RequestFlowEvent} (ha : Begins a) (hb : Continues b) :
    Complete (a ++ b) ↔ Ends b := by
  refine ⟨ends_of_complete ?_ hb, complete_of_ends ha⟩
  obtain ⟨event, rest, rfl, -, hterminal, hrest⟩ := ha
  exact List.forall_mem_cons.2 ⟨hterminal, fun e he => (hrest e he).2⟩

/-- Without a receipt a trace is not complete. -/
theorem not_complete_of_passing {a b : List RequestFlowEvent} (ha : Passing a) (hb : Continues b) :
    ¬ Complete (a ++ b) := by
  intro h
  have hzero : b.countP RequestFlowEvent.isReceived = 0 := List.countP_eq_zero.2 fun e he => by simp [hb e he]
  have hone := h.received
  rw [List.countP_append, ha.countP_received, hzero] at hone
  cases hone

theorem Passing.not_ends {flow : List RequestFlowEvent} (h : Passing flow) : ¬ Ends flow := by
  rintro ⟨before, event, rfl, -, -, hterminal⟩
  have := (h event (by simp)).2
  rw [this] at hterminal
  cases hterminal

/-! ### Pushes -/

@[simp] theorem isReceived_truncate (e : RequestFlowEvent) : (truncateFlowEvent e).isReceived = e.isReceived := by
  cases e <;> rfl

@[simp] theorem isTerminal_truncate (e : RequestFlowEvent) : (truncateFlowEvent e).isTerminal = e.isTerminal := by
  cases e <;> rfl

theorem pushFlowEvent_of_room {flow : List RequestFlowEvent} (h : flow.length < maxFlowEvents) (e : RequestFlowEvent) :
    pushFlowEvent flow e = flow ++ [truncateFlowEvent e] := by
  rw [pushFlowEvent, if_neg (Nat.not_le.2 h)]

theorem pushFlowEvent_of_full {flow : List RequestFlowEvent} (h : maxFlowEvents ≤ flow.length) (e : RequestFlowEvent) :
    pushFlowEvent flow e = flow := by
  rw [pushFlowEvent, if_pos h]

/-- `b` is `a` with events on the way added to it, as far as there was room. -/
structure Grows (a b : List RequestFlowEvent) : Prop where
  added : ∃ added, Passing added ∧ b = a ++ added
  full : maxFlowEvents ≤ a.length → b = a

theorem Grows.refl (a : List RequestFlowEvent) : Grows a a :=
  ⟨⟨[], passing_nil, (List.append_nil a).symm⟩, fun _ => rfl⟩

theorem Grows.trans {a b c : List RequestFlowEvent} (hab : Grows a b) (hbc : Grows b c) : Grows a c := by
  refine ⟨?_, fun hfull => ?_⟩
  · obtain ⟨d, hd, rfl⟩ := hab.added
    obtain ⟨e, he, rfl⟩ := hbc.added
    exact ⟨d ++ e, passing_append.2 ⟨hd, he⟩, List.append_assoc a d e⟩
  · obtain rfl := hab.full hfull
    exact hbc.full hfull

theorem grows_push (flow : List RequestFlowEvent) {e : RequestFlowEvent} (hr : e.isReceived = false)
    (ht : e.isTerminal = false) : Grows flow (pushFlowEvent flow e) := by
  by_cases h : flow.length < maxFlowEvents
  · refine ⟨⟨[truncateFlowEvent e], ?_, pushFlowEvent_of_room h e⟩, fun hfull => absurd h (Nat.not_lt.2 hfull)⟩
    simp [Passing, hr, ht]
  · rw [pushFlowEvent_of_full (Nat.le_of_not_lt h)]
    exact Grows.refl flow

theorem Grows.passing {a b : List RequestFlowEvent} (h : Grows a b) (ha : Passing a) : Passing b := by
  obtain ⟨added, hadded, rfl⟩ := h.added
  exact passing_append.2 ⟨ha, hadded⟩

theorem Grows.begins {a b : List RequestFlowEvent} (h : Grows a b) (ha : Begins a) : Begins b := by
  obtain ⟨added, hadded, rfl⟩ := h.added
  obtain ⟨event, rest, rfl, hr, ht, hrest⟩ := ha
  exact ⟨event, rest ++ added, rfl, hr, ht, passing_append.2 ⟨hrest, hadded⟩⟩

/-- A terminal event ends a trace if there is room for it. -/
theorem ends_push_iff {flow : List RequestFlowEvent} (hflow : Passing flow) {e : RequestFlowEvent}
    (hr : e.isReceived = false) (ht : e.isTerminal = true) :
    Ends (pushFlowEvent flow e) ↔ flow.length < maxFlowEvents := by
  by_cases h : flow.length < maxFlowEvents
  · rw [pushFlowEvent_of_room h]
    exact iff_of_true ⟨flow, _, rfl, hflow, by simpa using hr, by simpa using ht⟩ h
  · rw [pushFlowEvent_of_full (Nat.le_of_not_lt h)]
    exact iff_of_false hflow.not_ends h

/-- The number of events on the way in a trace. -/
def onTheWay (flow : List RequestFlowEvent) : Nat := flow.countP fun e => !e.isTerminal

theorem Passing.onTheWay_eq {flow : List RequestFlowEvent} (h : Passing flow) : onTheWay flow = flow.length :=
  List.countP_eq_length.2 fun e he => by simp [(h e he).2]

/-- A trace behind the push of a terminal event tells by its other events whether there was room. -/
theorem ends_pushed_iff {flow : List RequestFlowEvent} (hflow : Passing flow) {e : RequestFlowEvent}
    (hr : e.isReceived = false) (ht : e.isTerminal = true) :
    Ends (pushFlowEvent flow e) ↔ onTheWay (pushFlowEvent flow e) < maxFlowEvents := by
  have hsame : onTheWay (pushFlowEvent flow e) = flow.length := by
    by_cases h : flow.length < maxFlowEvents
    · have hlast : onTheWay [truncateFlowEvent e] = 0 := by simp [onTheWay, ht]
      have happend : onTheWay (flow ++ [truncateFlowEvent e]) = onTheWay flow + onTheWay [truncateFlowEvent e] :=
        List.countP_append
      rw [pushFlowEvent_of_room h, happend, hlast, hflow.onTheWay_eq, Nat.add_zero]
    · rw [pushFlowEvent_of_full (Nat.le_of_not_lt h), hflow.onTheWay_eq]
  rw [hsame]
  exact ends_push_iff hflow hr ht

/-- Behind its terminal event nothing may be added. -/
theorem Ends.grows_iff {a b : List RequestFlowEvent} (ha : Ends a) (h : Grows a b) : Ends b ↔ b = a := by
  refine ⟨fun hb => ?_, fun hb => hb ▸ ha⟩
  obtain ⟨added, hadded, rfl⟩ := h.added
  rcases List.eq_nil_or_concat added with rfl | ⟨front, last, rfl⟩
  · exact List.append_nil a
  · obtain ⟨before, event, heq, -, -, hterminal⟩ := hb
    rw [List.concat_eq_append, ← List.append_assoc] at heq
    obtain ⟨-, hlast⟩ := List.append_inj' heq rfl
    obtain rfl := (List.cons.inj hlast).1
    have := (hadded last (by simp)).2
    rw [this] at hterminal
    cases hterminal

theorem Ends.continues {flow : List RequestFlowEvent} (h : Ends flow) : Continues flow := by
  obtain ⟨before, event, rfl, hbefore, hr, -⟩ := h
  intro e he
  rcases List.mem_append.1 he with he | he
  · exact (hbefore e he).1
  · rw [List.mem_singleton.1 he]
    exact hr

theorem Passing.continues {flow : List RequestFlowEvent} (h : Passing flow) : Continues flow := fun e he => (h e he).1

theorem Grows.continues {a b : List RequestFlowEvent} (h : Grows a b) (ha : Continues a) : Continues b := by
  obtain ⟨added, hadded, rfl⟩ := h.added
  exact List.forall_mem_append.2 ⟨ha, hadded.continues⟩

theorem continues_push {flow : List RequestFlowEvent} (h : Continues flow) {e : RequestFlowEvent}
    (hr : e.isReceived = false) : Continues (pushFlowEvent flow e) := by
  unfold pushFlowEvent
  split
  · exact h
  · exact List.forall_mem_append.2 ⟨h, List.forall_mem_singleton.2 (by simpa using hr)⟩

/-! ### What the middlewares add on the request side -/

theorem access_flow (regex : RegexEngine) (rules : List AccessRule) (ctx : RequestContext) :
    (AccessControl.onRequest regex rules ctx).1.flow = ctx.flow := by
  rcases AccessControl.onRequest_cases regex rules ctx with h | h <;> rw [h]

theorem mapRemote_flow (regex : RegexEngine) (rules : List MapRemoteRule) (ctx : RequestContext) :
    Grows ctx.flow (MapRemote.onRequest regex rules ctx).1.flow := by
  unfold MapRemote.onRequest
  split
  · exact (grows_push _ rfl rfl).trans (grows_push _ rfl rfl)
  · exact Grows.refl _

/-- Of the actions only those which end the request touch the trace. -/
private theorem applyRequestAction_flow {regex : RegexEngine} {rule : RewriteRuleSet} {ctx ctx' : RequestContext}
    {action : RewriteAction} {summary : Option Str}
    (h : UnifiedRewrite.applyRequestAction regex rule ctx action = .next ctx' summary) : ctx'.flow = ctx.flow := by
  cases action with
  | setPath pattern replacement =>
    simp only [UnifiedRewrite.applyRequestAction] at h
    split at h <;> cases h <;> rfl
  | replaceBody pattern replacement =>
    simp only [UnifiedRewrite.applyRequestAction] at h
    split at h
    · split at h <;> cases h <;> rfl
    · cases h
      rfl
  | redirect status location => cases h
  | block status => cases h
  | _ =>
    cases h
    rfl

private theorem applyRequestLoop_flow {regex : RegexEngine} {rule : RewriteRuleSet} {actions : List RewriteAction}
    {ctx ctx' : RequestContext} {summaries : List Str}
    (h : UnifiedRewrite.applyRequestLoop regex rule actions ctx summaries = (ctx', none)) :
    Grows ctx.flow ctx'.flow := by
  induction actions generalizing ctx summaries with
  | nil =>
    simp only [UnifiedRewrite.applyRequestLoop, Prod.mk.injEq, and_true] at h
    rw [← h]
    split
    · exact Grows.refl _
    · exact grows_push _ rfl rfl
  | cons action actions ih =>
    unfold UnifiedRewrite.applyRequestLoop at h
    cases hstep : UnifiedRewrite.applyRequestAction regex rule ctx action with
    | next ctx₁ summary =>
      rw [hstep] at h
      rw [← applyRequestAction_flow hstep]
      exact ih h
    | stop ctx₁ =>
      rw [hstep] at h
      cases h

theorem rewrite_flow {regex : RegexEngine} {rules : List RewriteRuleSet} {ctx ctx' : RequestContext}
    (h : UnifiedRewrite.onRequest regex rules ctx = (ctx', .proceed)) : Grows ctx.flow ctx'.flow := by
  unfold UnifiedRewrite.onRequest at h
  generalize UnifiedRewrite.applying regex rules ctx = rules at h
  induction rules generalizing ctx with
  | nil =>
    cases h
    exact Grows.refl _
  | cons rule rules ih =>
    unfold UnifiedRewrite.requestLoop at h
    split at h
    · rename_i after action hcase
      cases UnifiedRewrite.applyRequestLoop_stops hcase
      cases h
    · rename_i after hcase
      exact ((grows_push _ rfl rfl).trans (applyRequestLoop_flow hcase)).trans (ih h)

/-- A middleware which answers adds `ShortCircuited`; one which lets the request pass adds events on the way. -/
def Answering (flow : List RequestFlowEvent) : RequestContext × MiddlewareAction → Prop
  | (after, .proceed) => Grows flow after.flow
  | (after, .stopAndReturn) => ∃ before event, Grows flow before ∧ event.isReceived = false ∧ event.isTerminal = true ∧
      after.flow = pushFlowEvent before event

theorem Answering.of_grows {a b : List RequestFlowEvent} (h : Grows a b) {result : RequestContext × MiddlewareAction}
    (hb : Answering b result) : Answering a result := by
  obtain ⟨after, _ | _⟩ := result
  · exact h.trans hb
  · obtain ⟨before, event, hbefore, hrest⟩ := hb
    exact ⟨before, event, h.trans hbefore, hrest⟩

theorem mapLocal_flow (fs : FileSystem) (regex : RegexEngine) (dirs : MapLocal.Dirs) (rules : List MapLocalRule)
    (ctx : RequestContext) : Answering ctx.flow (MapLocal.onRequest fs regex dirs rules ctx) := by
  unfold MapLocal.onRequest
  generalize MatchTarget.fromRequest ctx = target
  induction rules.filter MapLocalRule.enabled generalizing ctx with
  | nil => exact Grows.refl _
  | cons rule rules ih =>
    have hpush : Grows ctx.flow (ctx.pushFlow (.ruleMatched .mapLocal rule.id rule.name)).flow := grows_push _ rfl rfl
    have hnext := Answering.of_grows hpush (ih (ctx.pushFlow (.ruleMatched .mapLocal rule.id rule.name)))
    unfold MapLocal.serveLoop
    split
    · exact ih ctx
    · dsimp only
      split
      · exact hnext
      · exact ⟨_, _, hpush, rfl, rfl, rfl⟩
      · split
        · exact ⟨_, _, hpush, rfl, rfl, rfl⟩
        · exact hnext

theorem mock_flow (regex : RegexEngine) (decodeBase64 : Str → Option Bytes) (rules : List MockRule)
    (ctx : RequestContext) : Answering ctx.flow (Mock.onRequest regex decodeBase64 rules ctx) := by
  unfold Mock.onRequest Mock.serve
  generalize (MatchTarget.fromRequest ctx).path = path
  induction rules.filter MockRule.enabled generalizing ctx with
  | nil => exact Grows.refl _
  | cons rule snapshots ih =>
    have hpush : Grows ctx.flow (ctx.pushFlow (.ruleMatched .mock rule.id rule.name)).flow := grows_push _ rfl rfl
    have hnext := Answering.of_grows hpush (ih (ctx.pushFlow (.ruleMatched .mock rule.id rule.name)))
    unfold Mock.serveLoop
    split
    · exact ih ctx
    · dsimp only
      split
      · split
        · exact hnext
        · exact ⟨_, _, hpush, rfl, rfl, rfl⟩
      · split
        · exact hnext
        · exact ⟨_, _, hpush, rfl, rfl, rfl⟩

/-- The scripts add nothing, also where they answer. -/
theorem scripts_flow (vm : LuaVm) (scripts : List LuaScript) (ctx : RequestContext) :
    (LuaEngine.onRequest vm scripts ctx).1.flow = ctx.flow := by
  unfold LuaEngine.onRequest
  dsimp only
  split
  · rfl
  · split <;> rfl

/-! ### What the middlewares add on the response side -/

theorem scripts_response (vm : LuaVm) (scripts : List LuaScript) (ctx : ResponseContext) :
    (LuaEngine.onResponse vm scripts ctx).1.flow = ctx.flow ∧ (LuaEngine.onResponse vm scripts ctx).2 = .proceed := by
  unfold LuaEngine.onResponse
  split <;> exact ⟨rfl, rfl⟩

private theorem applyResponseAction_flow (regex : RegexEngine) (ctx : ResponseContext) (action : RewriteAction) :
    (UnifiedRewrite.applyResponseAction regex ctx action).1.flow = ctx.flow := by
  cases action with
  | replaceBody pattern replacement =>
    simp only [UnifiedRewrite.applyResponseAction]
    split
    · split <;> rfl
    · rfl
  | _ => rfl

private theorem applyResponseLoop_flow (regex : RegexEngine) (rule : RewriteRuleSet) (actions : List RewriteAction)
    (ctx : ResponseContext) (summaries : List Str) :
    Grows ctx.flow (UnifiedRewrite.applyResponseLoop regex rule actions ctx summaries).flow := by
  induction actions generalizing ctx summaries with
  | nil =>
    unfold UnifiedRewrite.applyResponseLoop
    split
    · exact Grows.refl _
    · exact grows_push _ rfl rfl
  | cons action actions ih =>
    unfold UnifiedRewrite.applyResponseLoop
    dsimp only
    rw [← applyResponseAction_flow regex ctx action]
    exact ih _ _

theorem responseLoop_flow (regex : RegexEngine) (rules : List RewriteRuleSet) (ctx : ResponseContext) :
    Grows ctx.flow (UnifiedRewrite.responseLoop regex rules ctx).flow := by
  induction rules generalizing ctx with
  | nil => exact Grows.refl _
  | cons rule rules ih =>
    have hpush : Grows ctx.flow (ctx.pushFlow (.ruleMatched .rewrite rule.id rule.name)).flow := grows_push _ rfl rfl
    have hrule :=
      applyResponseLoop_flow regex rule rule.actions (ctx.pushFlow (.ruleMatched .rewrite rule.id rule.name)) []
    exact (hpush.trans hrule).trans (ih _)

/-- The rules leave a trace as it is where none applies or there is no room. -/
theorem responseLoop_flow_eq_iff (regex : RegexEngine) (rules : List RewriteRuleSet) (ctx : ResponseContext) :
    (UnifiedRewrite.responseLoop regex rules ctx).flow = ctx.flow ↔ rules = [] ∨ maxFlowEvents ≤ ctx.flow.length := by
  constructor
  · intro heq
    rw [or_iff_not_imp_right, Nat.not_le]
    intro hroom
    cases rules with
    | nil => rfl
    | cons rule rules =>
      exfalso
      -- the first rule adds that it matches
      have hpushed : Grows (ctx.pushFlow (.ruleMatched .rewrite rule.id rule.name)).flow
          (UnifiedRewrite.responseLoop regex (rule :: rules) ctx).flow :=
        (applyResponseLoop_flow regex rule rule.actions _ []).trans (responseLoop_flow regex rules _)
      obtain ⟨added, -, hlonger⟩ := hpushed.added
      have hpush : (ctx.pushFlow (.ruleMatched .rewrite rule.id rule.name)).flow =
        ctx.flow ++ [truncateFlowEvent (.ruleMatched .rewrite rule.id rule.name)] := pushFlowEvent_of_room hroom _
      rw [heq, hpush] at hlonger
      have := congrArg List.length hlonger
      simp at this
  · rintro (rfl | hfull)
    · rfl
    · exact (responseLoop_flow regex rules ctx).full hfull

end Traces

end Oproxy
