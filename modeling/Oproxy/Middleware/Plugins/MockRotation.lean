import Oproxy.Lib.Run
import Oproxy.Middleware.Plugins.Mock

/-!
# Rules whose responses take turns

Any number of requests are served at the same time.  Each takes a snapshot of the enabled rules and looks the rule that
matches up again when it has the lock for writing: there the response is chosen and the call is counted in one step.
-/

namespace Oproxy

/-- How far a request is. -/
inductive MockPhase where
  | arrived
  | matching (snapshots : List MockRule)
  | served

/-- The live rules with the requests around them; what is served is in the order of the writes. -/
structure MockServer where
  rules : List MockRule
  phases : Nat → MockPhase
  served : List (Nat × RequestContext)

inductive MockStep where
  | snapshot (request : Nat)
  | serve (request : Nat)

/-- The responses of a rule which take turns. -/
def MockRule.turns (rule : MockRule) : List MockResponse :=
  (rule.behavior.bind MockBehavior.httpResponses).getD rule.responses

/-- The number of calls of a rule before the `k`-th one that is served: the counter has 64 bits. -/
def MockRule.callNumber (rule : MockRule) (k : Nat) : Nat := (rule.callCount.toNat + k) % 2 ^ 64

namespace MockServer

open Machine Mock

variable (regex : RegexEngine) (decodeBase64 : Str → Option Bytes) (requests : Nat → RequestContext)

def start (rules : List MockRule) : MockServer := ⟨rules, fun _ => .arrived, []⟩

/-- One step.  A step for which its request is not ready changes nothing. -/
def step (s : MockServer) : MockStep → MockServer
  | .snapshot request =>
    match s.phases request with
    | .arrived => { s with phases := Function.update s.phases request (.matching (s.rules.filter MockRule.enabled)) }
    | _ => s
  | .serve request =>
    match s.phases request with
    | .matching snapshots =>
      let ctx := requests request
      let path := (MatchTarget.fromRequest ctx).path
      let (answer, rules) := serveLoop regex decodeBase64 path s.rules snapshots ctx
      { rules := rules
        phases := Function.update s.phases request .served
        served := s.served ++ [(request, answer.1)] }
    | _ => s

/-- The responses are served in turn: `number k` is the number of calls before the `k`-th one that is served. -/
structure InTurn (rule : MockRule) (number : Nat → Nat) (s : MockServer) : Prop where
  callCount : (findRule s.rules rule.id).map (fun live => live.callCount.toNat) = some (number s.served.length)
  served : ∀ k request answer, s.served[k]? = some (request, answer) →
    ∃ resp, rule.turns[number k % rule.turns.length]? = some resp ∧
      answer.mockResponse = some (httpResponse regex rule (MatchTarget.fromRequest (requests request)).path resp)

/-! ### Counted calls -/

/-- A rule with a number of calls. -/
def withCalls (id : Str) (calls : UInt64) (r : MockRule) : MockRule :=
  if r.id = id then { r with callCount := calls } else r

theorem withCalls_id (id : Str) (calls : UInt64) (r : MockRule) : (withCalls id calls r).id = r.id := by
  unfold withCalls
  split <;> rfl

theorem withCalls_enabled (id : Str) (calls : UInt64) (r : MockRule) : (withCalls id calls r).enabled = r.enabled := by
  unfold withCalls
  split <;> rfl

/-- Whether a rule matches does not depend on its calls. -/
theorem withCalls_matchesContext (id : Str) (calls : UInt64) (r : MockRule) (ctx : RequestContext) :
    (withCalls id calls r).matchesContext regex ctx = r.matchesContext regex ctx := by
  unfold withCalls
  split <;> rfl

variable {regex} {requests}

theorem findRule_withCalls {rules : List MockRule} {rule : MockRule} (h : findRule rules rule.id = some rule)
    (calls : UInt64) :
    findRule (rules.map (withCalls rule.id calls)) rule.id = some { rule with callCount := calls } := by
  have hsame : ((fun r : MockRule => decide (r.id = rule.id)) ∘ withCalls rule.id calls) =
      fun r => decide (r.id = rule.id) := by
    funext r
    simp only [Function.comp_apply, withCalls_id]
  unfold findRule at h ⊢
  rw [List.find?_map, hsame, h]
  simp [withCalls]

/-- The first match of a snapshot is the rule with the calls it had then. -/
theorem find?_snapshot {rules : List MockRule} {rule : MockRule} {ctx : RequestContext}
    (h : rules.find? (fun r => r.matchesContext regex ctx) = some rule) (calls : UInt64) :
    ((rules.map (withCalls rule.id calls)).filter MockRule.enabled).find? (fun r => r.matchesContext regex ctx) =
      some { rule with callCount := calls } := by
  have hsame : ((fun r : MockRule => decide (r.enabled = true ∧ r.matchesContext regex ctx = true)) ∘
      withCalls rule.id calls) = fun r => r.matchesContext regex ctx := by
    funext r
    simp only [Function.comp_apply, withCalls_matchesContext, withCalls_enabled]
    unfold MockRule.matchesContext
    cases r.enabled <;> simp
  rw [List.find?_filter, List.find?_map, hsame, h]
  simp [withCalls]

private theorem withCalls_of_ne {id : Str} {calls : UInt64} {r : MockRule} (h : r.id ≠ id) : withCalls id calls r = r :=
  if_neg h

private theorem map_withCalls_of_notMem {id : Str} (calls : UInt64) {rules : List MockRule}
    (h : id ∉ rules.map MockRule.id) : rules.map (withCalls id calls) = rules := by
  induction rules with
  | nil => rfl
  | cons r rules ih =>
    rw [List.map_cons, List.mem_cons, not_or] at h
    rw [List.map_cons, ih h.2, withCalls_of_ne (Ne.symm h.1)]

theorem findRule_of_mem {rules : List MockRule} (hids : (rules.map MockRule.id).Nodup) {rule : MockRule}
    (h : rule ∈ rules) : findRule rules rule.id = some rule := by
  cases hfind : findRule rules rule.id with
  | none =>
    have hnone := List.find?_eq_none.1 hfind rule h
    simp at hnone
  | some found =>
    have hid : found.id = rule.id := by simpa using List.find?_some hfind
    rw [List.inj_on_of_nodup_map hids (List.mem_of_find?_eq_some hfind) h hid]

/-- With distinct ids a call is counted for its own rule alone. -/
theorem countCall_withCalls {rules : List MockRule} (hids : (rules.map MockRule.id).Nodup) (id : Str) (calls : UInt64) :
    countCall id (rules.map (withCalls id calls)) = rules.map (withCalls id (calls + 1)) := by
  induction rules with
  | nil => rfl
  | cons r rules ih =>
    rw [List.map_cons, List.nodup_cons] at hids
    simp only [List.map_cons, countCall, withCalls_id]
    split
    · rename_i heq
      rw [heq] at hids
      rw [map_withCalls_of_notMem calls hids.1, map_withCalls_of_notMem (calls + 1) hids.1]
      simp only [withCalls, if_pos heq]
    · rename_i hne
      rw [ih hids.2, withCalls_of_ne hne, withCalls_of_ne hne]

/-! ### The invariant -/

/-- What holds in every state: the live rules are those of the start, the calls of one rule aside, and so is every
snapshot, with an older number of calls. -/
structure Counted (rules : List MockRule) (rule : MockRule) (s : MockServer) : Prop where
  live : s.rules = rules.map (withCalls rule.id (rule.callCount + UInt64.ofNat s.served.length))
  snapshots : ∀ request snapshots, s.phases request = .matching snapshots →
    ∃ calls, snapshots = (rules.map (withCalls rule.id calls)).filter MockRule.enabled

theorem toNat_callCount_add (rule : MockRule) (k : Nat) :
    (rule.callCount + UInt64.ofNat k).toNat = rule.callNumber k := by
  rw [UInt64.toNat_add, UInt64.toNat_ofNat', Nat.add_mod_mod]
  rfl

theorem counted_start {rules : List MockRule} {rule : MockRule} (h : rule ∈ rules)
    (hids : (rules.map MockRule.id).Nodup) : Counted rules rule (start rules) := by
  constructor
  · have hsame : ∀ r ∈ rules, withCalls rule.id rule.callCount r = r := by
      intro r hr
      unfold withCalls
      split
      · rename_i heq
        rw [List.inj_on_of_nodup_map hids hr h heq]
      · rfl
    have hzero : rule.callCount + UInt64.ofNat 0 = rule.callCount := UInt64.add_zero _
    simp only [start, List.length_nil, hzero]
    rw [List.map_congr_left hsame, List.map_id']
  · intro request snapshots hphase
    cases hphase

/-- What a request does when it has the lock: the live rule answers, and its call is counted. -/
private theorem serveLoop_counted {rules : List MockRule} {rule : MockRule} {s : MockServer} {ctx : RequestContext}
    (h : Counted rules rule s) (hids : (rules.map MockRule.id).Nodup)
    (hkind : rule.behaviorKind = "http_response") (hturns : rule.turns ≠ [])
    (hfirst : rules.find? (fun r => r.matchesContext regex ctx) = some rule) {request : Nat} {snapshots : List MockRule}
    (hphase : s.phases request = .matching snapshots) (path : Str) :
    (serveLoop regex decodeBase64 path s.rules snapshots ctx).2 =
        rules.map (withCalls rule.id (rule.callCount + UInt64.ofNat (s.served.length + 1))) ∧
      ∃ resp, rule.turns[rule.callNumber s.served.length % rule.turns.length]? = some resp ∧
        (serveLoop regex decodeBase64 path s.rules snapshots ctx).1.1.mockResponse =
          some (httpResponse regex rule path resp) := by
  obtain ⟨calls, hsnapshots⟩ := h.snapshots request snapshots hphase
  have hrule : rule ∈ rules := List.mem_of_find?_eq_some hfirst
  have hfind := findRule_of_mem hids hrule
  have hlt : rule.callNumber s.served.length % rule.turns.length < rule.turns.length :=
    Nat.mod_lt _ (List.length_pos_iff.2 hturns)
  have hlive : findRule s.rules rule.id =
      some { rule with callCount := rule.callCount + UInt64.ofNat s.served.length } := by
    rw [h.live]
    exact findRule_withCalls hfind _
  have hresp : ((findRule s.rules rule.id).getD { rule with callCount := calls }).currentResponse =
      some rule.turns[rule.callNumber s.served.length % rule.turns.length] := by
    rw [hlive, Option.getD_some, ← List.getElem?_eq_getElem hlt, ← toNat_callCount_add]
    rfl
  have hscript : ∀ messages trailers, rule.behavior ≠ some (.grpcScript messages trailers) := by
    intro messages trailers hscript
    unfold MockRule.behaviorKind at hkind
    rw [hscript] at hkind
    exact absurd hkind (show ("grpc_script" : Str) ≠ "http_response" by decide)
  have hsnapshot := find?_snapshot hfirst calls
  rw [← hsnapshots] at hsnapshot
  have hloop := @serveLoop_of_find? regex decodeBase64 path _ _ _ _ _ hsnapshot hscript hresp
  refine ⟨?_, _, List.getElem?_eq_getElem hlt, hloop.2⟩
  rw [hloop.1, h.live, countCall_withCalls hids, UInt64.ofNat_add, ← UInt64.add_assoc]
  rfl

/-- The state invariant: the rules are counted, and what has been served was in turn. -/
private structure Serving (regex : RegexEngine) (requests : Nat → RequestContext) (rules : List MockRule)
    (rule : MockRule)
    (s : MockServer) : Prop where
  counted : Counted rules rule s
  served : ∀ k request answer, s.served[k]? = some (request, answer) →
    ∃ resp, rule.turns[rule.callNumber k % rule.turns.length]? = some resp ∧
      answer.mockResponse = some (httpResponse regex rule (MatchTarget.fromRequest (requests request)).path resp)

private theorem serving_step {rules : List MockRule} {rule : MockRule} (hids : (rules.map MockRule.id).Nodup)
    (hkind : rule.behaviorKind = "http_response") (hturns : rule.turns ≠ [])
    (hfirst : ∀ request, rules.find? (fun r => r.matchesContext regex (requests request)) = some rule)
    (s : MockServer) (a : MockStep) (h : Serving regex requests rules rule s) :
    Serving regex requests rules rule (s.step regex decodeBase64 requests a) := by
  cases a with
  | snapshot request =>
    unfold step
    dsimp only
    split
    · refine ⟨⟨h.counted.live, ?_⟩, h.served⟩
      intro other snapshots hphase
      dsimp only at hphase
      by_cases heq : other = request
      · rw [heq, Function.update_self, MockPhase.matching.injEq] at hphase
        exact ⟨_, by rw [← hphase, h.counted.live]⟩
      · rw [Function.update_of_ne heq] at hphase
        exact h.counted.snapshots other snapshots hphase
    · exact h
  | serve request =>
    unfold step
    dsimp only
    split
    · rename_i snapshots hphase
      obtain ⟨hrules, resp, hturn, hanswer⟩ := serveLoop_counted decodeBase64 h.counted hids hkind hturns
        (hfirst request) hphase (MatchTarget.fromRequest (requests request)).path
      refine ⟨⟨?_, ?_⟩, ?_⟩
      · rw [List.length_append]
        exact hrules
      · intro other snapshots' hphase'
        dsimp only at hphase'
        by_cases heq : other = request
        · rw [heq, Function.update_self] at hphase'
          cases hphase'
        · rw [Function.update_of_ne heq] at hphase'
          exact h.counted.snapshots other snapshots' hphase'
      · intro k other answer hk
        rw [List.getElem?_append] at hk
        split at hk
        · exact h.served k other answer hk
        · rename_i hge
          rw [List.getElem?_singleton] at hk
          split at hk
          · rename_i hzero
            have hlast : k = s.served.length := by omega
            obtain ⟨rfl, rfl⟩ := Prod.mk.inj (Option.some.inj hk)
            rw [hlast]
            exact ⟨resp, hturn, hanswer⟩
          · cases hk
    · exact h

/-- Whatever the order of the snapshots and of the writes, the responses are served in turn. -/
theorem inTurn_run {rules : List MockRule} (hids : (rules.map MockRule.id).Nodup) {rule : MockRule}
    (hkind : rule.behaviorKind = "http_response") (hturns : rule.turns ≠ [])
    (hfirst : ∀ request, rules.find? (fun r => r.matchesContext regex (requests request)) = some rule)
    (as : List MockStep) :
    EveryState (step regex decodeBase64 requests) (InTurn regex requests rule rule.callNumber) (start rules) as := by
  have hrule : rule ∈ rules := List.mem_of_find?_eq_some (hfirst 0)
  have hstart : Serving regex requests rules rule (start rules) := by
    refine ⟨counted_start hrule hids, ?_⟩
    intro k request answer hk
    cases hk
  refine (everyState_of_step (serving_step decodeBase64 hids hkind hturns hfirst) hstart as).imp ?_
  intro s h
  refine ⟨?_, h.served⟩
  rw [h.counted.live, findRule_withCalls (findRule_of_mem hids hrule), Option.map_some, toNat_callCount_add]

private def twice : MockRule where
  id := "m1"
  name := "twice"
  enabled := true
  location := Location.default
  behavior := none
  responses := [⟨200, IndexMap.empty, "first"⟩, ⟨503, IndexMap.empty, "second"⟩]
  callCount := 0

/-- Two requests with the same snapshot. -/
theorem inTurn_run_twice :
    EveryState (step (fun _ => none) (fun _ => none) fun _ => RequestContext.default)
      (InTurn (fun _ => none) (fun _ => RequestContext.default) twice twice.callNumber) (start [twice])
      [.snapshot 1, .snapshot 0, .serve 0, .serve 1] :=
  inTurn_run (fun _ => none) (show ([twice].map MockRule.id).Nodup by decide) (by decide) (by decide) (fun _ => by rfl)
    _

/-- A counter which is full starts again at zero. -/
theorem not_inTurn_run :
    ¬ ∀ (regex : RegexEngine) (decodeBase64 : Str → Option Bytes) (requests : Nat → RequestContext)
      (rules : List MockRule), (rules.map MockRule.id).Nodup → ∀ rule : MockRule, rule.behaviorKind = "http_response" →
      rule.turns ≠ [] → (∀ request, rules.find? (fun r => r.matchesContext regex (requests request)) = some rule) →
      ∀ as, EveryState (step regex decodeBase64 requests)
        (InTurn regex requests rule fun k => rule.callCount.toNat + k) (start rules) as := by
  intro h
  have hlast := (h (fun _ => none) (fun _ => none) (fun _ => RequestContext.default)
    [{ twice with callCount := 18446744073709551615 }] (List.nodup_singleton twice.id)
    { twice with callCount := 18446744073709551615 } (by decide) (by decide) (fun _ => by rfl)
    [.snapshot 0, .serve 0]).last
  have hcount := hlast.callCount
  revert hcount
  decide

end MockServer

end Oproxy
