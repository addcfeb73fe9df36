import Oproxy.ControlPlane.Preconditions

/-!
# Actions and other changes (`control_plane/assistant_actions.rs`)

`execute_action_payload` reads each value that the action was made for under a lock and lets go of it, and later takes
the lock for the change it makes itself; what other requests and other actions do comes between.  A step is what happens
between two points at which an action waits.
-/

namespace Oproxy

open Persisted Mutations Machine History Assistant

namespace ActionRuns

/-! ### Steps -/

/-- What actions and requests share: what is in memory, and what is read from `upstream_proxy.json`. -/
structure World where
  memory : Memory
  proxyFile : Option Str

/-- The proxy as it is set up; `configured` is the upstream proxy of its configuration. -/
structure Setting where
  env : Env
  configured : Option Str
  digest : Json → Str

variable (c : Setting)

/-- The value which a precondition is compared with. -/
def World.value (w : World) : (g : Guarded) → g.resource.Value
  | .captureFilter => w.memory .captureFilter
  | .dns => w.memory (.collection .dnsOverrides)
  | .throttling => w.memory .throttling
  | .upstreamProxy => (w.proxyFile.or c.configured : Option Str)

def World.view (w : World) : PreconditionView where
  captureFilter := Guarded.json .captureFilter (w.value c .captureFilter)
  dns := Guarded.json .dns (w.value c .dns)
  throttling := Guarded.json .throttling (w.value c .throttling)
  upstreamProxy := Guarded.json .upstreamProxy (w.value c .upstreamProxy)
  stableValueHash := stableValueHash c.digest

/-- How far an action is. -/
inductive Phase where
  /-- Before it waits for the value which `next` is about. -/
  | checking (passed : List AssistantActionPrecondition) (next : AssistantActionPrecondition)
    (rest : List AssistantActionPrecondition)
  /-- Before it waits for the lock of what it changes, or for the file where that is written first. -/
  | writing (r : Resource) (m : Mutation Str r.Value)
  /-- Changed, and not yet saved. -/
  | saving
  /-- Saved, and not yet in use. -/
  | installing (r : Resource) (value : r.Value)
  | returned (answer : Except Str Unit)

structure Job where
  action : AssistantAction
  phase : Phase

def Phase.ofCall : Call Str → Phase
  | .refused e => returned (.error e)
  | .other => returned (.ok ())
  | .mutates r m => writing r m

/-- What follows on the last precondition without waiting. -/
def afterChecks (action : AssistantAction) : Phase := .ofCall (executeActionPayload c.env (fun _ => .ok ()) action)

def checked (action : AssistantAction) (passed : List AssistantActionPrecondition) :
    List AssistantActionPrecondition → Phase
  | [] => afterChecks c action
  | next :: rest => .checking passed next rest

def begun (action : AssistantAction) : Phase :=
  match validateActionRoute action.method action.endpoint action.payload with
  | .error e => .returned (.error e)
  | .ok _ => checked c action [] action.preconditions

/-- What is read from `upstream_proxy.json` when a value has been saved. -/
def World.saved (w : World) : (r : Resource) → r.Value → World
  | .upstreamProxy, (url : Option Str) => { w with proxyFile := url }
  | _, _ => w

/-- Change a resource, in memory or in its file first. -/
def World.write (saveError : Option Str) (w : World) (r : Resource) (m : Mutation Str r.Value) : World × Phase :=
  match m.edit (w.memory r) with
  | .error e => (w, .returned (.error e))
  | .ok value =>
    match m.order, saveError with
    | .editFirst, _ => ({ w with memory := Function.update w.memory r value }, .saving)
    | .saveFirst, some e => (w, .returned (.error e))
    | .saveFirst, none => (w.saved r value, .installing r value)

/-- The next step of an action; the disk may refuse to save a file. -/
def Job.advance (saveError : Option Str) (w : World) (job : Job) : World × Phase :=
  match job.phase with
  | .checking passed next rest =>
    match validateActionPreconditions (w.view c) [next] with
    | .error e => (w, .returned (.error e))
    | .ok () => (w, checked c job.action (passed ++ [next]) rest)
  | .writing r m => w.write saveError r m
  | .saving => (w, .returned (match saveError with | some e => .error e | none => .ok ()))
  | .installing r value => ({ w with memory := Function.update w.memory r value }, .returned (.ok ()))
  | .returned answer => (w, .returned answer)

/-- The actions which have begun, by number. -/
structure Schedule where
  world : World
  jobs : Nat → Option Job

inductive Event where
  | start (id : Nat) (action : AssistantAction)
  | advance (id : Nat) (saveError : Option Str)
  /-- A request changes a resource in memory. -/
  | mutated (r : Resource) (value : r.Value)
  /-- A request saves an upstream proxy. -/
  | savedProxy (url : Option Str)

/-- The action which takes a step. -/
def Event.actor : Event → Option Nat
  | .advance id _ => some id
  | _ => none

def step (s : Schedule) : Event → Schedule
  | .start id action =>
    if (s.jobs id).isSome then s else { s with jobs := Function.update s.jobs id (some ⟨action, begun c action⟩) }
  | .advance id saveError =>
    match s.jobs id with
    | none => s
    | some job =>
      let r := job.advance c saveError s.world
      ⟨r.1, Function.update s.jobs id (some ⟨job.action, r.2⟩)⟩
  | .mutated r value => { s with world := { s.world with memory := Function.update s.world.memory r value } }
  | .savedProxy url => { s with world := { s.world with proxyFile := url } }

/-- No action has begun. -/
def Schedule.idle (w : World) : Schedule := ⟨w, fun _ => none⟩

/-! ### One step -/

variable {c}

theorem world_of_checking {w : World} {job : Job} {saveError : Option Str}
    {passed rest : List AssistantActionPrecondition} {next : AssistantActionPrecondition}
    (h : job.phase = .checking passed next rest) : (job.advance c saveError w).1 = w := by
  unfold Job.advance
  rw [h]
  dsimp only
  split <;> rfl

theorem current_view (w : World) (g : Guarded) : (w.view c).current g.name = some (g.json (w.value c g)) := by
  cases g <;> rfl

/-- An action goes past a precondition on a resource exactly while the hash is that of the value. -/
theorem validate_guarded {w : World} {g : Guarded} {p : AssistantActionPrecondition} (h : p.resource = g.name) :
    validateActionPreconditions (w.view c) [p] =
      if stableValueHash c.digest (g.json (w.value c g)) = p.expectedHash then .ok ()
      else .error (("assistant action precondition failed: " : Str) ++ p.message) := by
  unfold validateActionPreconditions
  rw [h, current_view]
  show (if stableValueHash c.digest (g.json (w.value c g)) ≠ p.expectedHash then _ else _) = _
  by_cases hhash : stableValueHash c.digest (g.json (w.value c g)) = p.expectedHash
  · rw [if_neg (not_not.2 hhash), if_pos hhash]
    rfl
  · rw [if_pos hhash, if_neg hhash]

/-- What a step makes of an action: nothing, where it takes none; it begins; or it takes its next step. -/
inductive Stepped (c : Setting) (s : Schedule) (e : Event) (id : Nat) (job : Job) : Prop
  | kept (h : s.jobs id = some job) (hactor : e.actor ≠ some id)
  | began (action : AssistantAction) (he : e = .start id action) (hjob : job = ⟨action, begun c action⟩)
  | advanced (saveError : Option Str) (before : Job) (he : e = .advance id saveError) (h : s.jobs id = some before)
    (hjob : job = ⟨before.action, (before.advance c saveError s.world).2⟩)

theorem step_advance {s : Schedule} {id : Nat} {saveError : Option Str} {job : Job} (h : s.jobs id = some job) :
    step c s (.advance id saveError) = ⟨(job.advance c saveError s.world).1,
      Function.update s.jobs id (some ⟨job.action, (job.advance c saveError s.world).2⟩)⟩ := by
  unfold step
  dsimp only
  rw [h]

theorem stepped {s : Schedule} {e : Event} {id : Nat} {job : Job} (h : (step c s e).jobs id = some job) :
    Stepped c s e id job := by
  cases e with
  | start id' action =>
    have hactor : (Event.start id' action).actor ≠ some id := nofun
    by_cases hbusy : (s.jobs id').isSome
    · have hstep : step c s (.start id' action) = s := if_pos hbusy
      rw [hstep] at h
      exact .kept h hactor
    · have hstep : step c s (.start id' action) =
          { s with jobs := Function.update s.jobs id' (some ⟨action, begun c action⟩) } := if_neg hbusy
      rw [hstep] at h
      dsimp only at h
      by_cases hid : id = id'
      · subst hid
        rw [Function.update_self] at h
        exact .began action rfl (Option.some.inj h).symm
      · rw [Function.update_of_ne hid] at h
        exact .kept h hactor
  | advance id' saveError =>
    cases hbefore : s.jobs id' with
    | none =>
      have hstep : step c s (.advance id' saveError) = s := by
        unfold step
        dsimp only
        rw [hbefore]
      rw [hstep] at h
      refine .kept h fun hid => ?_
      cases hid
      rw [hbefore] at h
      cases h
    | some before =>
      rw [step_advance hbefore] at h
      dsimp only at h
      by_cases hid : id = id'
      · subst hid
        rw [Function.update_self] at h
        exact .advanced saveError before rfl hbefore (Option.some.inj h).symm
      · rw [Function.update_of_ne hid] at h
        exact .kept h fun heq => hid (Option.some.inj heq).symm
  | mutated r value | savedProxy url => exact .kept h nofun

/-! ### An action by itself -/

/-- What is read from `upstream_proxy.json` when files were written. -/
def proxyFileAfter (file : Option Str) : Write → Option Str
  | .resource .upstreamProxy (url : Option Str) => url
  | _ => file

def World.after (w : World) (reply : Reply Str) : World := ⟨reply.memory, reply.writes.foldl proxyFileAfter w.proxyFile⟩

theorem foldl_fixtures (file : Option Str) (fixtures : List (Str × Bytes)) :
    (fixtures.map fun f => Write.fixture f.1 f.2).foldl proxyFileAfter file = file := by
  induction fixtures generalizing file with
  | nil => rfl
  | cons f fixtures ih => exact ih file

theorem saved_eq (w : World) (r : Resource) (value : r.Value) :
    w.saved r value = { w with proxyFile := proxyFileAfter w.proxyFile (.resource r value) } := by
  cases r <;> rfl

/-- Some steps of an action take it from one phase to another, and change the world. -/
def Leads (c : Setting) (saveError : Option Str) (action : AssistantAction) (before after : World × Phase) : Prop :=
  ∀ (id : Nat) (jobs : Nat → Option Job), ∃ n,
    run (step c) ⟨before.1, Function.update jobs id (some ⟨action, before.2⟩)⟩
        (List.replicate n (.advance id saveError)) =
      ⟨after.1, Function.update jobs id (some ⟨action, after.2⟩)⟩

section

variable {saveError : Option Str} {action : AssistantAction} {x y z : World × Phase}

theorem Leads.refl : Leads c saveError action x x := fun _ _ => ⟨0, rfl⟩

theorem Leads.trans (hxy : Leads c saveError action x y) (hyz : Leads c saveError action y z) :
    Leads c saveError action x z := by
  intro id jobs
  obtain ⟨m, hm⟩ := hxy id jobs
  obtain ⟨n, hn⟩ := hyz id jobs
  refine ⟨m + n, ?_⟩
  rw [← List.replicate_append_replicate, run_append, hm, hn]

theorem leads_advance {w : World} {φ : Phase} :
    Leads c saveError action (w, φ) ((⟨action, φ⟩ : Job).advance c saveError w) := by
  intro id jobs
  refine ⟨1, ?_⟩
  show step c ⟨w, Function.update jobs id (some ⟨action, φ⟩)⟩ (.advance id saveError) = _
  rw [step_advance (Function.update_self id _ jobs), Function.update_idem]

theorem validate_cons (view : PreconditionView) (p : AssistantActionPrecondition)
    (rest : List AssistantActionPrecondition) :
    validateActionPreconditions view (p :: rest) =
      match validateActionPreconditions view [p] with
      | .error e => .error e
      | .ok () => validateActionPreconditions view rest := by
  rw [validateActionPreconditions, validateActionPreconditions]
  cases view.current p.resource with
  | none => rfl
  | some current =>
    by_cases hhash : view.stableValueHash current = p.expectedHash
    · simp [hhash, validateActionPreconditions]
    · simp [hhash]

/-- The checks come to what they come to at once, as the world stays as it is. -/
theorem leads_checks (w : World) (passed rest : List AssistantActionPrecondition) :
    Leads c saveError action (w, checked c action passed rest) (w,
      match validateActionPreconditions (w.view c) rest with
      | .error e => .returned (.error e)
      | .ok () => afterChecks c action) := by
  induction rest generalizing passed with
  | nil => exact .refl
  | cons next rest ih =>
    rw [validate_cons]
    refine leads_advance.trans ?_
    unfold Job.advance checked
    dsimp only
    split
    · exact .refl
    · exact ih (passed ++ [next])

theorem executeActionPayload_of_route {route : AssistantActionRouteContract}
    (hroute : validateActionRoute action.method action.endpoint action.payload = .ok route) (env : Env)
    (preconditions : List AssistantActionPrecondition → Except Str Unit) :
    executeActionPayload env preconditions action =
      match preconditions action.preconditions with
      | .error e => .refused e
      | .ok () => executeActionPayload env (fun _ => .ok ()) action := by
  unfold executeActionPayload
  rw [hroute]
  cases preconditions action.preconditions <;> rfl

/-- The change comes to what it comes to at once. -/
theorem leads_call {call : Call Str} (hordered : call.Ordered) (w : World) :
    Leads c saveError action (w, .ofCall call)
      (w.after (call.run (fun e => e) saveError w.memory),
        .returned (call.run (fun e => e) saveError w.memory).answer) := by
  cases call with
  | refused e | other => exact .refl
  | mutates r m =>
    have horder := hordered r m rfl
    refine leads_advance.trans ?_
    unfold Phase.ofCall Job.advance World.write Call.run World.after
    dsimp only
    cases hedit : m.edit (w.memory r) with
    | error e =>
      dsimp only
      rw [foldl_fixtures]
      exact .refl
    | ok value =>
      cases hm : m.order with
      | editFirst =>
        have hother : proxyFileAfter w.proxyFile (.resource r value) = w.proxyFile := by
          have hne : r ≠ .upstreamProxy := fun hr => Order.noConfusion (hm.symm.trans (horder.2 hr))
          cases r with
          | upstreamProxy => exact absurd rfl hne
          | collection _ | throttling | captureFilter => rfl
        cases saveError with
        | some e =>
          dsimp only
          rw [foldl_fixtures]
          exact leads_advance
        | none =>
          dsimp only
          rw [List.foldl_append, foldl_fixtures, List.foldl_cons, List.foldl_nil, hother]
          exact leads_advance
      | saveFirst =>
        cases saveError with
        | some e =>
          dsimp only
          rw [foldl_fixtures]
          exact .refl
        | none =>
          dsimp only
          rw [List.foldl_append, foldl_fixtures, List.foldl_cons, List.foldl_nil, saved_eq]
          exact leads_advance

/-- Without other actions and requests the steps of an action are `execute_action_payload`. -/
theorem run_alone (saveError : Option Str) (action : AssistantAction) {s : Schedule} {id : Nat}
    (hid : s.jobs id = none) :
    let reply := (executeActionPayload c.env (validateActionPreconditions (s.world.view c)) action).run (fun e => e)
      saveError s.world.memory
    ∃ n, run (step c) s (.start id action :: List.replicate n (.advance id saveError)) =
      ⟨s.world.after reply, Function.update s.jobs id (some ⟨action, .returned reply.answer⟩)⟩ := by
  intro reply
  have hlead : Leads c saveError action (s.world, begun c action) (s.world.after reply, .returned reply.answer) := by
    unfold begun
    cases hroute : validateActionRoute action.method action.endpoint action.payload with
    | error e =>
      have hcall : executeActionPayload c.env (validateActionPreconditions (s.world.view c)) action = .refused e := by
        unfold executeActionPayload
        rw [hroute]
        rfl
      unfold reply
      rw [hcall]
      exact .refl
    | ok route =>
      refine (leads_checks s.world [] action.preconditions).trans ?_
      have hcall := executeActionPayload_of_route hroute c.env (validateActionPreconditions (s.world.view c))
      unfold reply
      rw [hcall]
      cases validateActionPreconditions (s.world.view c) action.preconditions with
      | error e => exact .refl
      | ok _ => exact leads_call (ordered_executeActionPayload c.env _ action) s.world
  obtain ⟨n, hn⟩ := hlead id s.jobs
  refine ⟨n, ?_⟩
  have hstart : step c s (.start id action) = ⟨s.world, Function.update s.jobs id (some ⟨action, begun c action⟩)⟩ := by
    have hfree : ¬(s.jobs id).isSome := by simp [hid]
    exact if_neg hfree
  rw [run_cons, hstart, hn]

end

/-! ### What an action has passed -/

/-- An action has passed a precondition, and has not yet changed anything. -/
inductive Job.ReliesOn (job : Job) (p : AssistantActionPrecondition) : Prop
  | checking {passed rest : List AssistantActionPrecondition} {next : AssistantActionPrecondition}
    (h : job.phase = .checking passed next rest) (hp : p ∈ passed)
  | writing {r : Resource} {m : Mutation Str r.Value} (h : job.phase = .writing r m) (hp : p ∈ job.action.preconditions)

/-- The preconditions of an action are passed one by one, and of each which it has passed something is known. -/
structure Job.Sound (c : Setting) (Known : Guarded → AssistantActionPrecondition → Prop) (job : Job) : Prop where
  checking : ∀ {passed next rest}, job.phase = .checking passed next rest →
    passed ++ next :: rest = job.action.preconditions
  writing : ∀ {r m}, job.phase = .writing r m → afterChecks c job.action = .writing r m
  known : ∀ {p g}, job.ReliesOn p → p.resource = g.name → Known g p

variable {Known Known' : Guarded → AssistantActionPrecondition → Prop}

/-- An action that has changed something, or has returned, relies on nothing any more. -/
def Phase.Settled (φ : Phase) : Prop :=
  (∀ passed next rest, φ ≠ .checking passed next rest) ∧ ∀ r m, φ ≠ .writing r m

theorem sound_of_settled {job : Job} (h : job.phase.Settled) : job.Sound c Known where
  checking hphase := absurd hphase (h.1 _ _ _)
  writing hphase := absurd hphase (h.2 _ _)
  known hrelies := by
    cases hrelies with
    | checking hphase => exact absurd hphase (h.1 _ _ _)
    | writing hphase => exact absurd hphase (h.2 _ _)

theorem settled_returned (answer : Except Str Unit) : (Phase.returned answer).Settled :=
  ⟨fun _ _ _ => nofun, fun _ _ => nofun⟩

theorem settled_write (saveError : Option Str) (w : World) (r : Resource) (m : Mutation Str r.Value) :
    (w.write saveError r m).2.Settled := by
  unfold World.write
  split
  · exact settled_returned _
  · split
    · exact ⟨fun _ _ _ => nofun, fun _ _ => nofun⟩
    · exact settled_returned _
    · exact ⟨fun _ _ _ => nofun, fun _ _ => nofun⟩

theorem afterChecks_ne_checking (action : AssistantAction) (passed : List AssistantActionPrecondition)
    (next : AssistantActionPrecondition) (rest : List AssistantActionPrecondition) :
    afterChecks c action ≠ .checking passed next rest := by
  unfold afterChecks Phase.ofCall
  split <;> exact Phase.noConfusion

/-- Behind a check that was passed: nothing else is relied on. -/
theorem sound_checked {action : AssistantAction} {passed rest : List AssistantActionPrecondition}
    (h : passed ++ rest = action.preconditions) (hknown : ∀ {p g}, p ∈ passed → p.resource = g.name → Known g p) :
    (⟨action, checked c action passed rest⟩ : Job).Sound c Known := by
  cases rest with
  | nil =>
    rw [List.append_nil] at h
    refine ⟨fun hphase => absurd hphase (afterChecks_ne_checking _ _ _ _), fun hphase => hphase, fun hrelies => ?_⟩
    cases hrelies with
    | checking hphase => exact absurd hphase (afterChecks_ne_checking _ _ _ _)
    | writing _ hp => exact hknown (h ▸ hp)
  | cons next rest =>
    refine ⟨fun hphase => ?_, nofun, fun hrelies => ?_⟩
    · cases hphase
      exact h
    · cases hrelies with
      | checking hphase hp =>
        cases hphase
        exact hknown hp
      | writing hphase => cases hphase

theorem sound_begun (action : AssistantAction) : (⟨action, begun c action⟩ : Job).Sound c Known := by
  unfold begun
  split
  · exact sound_of_settled (settled_returned _)
  · exact sound_checked rfl (fun hp => absurd hp List.not_mem_nil)

/-- A step of an action: a check which it passes makes something known of one precondition more. -/
theorem sound_advance {w : World} {job : Job} (h : job.Sound c Known) (saveError : Option Str)
    (hkeep : ∀ {p g passed next rest}, job.phase = .checking passed next rest → p ∈ passed → p.resource = g.name →
      Known g p → Known' g p)
    (hcheck : ∀ {passed next rest g}, job.phase = .checking passed next rest → next.resource = g.name →
      stableValueHash c.digest (g.json (w.value c g)) = next.expectedHash → Known' g next) :
    (⟨job.action, (job.advance c saveError w).2⟩ : Job).Sound c Known' := by
  unfold Job.advance
  split
  · rename_i passed next rest hphase
    split
    · exact sound_of_settled (settled_returned _)
    · rename_i hvalid
      refine sound_checked ?_ fun {p g} hp hg => ?_
      · rw [List.append_assoc]
        exact h.checking hphase
      · rcases List.mem_append.1 hp with hp | hp
        · exact hkeep hphase hp hg (h.known (.checking hphase hp) hg)
        · obtain rfl := List.mem_singleton.1 hp
          rw [validate_guarded hg] at hvalid
          split at hvalid
          · exact hcheck hphase hg ‹_›
          · cases hvalid
  · exact sound_of_settled (settled_write _ _ _ _)
  · exact sound_of_settled (settled_returned _)
  · exact sound_of_settled (settled_returned _)
  · exact sound_of_settled (settled_returned _)

/-! ### Runs -/

def Schedule.Sound (c : Setting) (Known : Nat → AssistantAction → Guarded → AssistantActionPrecondition → Prop)
    (s : Schedule) : Prop :=
  ∀ id job, s.jobs id = some job → job.Sound c (Known id job.action)

theorem sound_idle {Known : Nat → AssistantAction → Guarded → AssistantActionPrecondition → Prop} (w : World) :
    (Schedule.idle w).Sound c Known := nofun

/-- What is known of the preconditions that were passed is kept, where every step keeps it, and every check that is
passed adds to it. -/
theorem sound_step {Known Known' : Nat → AssistantAction → Guarded → AssistantActionPrecondition → Prop} {s : Schedule}
    {e : Event} (h : s.Sound c Known)
    (hkeep : ∀ {id job p g}, s.jobs id = some job → job.ReliesOn p → p.resource = g.name →
      (e.actor = some id → ∃ passed next rest, job.phase = .checking passed next rest) →
      Known id job.action g p → Known' id job.action g p)
    (hcheck : ∀ {id job passed next rest g}, e.actor = some id → s.jobs id = some job →
      job.phase = .checking passed next rest → next.resource = g.name →
      stableValueHash c.digest (g.json (s.world.value c g)) = next.expectedHash → Known' id job.action g next) :
    (step c s e).Sound c Known' := by
  intro id job hjob
  cases stepped hjob with
  | kept hbefore hactor =>
    have hsound := h id job hbefore
    exact ⟨hsound.checking, hsound.writing, fun hrelies hg =>
      hkeep hbefore hrelies hg (fun hid => absurd hid hactor) (hsound.known hrelies hg)⟩
  | began action _ heq =>
    rw [heq]
    exact sound_begun action
  | advanced saveError before he hbefore heq =>
    have hnext : Job.Sound c (Known' id before.action) ⟨before.action, (before.advance c saveError s.world).2⟩ :=
      sound_advance (h id before hbefore) saveError
        (fun hphase hp hg => hkeep hbefore (.checking hphase hp) hg fun _ => ⟨_, _, _, hphase⟩)
        (hcheck (congrArg Event.actor he) hbefore)
    rw [heq]
    exact hnext

/-- The state of a run of actions and requests, in which none was under way at first. -/
def reached (c : Setting) (w : World) (events : List Event) : Schedule := run (step c) (Schedule.idle w) events

theorem reached_concat (w : World) (events : List Event) (e : Event) :
    reached c w (events ++ [e]) = step c (reached c w events) e := by
  unfold reached
  rw [run_append]
  rfl

/-- At some time before, an action compared a resource with a precondition and found its hash. -/
def PassedBefore (c : Setting) (w : World) (events : List Event) (id : Nat) (g : Guarded)
    (p : AssistantActionPrecondition) : Prop :=
  ∃ earlier, earlier <+: events ∧
    (∃ job passed rest, (reached c w earlier).jobs id = some job ∧ job.phase = .checking passed p rest) ∧
    stableValueHash c.digest (g.json ((reached c w earlier).world.value c g)) = p.expectedHash

theorem sound_reached (w : World) (events : List Event) :
    (reached c w events).Sound c fun id _ g p => PassedBefore c w events id g p := by
  induction events using List.reverseRecOn with
  | nil => exact sound_idle w
  | append_singleton events e ih =>
    rw [reached_concat]
    refine sound_step ih (fun _ _ _ _ hbefore => ?_) (fun _ hjob hphase _ hhash => ?_)
    · obtain ⟨earlier, hinitial, hchecking, hhash⟩ := hbefore
      exact ⟨earlier, hinitial.trans (List.prefix_append _ _), hchecking, hhash⟩
    · exact ⟨events, List.prefix_append _ _, ⟨_, _, _, hjob, hphase⟩, hhash⟩

/-- What a precondition says that was made for a value: an action which finds another value is refused and changes
nothing, and an action which changes anything found that value after it had begun. -/
structure GoesByProposal (c : Setting) (w : World) (events : List Event) (e : Event) : Prop where
  refused : ∀ {id saveError job g v message passed rest}, e = .advance id saveError →
    (reached c w events).jobs id = some job → Resists c.digest g v →
    job.phase = .checking passed (madeFor c.digest g v message) rest →
    ¬ g.Same ((reached c w events).world.value c g) v →
    reached c w (events ++ [e]) = ⟨(reached c w events).world, Function.update (reached c w events).jobs id
      (some ⟨job.action, .returned (.error (("assistant action precondition failed: " : Str) ++ message))⟩)⟩
  applied : ∀ {id saveError job g v message r m}, e = .advance id saveError →
    (reached c w events).jobs id = some job → Resists c.digest g v →
    job.phase = .writing r m → madeFor c.digest g v message ∈ job.action.preconditions →
    ∃ earlier, earlier <+: events ∧
      (∃ job passed next rest, (reached c w earlier).jobs id = some job ∧ job.phase = .checking passed next rest) ∧
      g.Same ((reached c w earlier).world.value c g) v

/-- In every run of actions and requests, an action goes by the values that it was made for. -/
theorem everyEvent_goesByProposal (c : Setting) (w : World) (events : List Event) :
    EveryEvent (GoesByProposal c w) events := by
  intro before e _ _
  constructor
  · intro id saveError job g v message passed rest he hjob hresists hphase hother
    have hvalid : validateActionPreconditions ((reached c w before).world.view c) [madeFor c.digest g v message] =
        .error (("assistant action precondition failed: " : Str) ++ message) := by
      rw [validate_guarded rfl]
      exact if_neg fun hhash => hother (Guarded.same_of_hash hresists hhash)
    have hadvance : job.advance c saveError (reached c w before).world = ((reached c w before).world,
        .returned (.error (("assistant action precondition failed: " : Str) ++ message))) := by
      unfold Job.advance
      rw [hphase]
      dsimp only
      rw [hvalid]
    rw [reached_concat, he, step_advance hjob, hadvance]
  · intro id saveError job g v message r m he hjob hresists hphase hp
    obtain ⟨earlier, hinitial, ⟨job', passed, rest, hjob', hphase'⟩, hhash⟩ :=
      (sound_reached w before id job hjob).known (.writing hphase hp) rfl
    exact ⟨earlier, hinitial, ⟨job', passed, _, rest, hjob', hphase'⟩, Guarded.same_of_hash hresists hhash⟩

/-! ### Runs without disturbance -/

/-- An action is going to change a resource when its checks are over. -/
def Targets (c : Setting) (action : AssistantAction) (g : Guarded) : Prop :=
  ∃ m, afterChecks c action = .writing g.resource m

/-- A step leaves a resource alone which another action has compared and is going to change. -/
def Undisturbed (c : Setting) (s : Schedule) (e : Event) : Prop :=
  ∀ id job g p, s.jobs id = some job → job.ReliesOn p → p.resource = g.name → Targets c job.action g →
    e.actor ≠ some id → g.Same ((step c s e).world.value c g) (s.world.value c g)

/-- The resource which an action changes has the value that the action was made for. -/
def ChangesProposed (c : Setting) (s : Schedule) (e : Event) : Prop :=
  ∀ id saveError job g v message m, e = .advance id saveError → s.jobs id = some job → Resists c.digest g v →
    job.phase = .writing g.resource m → madeFor c.digest g v message ∈ job.action.preconditions →
    g.Same (s.world.value c g) v

/-- The resource which an action is going to change is still as the action has found it. -/
def StillFound (c : Setting) (s : Schedule) (_ : Nat) (action : AssistantAction) (g : Guarded)
    (p : AssistantActionPrecondition) : Prop :=
  Targets c action g → ∃ u, stableValueHash c.digest (g.json u) = p.expectedHash ∧ g.Same (s.world.value c g) u

/-- An action that checks changes nothing. -/
theorem world_of_check {s : Schedule} {e : Event} {id : Nat} {job : Job}
    {passed rest : List AssistantActionPrecondition} {next : AssistantActionPrecondition} (hactor : e.actor = some id)
    (hjob : s.jobs id = some job) (hphase : job.phase = .checking passed next rest) : (step c s e).world = s.world := by
  cases e with
  | advance id' saveError =>
    cases hactor
    rw [step_advance hjob]
    exact world_of_checking hphase
  | start _ _ | mutated _ _ | savedProxy _ => cases hactor

def AllStillFound (c : Setting) (s : Schedule) : Prop := s.Sound c (StillFound c s)

theorem allStillFound_step {s : Schedule} {e : Event} (h : AllStillFound c s) (he : Undisturbed c s e) :
    AllStillFound c (step c s e) := by
  refine sound_step h (fun {id job p g} hjob hrelies hg hown hfound htargets => ?_)
    (fun {id job passed next rest g} hactor hjob hphase hg hhash _ => ?_)
  · obtain ⟨u, hhash, hsame⟩ := hfound htargets
    refine ⟨u, hhash, ?_⟩
    by_cases hactor : e.actor = some id
    · obtain ⟨passed, next, rest, hphase⟩ := hown hactor
      rw [world_of_check hactor hjob hphase]
      exact hsame
    · exact (he id job g p hjob hrelies hg htargets hactor).trans hsame
  · rw [world_of_check hactor hjob hphase]
    exact ⟨_, hhash, .refl g _⟩

theorem changesProposed_of_allStillFound {s : Schedule} (hs : AllStillFound c s) (e : Event) :
    ChangesProposed c s e := by
  intro id saveError job g v message m _ hjob hresists hphase hp
  obtain ⟨u, hhash, hsame⟩ := (hs id job hjob).known (.writing hphase hp) rfl ⟨m, (hs id job hjob).writing hphase⟩
  exact hsame.trans (Guarded.same_of_hash hresists hhash)

theorem everyState_allStillFound {w : World} {events : List Event}
    (h : EveryStep (step c) (Undisturbed c) (Schedule.idle w) events) :
    EveryState (step c) (AllStillFound c) (Schedule.idle w) events := by
  have hidle : AllStillFound c (Schedule.idle w) := sound_idle w
  exact everyState_of_everyStep (fun _ _ => allStillFound_step) hidle h

/-- Where no step disturbs another action between its checks and its change, no update is lost: an action changes a
resource only while it has the value that the action was made for. -/
theorem everyStep_changesProposed {w : World} {events : List Event}
    (h : EveryStep (step c) (Undisturbed c) (Schedule.idle w) events) :
    EveryStep (step c) (ChangesProposed c) (Schedule.idle w) events :=
  (everyState_allStillFound h).everyStep fun _ e hs => changesProposed_of_allStillFound hs e

/-! ### Actions on different resources -/

section

-- the actions of a run, by number
variable {actions : Nat → Option AssistantAction}

/-- No two of these actions are going to change one resource. -/
def Apart (c : Setting) (actions : Nat → Option AssistantAction) : Prop :=
  ∀ id id' action action' g, actions id = some action → actions id' = some action' → Targets c action g →
    Targets c action' g → id = id'

/-- The beginning or a step of one of these actions, or a request which changes none of their resources. -/
inductive Event.Beside (c : Setting) (actions : Nat → Option AssistantAction) : Event → Prop
  | started (id : Nat) (action : AssistantAction) (h : actions id = some action) : Beside c actions (.start id action)
  | advanced (id : Nat) (saveError : Option Str) : Beside c actions (.advance id saveError)
  | mutated (r : Resource) (value : r.Value)
    (h : ∀ id action g, actions id = some action → Targets c action g → g.resource ≠ r) :
    Beside c actions (.mutated r value)
  | savedProxy (url : Option Str) (h : ∀ id action, actions id = some action → ¬ Targets c action .upstreamProxy) :
    Beside c actions (.savedProxy url)

/-- The next step changes a resource, or its file. -/
def Phase.Changes (φ : Phase) (r : Resource) : Prop := (∃ m, φ = .writing r m) ∨ ∃ value, φ = .installing r value

/-- An action changes what it was going to change. -/
structure Job.Listed (c : Setting) (listed : Option AssistantAction) (job : Job) : Prop where
  action : listed = some job.action
  targets : ∀ g, job.phase.Changes g.resource → Targets c job.action g

def AllListed (c : Setting) (actions : Nat → Option AssistantAction) (s : Schedule) : Prop :=
  ∀ id job, s.jobs id = some job → job.Listed c (actions id)

theorem not_changes_returned (answer : Except Str Unit) (r : Resource) : ¬ (Phase.returned answer).Changes r := by
  rintro (⟨m, h⟩ | ⟨value, h⟩) <;> cases h

theorem targets_of_afterChecks {action : AssistantAction} {g : Guarded}
    (h : (afterChecks c action).Changes g.resource) : Targets c action g := by
  obtain hwriting | ⟨value, hinstalling⟩ := h
  · exact hwriting
  · unfold afterChecks Phase.ofCall at hinstalling
    split at hinstalling <;> cases hinstalling

theorem targets_of_checked {action : AssistantAction} {passed rest : List AssistantActionPrecondition} {g : Guarded}
    (h : (checked c action passed rest).Changes g.resource) : Targets c action g := by
  cases rest with
  | nil => exact targets_of_afterChecks h
  | cons next rest => rcases h with ⟨m, h⟩ | ⟨value, h⟩ <;> cases h

theorem targets_of_begun {action : AssistantAction} {g : Guarded} (h : (begun c action).Changes g.resource) :
    Targets c action g := by
  unfold begun at h
  split at h
  · exact absurd h (not_changes_returned _ _)
  · exact targets_of_checked h

theorem changes_of_write {saveError : Option Str} {w : World} {r r' : Resource} {m : Mutation Str r.Value}
    (h : (w.write saveError r m).2.Changes r') : r = r' := by
  unfold World.write at h
  split at h
  · exact absurd h (not_changes_returned _ _)
  · split at h
    · rcases h with ⟨m, h⟩ | ⟨value, h⟩ <;> cases h
    · exact absurd h (not_changes_returned _ _)
    · obtain ⟨m, h⟩ | ⟨value, h⟩ := h <;> cases h
      rfl

theorem Job.Listed.advance {listed : Option AssistantAction} {job : Job} (h : job.Listed c listed)
    (saveError : Option Str) (w : World) :
    (⟨job.action, (job.advance c saveError w).2⟩ : Job).Listed c listed := by
  refine ⟨h.action, fun g hchanges => ?_⟩
  dsimp only at hchanges ⊢
  unfold Job.advance at hchanges
  split at hchanges
  · split at hchanges
    · exact absurd hchanges (not_changes_returned _ _)
    · exact targets_of_checked hchanges
  · rename_i r m hphase
    obtain rfl := changes_of_write hchanges
    exact h.targets g (Or.inl ⟨m, hphase⟩)
  · exact absurd hchanges (not_changes_returned _ _)
  · exact absurd hchanges (not_changes_returned _ _)
  · exact absurd hchanges (not_changes_returned _ _)

theorem allListed_step {s : Schedule} {e : Event} (h : AllListed c actions s) (he : e.Beside c actions) :
    AllListed c actions (step c s e) := by
  intro id job hjob
  cases stepped hjob with
  | kept hbefore _ => exact h id job hbefore
  | began action hstart heq =>
    subst hstart heq
    cases he with
    | started _ _ hlisted => exact ⟨hlisted, fun g => targets_of_begun⟩
  | advanced saveError before _ hbefore heq =>
    subst heq
    exact (h id before hbefore).advance saveError s.world

theorem value_update (w : World) {g : Guarded} {r : Resource} (value : r.Value) (hne : g.resource ≠ r) :
    ({ w with memory := Function.update w.memory r value } : World).value c g = w.value c g := by
  cases g with
  | upstreamProxy => rfl
  | captureFilter | dns | throttling => exact Function.update_of_ne hne _ _

theorem value_saved (w : World) {g : Guarded} {r : Resource} (value : r.Value) (hne : g.resource ≠ r) :
    (w.saved r value).value c g = w.value c g := by
  cases r with
  | upstreamProxy =>
    cases g with
    | upstreamProxy => exact absurd rfl hne
    | captureFilter | dns | throttling => rfl
  | collection _ | throttling | captureFilter => rfl

/-- A step of an action leaves the other resources as they are. -/
theorem value_advance {job : Job} {saveError : Option Str} (w : World) {g : Guarded}
    (h : ¬ job.phase.Changes g.resource) : (job.advance c saveError w).1.value c g = w.value c g := by
  unfold Job.advance
  split
  · split <;> rfl
  · rename_i r m hphase
    have hne : g.resource ≠ r := by
      rintro rfl
      exact h (Or.inl ⟨m, hphase⟩)
    unfold World.write
    split
    · rfl
    · split
      · exact value_update w _ hne
      · rfl
      · exact value_saved w _ hne
  · rfl
  · rename_i r value hphase
    refine value_update w value ?_
    rintro rfl
    exact h (Or.inr ⟨value, hphase⟩)
  · rfl

theorem eq_of_targets {action : AssistantAction} {g g' : Guarded} {m : Mutation Str g'.resource.Value}
    (h : afterChecks c action = .writing g'.resource m) (htargets : Targets c action g) : g = g' := by
  obtain ⟨m', h'⟩ := htargets
  have hr := (Phase.writing.inj (h.symm.trans h')).1
  cases g <;> cases g' <;> first | rfl | cases hr

/-- Actions on different resources disturb each other as little as requests about other resources do. -/
theorem everyStep_undisturbed {w : World} {events : List Event} (hapart : Apart c actions)
    (h : ∀ e ∈ events, e.Beside c actions) : EveryStep (step c) (Undisturbed c) (Schedule.idle w) events := by
  have hidle : AllListed c actions (Schedule.idle w) := nofun
  have hlisted : EveryState (step c) (AllListed c actions) (Schedule.idle w) events :=
    everyState_of_everyStep (fun _ _ => allListed_step) hidle (everyStep_const.2 h)
  intro before e hinitial id job g p hjob _ _ htargets hactor
  have hall := hlisted before ((List.prefix_append _ _).trans hinitial)
  generalize run (step c) (Schedule.idle w) before = s at hjob hall ⊢
  have haction := (hall id job hjob).action
  have hvalue : (step c s e).world.value c g = s.world.value c g := by
    cases h e (hinitial.subset (List.mem_append_right _ List.mem_cons_self)) with
    | started id' action _ =>
      unfold step
      dsimp only
      split <;> rfl
    | advanced id' saveError =>
      cases hother : s.jobs id' with
      | none =>
        unfold step
        dsimp only
        rw [hother]
      | some other =>
        rw [step_advance hother]
        refine value_advance s.world fun hchanges => hactor ?_
        have hlisted' := hall id' other hother
        have hid := hapart id id' _ _ g haction hlisted'.action htargets (hlisted'.targets g hchanges)
        rw [hid]
        rfl
    | mutated r value hne => exact value_update s.world value (hne id _ g haction htargets)
    | savedProxy url hnone =>
      cases g with
      | upstreamProxy => exact absurd htargets (hnone id _ haction)
      | captureFilter | dns | throttling => rfl
  rw [hvalue]
  exact .refl g _

end

/-- Two actions, the numbers of which are 0 and 1. -/
def two (first second : AssistantAction) : Nat → Option AssistantAction
  | 0 => some first
  | 1 => some second
  | _ => none

theorem of_two {first second action : AssistantAction} {id : Nat} (h : two first second id = some action) :
    id = 0 ∧ action = first ∨ id = 1 ∧ action = second := by
  match id with
  | 0 =>
    cases h
    exact Or.inl ⟨rfl, rfl⟩
  | 1 =>
    cases h
    exact Or.inr ⟨rfl, rfl⟩
  | n + 2 => cases h

theorem apart_two {first second : AssistantAction} (h : ∀ g, Targets c first g → ¬ Targets c second g) :
    Apart c (two first second) := by
  intro id id' action action' g hlisted hlisted' htargets htargets'
  obtain ⟨rfl, rfl⟩ | ⟨rfl, rfl⟩ := of_two hlisted <;> obtain ⟨rfl, rfl⟩ | ⟨rfl, rfl⟩ := of_two hlisted'
  · rfl
  · exact absurd htargets' (h g htargets)
  · exact absurd htargets (h g htargets')
  · rfl

/-! ### An addition to an empty table -/

private def oldProxy : Str := "http://old.test:3128"

/-- SHA-256 on the text `{}`, and on the one with the old proxy. -/
private def digestOfEmpty : Json → Str
  | .obj [] => "44136fa355b3678a1146ad16f7e8649e94fb4fc21fe77e8310c060f61caaff8a"
  | .obj [(_, .str url)] =>
    if url = oldProxy then "60e8ecfdfa3866f53ae40b9bb414f32dd840d4fc9b62bb624822b3a5372378de" else []
  | _ => []

private def addition : AssistantAction where
  actionId := "a1"
  confirmationToken := "t1"
  kind := "dns"
  summary := "Resolve a.test to 10.0.0.1"
  risk := .mutate
  endpoint := "/admin/dns"
  method := "POST"
  payload := .obj [("a.test", .obj [("enabled", .bool true), ("ip", .str "10.0.0.1")])]
  requiresConfirmation := true
  preconditions := [madeFor digestOfEmpty .dns (IndexMap.empty : DnsOverrides) "DNS overrides changed"]

private def clearing : AssistantAction where
  actionId := "a2"
  confirmationToken := "t2"
  kind := "upstream-proxy"
  summary := "Clear upstream proxy"
  risk := .mutate
  endpoint := "/admin/upstream-proxy"
  method := "POST"
  payload := .obj [("upstream_proxy", .null)]
  requiresConfirmation := true
  preconditions := [madeFor digestOfEmpty .upstreamProxy (some oldProxy : Option Str) "Upstream proxy changed"]

private def freshWorld : World := ⟨emptyMemory, some oldProxy⟩

private def freshSetting : Setting := ⟨envOf none, none, digestOfEmpty⟩

theorem run_alone_addition :
    let reply := (executeActionPayload freshSetting.env (validateActionPreconditions (freshWorld.view freshSetting))
      addition).run (fun e => e) none freshWorld.memory
    ∃ n, run (step freshSetting) (Schedule.idle freshWorld)
        (.start 0 addition :: List.replicate n (.advance 0 none)) =
      ⟨freshWorld.after reply, Function.update (fun _ => none) 0 (some ⟨addition, .returned reply.answer⟩)⟩ :=
  @run_alone freshSetting none addition (Schedule.idle freshWorld) 0 rfl

private theorem targets_addition {g : Guarded} (h : Targets freshSetting addition g) : g = .dns :=
  @eq_of_targets freshSetting addition g .dns _ rfl h

private theorem targets_clearing {g : Guarded} (h : Targets freshSetting clearing g) : g = .upstreamProxy :=
  @eq_of_targets freshSetting clearing g .upstreamProxy _ rfl h

private theorem apart_additionClearing : Apart freshSetting (two addition clearing) := by
  refine apart_two fun g h h' => ?_
  cases (targets_addition h).symm.trans (targets_clearing h')

private def sideBySide : List Event :=
  [.start 0 addition, .start 1 clearing, .advance 0 none, .advance 1 none,
    .mutated .throttling (ThrottlingConfig.mk 0 512 true), .advance 1 none, .advance 0 none, .advance 1 none,
    .advance 0 none]

private theorem beside_sideBySide : ∀ e ∈ sideBySide, e.Beside freshSetting (two addition clearing) := by
  have hmutated : ∀ id action g, two addition clearing id = some action → Targets freshSetting action g →
      g.resource ≠ .throttling := by
    intro id action g h htargets
    obtain ⟨-, rfl⟩ | ⟨-, rfl⟩ := of_two h
    · rw [targets_addition htargets]
      nofun
    · rw [targets_clearing htargets]
      nofun
  unfold sideBySide
  simp only [List.forall_mem_cons]
  exact ⟨.started 0 _ rfl, .started 1 _ rfl, .advanced _ _, .advanced _ _, .mutated _ _ hmutated, .advanced _ _,
    .advanced _ _, .advanced _ _, .advanced _ _, List.forall_mem_nil _⟩

/-- Two actions side by side, between whose steps a request changes the bandwidth. -/
theorem changesProposed_addition : EveryStep (step freshSetting) (ChangesProposed freshSetting)
    (Schedule.idle freshWorld) sideBySide :=
  everyStep_changesProposed (@everyStep_undisturbed freshSetting (two addition clearing) freshWorld _
    apart_additionClearing beside_sideBySide)

end ActionRuns

end Oproxy
