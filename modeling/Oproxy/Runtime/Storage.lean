import Oproxy.Runtime.Examples

/-!
# The storage directory (`runtime/state.rs`, `storage.rs`, `control_plane/settings.rs`)

The program from one start to the next one.  Requests and actions of the assistant change what is in memory and save it;
a start seeds the files that are not there and reads all of them.  The limit on bodies is set by a request of its own,
which saves it only where the request names one.
-/

namespace Oproxy

open Persisted Mutations Assistant Machine Examples

namespace Restarts

/-! ### The program in its storage directory -/

/-- What the configuration sets, as it is read at the start and by `reload_config`. -/
structure Configuration where
  upstreamProxy : Option Str
  maxBodyBytes : Nat

structure Installation where
  memory : Memory
  files : Files
  maxBodyBytes : Nat
  hotConfig : Stored HotConfig

/-- A JSON object has one value for each trailer. -/
def behaviorThroughFile : MockBehavior → MockBehavior
  | .grpcScript messages trailers => .grpcScript messages (HeaderMap.ofMap trailers.toMap)
  | behavior => behavior

def mocksThroughFile (rules : List MockRule) : List MockRule :=
  rules.map fun rule => { rule with behavior := rule.behavior.map behaviorThroughFile }

/-- A value as it is read from the file which it has been saved in. -/
def throughFile : (r : Resource) → r.Value → r.Value
  | .collection .mockRules, rules => mocksThroughFile rules
  | _, value => value

def saveFile (files : Files) : Write → Files
  | .resource r value => Function.update files r (.holds (throughFile r value))
  | .fixture _ _ => files

def Installation.after {E : Type} (s : Installation) (reply : Reply E) : Installation :=
  { s with memory := reply.memory, files := reply.writes.foldl saveFile s.files }

/-- A mock has answered. -/
def countCall (id : Str) (rules : (Resource.collection .mockRules).Value) : (Resource.collection .mockRules).Value :=
  Mock.countCall id rules

def countServed (id : Str) (memory : Memory) : Memory :=
  Function.update memory (.collection .mockRules) (countCall id (memory (.collection .mockRules)))

inductive Event where
  | request (env : Env) (method path : Str) (body : Json)
  | action (env : Env) (preconditions : List AssistantActionPrecondition → Except Str Unit) (action : AssistantAction)
  | served (id : Str)
  | restart (canWrite : Resource → Bool)

/-- `Option<usize>`. -/
def optionalUsize : Json → Option (Option Nat)
  | .null => some none
  | .int n => if 0 ≤ n ∧ n < 2 ^ 64 then some (some n.toNat) else none
  | _ => none

/-- `HotReloadBody`; a request without a body stands for one with an empty object. -/
def hotReloadBody : Json → Option (Option Nat)
  | .obj members => optionalMember "max_body_bytes" none optionalUsize members
  | .arr [value] => optionalUsize value
  | _ => none

/-- A request for `reload_config`. -/
def IsReload (method path : Str) : Prop := Router.handlerFor method path = some (.route "/admin/config/reload" "POST")

instance (method path : Str) : Decidable (IsReload method path) := by
  unfold IsReload
  infer_instance

variable (config : Configuration)

def Installation.reloadConfig (s : Installation) (saveError : Option Str) (body : Json) : Installation :=
  match hotReloadBody body with
  | none => s
  | some (some maxBodyBytes) =>
    if saveError.isSome then s
    else { s with maxBodyBytes := maxBodyBytes, hotConfig := .holds ⟨some maxBodyBytes⟩ }
  | some none => { s with maxBodyBytes := config.maxBodyBytes }

/-- The limit at the start. -/
def loadMaxBodyBytes (hotConfig : Stored HotConfig) : Nat :=
  (hotConfig.loadJson ⟨none⟩).maxBodyBytes.getD config.maxBodyBytes

/-- The start of `build_runtime_services`. -/
def start (canWrite : Resource → Bool) (files : Files) (hotConfig : Stored HotConfig) : Installation :=
  let files := seedFirstRunExamples canWrite files
  ⟨load config.upstreamProxy files, files, loadMaxBodyBytes config hotConfig, hotConfig⟩

def step (s : Installation) : Event → Installation
  | .request env method path body =>
    if IsReload method path then s.reloadConfig config env.disk.saveError body
    else s.after ((Http.call env method path body).run Http.storageErrorResponse env.disk.saveError s.memory)
  | .action env preconditions action =>
    s.after ((executeActionPayload env preconditions action).run id env.disk.saveError s.memory)
  | .served id => { s with memory := countServed id s.memory }
  | .restart canWrite => start config canWrite s.files s.hotConfig

/-! ### What a restart can keep -/

def withoutTrailers : MockBehavior → MockBehavior
  | .grpcScript messages _ => .grpcScript messages HeaderMap.new
  | behavior => behavior

/-- The value which is served of a trailer. -/
def trailer : MockBehavior → Str → Option Str
  | .grpcScript _ trailers, name => (trailers.getAll name).getLast?
  | _, _ => none

/-- A rule without the count of its calls, and with the trailers which it serves. -/
def served (rule : MockRule) : MockRule × Option (Str → Option Str) :=
  ({ rule with callCount := 0, behavior := rule.behavior.map withoutTrailers }, rule.behavior.map trailer)

/-- Mock rules are the same where they serve the same; the counts of their calls start anywhere. -/
def Same : (r : Resource) → r.Value → r.Value → Prop
  | .collection .mockRules, (rules : List MockRule), (rules' : List MockRule) => rules.map served = rules'.map served
  | _, value, value' => value = value'

/-- A restart brings everything back; the upstream proxy is that of the configuration where none is set. -/
structure Survives (s : Installation) : Prop where
  kept : ∀ canWrite r, r ≠ .upstreamProxy →
    Same r ((step config s (.restart canWrite)).memory r) (s.memory r)
  proxy : ∀ canWrite, (step config s (.restart canWrite)).memory .upstreamProxy =
    Option.or (s.memory .upstreamProxy) config.upstreamProxy
  maxBodyBytes : ∀ canWrite, (step config s (.restart canWrite)).maxBodyBytes = s.maxBodyBytes

/-- What a call changes is saved. -/
def CallSaved {E : Type} (saveError : Option Str) (memory : Memory) : Call E → Prop
  | .mutates r m =>
    saveError = none ∨ r = .upstreamProxy ∨ ∀ value, m.edit (memory r) = .ok value → Same r value (memory r)
  | _ => True

/-- A reload without a limit takes the one of the configuration, and saves nothing. -/
def ReloadSaved (s : Installation) (body : Json) : Prop :=
  hotReloadBody body = some none → config.maxBodyBytes = s.maxBodyBytes

def Event.Saved (s : Installation) : Event → Prop
  | .request env method path body =>
    if IsReload method path then ReloadSaved config s body
    else CallSaved env.disk.saveError s.memory (Http.call env method path body)
  | .action env preconditions confirmed =>
    CallSaved env.disk.saveError s.memory (executeActionPayload env preconditions confirmed)
  | .served _ | .restart _ => True

namespace Same

variable {r : Resource} {a b c : r.Value}

theorem refl (r : Resource) (a : r.Value) : Same r a a := by
  rcases r with ⟨⟨⟩⟩ | _ | _ | _ <;> rfl

theorem symm (h : Same r a b) : Same r b a := by
  rcases r with ⟨⟨⟩⟩ | _ | _ | _ <;> exact Eq.symm h

theorem trans (h : Same r a b) (h' : Same r b c) : Same r a c := by
  rcases r with ⟨⟨⟩⟩ | _ | _ | _ <;> exact Eq.trans h h'

end Same

theorem served_behaviorThroughFile (rule : MockRule) :
    served { rule with behavior := rule.behavior.map behaviorThroughFile } = served rule := by
  unfold served
  rw [Option.map_map, Option.map_map]
  have hwithout : withoutTrailers ∘ behaviorThroughFile = withoutTrailers := by
    funext behavior
    cases behavior <;> rfl
  have htrailer : trailer ∘ behaviorThroughFile = trailer := by
    funext behavior name
    cases behavior with
    | grpcScript messages trailers =>
      show ((HeaderMap.ofMap trailers.toMap).getAll name).getLast? = (trailers.getAll name).getLast?
      rw [HeaderMap.getAll_ofMap_toMap]
      cases (trailers.getAll name).getLast? <;> rfl
    | httpResponse _ | webSocketScript _ | tunnelDecision _ _ => rfl
  rw [hwithout, htrailer]

theorem served_mocksThroughFile (rules : List MockRule) : (mocksThroughFile rules).map served = rules.map served := by
  unfold mocksThroughFile
  rw [List.map_map]
  exact List.map_congr_left fun rule _ => served_behaviorThroughFile rule

theorem same_throughFile (r : Resource) (value : r.Value) : Same r (throughFile r value) value := by
  rcases r with ⟨⟨⟩⟩ | _ | _ | _
  case collection.mockRules => exact served_mocksThroughFile value
  all_goals exact Same.refl _ _

theorem served_countCall (id : Str) (rules : List MockRule) :
    (Mock.countCall id rules).map served = rules.map served := by
  induction rules with
  | nil => rfl
  | cons rule rules ih =>
    unfold Mock.countCall
    split
    · rfl
    · rw [List.map_cons, List.map_cons, ih]

/-! ### Seeding -/

/-- Every feature that has an example has a file. -/
def Seeded (files : Files) : Prop := ∀ entry ∈ seeded, (files entry.1).isThere = true

theorem seed_of_there {canWrite : Resource → Bool} {files : Files} {entry : Σ r : Resource, r.Value}
    (h : (files entry.1).isThere = true) : seed canWrite files entry = files := if_pos h

/-- A file which is there is left alone. -/
theorem seed_apply_of_there {canWrite : Resource → Bool} {files : Files} {entry : Σ r : Resource, r.Value}
    {r : Resource} (h : (files r).isThere = true) : seed canWrite files entry r = files r := by
  unfold seed
  split
  · rfl
  · rename_i hmissing
    split
    · refine Function.update_of_ne ?_ _ _
      rintro rfl
      exact hmissing h
    · rfl

theorem foldl_seed_apply_of_there {canWrite : Resource → Bool} (entries : List (Σ r : Resource, r.Value))
    {files : Files} {r : Resource} (h : (files r).isThere = true) :
    entries.foldl (seed canWrite) files r = files r := by
  induction entries generalizing files with
  | nil => rfl
  | cons entry entries ih =>
    have hseed := @seed_apply_of_there canWrite files entry r h
    rw [List.foldl_cons, ih (by rw [hseed]; exact h), hseed]

theorem seeded_foldl {canWrite : Resource → Bool} {entries : List (Σ r : Resource, r.Value)} {files : Files}
    (h : ∀ entry ∈ entries, (files entry.1).isThere = true ∨ canWrite entry.1 = true) :
    ∀ entry ∈ entries, (entries.foldl (seed canWrite) files entry.1).isThere = true := by
  induction entries generalizing files with
  | nil => exact fun entry hentry => by cases hentry
  | cons first entries ih =>
    obtain ⟨hfirst, hentries⟩ := List.forall_mem_cons.1 h
    have hthere : (seed canWrite files first first.1).isThere = true := by
      unfold seed
      split
      · assumption
      · rename_i hmissing
        rw [if_pos (hfirst.resolve_left hmissing), Function.update_self]
        rfl
    rw [List.foldl_cons]
    refine List.forall_mem_cons.2 ⟨?_, ih fun entry hentry => ?_⟩
    · rw [foldl_seed_apply_of_there entries hthere]
      exact hthere
    · refine (hentries entry hentry).imp_left fun hfile => ?_
      rw [seed_apply_of_there hfile]
      exact hfile

theorem seedFirstRunExamples_of_seeded {files : Files} (h : Seeded files) (canWrite : Resource → Bool) :
    seedFirstRunExamples canWrite files = files := by
  have hnone : ∀ entries : List (Σ r : Resource, r.Value), (∀ entry ∈ entries, (files entry.1).isThere = true) →
      entries.foldl (seed canWrite) files = files := by
    intro entries
    induction entries with
    | nil => exact fun _ => rfl
    | cons entry entries ih =>
      intro hthere
      obtain ⟨hentry, hentries⟩ := List.forall_mem_cons.1 hthere
      rw [List.foldl_cons, seed_of_there hentry]
      exact ih hentries
  exact hnone seeded h

theorem seeded_seedFirstRunExamples {canWrite : Resource → Bool} {files : Files}
    (h : ∀ entry ∈ seeded, (files entry.1).isThere = true ∨ canWrite entry.1 = true) :
    Seeded (seedFirstRunExamples canWrite files) := seeded_foldl h

theorem there_save {files : Files} {write : Write} {r : Resource} (h : (files r).isThere = true) :
    (saveFile files write r).isThere = true := by
  cases write with
  | fixture _ _ => exact h
  | resource r' value =>
    dsimp only [saveFile]
    by_cases hr : r = r'
    · subst hr
      rw [Function.update_self]
      rfl
    · rw [Function.update_of_ne hr]
      exact h

theorem seeded_saves {files : Files} (h : Seeded files) (writes : List Write) :
    Seeded (writes.foldl saveFile files) := by
  induction writes generalizing files with
  | nil => exact h
  | cons write writes ih => exact ih fun entry hentry => there_save (h entry hentry)

/-! ### Loading -/

theorem load_congr {configured : Option Str} {files files' : Files} {r : Resource} (h : files r = files' r) :
    load configured files r = load configured files' r := by
  unfold load
  rw [h]

theorem load_update_of_ne {configured : Option Str} {files : Files} {r r' : Resource} (h : r' ≠ r)
    (file : Stored r.Value) : load configured (Function.update files r file) r' = load configured files r' :=
  load_congr (Function.update_of_ne h _ _)

/-- Every webhook has events, each of them once, and all of them are dispatched. -/
def Sane (hooks : List WebhookConfig) : Prop :=
  ∀ hook ∈ hooks, hook.events ≠ [] ∧ sanitizeWebhookEvents hook.events = hook.events

theorem loadWebhooks_of_sane {hooks : List WebhookConfig} (h : Sane hooks) : loadWebhooks hooks = hooks := by
  unfold loadWebhooks
  have hmap : (hooks.map fun hook => { hook with events := sanitizeWebhookEvents hook.events }) = hooks := by
    refine (List.map_congr_left fun hook hhook => ?_).trans (List.map_id hooks)
    rw [(h hook hhook).2]
    rfl
  rw [hmap, List.filter_eq_self]
  intro hook hhook
  rw [Bool.not_eq_true', Bool.eq_false_iff]
  exact fun hempty => (h hook hhook).1 (List.isEmpty_iff.1 hempty)

def SaneValue : (r : Resource) → r.Value → Prop
  | .collection .webhooks, hooks => Sane hooks
  | _, _ => True

/-- What is loaded from a saved file is what was saved. -/
theorem load_saved {configured : Option Str} {files : Files} {r : Resource} {value : r.Value}
    (hr : r ≠ .upstreamProxy) (hsane : SaneValue r value) :
    Same r (load configured (Function.update files r (.holds (throughFile r value))) r) value := by
  unfold load
  rw [Function.update_self]
  have hthrough := same_throughFile r value
  rcases r with ⟨⟨⟩⟩ | _ | _ | _
  case upstreamProxy => exact absurd rfl hr
  case collection.webhooks => exact loadWebhooks_of_sane hsane
  all_goals exact hthrough

end Restarts

end Oproxy
