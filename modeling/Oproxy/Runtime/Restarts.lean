import Oproxy.Lib.Run
import Oproxy.Runtime.SaneWebhooks

/-!
# Restarts (`runtime/state.rs`, `storage.rs`, `examples.rs`)

What a restart brings back.
-/

namespace Oproxy

open Persisted Mutations Assistant Machine Examples

namespace Restarts

/-! ### What a call leaves behind -/

/-- What a call makes of the program: nothing, a change which is saved, or one which is not. -/
inductive Ran {E : Type} (s : Installation) (saveError : Option Str) (call : Call E) : Installation → Prop
  | unchanged (h : CallSaved saveError s.memory call) : Ran s saveError call s
  | saved (r : Resource) (m : Mutation E r.Value) (value : r.Value) (hcall : call = .mutates r m)
    (hedit : m.edit (s.memory r) = .ok value) (hsaved : saveError = none) :
    Ran s saveError call
      { s with
        memory := Function.update s.memory r value
        files := Function.update s.files r (.holds (throughFile r value)) }
  | unsaved (r : Resource) (m : Mutation E r.Value) (value : r.Value) (hcall : call = .mutates r m)
    (hedit : m.edit (s.memory r) = .ok value) (hfailed : saveError ≠ none) (hr : r ≠ .upstreamProxy) :
    Ran s saveError call { s with memory := Function.update s.memory r value }

theorem foldl_saveFixtures (fixtures : List (Str × Bytes)) (files : Files) :
    (fixtures.map fun f => Write.fixture f.1 f.2).foldl saveFile files = files := by
  induction fixtures with
  | nil => rfl
  | cons f fixtures ih => exact ih

section

variable {E : Type} {s s' : Installation} {saveError : Option Str} {call : Call E}

theorem ran (hordered : call.Ordered) (storageError : Str → E) (s : Installation) (saveError : Option Str) :
    Ran s saveError call (s.after (call.run storageError saveError s.memory)) := by
  cases call with
  | refused e => exact .unchanged trivial
  | other => exact .unchanged trivial
  | mutates r m =>
    have horder := hordered r m rfl
    unfold Installation.after Call.run
    dsimp only
    cases hedit : m.edit (s.memory r) with
    | error e =>
      dsimp only
      rw [foldl_saveFixtures]
      exact .unchanged (Or.inr (Or.inr fun value hvalue => by rw [hedit] at hvalue; cases hvalue))
    | ok value =>
      cases saveError with
      | none =>
        dsimp only
        rw [List.foldl_append, foldl_saveFixtures]
        exact .saved r m value rfl hedit rfl
      | some e =>
        cases hm : m.order with
        | editFirst =>
          dsimp only
          rw [foldl_saveFixtures]
          exact .unsaved r m value rfl hedit nofun fun hr => Order.noConfusion (hm.symm.trans (horder.2 hr))
        | saveFirst =>
          dsimp only
          rw [foldl_saveFixtures]
          exact .unchanged (Or.inr (Or.inl (horder.1 hm)))

/-- What every state of the program meets which was started where its examples are or can be written. -/
structure WellFormed (s : Installation) : Prop where
  seeded : Seeded s.files
  sane : ∀ r, SaneValue r (s.memory r)

theorem sane_update {memory : Memory} (h : ∀ r, SaneValue r (memory r)) {r : Resource} {value : r.Value}
    (hvalue : SaneValue r value) (r' : Resource) : SaneValue r' (Function.update memory r value r') := by
  by_cases hr : r' = r
  · subst hr
    rw [Function.update_self]
    exact hvalue
  · rw [Function.update_of_ne hr]
    exact h r'

theorem wellFormed_ran (h : WellFormed s) (hsane : KeepsSane call) (hran : Ran s saveError call s') :
    WellFormed s' := by
  cases hran with
  | unchanged _ => exact h
  | saved r m value hcall hedit _ =>
    subst hcall
    refine ⟨seeded_saves h.seeded [.resource r value], sane_update h.sane ?_⟩
    exact hsane _ _ (h.sane r) hedit
  | unsaved r m value hcall hedit _ _ =>
    subst hcall
    exact ⟨h.seeded, sane_update h.sane (hsane _ _ (h.sane r) hedit)⟩

variable {config : Configuration}

theorem restart_of_seeded (h : Seeded s.files) (canWrite : Resource → Bool) :
    step config s (.restart canWrite) =
      ⟨load config.upstreamProxy s.files, s.files, loadMaxBodyBytes config s.hotConfig, s.hotConfig⟩ := by
  show start config canWrite s.files s.hotConfig = _
  unfold start
  rw [seedFirstRunExamples_of_seeded h]

theorem survives_iff (h : Seeded s.files) : Survives config s ↔
    (∀ r, r ≠ .upstreamProxy → Same r (load config.upstreamProxy s.files r) (s.memory r)) ∧
      load config.upstreamProxy s.files .upstreamProxy = Option.or (s.memory .upstreamProxy) config.upstreamProxy ∧
        loadMaxBodyBytes config s.hotConfig = s.maxBodyBytes := by
  constructor
  · rintro ⟨hkept, hproxy, hlimit⟩
    refine ⟨fun r hr => ?_, ?_, ?_⟩
    · have hr' := hkept (fun _ => true) r hr
      rwa [restart_of_seeded h] at hr'
    · have hproxy' := hproxy fun _ => true
      rwa [restart_of_seeded h] at hproxy'
    · have hlimit' := hlimit fun _ => true
      rwa [restart_of_seeded h] at hlimit'
  · rintro ⟨hkept, hproxy, hlimit⟩
    constructor
    · intro canWrite r hr
      rw [restart_of_seeded h]
      exact hkept r hr
    · intro canWrite
      rw [restart_of_seeded h]
      exact hproxy
    · intro canWrite
      rw [restart_of_seeded h]
      exact hlimit

/-- What is saved comes back. -/
theorem survives_saved {r : Resource} {value : r.Value} (h : WellFormed s) (hvalue : SaneValue r value)
    (hs : Survives config s) :
    Survives config
      { s with
        memory := Function.update s.memory r value
        files := Function.update s.files r (.holds (throughFile r value)) } := by
  obtain ⟨hkept, hproxy, hlimit⟩ := (survives_iff h.seeded).1 hs
  have hseeded : Seeded (Function.update s.files r (.holds (throughFile r value))) :=
    seeded_saves h.seeded [.resource r value]
  refine (survives_iff hseeded).2 ⟨fun r' hr' => ?_, ?_, hlimit⟩
  · by_cases hr : r' = r
    · subst hr
      dsimp only
      rw [Function.update_self]
      exact load_saved hr' hvalue
    · dsimp only
      rw [load_update_of_ne hr, Function.update_of_ne hr]
      exact hkept r' hr'
  · by_cases hr : Resource.upstreamProxy = r
    · subst hr
      dsimp only [load]
      rw [Function.update_self, Function.update_self]
      rfl
    · dsimp only
      rw [load_update_of_ne hr, Function.update_of_ne hr]
      exact hproxy

/-- What is not saved comes back just where it is what was there before. -/
theorem survives_unsaved_iff {r : Resource} {value : r.Value} (h : WellFormed s) (hs : Survives config s)
    (hr : r ≠ .upstreamProxy) :
    Survives config { s with memory := Function.update s.memory r value } ↔ Same r value (s.memory r) := by
  obtain ⟨hkept, hproxy, hlimit⟩ := (survives_iff h.seeded).1 hs
  have hseeded : Seeded ({ s with memory := Function.update s.memory r value } : Installation).files := h.seeded
  rw [survives_iff hseeded]
  dsimp only
  rw [Function.update_of_ne hr.symm]
  constructor
  · rintro ⟨hkept', -⟩
    have hloaded := hkept' r hr
    rw [Function.update_self] at hloaded
    exact hloaded.symm.trans (hkept r hr)
  · intro hsame
    refine ⟨fun r' hr' => ?_, hproxy, hlimit⟩
    by_cases heq : r' = r
    · subst heq
      rw [Function.update_self]
      exact (hkept r' hr').trans hsame.symm
    · rw [Function.update_of_ne heq]
      exact hkept r' hr'

/-- A reload leaves the resources alone, and its limit comes back just where it is saved. -/
theorem survives_reloadConfig_iff (h : WellFormed s) (hs : Survives config s) (body : Json) :
    Survives config (s.reloadConfig config saveError body) ↔ ReloadSaved config s body := by
  obtain ⟨hkept, hproxy, hlimit⟩ := (survives_iff h.seeded).1 hs
  unfold Installation.reloadConfig ReloadSaved
  cases hbody : hotReloadBody body with
  | none => exact iff_of_true hs fun hnone => by cases hnone
  | some posted =>
    cases posted with
    | none =>
      have hseeded : Seeded ({ s with maxBodyBytes := config.maxBodyBytes } : Installation).files := h.seeded
      dsimp only
      rw [survives_iff hseeded]
      constructor
      · exact fun hloaded _ => hloaded.2.2.symm.trans hlimit
      · exact fun hsame => ⟨hkept, hproxy, hlimit.trans (hsame rfl).symm⟩
    | some maxBodyBytes =>
      refine iff_of_true ?_ fun hnone => by cases hnone
      dsimp only
      split
      · exact hs
      · have hseeded : Seeded ({ s with
            maxBodyBytes := maxBodyBytes
            hotConfig := .holds ⟨some maxBodyBytes⟩ } : Installation).files := h.seeded
        exact (survives_iff hseeded).2 ⟨hkept, hproxy, rfl⟩

theorem survives_ran_iff (h : WellFormed s) (hsane : KeepsSane call) (hs : Survives config s)
    (hran : Ran s saveError call s') : Survives config s' ↔ CallSaved saveError s.memory call := by
  cases hran with
  | unchanged hsaved => exact iff_of_true hs hsaved
  | saved r m value hcall hedit hsaved =>
    subst hcall
    exact iff_of_true (survives_saved h (hsane _ _ (h.sane r) hedit) hs) (Or.inl hsaved)
  | unsaved r m value hcall hedit hfailed hr =>
    subst hcall
    rw [survives_unsaved_iff h hs hr]
    constructor
    · intro hsame
      refine Or.inr (Or.inr fun value' hvalue' => ?_)
      rw [hedit] at hvalue'
      cases hvalue'
      exact hsame
    · rintro (hsaved | hproxy | hsame)
      · exact absurd hsaved hfailed
      · exact absurd hproxy hr
      · exact hsame value hedit

end

theorem wellFormed_reloadConfig (h : WellFormed s) (config : Configuration) (saveError : Option Str) (body : Json) :
    WellFormed (s.reloadConfig config saveError body) := by
  unfold Installation.reloadConfig
  split
  · exact h
  · split
    · exact h
    · exact ⟨h.seeded, h.sane⟩
  · exact ⟨h.seeded, h.sane⟩

/-! ### Runs -/

variable {config : Configuration} {s : Installation}

theorem saneValue_load (configured : Option Str) (files : Files) (r : Resource) :
    SaneValue r (load configured files r) := by
  by_cases hr : r = .collection .webhooks
  · subst hr
    exact sane_loadWebhooks _
  · exact saneValue_of_ne hr _

theorem wellFormed_start {canWrite : Resource → Bool} {files : Files} (hotConfig : Stored HotConfig)
    (h : ∀ entry ∈ seeded, (files entry.1).isThere = true ∨ canWrite entry.1 = true) :
    WellFormed (start config canWrite files hotConfig) :=
  ⟨seeded_seedFirstRunExamples h, saneValue_load config.upstreamProxy _⟩

theorem or_or_self {α : Type} (a b : Option α) : a.or b = (a.or b).or b := by
  cases a <;> cases b <;> rfl

theorem survives_loaded {files : Files} (h : Seeded files) (hotConfig : Stored HotConfig) :
    Survives config ⟨load config.upstreamProxy files, files, loadMaxBodyBytes config hotConfig, hotConfig⟩ := by
  have hseeded : Seeded (Installation.mk (load config.upstreamProxy files) files (loadMaxBodyBytes config hotConfig)
      hotConfig).files := h
  exact (survives_iff hseeded).2 ⟨fun r _ => .refl r _, or_or_self _ _, rfl⟩

theorem wellFormed_step (h : WellFormed s) (e : Event) : WellFormed (step config s e) := by
  cases e with
  | request env method path body =>
    unfold step
    dsimp only
    split
    · exact wellFormed_reloadConfig h config _ body
    · exact wellFormed_ran h (keepsSane_call env method path body)
        (ran (Http.ordered_call env method path body) Http.storageErrorResponse s env.disk.saveError)
  | action env preconditions confirmed =>
    exact wellFormed_ran h (keepsSane_executeActionPayload env preconditions confirmed)
      (ran (ordered_executeActionPayload env preconditions confirmed) id s env.disk.saveError)
  | served id => exact ⟨h.seeded, sane_update h.sane trivial⟩
  | restart canWrite =>
    rw [restart_of_seeded h.seeded]
    exact ⟨h.seeded, saneValue_load config.upstreamProxy _⟩

theorem survives_step_iff (h : WellFormed s) (hs : Survives config s) (e : Event) :
    Survives config (step config s e) ↔ e.Saved config s := by
  cases e with
  | request env method path body =>
    unfold step Event.Saved
    dsimp only
    split
    · exact survives_reloadConfig_iff h hs body
    · exact survives_ran_iff h (keepsSane_call env method path body) hs
        (ran (Http.ordered_call env method path body) Http.storageErrorResponse s env.disk.saveError)
  | action env preconditions confirmed =>
    exact survives_ran_iff h (keepsSane_executeActionPayload env preconditions confirmed) hs
      (ran (ordered_executeActionPayload env preconditions confirmed) id s env.disk.saveError)
  | served id =>
    have hsame : Same (.collection .mockRules) (countCall id (s.memory (.collection .mockRules)))
        (s.memory (.collection .mockRules)) := served_countCall id _
    exact iff_of_true ((survives_unsaved_iff h hs Resource.noConfusion).2 hsame) trivial
  | restart canWrite =>
    rw [restart_of_seeded h.seeded]
    exact iff_of_true (survives_loaded h.seeded s.hotConfig) trivial

/-- A restart brings everything back in every state of a run just where whatever is changed is saved. -/
theorem everyState_survives_iff (config : Configuration) {canWrite : Resource → Bool} {files : Files}
    (hotConfig : Stored HotConfig)
    (h : ∀ entry ∈ seeded, (files entry.1).isThere = true ∨ canWrite entry.1 = true) (events : List Event) :
    EveryState (step config) (Survives config) (start config canWrite files hotConfig) events ↔
      EveryStep (step config) (Event.Saved config) (start config canWrite files hotConfig) events := by
  have hsurvives : Survives config (start config canWrite files hotConfig) :=
    survives_loaded (seeded_seedFirstRunExamples h) hotConfig
  have hstep : ∀ s e, WellFormed s → Survives config s →
      (Survives config (step config s e) ↔ Event.Saved config s e) := fun _ e hwell hs => survives_step_iff hwell hs e
  exact everyState_iff_everyStep (fun _ e hwell => wellFormed_step hwell e) hstep (wellFormed_start hotConfig h)
    hsurvives
    events

private def plainConfiguration : Configuration := ⟨none, 10485760⟩

/-- A disk which is full after the first start. -/
private def fullDisk : List Event :=
  [.request (envOf (some "No space left on device")) "POST" "/admin/dns" (.obj [("api.test", .str "10.0.0.5")]),
   .request (envOf none) "POST" "/admin/config/reload" (.obj [("max_body_bytes", .int 1048576)]),
   .restart fun _ => false]

theorem everyState_survives_iff_fullDisk :
    EveryState (step plainConfiguration) (Survives plainConfiguration)
        (start plainConfiguration (fun _ => true) (fun _ => .missing) .missing) fullDisk ↔
      EveryStep (step plainConfiguration) (Event.Saved plainConfiguration)
        (start plainConfiguration (fun _ => true) (fun _ => .missing) .missing) fullDisk :=
  @everyState_survives_iff plainConfiguration (fun _ => true) (fun _ => .missing) .missing (fun _ _ => Or.inr rfl)
    fullDisk

end Restarts

end Oproxy
