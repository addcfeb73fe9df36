import Oproxy.ControlPlane.WorkspaceActions
import Oproxy.Lib.Run

/-!
# Concurrent workspace requests

The requests of all clients wait for the write lock, and the lock goes to any of them.  A request keeps it to its end,
so its whole effect is one step.
-/

namespace Oproxy

open Machine Workspace

namespace WorkspaceState

/-! ### What one request leaves -/

theorem actionOpenSurface_spec {w w' : WorkspaceState} {payload : Json} {message : Str} (hw : w.Canonical)
    (h : w.actionOpenSurface payload = .ok (message, w')) : w'.Canonical ∧ w'.version = w.version := by
  simp only [actionOpenSurface, Normalize.bind_eq_ok] at h
  obtain ⟨_, -, surface, -, h⟩ := h
  obtain ⟨-, rfl⟩ := Prod.mk.inj (Except.ok.inj h)
  exact ⟨⟨hw.sessionsView, hw.featureViews⟩, rfl⟩

theorem actionApplySessionsFilter_spec {serde : SerdeErrors} {w w' : WorkspaceState} {payload : Json} {message : Str}
    (hw : w.Canonical) (h : w.actionApplySessionsFilter serde payload = .ok (message, w')) :
    w'.Canonical ∧ w'.version = w.version := by
  simp only [actionApplySessionsFilter, Normalize.bind_eq_ok] at h
  obtain ⟨_, -, _, -, sessions, hsessions, h⟩ := h
  obtain ⟨-, rfl⟩ := Prod.mk.inj (Except.ok.inj h)
  exact ⟨⟨SessionsViewState.applyPatch_canonical hw.sessionsView hsessions, hw.featureViews⟩, rfl⟩

/-- The filters are those of a new workspace, and the selected session is kept. -/
theorem actionClearSessionsFilter_spec {w w' : WorkspaceState} {payload : Json} {message : Str} (hw : w.Canonical)
    (h : w.actionClearSessionsFilter payload = .ok (message, w')) : w'.Canonical ∧ w'.version = w.version := by
  obtain ⟨-, rfl⟩ := Prod.mk.inj (Except.ok.inj h)
  exact ⟨⟨⟨rfl, rfl, rfl, rfl, hw.sessionsView.selectedSessionId⟩, hw.featureViews⟩, rfl⟩

theorem actionSelectSession_spec {w w' : WorkspaceState} {payload : Json} {message : Str} (hw : w.Canonical)
    (h : w.actionSelectSession payload = .ok (message, w')) : w'.Canonical ∧ w'.version = w.version := by
  simp only [actionSelectSession, Normalize.bind_eq_ok] at h
  obtain ⟨_, -, selected, hselected, h⟩ := h
  obtain ⟨-, rfl⟩ := Prod.mk.inj (Except.ok.inj h)
  obtain ⟨hmethods, hbuckets, hfocus, hfilter, -⟩ := hw.sessionsView
  exact ⟨⟨⟨hmethods, hbuckets, hfocus, hfilter, normalizeOptionalId_idem hselected⟩, hw.featureViews⟩, rfl⟩

theorem actionSetSessionsViewMode_spec {w w' : WorkspaceState} {payload : Json} {message : Str} (hw : w.Canonical)
    (h : w.actionSetSessionsViewMode payload = .ok (message, w')) : w'.Canonical ∧ w'.version = w.version := by
  simp only [actionSetSessionsViewMode, Normalize.bind_eq_ok] at h
  obtain ⟨_, -, mode, -, h⟩ := h
  obtain ⟨-, rfl⟩ := Prod.mk.inj (Except.ok.inj h)
  obtain ⟨hmethods, hbuckets, hfocus, hfilter, hselected⟩ := hw.sessionsView
  exact ⟨⟨⟨hmethods, hbuckets, hfocus, hfilter, hselected⟩, hw.featureViews⟩, rfl⟩

/-- The tab has been checked under another name than the one which the state is checked with. -/
theorem actionOpenRulesTab_spec {w w' : WorkspaceState} {payload : Json} {message : Str} (hw : w.Canonical)
    (h : w.actionOpenRulesTab payload = .ok (message, w')) : w'.Canonical ∧ w'.version = w.version := by
  simp only [actionOpenRulesTab, Normalize.bind_eq_ok] at h
  obtain ⟨_, -, normal, hnormal, tab, htab, h⟩ := h
  obtain ⟨-, rfl⟩ := Prod.mk.inj (Except.ok.inj h)
  obtain rfl : normal = some tab := by
    cases normal with
    | none => cases htab
    | some tab' => exact congrArg some (Except.ok.inj htab)
  refine ⟨⟨hw.sessionsView, canonical_insert hw.featureViews ⟨?_, ?_⟩⟩, rfl⟩
  · exact normalizeOptionalId_field (normalizeOptionalId_idem hnormal)
  · exact (canonical_getD hw.featureViews "rules").selectedId

theorem applyActionToState_spec {serde : SerdeErrors} {w w' : WorkspaceState} {action : WorkspaceActionDefinition}
    {payload : Json} {message : Str} (hw : w.Canonical)
    (h : w.applyActionToState serde action payload = .ok (message, w')) :
    w'.Canonical ∧ w'.version = w.version := by
  unfold applyActionToState at h
  split at h
  · exact actionOpenSurface_spec hw h
  · split at h
    · exact actionApplySessionsFilter_spec hw h
    · split at h
      · exact actionClearSessionsFilter_spec hw h
      · split at h
        · exact actionSelectSession_spec hw h
        · split at h
          · exact actionSetSessionsViewMode_spec hw h
          · split at h
            · exact actionOpenRulesTab_spec hw h
            · cases h

theorem nextVersion_toNat {v : UInt64} (h : v.toNat + 1 < 2 ^ 64) : (nextVersion v).toNat = v.toNat + 1 := by
  rw [nextVersion, if_pos h, UInt64.toNat_add]
  exact Nat.mod_eq_of_lt h

theorem le_nextVersion (v : UInt64) : v.toNat ≤ (nextVersion v).toNat := by
  by_cases h : v.toNat + 1 < 2 ^ 64
  · rw [nextVersion_toNat h]
    omega
  · rw [nextVersion, if_neg h]

end WorkspaceState

theorem patchWorkspace_spec {now : Timestamp} {w w' : WorkspaceState} {req : WorkspacePatchRequest} (hw : w.Canonical)
    (h : patchWorkspace now w req = .ok w') :
    (∀ v ∈ req.baseVersion, v = w.version) ∧ w'.WellFormed ∧ w'.version = WorkspaceState.nextVersion w.version := by
  simp only [patchWorkspace, Normalize.bind_eq_ok] at h
  obtain ⟨⟨⟩, hbase, h⟩ := h
  have hpatch : w.applyPatch now req.patch = .ok w' := by
    cases hpatch : w.applyPatch now req.patch with
    | error e =>
      rw [hpatch] at h
      cases h
    | ok w'' =>
      rw [hpatch] at h
      simpa [Except.mapError] using h
  have hversions : ∀ v ∈ req.baseVersion, v = w.version := by
    intro v hv
    rw [Option.mem_def] at hv
    have hall := Normalize.ensure_eq_ok.1 hbase
    rw [hv] at hall
    exact eq_of_beq hall
  exact ⟨hversions, WorkspaceState.applyPatch_spec hw hpatch⟩

theorem applyWorkspaceAction_spec {serde : SerdeErrors} {idNow now : Timestamp} {w : WorkspaceState}
    {req : WorkspaceActionRequest} {result : WorkspaceActionResult} (hw : w.Canonical)
    (h : applyWorkspaceAction serde idNow now w req = .ok result) :
    result.workspace.WellFormed ∧ result.workspace.version = WorkspaceState.nextVersion w.version := by
  simp only [applyWorkspaceAction, Normalize.bind_eq_ok] at h
  obtain ⟨action, -, ⟨message, next⟩, hnext, ⟨⟩, hvalid, h⟩ := h
  obtain rfl := Except.ok.inj h
  obtain ⟨hcanonical, hversion⟩ := WorkspaceState.applyActionToState_spec hw hnext
  exact ⟨⟨hvalid, ⟨hcanonical.sessionsView, hcanonical.featureViews⟩⟩, congrArg WorkspaceState.nextVersion hversion⟩

/-! ### Runs -/

namespace WorkspaceServer

inductive Call where
  | patch (req : WorkspacePatchRequest)
  | action (req : WorkspaceActionRequest)

inductive Reply where
  | patch (result : Except WorkspaceError WorkspaceState)
  | action (result : Except Str WorkspaceActionResult)

/-- The workspace which a call has put in place; there is none behind an error. -/
def Reply.placed : Reply → Option WorkspaceState
  | .patch (.ok workspace) => some workspace
  | .action (.ok result) => some result.workspace
  | _ => none

structure State where
  workspace : WorkspaceState
  /-- The calls which have not had the lock. -/
  waiting : List Call
  /-- The versions which the successful patches were made for, as far as they named one. -/
  granted : List UInt64

inductive Event where
  | arrive (call : Call)
  /-- The `k`-th of the waiting calls has the lock; it reads the clock at two times. -/
  | enter (k : Nat) (idNow now : Timestamp)

def initial (now : Timestamp) : State := ⟨.default now, [], []⟩

variable (serde : SerdeErrors)

def serve (idNow now : Timestamp) (workspace : WorkspaceState) : Call → Reply
  | .patch req => .patch (patchWorkspace now workspace req)
  | .action req => .action (applyWorkspaceAction serde idNow now workspace req)

/-- The reply which an event brings. -/
def reply? (s : State) : Event → Option Reply
  | .arrive _ => none
  | .enter k idNow now => s.waiting[k]?.map (serve serde idNow now s.workspace)

def grantedBy (call : Call) (reply : Reply) : List UInt64 :=
  match call, reply with
  | .patch req, .patch (.ok _) => req.baseVersion.toList
  | _, _ => []

def step (s : State) : Event → State
  | .arrive call => { s with waiting := s.waiting ++ [call] }
  | .enter k idNow now =>
    match s.waiting[k]? with
    | none => s
    | some call =>
      let reply := serve serde idNow now s.workspace call
      { workspace := reply.placed.getD s.workspace
        waiting := s.waiting.eraseIdx k
        granted := s.granted ++ grantedBy call reply }

def lastVersion : UInt64 := UInt64.ofNat (2 ^ 64 - 1)

/-- What holds in the states of a run; `once` says which versions are granted at most once. -/
structure Consistent (once : UInt64 → Bool) (s : State) : Prop where
  valid : s.workspace.validate = .ok ()
  canonical : s.workspace.Canonical
  granted : (s.granted.filter once).Nodup

/-- An error changes nothing, and a success makes the next version. -/
structure Counted (s : State) (e : Event) : Prop where
  failed : ∀ r ∈ reply? serde s e, r.placed = none → (step serde s e).workspace = s.workspace
  succeeded : ∀ r ∈ reply? serde s e, r.placed ≠ none → s.workspace.version ≠ lastVersion →
    (step serde s e).workspace.version.toNat = s.workspace.version.toNat + 1

variable {serde}

/-- What a call puts in place is well formed, and has the next version. -/
theorem serve_spec {idNow now : Timestamp} {w w' : WorkspaceState} {call : Call} (hw : w.Canonical)
    (h : (serve serde idNow now w call).placed = some w') :
    w'.WellFormed ∧ w'.version = WorkspaceState.nextVersion w.version := by
  cases call with
  | patch req =>
    cases hr : patchWorkspace now w req with
    | error e => simp [serve, hr, Reply.placed] at h
    | ok next =>
      obtain rfl : next = w' := by simpa [serve, hr, Reply.placed] using h
      exact (patchWorkspace_spec hw hr).2
  | action req =>
    cases hr : applyWorkspaceAction serde idNow now w req with
    | error e => simp [serve, hr, Reply.placed] at h
    | ok result =>
      obtain rfl : result.workspace = w' := by simpa [serve, hr, Reply.placed] using h
      exact applyWorkspaceAction_spec hw hr

/-- Only a successful patch is granted its version, which then is the one it has found. -/
theorem grantedBy_spec {idNow now : Timestamp} {w : WorkspaceState} {call : Call} (hw : w.Canonical) {v : UInt64}
    (h : v ∈ grantedBy call (serve serde idNow now w call)) :
    v = w.version ∧ (serve serde idNow now w call).placed ≠ none := by
  cases call with
  | patch req =>
    cases hr : patchWorkspace now w req with
    | error e => simp [serve, hr, grantedBy] at h
    | ok next =>
      have hv : req.baseVersion = some v := by simpa [serve, hr, grantedBy] using h
      exact ⟨(patchWorkspace_spec hw hr).1 v hv, by simp [serve, hr, Reply.placed]⟩
  | action req => simp [grantedBy] at h

theorem nodup_grantedBy (call : Call) (reply : Reply) : (grantedBy call reply).Nodup := by
  unfold grantedBy
  split
  · rename_i req _
    cases req.baseVersion <;> simp
  · exact List.nodup_nil

/-- The invariant: the versions below the last one which are granted are behind the workspace. -/
structure Inv (s : State) : Prop where
  wellFormed : s.workspace.WellFormed
  behind : ∀ v ∈ s.granted, v ≠ lastVersion → v.toNat < s.workspace.version.toNat
  granted : (s.granted.filter (· ≠ lastVersion)).Nodup

private theorem toNat_lt_of_ne_last {v : UInt64} (h : v ≠ lastVersion) : v.toNat + 1 < 2 ^ 64 := by
  have hlt := v.toNat_lt
  have hne : v.toNat ≠ 2 ^ 64 - 1 := by
    intro heq
    exact h (UInt64.toNat_inj.1 (heq.trans rfl))
  omega

/-- Behind one call. -/
theorem inv_enter {s : State} (hs : Inv s) (idNow now : Timestamp) (call : Call) (waiting : List Call) :
    Inv { workspace := (serve serde idNow now s.workspace call).placed.getD s.workspace
          waiting := waiting
          granted := s.granted ++ grantedBy call (serve serde idNow now s.workspace call) } := by
  obtain ⟨hformed, hbehind, hnodup⟩ := hs
  cases hplaced : (serve serde idNow now s.workspace call).placed with
  | none =>
    have hnone : grantedBy call (serve serde idNow now s.workspace call) = [] :=
      List.eq_nil_iff_forall_not_mem.2 fun v hv => (grantedBy_spec hformed.canonical hv).2 hplaced
    rw [hnone, List.append_nil]
    exact ⟨hformed, hbehind, hnodup⟩
  | some w' =>
    obtain ⟨hformed', hversion⟩ := serve_spec hformed.canonical hplaced
    have hle : s.workspace.version.toNat ≤ w'.version.toNat := by
      rw [hversion]
      exact WorkspaceState.le_nextVersion _
    refine ⟨hformed', fun v hv hne => ?_, ?_⟩
    · rcases List.mem_append.1 hv with hv | hv
      · exact Nat.lt_of_lt_of_le (hbehind v hv hne) hle
      · obtain ⟨rfl, -⟩ := grantedBy_spec hformed.canonical hv
        show _ < w'.version.toNat
        rw [hversion, WorkspaceState.nextVersion_toNat (toNat_lt_of_ne_last hne)]
        omega
    · rw [List.filter_append]
      refine List.nodup_append.2 ⟨hnodup, (nodup_grantedBy _ _).filter _, ?_⟩
      -- what is granted now is the version of the workspace, and the others are behind it
      rintro a ha b hb rfl
      obtain ⟨ha, hne⟩ := List.mem_filter.1 ha
      obtain ⟨rfl, -⟩ := grantedBy_spec hformed.canonical (List.mem_filter.1 hb).1
      exact Nat.lt_irrefl _ (hbehind _ ha (by simpa using hne))

theorem inv_step (s : State) (e : Event) (hs : Inv s) : Inv (step serde s e) := by
  cases e with
  | arrive call => exact ⟨hs.wellFormed, hs.behind, hs.granted⟩
  | enter k idNow now =>
    unfold step
    dsimp only
    split
    · exact hs
    · exact inv_enter hs ..

theorem inv_initial (now : Timestamp) : Inv (initial now) :=
  ⟨WorkspaceState.wellFormed_default now, fun _ hv => (List.not_mem_nil hv).elim, List.nodup_nil⟩

theorem counted_of_inv (s : State) (e : Event) (hs : Inv s) : Counted serde s e := by
  cases e with
  | arrive call => exact ⟨fun _ hr => by simp [reply?] at hr, fun _ hr => by simp [reply?] at hr⟩
  | enter k idNow now =>
    cases hk : s.waiting[k]? with
    | none => exact ⟨fun _ hr => by simp [reply?, hk] at hr, fun _ hr => by simp [reply?, hk] at hr⟩
    | some call =>
      constructor
      · intro r hr hplaced
        obtain rfl : serve serde idNow now s.workspace call = r := by simpa [reply?, hk] using hr
        simp only [step, hk, hplaced, Option.getD_none]
      · intro r hr hplaced hne
        obtain rfl : serve serde idNow now s.workspace call = r := by simpa [reply?, hk] using hr
        obtain ⟨w', hw'⟩ := Option.ne_none_iff_exists'.1 hplaced
        simp only [step, hk, hw', Option.getD_some]
        rw [(serve_spec hs.wellFormed.canonical hw').2, WorkspaceState.nextVersion_toNat (toNat_lt_of_ne_last hne)]

/-- In every interleaving of requests the workspace is valid and in normal form, an error changes nothing, every success
makes the next version as long as there is one, and no version below the last one is granted to two patches. -/
theorem consistent_run (serde : SerdeErrors) (now : Timestamp) (es : List Event) :
    EveryState (step serde) (Consistent (· ≠ lastVersion)) (initial now) es ∧
      EveryStep (step serde) (Counted serde) (initial now) es := by
  have hinv : EveryState (step serde) Inv (initial now) es := everyState_of_step inv_step (inv_initial now) es
  constructor
  · exact hinv.imp fun s hs => ⟨hs.wellFormed.valid, hs.wellFormed.canonical, hs.granted⟩
  · exact hinv.everyStep counted_of_inv

/-! ### The last version -/

def noErrors : SerdeErrors := ⟨fun _ => [], fun _ => []⟩

/-- A patch which changes nothing arrives and has the lock. -/
def emptyPatch (base : Option UInt64) : List Event := [.arrive (.patch ⟨base, {}⟩), .enter 0 0 0]

/-- A run of patches which uses the versions up. -/
def patches : Nat → List Event
  | 0 => []
  | n + 1 => patches n ++ emptyPatch none

/-- A run with a patch for each version, and one more for the last one. -/
def exhausting : List Event :=
  patches (2 ^ 64 - 2) ++ (emptyPatch (some lastVersion) ++ emptyPatch (some lastVersion))

private theorem run_emptyPatch {w : WorkspaceState} (hw : w.validate = .ok ()) {base : Option UInt64}
    (hbase : ∀ v ∈ base, v = w.version) (granted : List UInt64) :
    run (step noErrors) ⟨w, [], granted⟩ (emptyPatch base) =
      ⟨{ w with version := WorkspaceState.nextVersion w.version, updatedAt := 0 }, [], granted ++ base.toList⟩ := by
  have happly : w.applyPatch 0 {} = .ok { w with version := WorkspaceState.nextVersion w.version, updatedAt := 0 } := by
    simp [WorkspaceState.applyPatch, Normalize.patched, hw, bind, Except.bind, pure, Except.pure]
  have hmatches : base.all (· == w.version) = true := (Option.all_eq_true _ _).2 fun v hv => beq_iff_eq.2 (hbase v hv)
  have hserve : serve noErrors 0 0 w (.patch ⟨base, {}⟩) =
      .patch (.ok { w with version := WorkspaceState.nextVersion w.version, updatedAt := 0 }) := by
    simp only [serve, patchWorkspace, Normalize.ensure, if_pos hmatches, happly, bind, Except.bind, Except.mapError]
  simp [emptyPatch, step, hserve, Reply.placed, grantedBy]

private theorem run_patches {n : Nat} (h : n + 1 < 2 ^ 64) :
    ∃ w, run (step noErrors) (initial 0) (patches n) = ⟨w, [], []⟩ ∧ w.validate = .ok () ∧ w.version.toNat = n + 1 := by
  induction n with
  | zero => exact ⟨.default 0, rfl, rfl, rfl⟩
  | succ n ih =>
    obtain ⟨w, hrun, hvalid, hversion⟩ := ih (by omega)
    refine ⟨{ w with version := WorkspaceState.nextVersion w.version, updatedAt := 0 }, ?_, hvalid, ?_⟩
    · rw [patches, run_append, hrun, run_emptyPatch hvalid (by simp)]
      rfl
    · show (WorkspaceState.nextVersion w.version).toNat = _
      rw [WorkspaceState.nextVersion_toNat (by omega), hversion]

/-- When there is no next version, the last one is granted again and again. -/
theorem not_consistent_run :
    ¬ EveryState (step noErrors) (Consistent fun _ => true) (initial 0) exhausting := by
  intro h
  obtain ⟨w, hrun, hvalid, hversion⟩ := run_patches (n := 2 ^ 64 - 2) (by omega)
  have hlast : w.version = lastVersion := UInt64.toNat_inj.1 (hversion.trans rfl)
  have hstays : WorkspaceState.nextVersion w.version = w.version := by
    rw [WorkspaceState.nextVersion, if_neg (by omega)]
  have hvalid' : ({ w with version := w.version, updatedAt := 0 } : WorkspaceState).validate = .ok () := hvalid
  have hend : (run (step noErrors) (initial 0) exhausting).granted = [lastVersion, lastVersion] := by
    rw [exhausting, run_append, run_append, hrun, run_emptyPatch hvalid (by simp [hlast]), hstays,
      run_emptyPatch hvalid' (by simp [hlast])]
    rfl
  have := h.last.granted
  rw [hend] at this
  simp at this

end WorkspaceServer

end Oproxy
