import Oproxy.Lib.IndexMap
import Oproxy.Lib.Normalize
import Oproxy.Lib.Text
import Oproxy.Session.Event

/-!
# Workspace state (`control_plane/workspace.rs`)

What the admin UI shows: the active surface, the view of the sessions, and the views of the other features.  A patch is
checked and normalised field by field.  A map of feature views keeps its keys in their order, so the entries of a patch
come in that order; for the state it decides only which of several faults would be named first.
-/

namespace Oproxy

def MAX_QUERY_LEN : Nat := 4096

def MAX_HOST_FOCUS : Nat := 32

def MAX_HOST_LEN : Nat := 255

def MAX_ID_LEN : Nat := 256

def MAX_FEATURE_VIEW_KEY_LEN : Nat := 64

def MAX_FEATURE_VIEW_COUNT : Nat := 32

def ALLOWED_METHODS : List Str := ["GET", "POST", "PUT", "PATCH", "DELETE", "CONNECT", "OPTIONS", "HEAD"]

def ALLOWED_STATUS_BUCKETS : List Str := ["1", "2", "3", "4", "5", "-"]

def ALLOWED_SORT_KEYS : List Str :=
  ["idx", "method", "status", "host", "path", "type", "reqSize", "total", "ts", "protocol"]

/-! ### Normal forms -/

namespace Workspace

private def quotedAllowed (what : Str) (entry : Str) (allowed : List Str) : Str :=
  ("unsupported sessions_view." : Str) ++ what ++ " '" ++ entry ++ "'; allowed: " ++
    List.intercalate (", " : Str) allowed

/-- One of the allowed texts, read with `form`. -/
def normalizeAllowed (what : Str) (allowed : List Str) (form : Str → Str) (entry : Str) : Except Str (Option Str) :=
  let entry := form entry
  if entry ∈ allowed then .ok (some entry) else .error (quotedAllowed what entry allowed)

def normalizeMethods (methods : List Str) : Except Str (List Str) :=
  Normalize.all (normalizeAllowed "methods entry" ALLOWED_METHODS fun method => method.trim.toAsciiUppercase) methods

def normalizeStatusBuckets (buckets : List Str) : Except Str (List Str) :=
  Normalize.all (normalizeAllowed "status_buckets entry" ALLOWED_STATUS_BUCKETS Str.trim) buckets

def normalizeHost (host : Str) : Except Str (Option Str) :=
  let host := (Str.trimEndMatches '.' host.trim).toAsciiLowercase
  if host.isEmpty then .ok none
  else if host.utf8Len > MAX_HOST_LEN then
    .error (("host values may be at most " : Str) ++ Str.ofNat MAX_HOST_LEN ++ " bytes")
  else if '/' ∈ host ∨ '\\' ∈ host ∨ host.any Str.isWhitespace then
    .error "host values must be hostnames, not URLs or whitespace-separated text"
  else .ok (some host)

def normalizeOptionalHost : Option Str → Except Str (Option Str) := Normalize.opt normalizeHost

def normalizeHostList (hosts : List Str) : Except Str (List Str) :=
  if hosts.length > MAX_HOST_FOCUS then
    .error (("sessions_view.host_focus may include at most " : Str) ++ Str.ofNat MAX_HOST_FOCUS ++ " hosts")
  else Normalize.all normalizeHost hosts

private def normalizeId (field : Str) (id : Str) : Except Str (Option Str) :=
  let id := id.trim
  if id.isEmpty then .ok none
  else if id.utf8Len > MAX_ID_LEN then .error (field ++ " may be at most " ++ Str.ofNat MAX_ID_LEN ++ " bytes")
  else .ok (some id)

def normalizeOptionalId (id : Option Str) (field : Str) : Except Str (Option Str) :=
  Normalize.opt (normalizeId field) id

def validateFeatureViewKey (key : Str) : Except Str Unit :=
  if key.isEmpty ∨ key.utf8Len > MAX_FEATURE_VIEW_KEY_LEN then
    .error (("feature view keys must be 1-" : Str) ++ Str.ofNat MAX_FEATURE_VIEW_KEY_LEN ++ " bytes")
  else if ¬ key.all (fun ch => ch.isLower || ch.isDigit || ch == '_' || ch == '-') then
    .error "feature view keys may contain only lowercase letters, digits, '_' or '-'"
  else .ok ()

theorem normalizeAllowed_idem {what : Str} {allowed : List Str} {form : Str → Str} (h : ∀ a ∈ allowed, form a = a) :
    Normalize.Idempotent (normalizeAllowed what allowed form) := by
  intro x y hxy
  unfold normalizeAllowed at hxy
  simp only at hxy
  split at hxy
  · rename_i hmem
    obtain rfl : form x = y := by simpa using hxy
    simp only [normalizeAllowed, h _ hmem, if_pos hmem]
  · cases hxy

theorem normalizeMethods_idem {xs ys : List Str} (h : normalizeMethods xs = .ok ys) : normalizeMethods ys = .ok ys :=
  Normalize.all_idem (normalizeAllowed_idem (by decide)) h

theorem normalizeStatusBuckets_idem {xs ys : List Str} (h : normalizeStatusBuckets xs = .ok ys) :
    normalizeStatusBuckets ys = .ok ys :=
  Normalize.all_idem (normalizeAllowed_idem (by decide)) h

private theorem toLower_eq_dot {c : Char} (h : c.toLower = '.') : c = '.' := by
  unfold Char.toLower at h
  split at h
  · rename_i hc
    have hv := congrArg (fun c : Char => c.val.toNat) h
    have hA : ('A' : Char).val.toNat = 65 := rfl
    have hZ : ('Z' : Char).val.toNat = 90 := rfl
    have hd : (('a' : Char).val - ('A' : Char).val).toNat = 32 := rfl
    have hdot : ('.' : Char).val.toNat = 46 := rfl
    simp only [ge_iff_le, UInt32.le_iff_toNat_le, UInt32.toNat_add, hA, hZ, hd, hdot] at hc hv
    omega
  · exact h

/-- A text without white space that does not end in a dot is read as it stands, in lower case. -/
private theorem hostForm_idem {s : Str}
    (hspace : ¬ (Str.toAsciiLowercase (s.trimEndMatches '.')).any Str.isWhitespace) :
    (Str.trimEndMatches '.' (Str.toAsciiLowercase (s.trimEndMatches '.')).trim).toAsciiLowercase =
      Str.toAsciiLowercase (s.trimEndMatches '.') := by
  have hnot : ∀ c ∈ Str.toAsciiLowercase (s.trimEndMatches '.'), Str.isWhitespace c = false := by simpa using hspace
  rw [Str.trim_eq_self (fun c hc => hnot c (List.mem_of_mem_head? hc))
    (fun c hc => hnot c (List.mem_of_mem_getLast? hc)), Str.trimEndMatches_of_last, Str.toAsciiLowercase_idem]
  intro hlast
  rw [Str.toAsciiLowercase, List.getLast?_map] at hlast
  obtain ⟨c, hc, hdot⟩ := Option.map_eq_some_iff.1 hlast
  obtain rfl := toLower_eq_dot hdot
  have hne : s.trimEndMatches '.' ≠ [] := by rintro h; simp [h] at hc
  have := List.rdropWhile_last_not (· == '.') s hne
  rw [List.getLast?_eq_getLast_of_ne_nil hne] at hc
  exact this (by simpa [Str.trimEndMatches] using Option.some.inj hc)

theorem normalizeHost_idem : Normalize.Idempotent normalizeHost := by
  intro x y hxy
  unfold normalizeHost at hxy
  simp only at hxy
  split at hxy
  · cases hxy
  · rename_i hne
    split at hxy
    · cases hxy
    · rename_i hlen
      split at hxy
      · cases hxy
      · rename_i hbad
        obtain rfl : (Str.trimEndMatches '.' x.trim).toAsciiLowercase = y := by simpa using hxy
        have hform := hostForm_idem (s := x.trim) (fun h => hbad (Or.inr (Or.inr h)))
        simp only [normalizeHost, hform, if_neg hne, if_neg hlen, if_neg hbad]

theorem normalizeOptionalHost_idem {x y : Option Str} (h : normalizeOptionalHost x = .ok y) :
    normalizeOptionalHost y = .ok y :=
  Normalize.opt_idem normalizeHost_idem h

theorem normalizeHostList_idem {xs ys : List Str} (h : normalizeHostList xs = .ok ys) :
    normalizeHostList ys = .ok ys := by
  unfold normalizeHostList at h
  split at h
  · cases h
  · rename_i hlen
    have hle := Normalize.length_of_all h
    rw [normalizeHostList, if_neg (by omega)]
    exact Normalize.all_idem normalizeHost_idem h

private theorem normalizeId_idem (field : Str) : Normalize.Idempotent (normalizeId field) := by
  intro x y hxy
  unfold normalizeId at hxy
  simp only at hxy
  split at hxy
  · cases hxy
  · rename_i hne
    split at hxy
    · cases hxy
    · rename_i hlen
      obtain rfl : x.trim = y := by simpa using hxy
      simp only [normalizeId, Str.trim_trim, if_neg hne, if_neg hlen]

theorem normalizeOptionalId_idem {field : Str} {x y : Option Str} (h : normalizeOptionalId x field = .ok y) :
    normalizeOptionalId y field = .ok y :=
  Normalize.opt_idem (normalizeId_idem field) h

/-- Whether an id is normal does not depend on the name it is reported under. -/
theorem normalizeOptionalId_field {field field' : Str} {x : Option Str} (h : normalizeOptionalId x field = .ok x) :
    normalizeOptionalId x field' = .ok x := by
  cases x with
  | none => rfl
  | some id =>
    unfold normalizeOptionalId Normalize.opt normalizeId at *
    simp only at h ⊢
    split at h
    · cases h
    · rename_i hne
      split at h
      · cases h
      · rename_i hlen
        rw [if_neg hne, if_neg hlen]
        exact congrArg Except.ok (Except.ok.inj h)

end Workspace

open Workspace

/-! ### State -/

inductive WorkspaceSurface where
  | sessions | dashboard | connections | compose | rules | breakpoints | mock | lua | inspector | dns | capture
  | webhooks | ca | settings
  deriving DecidableEq

inductive SortDirection where
  | asc | desc
  deriving DecidableEq

inductive SessionsViewMode where
  | sequence | «structure»
  deriving DecidableEq

structure WorkspaceSort where
  key : Str := "idx"
  dir : SortDirection := .asc

structure SessionsViewState where
  query : Str := []
  regex : Bool := false
  methods : List Str := ALLOWED_METHODS
  statusBuckets : List Str := ALLOWED_STATUS_BUCKETS
  hostFocus : List Str := []
  hostFilter : Option Str := none
  sort : WorkspaceSort := {}
  viewMode : SessionsViewMode := .sequence
  selectedSessionId : Option Str := none
  wireFilter : List Str := []
  appFilter : List Str := []

structure FeatureViewState where
  tab : Option Str := none
  selectedId : Option Str := none

structure WorkspaceAssistantContext where
  lastIntent : Option Str := none
  lastWorkspaceActionId : Option Str := none
  pendingActionCount : Nat := 0

structure WorkspaceState where
  id : Str
  version : UInt64
  activeSurface : WorkspaceSurface
  sessionsView : SessionsViewState
  featureViews : IndexMap Str FeatureViewState
  assistantContext : WorkspaceAssistantContext
  updatedAt : Timestamp

def defaultFeatureViews : IndexMap Str FeatureViewState where
  entries := [("dns", {}), ("mock", { tab := some "rules" }), ("rules", { tab := some "rules" })]
  nodup := by decide

/-- `WorkspaceState::default`. -/
def WorkspaceState.default (now : Timestamp) : WorkspaceState where
  id := "default"
  version := 1
  activeSurface := .sessions
  sessionsView := {}
  featureViews := defaultFeatureViews
  assistantContext := {}
  updatedAt := now

/-! ### Patches -/

/-- A nullable field of a patch. -/
inductive PatchField (α : Type) where
  | unspecified
  | clear
  | set (a : α)

structure SessionsViewPatch where
  query : Option Str := none
  regex : Option Bool := none
  methods : Option (List Str) := none
  statusBuckets : Option (List Str) := none
  hostFocus : Option (List Str) := none
  hostFilter : PatchField Str := .unspecified
  sort : Option WorkspaceSort := none
  viewMode : Option SessionsViewMode := none
  selectedSessionId : PatchField Str := .unspecified
  wireFilter : Option (List Str) := none
  appFilter : Option (List Str) := none

structure FeatureViewPatch where
  tab : PatchField Str := .unspecified
  selectedId : PatchField Str := .unspecified

structure WorkspacePatch where
  activeSurface : Option WorkspaceSurface := none
  sessionsView : Option SessionsViewPatch := none
  featureViews : Option (List (Str × FeatureViewPatch)) := none

/-- The new value of a nullable field. -/
def PatchField.applied (normalize : Option Str → Except Str (Option Str)) (old : Option Str) :
    PatchField Str → Except Str (Option Str)
  | .unspecified => .ok old
  | .clear => .ok none
  | .set x => normalize (some x)

theorem PatchField.applied_normal {normalize : Option Str → Except Str (Option Str)} {old new : Option Str}
    {p : PatchField Str} (hold : normalize old = .ok old) (h : p.applied normalize old = .ok new)
    (hnone : normalize none = .ok none) (hidem : ∀ x y, normalize x = .ok y → normalize y = .ok y) :
    normalize new = .ok new := by
  cases p with
  | unspecified =>
    obtain rfl : old = new := by simpa [applied] using h
    exact hold
  | clear =>
    obtain rfl : none = new := by simpa [applied] using h
    exact hnone
  | set x => exact hidem (some x) new h

def WorkspaceSort.validate (self : WorkspaceSort) : Except Str Unit :=
  Normalize.ensure (self.key ∈ ALLOWED_SORT_KEYS)
    (("unsupported sessions_view.sort.key '" : Str) ++ self.key ++ "'; allowed: " ++
      List.intercalate (", " : Str) ALLOWED_SORT_KEYS)

namespace SessionsViewState

def validate (self : SessionsViewState) : Except Str Unit := do
  Normalize.ensure (self.query.utf8Len ≤ MAX_QUERY_LEN)
    (("sessions_view.query may be at most " : Str) ++ Str.ofNat MAX_QUERY_LEN ++ " bytes")
  let _ ← normalizeMethods self.methods
  let _ ← normalizeStatusBuckets self.statusBuckets
  let _ ← normalizeHostList self.hostFocus
  let _ ← normalizeOptionalHost self.hostFilter
  self.sort.validate
  let _ ← normalizeOptionalId self.selectedSessionId "selected_session_id"
  return ()

def applyPatch (self : SessionsViewState) (patch : SessionsViewPatch) : Except Str SessionsViewState := do
  let methods ← Normalize.patched normalizeMethods self.methods patch.methods
  let statusBuckets ← Normalize.patched normalizeStatusBuckets self.statusBuckets patch.statusBuckets
  let hostFocus ← Normalize.patched normalizeHostList self.hostFocus patch.hostFocus
  let hostFilter ← patch.hostFilter.applied normalizeOptionalHost self.hostFilter
  let sort ← Normalize.patched (fun sort => sort.validate.map fun _ => sort) self.sort patch.sort
  let selectedSessionId ←
    patch.selectedSessionId.applied (normalizeOptionalId · "selected_session_id") self.selectedSessionId
  let next : SessionsViewState :=
    { query := patch.query.getD self.query
      regex := patch.regex.getD self.regex
      methods := methods
      statusBuckets := statusBuckets
      hostFocus := hostFocus
      hostFilter := hostFilter
      sort := sort
      viewMode := patch.viewMode.getD self.viewMode
      selectedSessionId := selectedSessionId
      wireFilter := patch.wireFilter.getD self.wireFilter
      appFilter := patch.appFilter.getD self.appFilter }
  next.validate
  return next

/-- To normalise the view again changes nothing. -/
structure Canonical (v : SessionsViewState) : Prop where
  methods : normalizeMethods v.methods = .ok v.methods
  statusBuckets : normalizeStatusBuckets v.statusBuckets = .ok v.statusBuckets
  hostFocus : normalizeHostList v.hostFocus = .ok v.hostFocus
  hostFilter : normalizeOptionalHost v.hostFilter = .ok v.hostFilter
  selectedSessionId : normalizeOptionalId v.selectedSessionId "selected_session_id" = .ok v.selectedSessionId

theorem applyPatch_canonical {v v' : SessionsViewState} {patch : SessionsViewPatch} (hv : v.Canonical)
    (h : v.applyPatch patch = .ok v') : v'.Canonical := by
  simp only [applyPatch, Normalize.bind_eq_ok] at h
  obtain ⟨methods, hmethods, buckets, hbuckets, focus, hfocus, filter, hfilter, sort, -, id, hid, -, -, hv'⟩ := h
  obtain rfl := Except.ok.inj hv'
  exact
    { methods := Normalize.patched_normal (fun _ _ => normalizeMethods_idem) hv.methods hmethods
      statusBuckets := Normalize.patched_normal (fun _ _ => normalizeStatusBuckets_idem) hv.statusBuckets hbuckets
      hostFocus := Normalize.patched_normal (fun _ _ => normalizeHostList_idem) hv.hostFocus hfocus
      hostFilter := PatchField.applied_normal hv.hostFilter hfilter rfl fun _ _ => normalizeOptionalHost_idem
      selectedSessionId :=
        PatchField.applied_normal hv.selectedSessionId hid rfl fun _ _ => normalizeOptionalId_idem }

end SessionsViewState

namespace FeatureViewState

def validate (self : FeatureViewState) : Except Str Unit := do
  let _ ← normalizeOptionalId self.tab "feature_views.tab"
  let _ ← normalizeOptionalId self.selectedId "feature_views.selected_id"
  return ()

def applyPatch (self : FeatureViewState) (patch : FeatureViewPatch) : Except Str FeatureViewState := do
  let tab ← patch.tab.applied (normalizeOptionalId · "feature_views.tab") self.tab
  let selectedId ← patch.selectedId.applied (normalizeOptionalId · "feature_views.selected_id") self.selectedId
  let next : FeatureViewState := ⟨tab, selectedId⟩
  next.validate
  return next

structure Canonical (v : FeatureViewState) : Prop where
  tab : normalizeOptionalId v.tab "feature_views.tab" = .ok v.tab
  selectedId : normalizeOptionalId v.selectedId "feature_views.selected_id" = .ok v.selectedId

theorem canonical_default : ({} : FeatureViewState).Canonical := ⟨rfl, rfl⟩

theorem applyPatch_canonical {v v' : FeatureViewState} {patch : FeatureViewPatch} (hv : v.Canonical)
    (h : v.applyPatch patch = .ok v') : v'.Canonical := by
  simp only [applyPatch, Normalize.bind_eq_ok] at h
  obtain ⟨tab, htab, selected, hselected, -, -, hv'⟩ := h
  obtain rfl := Except.ok.inj hv'
  exact
    { tab := PatchField.applied_normal hv.tab htab rfl fun _ _ => normalizeOptionalId_idem
      selectedId := PatchField.applied_normal hv.selectedId hselected rfl fun _ _ => normalizeOptionalId_idem }

end FeatureViewState

namespace WorkspaceState

/-- The loop over the feature views of a patch. -/
def applyViewPatches : List (Str × FeatureViewPatch) → IndexMap Str FeatureViewState →
    Except Str (IndexMap Str FeatureViewState)
  | [], views => .ok views
  | (key, patch) :: rest, views => do
    validateFeatureViewKey key
    let entry ← ((views.get? key).getD {}).applyPatch patch
    applyViewPatches rest (views.insert key entry)

private def tooManyViews : Str :=
  ("feature_views may include at most " : Str) ++ Str.ofNat MAX_FEATURE_VIEW_COUNT ++ " entries"

def validate (self : WorkspaceState) : Except Str Unit := do
  self.sessionsView.validate
  Normalize.ensure (self.featureViews.len ≤ MAX_FEATURE_VIEW_COUNT) tooManyViews
  self.featureViews.entries.forM fun (key, view) => do
    validateFeatureViewKey key
    view.validate

private def patchViews (patches : List (Str × FeatureViewPatch)) (views : IndexMap Str FeatureViewState) :
    Except Str (IndexMap Str FeatureViewState) := do
  Normalize.ensure (patches.length ≤ MAX_FEATURE_VIEW_COUNT) tooManyViews
  applyViewPatches patches views

/-- `u64::saturating_add(1)`. -/
def nextVersion (version : UInt64) : UInt64 := if version.toNat + 1 < 2 ^ 64 then version + 1 else version

def applyPatch (now : Timestamp) (self : WorkspaceState) (patch : WorkspacePatch) : Except Str WorkspaceState := do
  let sessionsView ← Normalize.patched self.sessionsView.applyPatch self.sessionsView patch.sessionsView
  let featureViews ← Normalize.patched (patchViews · self.featureViews) self.featureViews patch.featureViews
  let next : WorkspaceState :=
    { self with
      activeSurface := patch.activeSurface.getD self.activeSurface
      sessionsView := sessionsView
      featureViews := featureViews }
  next.validate
  return { next with version := nextVersion next.version, updatedAt := now }

structure Canonical (w : WorkspaceState) : Prop where
  sessionsView : w.sessionsView.Canonical
  featureViews : ∀ e ∈ w.featureViews.entries, e.2.Canonical

/-- What every reachable workspace is. -/
structure WellFormed (w : WorkspaceState) : Prop where
  valid : w.validate = .ok ()
  canonical : w.Canonical

theorem wellFormed_default (now : Timestamp) : (WorkspaceState.default now).WellFormed where
  valid := rfl
  canonical :=
    { sessionsView := ⟨rfl, rfl, rfl, rfl, rfl⟩
      featureViews :=
        List.forall_mem_cons.2 ⟨⟨rfl, rfl⟩,
          List.forall_mem_cons.2 ⟨⟨rfl, rfl⟩, List.forall_mem_singleton.2 ⟨rfl, rfl⟩⟩⟩ }

/-- The entry of a view which is patched is canonical, a new one as well. -/
theorem canonical_getD {views : IndexMap Str FeatureViewState} (h : ∀ e ∈ views.entries, e.2.Canonical) (key : Str) :
    ((views.get? key).getD {}).Canonical := by
  cases hkey : views.get? key with
  | none => exact FeatureViewState.canonical_default
  | some view => exact h _ (IndexMap.mem_of_get? hkey)

theorem canonical_insert {views : IndexMap Str FeatureViewState} (h : ∀ e ∈ views.entries, e.2.Canonical) {key : Str}
    {view : FeatureViewState} (hview : view.Canonical) : ∀ e ∈ (views.insert key view).entries, e.2.Canonical := by
  intro e he
  rcases IndexMap.mem_insert he with rfl | he
  · exact hview
  · exact h e he

theorem applyViewPatches_canonical {patches : List (Str × FeatureViewPatch)}
    {views views' : IndexMap Str FeatureViewState}
    (hviews : ∀ e ∈ views.entries, e.2.Canonical) (h : applyViewPatches patches views = .ok views') :
    ∀ e ∈ views'.entries, e.2.Canonical := by
  induction patches generalizing views with
  | nil =>
    obtain rfl : views = views' := by simpa [applyViewPatches] using h
    exact hviews
  | cons p patches ih =>
    obtain ⟨key, patch⟩ := p
    simp only [applyViewPatches, Normalize.bind_eq_ok] at h
    obtain ⟨-, -, entry, hentry, h⟩ := h
    have := FeatureViewState.applyPatch_canonical (canonical_getD hviews key) hentry
    exact ih (canonical_insert hviews this) h

/-- What an accepted patch leaves. -/
theorem applyPatch_spec {now : Timestamp} {w w' : WorkspaceState} {patch : WorkspacePatch} (hw : w.Canonical)
    (h : w.applyPatch now patch = .ok w') : w'.WellFormed ∧ w'.version = nextVersion w.version := by
  simp only [applyPatch, Normalize.bind_eq_ok] at h
  obtain ⟨sessions, hsessions, views, hviews, ⟨⟩, hvalid, hw'⟩ := h
  obtain rfl := Except.ok.inj hw'
  refine ⟨⟨hvalid, ?_, ?_⟩, rfl⟩
  · cases hp : patch.sessionsView with
    | none =>
      rw [hp] at hsessions
      obtain rfl : w.sessionsView = sessions := by simpa [Normalize.patched] using hsessions
      exact hw.sessionsView
    | some p =>
      rw [hp] at hsessions
      exact SessionsViewState.applyPatch_canonical hw.sessionsView hsessions
  · cases hp : patch.featureViews with
    | none =>
      rw [hp] at hviews
      obtain rfl : w.featureViews = views := by simpa [Normalize.patched] using hviews
      exact hw.featureViews
    | some p =>
      rw [hp] at hviews
      obtain ⟨-, -, hviews⟩ := Normalize.bind_eq_ok.1 hviews
      exact applyViewPatches_canonical hw.featureViews hviews

end WorkspaceState

end Oproxy
