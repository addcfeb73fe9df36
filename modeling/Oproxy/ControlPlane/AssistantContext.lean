import Oproxy.ControlPlane.SessionView

/-!
# The sessions of the assistant's context (`control_plane/assistant_context.rs`)

The context of the assistant begins with the sessions in view.  The filter is made of the view of the workspace once
more; the copy for the user lets the WebSocket sessions pass with those of method GET, and this one does not.
-/

namespace Oproxy

def sessionFilterFromWorkspaceContext (view : SessionsViewState) : SessionListFilter where
  query := view.query
  regex := view.regex
  methods := some view.methods
  statusBuckets := some view.statusBuckets
  hostFocus := view.hostFocus
  hostFilter := view.hostFilter
  sort := ⟨view.sort.key, match view.sort.dir with | .asc => .asc | .desc => .desc⟩

/-- The options with which `build_assistant_context` lists the visible sessions. -/
def contextOptions (view : SessionsViewState) : SessionListOptions where
  since := none
  limit := some 20
  offset := none
  includeBodies := false
  filter := sessionFilterFromWorkspaceContext view

namespace SessionStore

section

variable (toLowercase : Str → Str) (compile : RegexEngine) (parseTime : Str → Option Timestamp)

/-- The sessions which the assistant is shown. -/
def visibleToAssistant (s : SessionStore) (view : SessionsViewState) : List Exchange :=
  (s.listSessions toLowercase compile (contextOptions view)).sessions

/-- The sessions which the user is shown. -/
def visibleToUser (s : SessionStore) (view : SessionsViewState) (q : SessionQuery) : List Exchange :=
  (s.listSessions toLowercase compile (q.options parseTime view)).sessions

/-- The assistant sees the sessions which the user sees in the current view, page by page. -/
structure SeesAlike (s : SessionStore) (view : SessionsViewState) : Prop where
  visible : ∀ q : SessionQuery, q.workspaceView = some ("current" : Str) → q.since = none → q.limit = some 20 →
    q.offset = none → q.includeBodies = none →
      s.visibleToAssistant toLowercase compile view = s.visibleToUser toLowercase compile parseTime view q
  listed : ∀ q : SessionQuery, q.workspaceView = some ("current" : Str) →
    (s.listSessions toLowercase compile
      { q.options parseTime view with filter := sessionFilterFromWorkspaceContext view }).sessions =
        s.visibleToUser toLowercase compile parseTime view q

end

end SessionStore

/-- WebSocket sessions pass because those of method GET do. -/
def SessionsViewState.AddsWebSockets (view : SessionsViewState) : Prop :=
  (view.methods.any fun m => m.eqIgnoreAsciiCase "GET") = true ∧
    (view.methods.any fun m => m.eqIgnoreAsciiCase "WS") = false

/-! ### The two filters -/

section

variable {toLowercase : Str → Str} {compile : RegexEngine} {session : Exchange} {filter : SessionListFilter}
  {view : SessionsViewState}

/-- The methods are one condition among the others. -/
theorem matchesSessionFilter_methods {methods : List Str} (h : filter.methods = some methods) :
    matchesSessionFilter toLowercase compile session filter =
      ((methods.any fun method => session.request.method.eqIgnoreAsciiCase method) &&
        matchesSessionFilter toLowercase compile session { filter with methods := none }) := by
  unfold matchesSessionFilter
  dsimp only
  rw [h, Option.any_some, Option.any_none]
  cases methods.any fun method => session.request.method.eqIgnoreAsciiCase method <;> rfl

theorem filter_of_not_addsWebSockets (h : ¬ view.AddsWebSockets) :
    sessionFilterFromWorkspace view = sessionFilterFromWorkspaceContext view := by
  have hmethods : ¬ ((view.methods.any fun m => m.eqIgnoreAsciiCase "GET") &&
      !view.methods.any fun m => m.eqIgnoreAsciiCase "WS") = true := by
    rwa [Bool.and_eq_true, Bool.not_eq_true']
  unfold sessionFilterFromWorkspace
  rw [if_neg hmethods]
  rfl

theorem filter_of_addsWebSockets (h : view.AddsWebSockets) :
    sessionFilterFromWorkspace view =
      { sessionFilterFromWorkspaceContext view with methods := some (view.methods ++ ["WS".toList]) } := by
  have hmethods : ((view.methods.any fun m => m.eqIgnoreAsciiCase "GET") &&
      !view.methods.any fun m => m.eqIgnoreAsciiCase "WS") = true := by
    rwa [Bool.and_eq_true, Bool.not_eq_true']
  unfold sessionFilterFromWorkspace
  rw [if_pos hmethods]
  rfl

/-- What passes for the assistant passes for the user. -/
theorem matches_user_of_assistant
    (h : matchesSessionFilter toLowercase compile session (sessionFilterFromWorkspaceContext view) = true) :
    matchesSessionFilter toLowercase compile session (sessionFilterFromWorkspace view) = true := by
  by_cases hadds : view.AddsWebSockets
  · rw [filter_of_addsWebSockets hadds, matchesSessionFilter_methods rfl]
    rw [matchesSessionFilter_methods rfl, Bool.and_eq_true] at h
    rw [List.any_append, h.1, Bool.true_or, Bool.true_and]
    exact h.2
  · rwa [filter_of_not_addsWebSockets hadds]

/-- Both filters agree on a session exactly if it is no WebSocket session which passes for the user only. -/
theorem matches_eq_iff :
    matchesSessionFilter toLowercase compile session (sessionFilterFromWorkspaceContext view) =
        matchesSessionFilter toLowercase compile session (sessionFilterFromWorkspace view) ↔
      (view.AddsWebSockets → session.request.method.eqIgnoreAsciiCase "WS" = true →
        matchesSessionFilter toLowercase compile session
          { sessionFilterFromWorkspaceContext view with methods := none } = false) := by
  by_cases hadds : view.AddsWebSockets
  · have hassistant := @matchesSessionFilter_methods toLowercase compile session
      (sessionFilterFromWorkspaceContext view) view.methods rfl
    have huser := @matchesSessionFilter_methods toLowercase compile session
      { sessionFilterFromWorkspaceContext view with methods := some (view.methods ++ ["WS".toList]) } _ rfl
    rw [List.any_append, List.any_cons, List.any_nil, Bool.or_false] at huser
    rw [forall_prop_of_true hadds, filter_of_addsWebSockets hadds, hassistant, huser]
    dsimp only
    -- a WebSocket session has none of the methods of the view
    have hnone : session.request.method.eqIgnoreAsciiCase "WS" = true →
        (view.methods.any fun method => session.request.method.eqIgnoreAsciiCase method) = false := by
      intro hws
      rw [← hadds.2]
      refine congrArg (List.any view.methods) (funext fun method => ?_)
      rw [Str.eqIgnoreAsciiCase_iff] at hws
      unfold Str.eqIgnoreAsciiCase
      rw [hws]
      exact Bool.beq_comm
    cases hws : session.request.method.eqIgnoreAsciiCase "WS" with
    | false => simp
    | true =>
      rw [hnone hws]
      simp
  · rw [filter_of_not_addsWebSockets hadds]
    exact iff_of_true rfl fun h => absurd h hadds

end

namespace SessionStore

variable {toLowercase : Str → Str} {compile : RegexEngine} {parseTime : Str → Option Timestamp} {s : SessionStore}
  {view : SessionsViewState}

/-! ### The two lists -/

private def currentQuery : SessionQuery :=
  { since := none, limit := none, offset := none, q := none, regex := none, methods := none, statusBuckets := none
    hostFocus := none, hostFilter := none, host := none, sortKey := none, sortDir := none
    workspaceView := some ("current" : Str), includeBodies := none }

theorem options_current {q : SessionQuery} (h : q.workspaceView = some ("current" : Str)) :
    q.options parseTime view =
      { since := q.since.bind parseTime, limit := q.limit, offset := q.offset
        includeBodies := q.includeBodies.getD false, filter := sessionFilterFromWorkspace view } := by
  unfold SessionQuery.options
  rw [if_pos h]

theorem sort_filter (view : SessionsViewState) :
    (sessionFilterFromWorkspace view).sort = (sessionFilterFromWorkspaceContext view).sort := rfl

/-- Where both filters agree on the sessions of the store, the lists are the same. -/
theorem listSessions_eq {options : SessionListOptions}
    (h : ∀ session ∈ s.getAllSessions,
      matchesSessionFilter toLowercase compile session (sessionFilterFromWorkspaceContext view) =
        matchesSessionFilter toLowercase compile session (sessionFilterFromWorkspace view)) :
    (s.listSessions toLowercase compile { options with filter := sessionFilterFromWorkspaceContext view }).sessions =
      (s.listSessions toLowercase compile { options with filter := sessionFilterFromWorkspace view }).sessions := by
  have hpassing : s.passing toLowercase compile { options with filter := sessionFilterFromWorkspaceContext view } =
      s.passing toLowercase compile { options with filter := sessionFilterFromWorkspace view } := by
    unfold passing
    exact List.filter_congr fun session hsession => h session (List.mem_filter.1 hsession).1
  unfold listSessions
  dsimp only
  rw [hpassing, sort_filter]

/-- Where the lists have the same length, both filters agree. -/
theorem matches_eq_of_listed (h : SeesAlike toLowercase compile parseTime s view) :
    ∀ session ∈ s.getAllSessions,
      matchesSessionFilter toLowercase compile session (sessionFilterFromWorkspaceContext view) =
        matchesSessionFilter toLowercase compile session (sessionFilterFromWorkspace view) := by
  have hlisted := congrArg List.length (h.listed currentQuery rfl)
  unfold visibleToUser at hlisted
  rw [options_current rfl] at hlisted
  -- the whole lists, which are as long as the lists of those that pass
  have hlength : ∀ filter : SessionListFilter, (s.listSessions toLowercase compile
      { since := none, limit := none, offset := none, includeBodies := false, filter := filter }).sessions.length =
        (s.getAllSessions.filter fun session => matchesSessionFilter toLowercase compile session filter).length := by
    intro filter
    have hall : (s.getAllSessions.filter fun session => matchesSince session none) = s.getAllSessions :=
      List.filter_eq_self.2 fun _ _ => rfl
    unfold listSessions
    dsimp only
    rw [if_neg (by decide), List.length_map, Option.getD_none, List.drop_zero, (sortSessions_perm _ _).length_eq]
    unfold passing
    dsimp only
    rw [hall]
  have hsame : (s.getAllSessions.filter fun session =>
      matchesSessionFilter toLowercase compile session (sessionFilterFromWorkspaceContext view)).length =
        (s.getAllSessions.filter fun session =>
          matchesSessionFilter toLowercase compile session (sessionFilterFromWorkspace view)).length := by
    rw [← hlength, ← hlength]
    exact hlisted
  have hsub := List.monotone_filter_right s.getAllSessions fun session =>
    @matches_user_of_assistant toLowercase compile session view
  have heq := hsub.eq_of_length hsame
  intro session hsession
  rw [Bool.eq_iff_iff]
  constructor
  · exact matches_user_of_assistant
  · intro huser
    have hmem : session ∈ s.getAllSessions.filter fun session =>
        matchesSessionFilter toLowercase compile session (sessionFilterFromWorkspace view) :=
      List.mem_filter.2 ⟨hsession, huser⟩
    rw [← heq] at hmem
    exact (List.mem_filter.1 hmem).2

/-- The assistant sees what the user sees exactly if no WebSocket session passes because those of method GET do. -/
theorem seesAlike_iff (toLowercase : Str → Str) (compile : RegexEngine) (parseTime : Str → Option Timestamp)
    (s : SessionStore) (view : SessionsViewState) :
    SeesAlike toLowercase compile parseTime s view ↔
      (view.AddsWebSockets → ∀ session ∈ s.getAllSessions, session.request.method.eqIgnoreAsciiCase "WS" = true →
        matchesSessionFilter toLowercase compile session
          { sessionFilterFromWorkspaceContext view with methods := none } = false) := by
  constructor
  · intro h hadds session hsession
    exact matches_eq_iff.1 (matches_eq_of_listed h session hsession) hadds
  · intro h
    have hagree : ∀ session ∈ s.getAllSessions,
        matchesSessionFilter toLowercase compile session (sessionFilterFromWorkspaceContext view) =
          matchesSessionFilter toLowercase compile session (sessionFilterFromWorkspace view) :=
      fun session hsession => matches_eq_iff.2 fun hadds => h hadds session hsession
    have hlisted : ∀ q : SessionQuery, q.workspaceView = some ("current" : Str) →
        (s.listSessions toLowercase compile
          { q.options parseTime view with filter := sessionFilterFromWorkspaceContext view }).sessions =
            s.visibleToUser toLowercase compile parseTime view q := by
      intro q hq
      unfold visibleToUser
      rw [options_current hq]
      exact @listSessions_eq _ _ _ _
        { since := q.since.bind parseTime, limit := q.limit, offset := q.offset
          includeBodies := q.includeBodies.getD false, filter := sessionFilterFromWorkspace view } hagree
    refine ⟨fun q hq hsince hlimit hoffset hbodies => ?_, hlisted⟩
    rw [← hlisted q hq, options_current hq, hsince, hlimit, hoffset, hbodies]
    rfl

/-- A WebSocket session is recorded. -/
private def webSocket : List TimedOp :=
  [⟨fun _ => 0, .recordRequest "a" { RequestContext.default with method := "WS" } .proxy⟩]

/-- In the view at the start the user sees the session, and the assistant does not. -/
theorem not_seesAlike : ¬ ∀ (toLowercase : Str → Str) (compile : RegexEngine) (parseTime : Str → Option Timestamp)
    (s : SessionStore) (view : SessionsViewState), view.Canonical → SeesAlike toLowercase compile parseTime s view := by
  intro h
  let s := Machine.run step (empty 10 1000) webSocket
  have hagree := matches_eq_of_listed
    (h id (fun _ => none) (fun _ => none) s {} (WorkspaceState.wellFormed_default 0).canonical.sessionsView)
  have hmethods : s.getAllSessions.map (fun session => matchesSessionFilter id (fun _ => none) session
      (sessionFilterFromWorkspaceContext {}) == matchesSessionFilter id (fun _ => none) session
        (sessionFilterFromWorkspace {})) = [false] := by
    decide +kernel
  obtain ⟨session, hsession, hdiffer⟩ := List.mem_map.1 (hmethods ▸ List.mem_singleton_self false)
  rw [hagree session hsession, beq_self_eq_true] at hdiffer
  cases hdiffer

end SessionStore

end Oproxy
