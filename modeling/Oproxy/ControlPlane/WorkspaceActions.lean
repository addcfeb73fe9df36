import Oproxy.ControlPlane.Workspace

/-!
# Workspace requests (`control_plane/workspace.rs`, `assistant_payload_repair.rs`)

The two ways to change the workspace: a patch, which may name the version that it was made for, and an action out of the
manifest with a JSON payload.  Both take the write lock, work on a copy and put the copy in place when all is well, and
neither waits for anything while it has the lock.
-/

namespace Oproxy

open Workspace

/-! ### Repaired payloads -/

namespace AssistantPayload

def isNumericField (key : Str) : Bool :=
  key ∈ (["bandwidth_limit_kbps", "call_count", "code", "delay_ms", "latency_ms", "limit", "offset", "port", "status"] :
    List Str)

def numericStringAsJsonNumber : Json → Option Json
  | .str s =>
    let raw := s.trim
    if raw.isEmpty ∨ ¬ raw.all Str.isAsciiDigit then none
    else (Str.parseUnsigned (2 ^ 64 - 1) raw).map fun number => .int number
  | _ => none

def isBooleanField (key : Str) : Bool := key ∈ (["enabled", "include_bodies", "merge", "raw", "regex"] : List Str)

def booleanStringAsJsonBool : Json → Option Json
  | .str s =>
    let raw := s.trim.toAsciiLowercase
    if raw = "true" then some (.bool true) else if raw = "false" then some (.bool false) else none
  | _ => none

def isArrayField (key : Str) : Bool :=
  key ∈ (["actions", "events", "host_focus", "hosts", "methods", "responses", "status_buckets"] : List Str)

/-- The items of `singleton_as_json_array`. -/
def singletonItems : Json → Option (List Json)
  | .obj members => some [.obj members]
  | .str raw =>
    let items := ((raw.split ',').map Str.trim).filter (fun item => ¬ item.isEmpty)
    if items.isEmpty then none else some (items.map .str)
  | _ => none

/-- A member that is no array where one belongs, or a text where a number or a truth value belongs. -/
def repairMember (key : Str) (value repaired : Json) : Json :=
  match if isArrayField key then singletonItems value else none with
  -- the items of an array that was a text are texts, and there is nothing to repair in them
  | some items => match value with
    | .obj _ => .arr [repaired]
    | _ => .arr items
  | none =>
    match if isNumericField key then numericStringAsJsonNumber value else none with
    | some number => number
    | none =>
      match if isBooleanField key then booleanStringAsJsonBool value else none with
      | some boolean => boolean
      | none => repaired

mutual

def repairAssistantPayload : Json → Json
  | .obj members => .obj (repairMembers members)
  | .arr items => .arr (repairItems items)
  | value => value

private def repairItems : List Json → List Json
  | [] => []
  | item :: items => repairAssistantPayload item :: repairItems items

private def repairMembers : List (Str × Json) → List (Str × Json)
  | [] => []
  | (key, value) :: members => (key, repairMember key value (repairAssistantPayload value)) :: repairMembers members

end

theorem repairAssistantPayload_arr (items : List Json) :
    repairAssistantPayload (.arr items) = .arr (items.map repairAssistantPayload) := by
  have hitems : repairItems items = items.map repairAssistantPayload := by
    induction items with
    | nil => simp only [repairItems, List.map_nil]
    | cons item items ih => rw [repairItems, List.map_cons, ih]
  rw [repairAssistantPayload, hitems]

/-- A member with what the repair makes of it. -/
def repairedMember (m : Str × Json) : Str × Json := (m.1, repairMember m.1 m.2 (repairAssistantPayload m.2))

theorem repairAssistantPayload_obj (members : List (Str × Json)) :
    repairAssistantPayload (.obj members) = .obj (members.map repairedMember) := by
  have hmembers : repairMembers members = members.map repairedMember := by
    induction members with
    | nil => simp only [repairMembers, List.map_nil]
    | cons m members ih => rw [repairMembers, List.map_cons, ih, repairedMember]
  rw [repairAssistantPayload, hmembers]

end AssistantPayload

/-! ### Values out of payloads -/

/-- A variant without data: its name, or the name with a null. -/
def enumFromValue {T : Type} (variants : List (Str × T)) : Json → Option T
  | .str name => (variants.find? fun v => v.1 = name).map Prod.snd
  | .obj [(name, .null)] => (variants.find? fun v => v.1 = name).map Prod.snd
  | _ => none

def WorkspaceSurface.fromValue : Json → Option WorkspaceSurface :=
  enumFromValue
    [("sessions", .sessions), ("dashboard", .dashboard), ("connections", .connections), ("compose", .compose),
      ("rules", .rules), ("breakpoints", .breakpoints), ("mock", .mock), ("lua", .lua), ("inspector", .inspector),
      ("dns", .dns), ("capture", .capture), ("webhooks", .webhooks), ("ca", .ca), ("settings", .settings)]

def SortDirection.fromValue : Json → Option SortDirection := enumFromValue [("asc", .asc), ("desc", .desc)]

def SessionsViewMode.fromValue : Json → Option SessionsViewMode :=
  enumFromValue [("sequence", .sequence), ("structure", .structure)]

/-- An object with both fields, or an array of them. -/
def WorkspaceSort.fromValue : Json → Option WorkspaceSort
  | .arr [key, dir] => do return ⟨← key.asStr, ← SortDirection.fromValue dir⟩
  | .obj members => do
    let key ← (Json.get? "key" (.obj members)).bind Json.asStr
    let dir ← (Json.get? "dir" (.obj members)).bind SortDirection.fromValue
    return ⟨key, dir⟩
  | _ => none

def parseStringArray (value : Json) : Option (List Str) := value.asArray.map fun items => items.filterMap Json.asStr

def parsePatchStringField : Option Json → PatchField Str
  | none => .unspecified
  | some .null => .clear
  | some (.str value) => .set value
  | some other => .set other.compact

/-- What the deserializer says of values which are none of the type. -/
structure SerdeErrors where
  sort : Json → Str
  viewMode : Json → Str

/-! ### Actions -/

structure WorkspaceActionDefinition where
  name : Str
  refreshedResources : List Str

/-- The actions of the manifest `assistant_capabilities.yaml`. -/
def workspaceManifest : List WorkspaceActionDefinition :=
  [⟨"navigation.open_surface", []⟩, ⟨"sessions.apply_filter", ["sessions"]⟩, ⟨"sessions.clear_filter", ["sessions"]⟩,
    ⟨"sessions.select", ["sessions"]⟩, ⟨"sessions.set_view_mode", []⟩, ⟨"rules.open_tab", []⟩]

def workspaceActionDefinition (name : Str) : Option WorkspaceActionDefinition :=
  workspaceManifest.find? fun action => action.name = name

def workspaceSurfaceLabel : WorkspaceSurface → Str
  | .sessions => "Sessions"
  | .dashboard => "Dashboard"
  | .connections => "Connections"
  | .compose => "Compose"
  | .rules => "Rules"
  | .breakpoints => "Breakpoints"
  | .mock => "Mock Server"
  | .lua => "Lua Scripts"
  | .inspector => "Inspectors"
  | .dns => "DNS Override"
  | .capture => "Capture Filter"
  | .webhooks => "Webhooks"
  | .ca => "Root CA"
  | .settings => "Settings"

/-- The value which is required of a payload. -/
def required {α : Type} (message : Str) : Option α → Except Str α
  | some a => .ok a
  | none => .error message

namespace WorkspaceState

/-- A message, and the workspace as the action leaves it. -/
abbrev ActionOutcome := Except Str (Str × WorkspaceState)

def actionOpenSurface (workspace : WorkspaceState) (payload : Json) : ActionOutcome := do
  let surface ← required "navigation.open_surface requires payload.surface" (payload.get? "surface")
  let surface ← required "invalid workspace surface" (WorkspaceSurface.fromValue surface)
  return (("Opened " : Str) ++ workspaceSurfaceLabel surface, { workspace with activeSurface := surface })

/-- A member which is read where it is there and not null. -/
def optionalMember {T : Type} (fromValue : Json → Option T) (message : Json → Str) (member : Option Json) :
    Except Str (Option T) :=
  match member.filter fun value => ¬ value.isNull with
  | none => .ok none
  | some value => (required (message value) (fromValue value)).map some

def actionApplySessionsFilter (serde : SerdeErrors) (workspace : WorkspaceState) (payload : Json) : ActionOutcome := do
  let sort ← optionalMember WorkspaceSort.fromValue
    (fun value => ("invalid sessions.apply_filter sort: " : Str) ++ serde.sort value) (payload.get? "sort")
  let viewMode ← optionalMember SessionsViewMode.fromValue
    (fun value => ("invalid sessions.apply_filter view_mode: " : Str) ++ serde.viewMode value)
    (payload.get? "view_mode")
  let patch : SessionsViewPatch :=
    { query := (payload.get? "query").bind Json.asStr
      regex := (payload.get? "regex").bind Json.asBool
      methods := (payload.get? "methods").bind parseStringArray
      statusBuckets := (payload.get? "status_buckets").bind parseStringArray
      hostFocus := (payload.get? "host_focus").bind parseStringArray
      hostFilter := parsePatchStringField (payload.get? "host_filter")
      sort := sort
      viewMode := viewMode
      selectedSessionId := parsePatchStringField (payload.get? "selected_session_id")
      wireFilter := (payload.get? "wire_filter").bind parseStringArray
      appFilter := (payload.get? "app_filter").bind parseStringArray }
  let sessionsView ← workspace.sessionsView.applyPatch patch
  return ("Applied Sessions filter", { workspace with activeSurface := .sessions, sessionsView := sessionsView })

def actionClearSessionsFilter (workspace : WorkspaceState) (_payload : Json) : ActionOutcome :=
  let selectedSessionId := workspace.sessionsView.selectedSessionId
  .ok ("Cleared Sessions filters",
    { workspace with activeSurface := .sessions, sessionsView := { selectedSessionId := selectedSessionId } })

def actionSelectSession (workspace : WorkspaceState) (payload : Json) : ActionOutcome := do
  let id ← required "sessions.select requires payload.id" ((payload.get? "id").bind Json.asStr)
  let selected ← normalizeOptionalId (some id) "selected_session_id"
  return ("Selected session",
    { workspace with
      activeSurface := .sessions
      sessionsView := { workspace.sessionsView with selectedSessionId := selected } })

def actionSetSessionsViewMode (workspace : WorkspaceState) (payload : Json) : ActionOutcome := do
  let mode ← required "sessions.set_view_mode requires payload.view_mode"
    ((payload.get? "view_mode").orElse fun _ => payload.get? "mode")
  let mode ← required "invalid sessions view_mode; expected sequence or structure" (SessionsViewMode.fromValue mode)
  let label : Str := match mode with
    | .sequence => "sequence"
    | .structure => "structure"
  return (("Switched Sessions to " : Str) ++ label ++ " view",
    { workspace with activeSurface := .sessions, sessionsView := { workspace.sessionsView with viewMode := mode } })

def actionOpenRulesTab (workspace : WorkspaceState) (payload : Json) : ActionOutcome := do
  let tab ← required "rules.open_tab requires payload.tab" ((payload.get? "tab").bind Json.asStr)
  let tab ← normalizeOptionalId (some tab) "feature_views.rules.tab"
  let tab ← required "rules.open_tab requires a non-empty tab" tab
  let view := (workspace.featureViews.get? "rules").getD {}
  return (("Opened Rules " : Str) ++ tab ++ " tab",
    { workspace with
      activeSurface := .rules
      featureViews := workspace.featureViews.insert "rules" { view with tab := some tab } })

def applyActionToState (serde : SerdeErrors) (workspace : WorkspaceState) (action : WorkspaceActionDefinition)
    (payload : Json) : ActionOutcome :=
  if action.name = "navigation.open_surface" then workspace.actionOpenSurface payload
  else if action.name = "sessions.apply_filter" then workspace.actionApplySessionsFilter serde payload
  else if action.name = "sessions.clear_filter" then workspace.actionClearSessionsFilter payload
  else if action.name = "sessions.select" then workspace.actionSelectSession payload
  else if action.name = "sessions.set_view_mode" then workspace.actionSetSessionsViewMode payload
  else if action.name = "rules.open_tab" then workspace.actionOpenRulesTab payload
  else .error (("workspace action '" : Str) ++ action.name ++ "' is declared but has no executor")

end WorkspaceState

/-! ### Requests -/

structure WorkspacePatchRequest where
  baseVersion : Option UInt64
  patch : WorkspacePatch

structure WorkspaceActionRequest where
  actionType : Str
  payload : Json

structure WorkspaceError where
  status : Nat
  error : Str

structure WorkspaceActionResult where
  actionId : Str
  actionType : Str
  message : Str
  workspace : WorkspaceState
  refreshedResources : List Str

/-- The workspace which a patch leaves behind the lock, or the refusal. -/
def patchWorkspace (now : Timestamp) (workspace : WorkspaceState) (req : WorkspacePatchRequest) :
    Except WorkspaceError WorkspaceState := do
  Normalize.ensure (req.baseVersion.all (· == workspace.version))
    { status := 409
      error := ("workspace version conflict: current version is " : Str) ++ Str.ofNat workspace.version.toNat ++
        ", request base_version was " ++ Str.ofNat (req.baseVersion.getD 0).toNat }
  (workspace.applyPatch now req.patch).mapError fun error => { status := 400, error := error }

/-- `workspace_action_id` at a time in nanoseconds. -/
def workspaceActionId (now : Timestamp) : Str := ("wa_" : Str) ++ Json.ofInt (now / 1000000)

/-- The answer to an action, with the workspace which it leaves; `idNow` and `now` are the two readings of the clock. -/
def applyWorkspaceAction (serde : SerdeErrors) (idNow now : Timestamp) (workspace : WorkspaceState)
    (req : WorkspaceActionRequest) : Except Str WorkspaceActionResult := do
  let payload := AssistantPayload.repairAssistantPayload req.payload
  let action ← required (("workspace action '" : Str) ++ req.actionType ++ "' is not allowlisted")
    (workspaceActionDefinition req.actionType)
  let (message, next) ← workspace.applyActionToState serde action payload
  let actionId := workspaceActionId idNow
  let next : WorkspaceState :=
    { next with
      assistantContext :=
        { next.assistantContext with lastIntent := some action.name, lastWorkspaceActionId := some actionId }
      version := WorkspaceState.nextVersion next.version
      updatedAt := now }
  next.validate
  return ⟨actionId, action.name, message, next, action.refreshedResources⟩

end Oproxy
