import Oproxy.Lib.Http

/-!
# The control-plane router (`control_plane.rs`)

The route table, the choice of the handler for a request, and the fallback which proxies what no route serves.
-/

namespace Oproxy

/-- A route pattern with the methods it has a handler for. -/
structure Route where
  pattern : Str
  methods : List Str
  deriving DecidableEq

namespace Router

private def route (pattern : String) (methods : List String) : Route := ⟨pattern.toList, methods.map String.toList⟩

def uiRoutes : List Route :=
  [route "/" ["GET"], route "/login" ["GET", "POST"], route "/health" ["GET"]]

def sessionRoutes : List Route :=
  [route "/api/sessions" ["GET"], route "/api/sessions/stream" ["GET"], route "/api/sessions/{id}" ["GET"],
   route "/api/sessions/{id}/annotation" ["PATCH"], route "/api/sessions/{id}/export" ["GET"],
   route "/api/sessions/{id}/timing" ["GET"], route "/api/sessions/diff" ["GET"],
   route "/api/sessions/{id}/ws-frames" ["GET"], route "/api/connections" ["GET"],
   route "/api/metrics/protocol" ["GET"], route "/api/import/curl" ["POST"],
   route "/admin/sessions" ["GET", "DELETE"], route "/admin/sessions/save" ["POST"],
   route "/admin/sessions/load" ["POST"], route "/admin/sessions/import" ["POST"],
   route "/admin/sessions/export/har" ["GET"], route "/admin/sessions/import/har" ["POST"]]

def assetRoutes : List Route :=
  [route "/setup" ["GET"], route "/setup/mobile" ["GET"], route "/manifest.json" ["GET"], route "/sw.js" ["GET"],
   route "/icons/icon.svg" ["GET"], route "/data.js" ["GET"], route "/composer.jsx" ["GET"],
   route "/styles.css" ["GET"], route "/tweaks-panel.jsx" ["GET"], route "/icons.jsx" ["GET"],
   route "/sessions-table.jsx" ["GET"], route "/detail-panel.jsx" ["GET"], route "/surfaces.jsx" ["GET"],
   route "/surfaces-extra.jsx" ["GET"], route "/compose.jsx" ["GET"], route "/app.jsx" ["GET"],
   route "/assets/app.css" ["GET"], route "/assets/app.js" ["GET"], route "/app.css" ["GET"],
   route "/js/\x7b*path\x7d" ["GET"], route "/favicon.ico" ["GET"], route "/.well-known/\x7b*path\x7d" ["GET"],
   route "/robots.txt" ["GET"]]

def policyRoutes : List Route :=
  [route "/admin/throttling" ["GET", "PUT", "POST"], route "/admin/access-rules" ["GET", "POST"],
   route "/admin/access-rules/{id}" ["PUT", "DELETE"], route "/admin/rule-sets" ["GET", "POST"],
   route "/admin/rule-sets/reorder" ["PATCH"], route "/admin/rule-sets/{id}" ["GET", "PUT", "DELETE"],
   route "/admin/capture-filter" ["GET", "POST"], route "/admin/dns" ["GET", "POST"],
   route "/admin/dns/{host}" ["PUT", "DELETE"], route "/admin/map-local-rules" ["GET", "POST"],
   route "/admin/map-local-rules/fixtures" ["GET"],
   route "/admin/map-local-rules/fixtures/{name}" ["GET", "POST", "DELETE"],
   route "/admin/map-local-rules/{id}" ["PUT", "DELETE"], route "/admin/map-remote-rules" ["GET", "POST"],
   route "/admin/map-remote-rules/test" ["POST"], route "/admin/map-remote-rules/{id}" ["PUT", "DELETE"]]

def assistantRoutes : List Route :=
  [route "/admin/assistant/tools" ["GET"], route "/admin/assistant/chat" ["POST"],
   route "/admin/assistant/compatibility" ["POST"], route "/admin/assistant/actions/execute" ["POST"],
   route "/admin/assistant/actions/cancel" ["POST"], route "/admin/workspace" ["GET", "PATCH"],
   route "/admin/workspace/actions" ["POST"]]

def extensionRoutes : List Route :=
  [route "/admin/playback" ["POST"], route "/admin/breakpoints" ["GET", "POST"],
   route "/admin/breakpoints/pending" ["GET"], route "/admin/breakpoints/diagnostics" ["GET"],
   route "/admin/breakpoints/pending/{id}/resolve" ["POST"], route "/admin/breakpoints/{id}" ["PUT", "DELETE"],
   route "/admin/plugins" ["GET"], route "/admin/mock/rules" ["GET", "POST"],
   route "/admin/mock/rules/{id}" ["PUT", "DELETE"], route "/admin/mock/rules/{id}/reset" ["POST"],
   route "/admin/scripts" ["GET", "POST"], route "/admin/scripts/{id}" ["PUT", "DELETE"]]

def settingsRoutes : List Route :=
  [route "/admin/ca" ["GET"], route "/admin/ca/qr" ["GET"], route "/admin/update" ["GET"],
   route "/admin/metrics" ["GET"], route "/admin/config/reload" ["POST"], route "/admin/config" ["GET"],
   route "/admin/forward" ["POST"], route "/admin/forward/websocket" ["POST"],
   route "/admin/upstream-proxy" ["GET", "POST"], route "/admin/webhooks" ["GET", "POST"],
   route "/admin/webhooks/{id}" ["PUT", "DELETE"], route "/admin/socks5/status" ["GET"],
   route "/admin/setup/network-info" ["GET"]]

def controlPlaneRouter : List Route :=
  uiRoutes ++ sessionRoutes ++ assetRoutes ++ policyRoutes ++ assistantRoutes ++ extensionRoutes ++ settingsRoutes

/-- Whether the segments of a path match those of a pattern: a braced segment stands for one segment which is not
empty, a starred one for the rest of the path. -/
def matchSegments : List Str → List Str → Bool
  | [], [] => true
  | pattern :: patterns, segment :: segments =>
    if Str.startsWith pattern "\x7b*" then segment ≠ [] || segments ≠ []
    else if Str.startsWith pattern "\x7b" then segment ≠ [] && matchSegments patterns segments
    else pattern == segment && matchSegments patterns segments
  | _, _ => false

def Route.matchPath (r : Route) (path : Str) : Bool := matchSegments (Str.split '/' r.pattern) (Str.split '/' path)

/-- What the router runs for a request. -/
inductive Handler where
  | route (pattern method : Str)
  | fallback
  deriving DecidableEq

/-- The route for a path: one without parameters before one with parameters. -/
def routeFor (path : Str) : Option Route :=
  (controlPlaneRouter.find? fun r => r.pattern == path).orElse fun _ =>
    controlPlaneRouter.find? fun r => Route.matchPath r path

/-- The handler for a request; none where the route exists and has no handler for the method.  A handler for `GET`
serves `HEAD` too. -/
def handlerFor (method path : Str) : Option Handler :=
  match routeFor path with
  | none => some .fallback
  | some r =>
    if r.methods.contains method then some (.route r.pattern method)
    else if method = ("HEAD" : Str) ∧ r.methods.contains ("GET" : Str) then some (.route r.pattern "GET")
    else none

/-- The fallback answers 404 below the control plane's own prefixes and proxies everything else. -/
def fallbackProxies (path : Str) : Bool :=
  !(Str.startsWith path "/admin/" || Str.startsWith path "/api/")

end Router

end Oproxy
