import Mathlib
import Oproxy.ControlPlane.RefusedChanges

/-!
# First-run examples (`examples.rs`)

What a storage directory without files starts with: an entry of each feature, none of them enabled.
-/

namespace Oproxy

open Persisted Mutations

namespace Examples

def exampleHost : Str := "api.test.com"

def blockedHost : Str := "blocked.test.com"

def examplePathGlob : Str := "/api/v1/*"

def exampleHeader : Str := "X-Example-Header"

def exampleValue : Str := "example-value"

def rewrittenValue : Str := "rewritten-value"

def exampleDestination : Str := "https://github.com"

def mapLocalFixture : Str := "example-welcome.json"

def host (h : Str) : Location := { Location.default with host := some h }

def hostPath (h p : Str) : Location := { Location.default with host := some h, path := some p }

/-! ### Features -/

def exampleRuleSets : List RewriteRuleSet :=
  [{ id := "example-rewrite-add-header"
     name := ("Example: Add " : Str) ++ exampleHeader ++ (" to " : Str) ++ exampleHost ++ examplePathGlob ++
       (" requests" : Str)
     enabled := false
     location := hostPath exampleHost examplePathGlob
     appliesTo := .request
     actions := [.setHeader exampleHeader exampleValue] },
   { id := "example-rewrite-response-body"
     name := ("Example: Replace '" : Str) ++ exampleValue ++ ("' in " : Str) ++ exampleHost ++
       (" response bodies" : Str)
     enabled := false
     location := host exampleHost
     appliesTo := .response
     actions := [.replaceBody exampleValue rewrittenValue] },
   { id := "example-rewrite-redirect"
     name := ("Example: Redirect " : Str) ++ exampleHost ++ (" to github.com" : Str)
     enabled := false
     location := host exampleHost
     appliesTo := .request
     actions := [.redirect 302 exampleDestination] }]

def exampleMapRemoteRules : List MapRemoteRule :=
  [{ id := "example-map-remote-github"
     name := ("Example: Map " : Str) ++ exampleHost ++ (" to github.com" : Str)
     enabled := false
     location := host exampleHost
     destination := exampleDestination }]

def exampleMapLocalRules : List MapLocalRule :=
  [{ id := "example-map-local-welcome"
     name := ("Example: Serve " : Str) ++ mapLocalFixture ++ (" for " : Str) ++ exampleHost ++
       ("/api/v1/welcome" : Str)
     enabled := false
     location := hostPath exampleHost "/api/v1/welcome"
     filePath := mapLocalFixture }]

def exampleMockRules : List MockRule :=
  [{ id := "example-mock-http-status"
     name := ("Example: Mock JSON for " : Str) ++ exampleHost ++ ("/api/v1/status" : Str)
     enabled := false
     location := hostPath exampleHost "/api/v1/status"
     behavior := some (.httpResponse
       [{ status := 200
          headers := ((IndexMap.empty : IndexMap Str Str).insert "content-type" "application/json").insert exampleHeader
            exampleValue
          body := ("\x7b\"status\":\"ok\",\"message\":\"Example mock response from oproxy\",\"header\":\"" : Str) ++
            exampleHeader ++ ("\",\"value\":\"" : Str) ++ exampleValue ++ ("\"\x7d" : Str) }])
     responses := []
     callCount := 0 },
   { id := "example-mock-websocket"
     name := ("Example: Scripted WebSocket reply on " : Str) ++ exampleHost ++ ("/ws" : Str)
     enabled := false
     location := { hostPath exampleHost "/ws" with wireProtocol := some "websocket" }
     behavior := some (.webSocketScript [⟨1, exampleValue, 250⟩])
     responses := []
     callCount := 0 },
   { id := "example-mock-grpc"
     name := ("Example: gRPC trailers-only OK for " : Str) ++ exampleHost
     enabled := false
     location := { host exampleHost with applicationProtocol := some "grpc" }
     behavior := some (.grpcScript []
       ((HeaderMap.new.insert "grpc-status" "0").insert "grpc-message" exampleValue))
     responses := []
     callCount := 0 },
   { id := "example-mock-tunnel-refuse"
     name := ("Example: Refuse CONNECT tunnels to " : Str) ++ blockedHost
     enabled := false
     location := host blockedHost
     behavior := some (.tunnelDecision false 0)
     responses := []
     callCount := 0 }]

def exampleAccessRules : List AccessRule :=
  [{ id := "example-access-block"
     name := ("Example: Block all requests to " : Str) ++ blockedHost
     enabled := false
     location := host blockedHost
     action := .block }]

def exampleDnsOverrides : DnsOverrides := (IndexMap.empty : DnsOverrides).insert exampleHost ⟨"127.0.0.1", false⟩

def exampleBreakpoints : List BreakpointRule :=
  [{ id := "example-breakpoint-request"
     location := hostPath exampleHost examplePathGlob
     bpType := .request
     tier := .body
     enabled := false }]

/-- As a slow mobile connection. -/
def exampleThrottle : ThrottlingConfig := ⟨2000, 256, false⟩

/-- A host which a denylist might have; with this mode everything is recorded. -/
def exampleCaptureFilter : CaptureFilterConfig := ⟨.disabled, [blockedHost]⟩

def exampleLuaScripts : List LuaScript :=
  [{ id := "example-lua-tag-requests"
     name := ("Example: Tag " : Str) ++ exampleHost ++ (" requests with " : Str) ++ exampleHeader
     code := ("-- Example script: adds " : Str) ++ exampleHeader ++ (" to every request to " : Str) ++ exampleHost ++
       (".\n-- Enable it, send a request through the proxy, and look for the header\n" : Str) ++
       ("-- in the Sessions view. `request` and `response` are table globals;\n" : Str) ++
       ("-- call abort(status, body) to short-circuit a request.\n" : Str) ++
       ("if request and string.find(request.uri, \"" : Str) ++ exampleHost ++ ("\", 1, true) then\n" : Str) ++
       ("  request.headers[\"" : Str) ++ exampleHeader ++ ("\"] = \"" : Str) ++ exampleValue ++ ("\"\nend" : Str)
     enabled := false }]

/-- The files that are seeded, in their order. -/
def seeded : List (Σ r : Resource, r.Value) :=
  [⟨.collection .ruleSets, exampleRuleSets⟩,
   ⟨.collection .mapRemoteRules, exampleMapRemoteRules⟩,
   ⟨.collection .mapLocalRules, exampleMapLocalRules⟩,
   ⟨.collection .mockRules, exampleMockRules⟩,
   ⟨.collection .accessRules, exampleAccessRules⟩,
   ⟨.collection .dnsOverrides, exampleDnsOverrides⟩,
   ⟨.collection .breakpoints, exampleBreakpoints⟩,
   ⟨.throttling, exampleThrottle⟩,
   ⟨.captureFilter, exampleCaptureFilter⟩,
   ⟨.collection .luaScripts, exampleLuaScripts⟩]

/-! ### Files -/

/-- A file of the storage directory. -/
inductive Stored (V : Type) where
  | missing
  /-- It is there, and it is no text or holds no value of its kind. -/
  | unreadable
  | holds (value : V)

namespace Stored

variable {V : Type}

/-- `load_json`. -/
def loadJson (default : V) : Stored V → V
  | missing | unreadable => default
  | holds value => value

/-- `Path::exists`. -/
def isThere : Stored V → Bool
  | missing => false
  | unreadable | holds _ => true

end Stored

structure HotConfig where
  maxBodyBytes : Option Nat
  deriving DecidableEq

/-- The files of the resources. -/
abbrev Files : Type := (r : Resource) → Stored r.Value

/-- Write a file which is not there; it may not be possible. -/
def seed (canWrite : Resource → Bool) (files : Files) (entry : Σ r : Resource, r.Value) : Files :=
  if (files entry.1).isThere then files
  else if canWrite entry.1 then Function.update files entry.1 (.holds entry.2)
  else files

def seedFirstRunExamples (canWrite : Resource → Bool) (files : Files) : Files :=
  seeded.foldl (seed canWrite) files

/-! ### Loading -/

def loadWebhooks (hooks : List WebhookConfig) : List WebhookConfig :=
  (hooks.map fun hook => { hook with events := sanitizeWebhookEvents hook.events }).filter fun hook =>
    !hook.events.isEmpty

/-- A value on its way from its file to memory; `configured` is the upstream proxy of the configuration, which is in use
where the file names none. -/
def loaded (configured : Option Str) : (r : Resource) → r.Value → r.Value
  | .collection .webhooks, hooks => loadWebhooks hooks
  | .upstreamProxy, stored => Option.or stored configured
  | _, value => value

/-- What is in memory at first. -/
def load (configured : Option Str) (files : Files) : Memory :=
  fun r => loaded configured r ((files r).loadJson (emptyMemory r))

end Examples

end Oproxy
