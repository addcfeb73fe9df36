import Oproxy.Lib.Http
import Oproxy.Middleware.Chain

/-!
# Lua scripts (`middleware/plugins/lua_engine.rs`)

The enabled scripts run one after the other on a text view of the message: the body as text, the header fields as a
table with one value each.  What a script does to the tables is a parameter, `LuaVm`.
-/

namespace Oproxy

structure LuaScript where
  id : Str
  name : Str
  code : Str
  enabled : Bool

/-- The `request` table after a script, and the arguments of a call of `abort`.  An entry which is no text, or no
table of texts, is missing. -/
structure LuaRequestResult where
  abort : Option (Nat × Str)
  body : Option Str
  headers : Option (List (Str × Str))

/-- The `response` table after a script. -/
structure LuaResponseResult where
  status : Option Nat
  body : Option Str
  headers : Option (List (Str × Str))

/-- The sandboxed interpreter; a script which fails or times out has no result. -/
structure LuaVm where
  request : (code method uri body : Str) → IndexMap Str Str → Option LuaRequestResult
  response : (code : Str) → (status : Nat) → (body : Str) → IndexMap Str Str → Option LuaResponseResult

namespace LuaEngine

variable (vm : LuaVm)

/-- Write the pairs of a script's header table into the map. -/
def insertPairs (headers : IndexMap Str Str) (pairs : Option (List (Str × Str))) : IndexMap Str Str :=
  (pairs.getD []).foldl (fun m e => m.insert e.1 e.2) headers

structure RequestScriptOutcome where
  body : Str
  headers : IndexMap Str Str
  abort : Option (Nat × Str)

def runRequestScripts (method uri : Str) : List LuaScript → Str → IndexMap Str Str → RequestScriptOutcome
  | [], body, headers => ⟨body, headers, none⟩
  | script :: scripts, body, headers =>
    match vm.request script.code method uri body headers with
    | none => runRequestScripts method uri scripts body headers
    | some result =>
      match result.abort with
      | some abort => ⟨body, headers, some abort⟩
      | none => runRequestScripts method uri scripts (result.body.getD body) (insertPairs headers result.headers)

structure ResponseScriptOutcome where
  status : Nat
  body : Str
  headers : IndexMap Str Str

def runResponseScripts : List LuaScript → Nat → Str → IndexMap Str Str → ResponseScriptOutcome
  | [], status, body, headers => ⟨status, body, headers⟩
  | script :: scripts, status, body, headers =>
    match vm.response script.code status body headers with
    | none => runResponseScripts scripts status body headers
    | some result =>
      runResponseScripts scripts (result.status.getD status) (result.body.getD body)
        (insertPairs headers result.headers)

def abortResponse (status : Nat) (body : Str) : InterceptedResponse where
  status := (Http.statusCode status).getD 403
  headers := HeaderMap.new.insert "content-type" "text/plain"
  body := body.toUtf8
  tags := []
  servedMock := none

def onRequest (scripts : List LuaScript) (ctx : RequestContext) : RequestContext × MiddlewareAction :=
  let enabled := scripts.filter LuaScript.enabled
  if enabled.isEmpty then (ctx, .proceed)
  else
    let outcome := runRequestScripts vm ctx.method ctx.uri enabled ctx.bodyText ctx.headers.toMap
    match outcome.abort with
    | some (status, body) => ({ ctx with mockResponse := some (abortResponse status body) }, .stopAndReturn)
    | none => ({ ctx.setBodyText outcome.body with headers := HeaderMap.ofMap outcome.headers }, .proceed)

/-- What the enabled scripts make of a response. -/
def responseOutcome (scripts : List LuaScript) (ctx : ResponseContext) : ResponseScriptOutcome :=
  runResponseScripts vm (scripts.filter LuaScript.enabled) ctx.status ctx.bodyText ctx.headers.toMap

def onResponse (scripts : List LuaScript) (ctx : ResponseContext) : ResponseContext × MiddlewareAction :=
  if (scripts.filter LuaScript.enabled).isEmpty then (ctx, .proceed)
  else
    let outcome := responseOutcome vm scripts ctx
    ({ ctx.setBodyText outcome.body with
        status := outcome.status
        headers := HeaderMap.ofMap outcome.headers }, .proceed)

def middleware (scripts : List LuaScript) : Middleware where
  onRequest := onRequest vm scripts
  onResponse := onResponse vm scripts

/-- The scripts leave what a context says of its session and of its protocol. -/
theorem onRequest_channel (scripts : List LuaScript) (ctx : RequestContext) :
    (onRequest vm scripts ctx).1.sessionId = ctx.sessionId ∧
      (onRequest vm scripts ctx).1.skipRecording = ctx.skipRecording ∧
      (onRequest vm scripts ctx).1.protocolContext = ctx.protocolContext := by
  unfold onRequest
  dsimp only
  split
  · exact ⟨rfl, rfl, rfl⟩
  · split <;> exact ⟨rfl, rfl, rfl⟩

end LuaEngine

end Oproxy
