import Oproxy.ControlPlane.EgressPolicy
import Oproxy.ControlPlane.Identities
import Oproxy.ControlPlane.Router
import Oproxy.Lib.Utf8
import Oproxy.Middleware.Plugins.CaptureFilter

/-!
# Mutations over HTTP (`control_plane/policy.rs`, `breakpoints.rs`, `extensions.rs`, `webhooks.rs`, `settings.rs`)

What the admin API may change: the persisted collections and three settings, each in memory and in a file.  A handler
reads its request, checks it, edits the value in memory and saves it; the upstream proxy is saved first.
-/

namespace Oproxy

open Persisted SharedFile

structure ThrottlingConfig where
  latencyMs : UInt64
  bandwidthLimitKbps : UInt64
  enabled : Bool
  deriving DecidableEq

namespace Mutations

/-! ### Resources -/

inductive Resource where
  | collection (name : CollectionName)
  | throttling
  | captureFilter
  | upstreamProxy
  deriving DecidableEq

def Resource.Value : Resource → Type
  | collection name => name.collection.Value
  | throttling => ThrottlingConfig
  | captureFilter => CaptureFilterConfig
  | upstreamProxy => Option Str

/-- What is in memory; for the upstream proxy, the one of the client in use. -/
abbrev Memory : Type := (r : Resource) → r.Value

/-- A file which is written: the one of a resource, or a fixture. -/
inductive Write where
  | resource (r : Resource) (value : r.Value)
  | fixture (path : Str) (contents : Bytes)

/-- Whether a resource is saved before it is changed in memory, or after it. -/
inductive Order where
  | editFirst
  | saveFirst
  deriving DecidableEq

/-- How a handler changes a value, when it has written some fixtures. -/
structure Mutation (E V : Type) where
  order : Order
  fixtures : List (Str × Bytes)
  edit : V → Except E V

/-- What a request comes to. -/
inductive Call (E : Type) where
  | refused (e : E)
  | mutates (r : Resource) (m : Mutation E r.Value)
  /-- It is about something else. -/
  | other

structure Reply (E : Type) where
  answer : Except E Unit
  memory : Memory
  writes : List Write

/-- Carry out a request; the disk may refuse to save a file, with a text. -/
def Call.run {E : Type} (storageError : Str → E) (saveError : Option Str) (memory : Memory) : Call E → Reply E
  | refused e => ⟨.error e, memory, []⟩
  | other => ⟨.ok (), memory, []⟩
  | mutates r m =>
    let fixtures := m.fixtures.map fun f => .fixture f.1 f.2
    match m.edit (memory r) with
    | .error e => ⟨.error e, memory, fixtures⟩
    | .ok value =>
      match saveError, m.order with
      | none, _ => ⟨.ok (), Function.update memory r value, fixtures ++ [.resource r value]⟩
      | some e, .editFirst => ⟨.error (storageError e), Function.update memory r value, fixtures⟩
      | some e, .saveFirst => ⟨.error (storageError e), memory, fixtures⟩

/-- A request which may be refused on the way. -/
def Call.ofExcept {E : Type} : Except E (Call E) → Call E
  | .error e => refused e
  | .ok call => call

/-- Edit a collection and save it. -/
def editCollection {E : Type} (name : CollectionName) (notFound : E) (request : name.collection.Request) : Call E :=
  .mutates (.collection name) {
    order := .editFirst
    fixtures := []
    edit := fun value =>
      match (name.collection.handler request).edit value with
      | some value => .ok value
      | none => .error notFound }

/-- Replace a value and save it. -/
def replaceValue {E : Type} (r : Resource) (value : r.Value) : Call E :=
  .mutates r { order := .editFirst, fixtures := [], edit := fun _ => .ok value }

/-- Save a value and use it. -/
def saveValue {E : Type} (r : Resource) (value : r.Value) : Call E :=
  .mutates r { order := .saveFirst, fixtures := [], edit := fun _ => .ok value }

/-! ### Bodies -/

/-- How the fields of a structure are read, from an object or from a list, and what is said of a value which is none. -/
structure StructDecoder (T : Type) where
  visitMap : List (Str × Json) → Option T
  visitSeq : List Json → Option T
  describe : Json → Str

namespace StructDecoder

variable {T : Type} (decoder : StructDecoder T)

def read : Json → Option T
  | .obj members => decoder.visitMap members
  | .arr items => decoder.visitSeq items
  | _ => none

/-- `serde_json::from_value`. -/
def fromValue (value : Json) : Except Str T :=
  match decoder.read value with
  | some t => .ok t
  | none => .error (decoder.describe value)

end StructDecoder

/-- A Map Local rule as it is sent.  In memory nothing reads an inline body, and no file has one. -/
structure MapLocalBody where
  rule : MapLocalRule
  inlineBody : Option Str

/-- The decoders of the structures of the source. -/
structure Serde where
  accessRule : StructDecoder AccessRule
  ruleSet : StructDecoder RewriteRuleSet
  mapLocalRule : StructDecoder MapLocalBody
  mapRemoteRule : StructDecoder MapRemoteRule
  breakpointRule : StructDecoder BreakpointRule
  mockRule : StructDecoder MockRule
  luaScript : StructDecoder LuaScript
  webhook : StructDecoder WebhookConfig
  throttling : StructDecoder ThrottlingConfig
  captureFilter : StructDecoder CaptureFilterConfig
  forwardReq : StructDecoder Unit
  forwardWsReq : StructDecoder Unit
  /-- What is said of a value which is no DNS body, and no upstream proxy. -/
  describeDns : Json → Str
  describeUpstreamProxy : Json → Str

/-! ### Files -/

/-- The file system, and what it answers where a directory or a file cannot be written. -/
structure Disk where
  fs : FileSystem
  createDirError : Str → Option Str
  writeError : Str → Option Str
  saveError : Option Str

/-- The directory exists, and those on the way to it. -/
def madeDir (dir : Str) (fs : FileSystem) : FileSystem :=
  { fs with exist := fun path => fs.exist path || FilePath.isUnder dir path }

def writtenFile (file : Str) (contents : Bytes) (fs : FileSystem) : FileSystem :=
  { fs with
    exist := fun path => fs.exist path || path == file
    isFile := fun path => fs.isFile path || path == file
    read := fun path => if path = file then some contents else fs.read path }

/-- What the handlers ask of the rest of the program and of the system. -/
structure Env where
  serde : Serde
  /-- The id which is made up for a new item. -/
  newId : Str
  parseUrl : Str → Except Str Url
  resolve : Egress.Resolve
  policy : Egress.AdminEgressPolicy
  ipText : IpAddr → Str
  regexNew : Str → Except Str Unit
  proxyAll : Str → Bool
  mapLocalBasePath : Option Str
  storagePath : Str
  disk : Disk

/-! ### Webhooks -/

def WebhookEvent.isDispatchable : WebhookEvent → Bool
  | .requestCaptured | .responseCaptured => true
  | .breakpointHit | .error => false

/-- The events which are dispatched, each once. -/
def sanitizeWebhookEvents (events : List WebhookEvent) : List WebhookEvent :=
  (events.filter WebhookEvent.isDispatchable).eraseDups

/-- The checks of a webhook, the same in three places; `refuse` and `block` make an error of a text. -/
def checkWebhook {E : Type} (env : Env) (refuse block : Str → E) (hook : WebhookConfig) : Except E WebhookConfig :=
  let hook := { hook with events := sanitizeWebhookEvents hook.events }
  if hook.events.isEmpty then .error (refuse "webhook must include request_captured or response_captured")
  else
    match env.parseUrl hook.url with
    | .error e => .error (refuse (("invalid webhook URL: " : Str) ++ e))
    | .ok url =>
      if url.scheme = ("http" : Str) ∨ url.scheme = ("https" : Str) then
        match Egress.enforceAdminEgressPolicy env.resolve url env.policy with
        | .error blocked => .error (block (blocked.message env.ipText))
        | .ok () => .ok hook
      else .error (refuse (("unsupported webhook URL scheme: " : Str) ++ url.scheme))

/-! ### DNS bodies -/

/-- A member which may be left out. -/
def optionalMember {T : Type} (key : Str) (default : T) (read : Json → Option T) (members : List (Str × Json)) :
    Option T :=
  match Json.get? key (.obj members) with
  | none => some default
  | some value => read value

def member {T : Type} (key : Str) (read : Json → Option T) (members : List (Str × Json)) : Option T :=
  (Json.get? key (.obj members)).bind read

/-- `Option<bool>`. -/
def optionalBool : Json → Option (Option Bool)
  | .null => some none
  | .bool b => some (some b)
  | _ => none

/-- `Option<String>`. -/
def optionalStr : Json → Option (Option Str)
  | .null => some none
  | .str s => some (some s)
  | _ => none

def dnsEntry : Json → Option DnsEntry
  | .obj members => do
    let ip ← member "ip" Json.asStr members
    let enabled ← optionalMember "enabled" true Json.asBool members
    return ⟨ip, enabled⟩
  | .arr [.str ip] => some ⟨ip, true⟩
  | .arr [.str ip, .bool enabled] => some ⟨ip, enabled⟩
  | _ => none

/-- `DnsValue` as the entry it stands for: an address alone, or an entry. -/
def dnsValue : Json → Option DnsEntry
  | .str ip => some ⟨ip, true⟩
  | value => dnsEntry value

/-- A map from hosts. -/
def dnsMap (read : Json → Option DnsEntry) : Json → Option DnsOverrides
  | .obj members =>
    (members.mapM fun m => (read m.2).map fun entry => (m.1, entry)).map fun entries =>
      entries.foldl (fun m e => m.insert e.1 e.2) IndexMap.empty
  | _ => none

/-- `SingleDnsOverrideRequest` with its entry. -/
def singleDnsOverride : Json → Option (Str × DnsEntry)
  | .obj members => do
    let host ← member "host" Json.asStr members
    let ip ← member "ip" Json.asStr members
    let enabled ← optionalMember "enabled" none optionalBool members
    return (host, ⟨ip, enabled.getD true⟩)
  | .arr [.str host, .str ip] => some (host, ⟨ip, true⟩)
  | .arr [.str host, .str ip, enabled] => (optionalBool enabled).map fun enabled => (host, ⟨ip, enabled.getD true⟩)
  | _ => none

/-- `UpstreamProxyBody`. -/
def upstreamProxyBody : Json → Option (Option Str)
  | .obj members => optionalMember "upstream_proxy" none optionalStr members
  | .arr [value] => optionalStr value
  | _ => none

namespace Http

structure HttpError where
  status : Nat
  error : Str

def unprocessable (error : Str) : HttpError := ⟨422, error⟩

def notFound : HttpError := ⟨404, []⟩

def storageErrorResponse (error : Str) : HttpError := ⟨507, ("failed to persist state: " : Str) ++ error⟩

def adminEgressPolicyResponse (error : Str) : HttpError := ⟨403, error⟩

/-- The `Json` extractor. -/
def jsonBody {T : Type} (decoder : StructDecoder T) (body : Json) : Except HttpError T :=
  (decoder.fromValue body).mapError fun e =>
    unprocessable (("Failed to deserialize the JSON body into the target type: " : Str) ++ e)

section

variable (env : Env) {T : Type}

/-- The body of a new item, with the checks of its handler, and the request for it. -/
def createItem (name : CollectionName) (decoder : StructDecoder T) (check : T → Except HttpError T)
    (request : Str → T → name.collection.Request) (body : Json) : Call HttpError :=
  .ofExcept do
    let item ← jsonBody decoder body
    let item ← check item
    return editCollection name notFound (request env.newId item)

def updateItem (name : CollectionName) (decoder : StructDecoder T) (check : T → Except HttpError T) (missing : Str)
    (request : Str → T → name.collection.Request) (id : Except HttpError Str) (body : Json) : Call HttpError :=
  .ofExcept do
    let id ← id
    let item ← jsonBody decoder body
    let item ← check item
    return editCollection name { notFound with error := missing } (request id item)

def deleteItem (name : CollectionName) (missing : Str) (request : Str → name.collection.Request)
    (id : Except HttpError Str) : Call HttpError :=
  .ofExcept do
    let id ← id
    return editCollection name { notFound with error := missing } (request id)

end

variable (env : Env)

/-! ### Policy rules -/

def createAccessRule : Json → Call HttpError :=
  createItem env .accessRules env.serde.accessRule .ok fun newId rule => ⟨.http, .create newId rule⟩

def updateAccessRule : Except HttpError Str → Json → Call HttpError :=
  updateItem .accessRules env.serde.accessRule .ok [] fun id rule => ⟨.http, .update id rule⟩

def deleteAccessRule : Except HttpError Str → Call HttpError :=
  deleteItem .accessRules [] fun id => ⟨.http, .delete id⟩

def updateThrottling (body : Json) : Call HttpError :=
  .ofExcept ((jsonBody env.serde.throttling body).map (replaceValue .throttling))

/-- The body need not be a structure. -/
def reorderRuleSets (body : Json) : Call HttpError :=
  match reorderIds body with
  | none => .refused (unprocessable "ids array required")
  | some ids => editCollection .ruleSets notFound (.reorder ids)

def createRuleSet : Json → Call HttpError :=
  createItem env .ruleSets env.serde.ruleSet .ok fun newId rule => .item ⟨.http, .create newId rule⟩

def updateRuleSet : Except HttpError Str → Json → Call HttpError :=
  updateItem .ruleSets env.serde.ruleSet .ok [] fun id rule => .item ⟨.http, .update id rule⟩

def deleteRuleSet : Except HttpError Str → Call HttpError :=
  deleteItem .ruleSets [] fun id => .item ⟨.http, .delete id⟩

def mapLocalFixturesDir : Str := FilePath.join env.storagePath "map-local"

def validateMapLocalPath (fs : FileSystem) (rule : MapLocalRule) : Except HttpError Unit :=
  if rule.filePath.trim.isEmpty then
    .error (unprocessable
      "file_path is required — set a file/directory path, upload a file, or paste fixture content")
  else
    let path := MapLocal.resolveMapLocalPath fs ⟨env.mapLocalBasePath, some (mapLocalFixturesDir env)⟩ rule.filePath
    if fs.exist path then .ok ()
    else
      let absolute := Str.startsWith rule.filePath "/"
      let hint : Str :=
        match env.mapLocalBasePath, absolute with
        | some base, false =>
          ("relative paths resolve from base path '" : Str) ++ base ++ ("' or the managed fixtures dir '" : Str) ++
            mapLocalFixturesDir env ++ ("'" : Str)
        | none, false =>
          ("relative paths resolve from the managed fixtures dir '" : Str) ++ mapLocalFixturesDir env ++
            ("' — upload a file first" : Str)
        | _, true => "In containerized deployments ensure the path is mounted inside the container."
      .error (unprocessable (("file_path '" : Str) ++ rule.filePath ++
        ("' does not exist or is not accessible from this process. " : Str) ++ hint))

/-- The one component of a name, where it has no other and is a name. -/
def sanitizeFixtureName (name : Str) : Option Str :=
  let trimmed := name.trim
  if FilePath.isAbsolute trimmed then none
  else
    match (Str.split '/' trimmed).filter fun part => !part.isEmpty with
    | [] => none
    | first :: rest =>
      if first = ("." : Str) ∨ first = (".." : Str) ∨ (rest.any fun part => part ≠ ("." : Str)) then none
      else some first

/-- The rule to keep, the fixture which has been written, and the file system after it. -/
def materializeInlineFixture (submitted : MapLocalBody) :
    Except HttpError (MapLocalRule × List (Str × Bytes) × FileSystem) :=
  match submitted.inlineBody with
  | none => .ok (submitted.rule, [], env.disk.fs)
  | some body =>
    match sanitizeFixtureName submitted.rule.filePath with
    | none =>
      .error (unprocessable
        "inline_body requires file_path to be a single fixture file name (no path separators or '..')")
    | some safe =>
      let dir := mapLocalFixturesDir env
      let file := FilePath.join dir safe
      match env.disk.createDirError dir, env.disk.writeError file with
      | some e, _ => .error (storageErrorResponse e)
      | none, some e => .error (storageErrorResponse e)
      | none, none =>
        .ok ({ submitted.rule with filePath := safe }, [(file, body.toUtf8)],
          writtenFile file body.toUtf8 (madeDir dir env.disk.fs))

/-- The start of `create_map_local_rule` and `update_map_local_rule`: the fixture, and the check of the path. -/
def prepareMapLocalRule (body : Json) : Except HttpError (MapLocalRule × List (Str × Bytes)) := do
  let submitted ← jsonBody env.serde.mapLocalRule body
  let (rule, fixtures, fs) ← materializeInlineFixture env submitted
  validateMapLocalPath env fs rule
  return (rule, fixtures)

/-- An edit after some fixtures. -/
def withFixtures (fixtures : List (Str × Bytes)) : Call HttpError → Call HttpError
  | .mutates r m => .mutates r { m with fixtures := fixtures }
  | call => call

def createMapLocalRule (body : Json) : Call HttpError :=
  .ofExcept do
    let (rule, fixtures) ← prepareMapLocalRule env body
    return withFixtures fixtures (editCollection .mapLocalRules notFound ⟨.http, .create env.newId rule⟩)

def updateMapLocalRule (id : Except HttpError Str) (body : Json) : Call HttpError :=
  .ofExcept do
    let id ← id
    let (rule, fixtures) ← prepareMapLocalRule env body
    return withFixtures fixtures (editCollection .mapLocalRules notFound ⟨.http, .update id rule⟩)

def deleteMapLocalRule : Except HttpError Str → Call HttpError :=
  deleteItem .mapLocalRules [] fun id => ⟨.http, .delete id⟩

def createMapRemoteRule : Json → Call HttpError :=
  createItem env .mapRemoteRules env.serde.mapRemoteRule .ok fun newId rule => ⟨.http, .create newId rule⟩

def updateMapRemoteRule : Except HttpError Str → Json → Call HttpError :=
  updateItem .mapRemoteRules env.serde.mapRemoteRule .ok [] fun id rule => ⟨.http, .update id rule⟩

def deleteMapRemoteRule : Except HttpError Str → Call HttpError :=
  deleteItem .mapRemoteRules [] fun id => ⟨.http, .delete id⟩

def updateCaptureFilter (body : Json) : Call HttpError :=
  .ofExcept ((jsonBody env.serde.captureFilter body).map (replaceValue .captureFilter))

/-! ### Breakpoints -/

def validateLocation (rule : BreakpointRule) : Except HttpError BreakpointRule :=
  match rule.location.mode, rule.location.path with
  | .regex, some path =>
    match env.regexNew path with
    | .ok () => .ok rule
    | .error e => .error (unprocessable (("invalid path regex: " : Str) ++ e))
  | _, _ => .ok rule

def addBpRule : Json → Call HttpError :=
  createItem env .breakpoints env.serde.breakpointRule (validateLocation env) fun newId rule =>
    ⟨.http, .create newId rule⟩

def updateBpRule : Except HttpError Str → Json → Call HttpError :=
  updateItem .breakpoints env.serde.breakpointRule (validateLocation env) [] fun id rule => ⟨.http, .update id rule⟩

def deleteBpRule : Except HttpError Str → Call HttpError :=
  deleteItem .breakpoints [] fun id => ⟨.http, .delete id⟩

/-! ### Mock rules and scripts -/

def createMockRule : Json → Call HttpError :=
  createItem env .mockRules env.serde.mockRule .ok fun newId rule => .item ⟨.http, .create newId rule⟩

def updateMockRule : Except HttpError Str → Json → Call HttpError :=
  updateItem .mockRules env.serde.mockRule .ok "mock rule not found" fun id rule => .item ⟨.http, .update id rule⟩

def deleteMockRule : Except HttpError Str → Call HttpError :=
  deleteItem .mockRules "mock rule not found" fun id => .item ⟨.http, .delete id⟩

def resetMockRule : Except HttpError Str → Call HttpError :=
  deleteItem .mockRules "mock rule not found" fun id => .reset id

def createScript : Json → Call HttpError :=
  createItem env .luaScripts env.serde.luaScript .ok fun newId script => ⟨.http, .create newId script⟩

def updateScript : Except HttpError Str → Json → Call HttpError :=
  updateItem .luaScripts env.serde.luaScript .ok "script not found" fun id script => ⟨.http, .update id script⟩

def deleteScript : Except HttpError Str → Call HttpError :=
  deleteItem .luaScripts "script not found" fun id => ⟨.http, .delete id⟩

/-! ### Webhooks, DNS overrides and the upstream proxy -/

def createWebhook : Json → Call HttpError :=
  createItem env .webhooks env.serde.webhook (checkWebhook env unprocessable adminEgressPolicyResponse)
    fun newId hook => ⟨.http, .create newId hook⟩

def updateWebhook : Except HttpError Str → Json → Call HttpError :=
  updateItem .webhooks env.serde.webhook (checkWebhook env unprocessable adminEgressPolicyResponse) "webhook not found"
    fun id hook => ⟨.http, .update id hook⟩

def deleteWebhook : Except HttpError Str → Call HttpError :=
  deleteItem .webhooks "webhook not found" fun id => ⟨.http, .delete id⟩

/-- One entry where the body is one with a host, and otherwise all of them. -/
def updateDns (body : Json) : Call HttpError :=
  let replace : Call HttpError :=
    match dnsMap dnsValue body with
    | some overrides => editCollection .dnsOverrides notFound (.replace overrides)
    | none =>
      .refused (unprocessable (
        ("expected either a single \x7b\"host\": ..., \"ip\": ..., \"enabled\": ...\x7d object, " : Str) ++
        ("or a whole-map replace \x7b\"<host>\": \x7b\"ip\": ..., \"enabled\": ...\x7d, ...\x7d: " : Str) ++
        env.serde.describeDns body))
  match singleDnsOverride body with
  | some (host, entry) =>
    if host.trim.isEmpty then replace else editCollection .dnsOverrides notFound (.upsert host entry)
  | none => replace

def upsertDns (host : Except HttpError Str) (body : Json) : Call HttpError :=
  .ofExcept do
    let host ← host
    match dnsEntry body with
    | some entry => return editCollection .dnsOverrides notFound (.upsert host entry)
    | none =>
      .error (unprocessable
        (("Failed to deserialize the JSON body into the target type: " : Str) ++ env.serde.describeDns body))

def deleteDns : Except HttpError Str → Call HttpError := deleteItem .dnsOverrides [] fun host => .delete host

def setUpstreamProxyHandler (body : Json) : Call HttpError :=
  match upstreamProxyBody body with
  | none =>
    .refused (unprocessable
      (("Failed to deserialize the JSON body into the target type: " : Str) ++ env.serde.describeUpstreamProxy body))
  | some url =>
    match url.filter fun s => !s.isEmpty with
    | none => saveValue .upstreamProxy none
    | some url =>
      if env.proxyAll url then saveValue .upstreamProxy (some url) else .refused (unprocessable "invalid proxy URL")

/-! ### Routes -/

/-- The handlers of the routes which change something, for the parameter of the path and the body. -/
def handlers (param : Except HttpError Str) (body : Json) : List (Router.Handler × Call HttpError) :=
  [(.route "/admin/throttling" "PUT", updateThrottling env body),
    (.route "/admin/throttling" "POST", updateThrottling env body),
    (.route "/admin/access-rules" "POST", createAccessRule env body),
    (.route "/admin/access-rules/{id}" "PUT", updateAccessRule env param body),
    (.route "/admin/access-rules/{id}" "DELETE", deleteAccessRule param),
    (.route "/admin/rule-sets" "POST", createRuleSet env body),
    (.route "/admin/rule-sets/reorder" "PATCH", reorderRuleSets body),
    (.route "/admin/rule-sets/{id}" "PUT", updateRuleSet env param body),
    (.route "/admin/rule-sets/{id}" "DELETE", deleteRuleSet param),
    (.route "/admin/capture-filter" "POST", updateCaptureFilter env body),
    (.route "/admin/dns" "POST", updateDns env body),
    (.route "/admin/dns/{host}" "PUT", upsertDns env param body),
    (.route "/admin/dns/{host}" "DELETE", deleteDns param),
    (.route "/admin/map-local-rules" "POST", createMapLocalRule env body),
    (.route "/admin/map-local-rules/{id}" "PUT", updateMapLocalRule env param body),
    (.route "/admin/map-local-rules/{id}" "DELETE", deleteMapLocalRule param),
    (.route "/admin/map-remote-rules" "POST", createMapRemoteRule env body),
    (.route "/admin/map-remote-rules/{id}" "PUT", updateMapRemoteRule env param body),
    (.route "/admin/map-remote-rules/{id}" "DELETE", deleteMapRemoteRule param),
    (.route "/admin/breakpoints" "POST", addBpRule env body),
    (.route "/admin/breakpoints/{id}" "PUT", updateBpRule env param body),
    (.route "/admin/breakpoints/{id}" "DELETE", deleteBpRule param),
    (.route "/admin/mock/rules" "POST", createMockRule env body),
    (.route "/admin/mock/rules/{id}" "PUT", updateMockRule env param body),
    (.route "/admin/mock/rules/{id}" "DELETE", deleteMockRule param),
    (.route "/admin/mock/rules/{id}/reset" "POST", resetMockRule param),
    (.route "/admin/scripts" "POST", createScript env body),
    (.route "/admin/scripts/{id}" "PUT", updateScript env param body),
    (.route "/admin/scripts/{id}" "DELETE", deleteScript param),
    (.route "/admin/webhooks" "POST", createWebhook env body),
    (.route "/admin/webhooks/{id}" "PUT", updateWebhook env param body),
    (.route "/admin/webhooks/{id}" "DELETE", deleteWebhook param),
    (.route "/admin/upstream-proxy" "POST", setUpstreamProxyHandler env body)]

/-- The segment of a path which stands for the parameter of its route. -/
def paramSegment (pattern path : Str) : Str :=
  (((Str.split '/' pattern).zip (Str.split '/' path)).find? fun p => Str.startsWith p.1 "\x7b").elim [] Prod.snd

/-- The byte which two hexadecimal digits stand for. -/
def percentByte : Str → Option UInt8
  | a :: b :: _ => do
    let high ← IpAddr.hexDigit a
    let low ← IpAddr.hexDigit b
    return UInt8.ofNat (16 * high + low)
  | _ => none

/-- The bytes of a text in which a percent sign before two hexadecimal digits stands for a byte; the first characters
are skipped. -/
def percentDecodeFrom : Nat → Str → Bytes
  | _, [] => []
  | skip + 1, _ :: rest => percentDecodeFrom skip rest
  | 0, c :: rest =>
    match if c = '%' then percentByte rest else none with
    | some byte => byte :: percentDecodeFrom 2 rest
    | none => String.utf8EncodeChar c ++ percentDecodeFrom 0 rest

def percentDecode : Str → Bytes := percentDecodeFrom 0

/-- The text of some bytes, where they are UTF-8. -/
def utf8Text (bytes : Bytes) : Option Str :=
  let text := Utf8.decodeLossy bytes
  if text.toUtf8 = bytes then some text else none

/-- The `Path` extractor. -/
def pathParam (pattern path : Str) : Except HttpError Str :=
  match utf8Text (percentDecode (paramSegment pattern path)) with
  | some param => .ok param
  | none => .error ⟨400, "Invalid URL: Invalid UTF-8 in path"⟩

/-- What a request comes to. -/
def call (method path : Str) (body : Json) : Call HttpError :=
  match Router.handlerFor method path with
  | none => .refused ⟨405, []⟩
  | some handler =>
    let param := match handler with
      | .route pattern _ => pathParam pattern path
      | .fallback => .ok []
    match (handlers env param body).find? fun h => h.1 = handler with
    | some h => h.2
    | none => .other

end Http

end Mutations

end Oproxy
