import Oproxy.Middleware.Chain
import Oproxy.Middleware.Matcher

/-!
# Map Local (`middleware/plugins/map_local.rs`)

The first enabled rule which matches and leads to a readable file answers with the contents of that file.  A rule
names a file, or a directory to which the path of the request is joined.  The file system is a parameter.
-/

namespace Oproxy

/-- The questions which are put to the file system. -/
structure FileSystem where
  exist : Str → Bool
  isDir : Str → Bool
  isFile : Str → Bool
  canonicalize : Str → Except Str Str
  read : Str → Option Bytes

namespace FilePath

def isAbsolute (path : Str) : Bool := path.head? == some '/'

/-- `Path::join`. -/
def join (base path : Str) : Str :=
  if isAbsolute path || base.isEmpty then path
  else if base.getLast? = some '/' then base ++ path
  else base ++ '/' :: path

/-- `Path::starts_with` on canonical paths, component by component. -/
def isUnder (path root : Str) : Bool :=
  path == root || Str.startsWith path (if root.getLast? = some '/' then root else root ++ ['/'])

/-- `Path::extension`: what follows the last dot of the file name, where something comes before it. -/
def extension (path : Str) : Option Str :=
  let name := ((Str.rsplitOnce '/' path).map Prod.snd).getD path
  ((Str.rsplitOnce '.' name).filter fun p => !p.1.isEmpty).map Prod.snd

end FilePath

structure MapLocalRule where
  id : Str
  name : Str
  enabled : Bool
  location : Location
  filePath : Str

namespace MapLocal

/-- The mounted directory and the managed one. -/
structure Dirs where
  basePath : Option Str
  fixturesDir : Option Str

variable (fs : FileSystem)

/-- An absolute path as it is; a relative one in the first directory in which it exists. -/
def resolveMapLocalPath (dirs : Dirs) (filePath : Str) : Str :=
  if FilePath.isAbsolute filePath then filePath
  else
    let inBase := dirs.basePath.map fun base => FilePath.join base filePath
    let inFixtures := dirs.fixturesDir.map fun fixtures => FilePath.join fixtures filePath
    ((inBase.filter fs.exist).orElse fun _ => (inFixtures.filter fs.exist).orElse fun _ =>
      inFixtures.orElse fun _ => inBase).getD filePath

def pathForRequest (root requestPath : Str) : Except Str (Option Str) :=
  if !fs.exist root then .error (("root path '" : Str) ++ root ++ ("' does not exist" : Str))
  else if fs.isDir root then
    match fs.canonicalize (FilePath.join root (requestPath.dropWhile (· = '/'))) with
    | .error _ => .ok none
    | .ok resolved =>
      let canonicalRoot := match fs.canonicalize root with
        | .ok path => path
        | .error _ => root
      .ok (if FilePath.isUnder resolved canonicalRoot && fs.isFile resolved then some resolved else none)
  else
    match fs.canonicalize root with
    | .ok path =>
      if fs.isFile path then .ok (some path) else .error (("'" : Str) ++ root ++ ("' is not a regular file" : Str))
    | .error error => .error (("'" : Str) ++ root ++ ("' is not accessible: " : Str) ++ error)

def mapLocalError (message : Str) : InterceptedResponse where
  status := 502
  headers := HeaderMap.new.insert "content-type" "text/plain"
  body := Str.toUtf8 (("map_local: " : Str) ++ message)
  tags := ["map-local-error"]
  servedMock := none

/-- The media types by extension. -/
private def mimeTypes : List (String × String) :=
  [("json", "application/json"), ("html", "text/html; charset=utf-8"), ("htm", "text/html; charset=utf-8"),
   ("js", "application/javascript"), ("mjs", "application/javascript"), ("ts", "application/typescript"),
   ("css", "text/css"), ("xml", "application/xml"), ("txt", "text/plain; charset=utf-8"),
   ("svg", "image/svg+xml"), ("png", "image/png"), ("jpg", "image/jpeg"), ("jpeg", "image/jpeg"),
   ("gif", "image/gif"), ("webp", "image/webp"), ("ico", "image/x-icon"), ("wasm", "application/wasm"),
   ("pdf", "application/pdf"), ("gz", "application/gzip"), ("zip", "application/zip")]

def mimeForPath (path : Str) : Str :=
  ((FilePath.extension path).bind fun ext =>
    (mimeTypes.find? fun entry => entry.1.toList = ext).map fun entry => entry.2.toList).getD
      "application/octet-stream"

def fileResponse (path : Str) (contents : Bytes) : InterceptedResponse where
  status := 200
  headers := (HeaderMap.new.insert "Content-Type" (mimeForPath path)).insert "Content-Length"
    (Str.ofNat contents.length)
  body := contents
  tags := ["map-local"]
  servedMock := none

private def intercept (ctx : RequestContext) (rule : MapLocalRule) (reason : FlowShortCircuitReason)
    (response : InterceptedResponse) : RequestContext × MiddlewareAction :=
  (({ ctx with mockResponse := some response }).pushFlow
    (.shortCircuited reason response.status (some rule.id) (some rule.name)), .stopAndReturn)

def serveLoop (regex : RegexEngine) (dirs : Dirs) (target : MatchTarget) : List MapLocalRule → RequestContext →
    RequestContext × MiddlewareAction
  | [], ctx => (ctx, .proceed)
  | rule :: rules, ctx =>
    if !rule.location.matchesTarget regex target then serveLoop regex dirs target rules ctx
    else
      let ctx := ctx.pushFlow (.ruleMatched .mapLocal rule.id rule.name)
      match pathForRequest fs (resolveMapLocalPath fs dirs rule.filePath) target.path with
      | .ok none => serveLoop regex dirs target rules ctx
      | .error message => intercept ctx rule .mapLocalError (mapLocalError message)
      | .ok (some path) =>
        match fs.read path with
        | some contents => intercept ctx rule .mapLocalFile (fileResponse path contents)
        | none => serveLoop regex dirs target rules ctx

def onRequest (regex : RegexEngine) (dirs : Dirs) (rules : List MapLocalRule) (ctx : RequestContext) :
    RequestContext × MiddlewareAction :=
  serveLoop fs regex dirs (MatchTarget.fromRequest ctx) (rules.filter MapLocalRule.enabled) ctx

def middleware (regex : RegexEngine) (dirs : Dirs) (rules : List MapLocalRule) : Middleware where
  onRequest := onRequest fs regex dirs rules

/-- The rules leave what a context says of its session and of its protocol. -/
theorem onRequest_channel (regex : RegexEngine) (dirs : Dirs) (rules : List MapLocalRule) (ctx : RequestContext) :
    (onRequest fs regex dirs rules ctx).1.sessionId = ctx.sessionId ∧
      (onRequest fs regex dirs rules ctx).1.skipRecording = ctx.skipRecording ∧
      (onRequest fs regex dirs rules ctx).1.protocolContext = ctx.protocolContext := by
  unfold onRequest
  generalize MatchTarget.fromRequest ctx = target
  induction rules.filter MapLocalRule.enabled generalizing ctx with
  | nil => exact ⟨rfl, rfl, rfl⟩
  | cons rule rules ih =>
    -- a rule which serves a file ends the loop, any other goes on with a longer trace
    have hnext := ih (ctx.pushFlow (.ruleMatched .mapLocal rule.id rule.name))
    unfold serveLoop
    split
    · exact ih ctx
    · dsimp only
      split
      · exact hnext
      · exact ⟨rfl, rfl, rfl⟩
      · split
        · exact ⟨rfl, rfl, rfl⟩
        · exact hnext

end MapLocal

end Oproxy
