import Oproxy.Engine.Wire
import Oproxy.Lib.Base64
import Oproxy.Lib.Binary64
import Oproxy.Session.Store

/-!
# HAR entries (`har.rs`)

One exchange as an entry of an HTTP archive, and an entry of an archive as an exchange.  Times are texts in an archive
and counts of milliseconds are doubles; what the conversions take from other libraries for that, and for the id and
the time of an entry which has none, is a parameter.
-/

namespace Oproxy

structure HarNameValue where
  name : Str
  value : Str
  deriving DecidableEq

structure HarCookie where
  name : Str
  value : Str
  deriving DecidableEq

structure HarPostData where
  mimeType : Str
  text : Str
  deriving DecidableEq

structure HarContent where
  size : Int
  mimeType : Str
  text : Option Str
  deriving DecidableEq

structure HarCache where
  deriving DecidableEq

structure HarTimings where
  dns : Option Float
  connect : Option Float
  ssl : Option Float
  wait : Float
  receive : Float
  send : Float
  deriving DecidableEq

structure HarRequest where
  method : Str
  url : Str
  httpVersion : Str
  cookies : List HarCookie
  headers : List HarNameValue
  queryString : List HarNameValue
  postData : Option HarPostData
  headersSize : Int
  bodySize : Int
  deriving DecidableEq

structure HarResponse where
  status : Nat
  statusText : Str
  httpVersion : Str
  cookies : List HarCookie
  headers : List HarNameValue
  content : HarContent
  redirectUrl : Str
  headersSize : Int
  bodySize : Int
  deriving DecidableEq

structure HarEntry where
  startedDateTime : Str
  time : Float
  request : HarRequest
  response : HarResponse
  timings : HarTimings
  serverIpAddress : Option Str
  connection : Option Str
  cache : HarCache
  oproxyId : Option Str
  oproxyNote : Option Str
  oproxyTags : List Str
  oproxyUpdatedAt : Option Str
  oproxyStreamId : Option Nat
  oproxyDownstreamProtocol : Option Str
  oproxyProtocolContext : Option ProtocolContext
  deriving DecidableEq

/-- What the conversions take from other libraries: RFC 3339 texts, the clock and fresh ids. -/
structure HarWorld where
  toRfc3339 : Timestamp → Str
  parseRfc3339 : Str → Option Timestamp
  now : Timestamp
  newId : Str

/-- The text of the time is read as the time. -/
def HarWorld.ReadsBack (world : HarWorld) (time : Timestamp) : Prop :=
  world.parseRfc3339 (world.toRfc3339 time) = some time

namespace Har

/-! ### Utilities -/

/-- The headers an archive does not keep. -/
def shouldSkipHarHeader (header : Str) : Bool :=
  let header := header.trim.toAsciiLowercase
  (["connection", "keep-alive", "proxy-authenticate", "proxy-authorization", "proxy-connection", "te", "trailer",
    "transfer-encoding", "upgrade"].map String.toList).contains header || header.startsWith "x-oproxy-"

def urlDecode (s : Str) : Str := Str.replace "%20" " " (s.map fun c => if c = '+' then ' ' else c)

def parseQueryString (uri : Str) : List HarNameValue :=
  let query := ((Str.splitOnce '?' uri).map Prod.snd).getD []
  if query.isEmpty then []
  else (Str.split '&' query).map fun pair =>
    let parts := (Str.splitOnce '=' pair).getD (pair, [])
    ⟨urlDecode parts.1, urlDecode parts.2⟩

def extractHost (url : Str) : Str :=
  let rest := ((Str.splitOnceStr "://" url).map Prod.snd).getD url
  (Str.split '?' ((Str.split '/' rest).headD [])).headD []

def parseCookies (s : Str) : List HarCookie :=
  (Str.split ';' s).filterMap fun pair =>
    let parts := (Str.splitOnce '=' pair.trim).getD (pair.trim, [])
    let name := parts.1.trim
    if name.isEmpty then none else some ⟨name, parts.2.trim⟩

def extractRequestCookies (req : RequestContext) : List HarCookie :=
  ((req.headers.get "cookie").map parseCookies).getD []

def extractResponseCookies (res : ResponseContext) : List HarCookie :=
  ((res.headers.get "set-cookie").map fun v => parseCookies ((Str.split ';' v).headD [])).getD []

def httpStatusText (status : Nat) : Str :=
  match status with
  | 200 => "OK"
  | 201 => "Created"
  | 204 => "No Content"
  | 301 => "Moved Permanently"
  | 302 => "Found"
  | 304 => "Not Modified"
  | 400 => "Bad Request"
  | 401 => "Unauthorized"
  | 403 => "Forbidden"
  | 404 => "Not Found"
  | 405 => "Method Not Allowed"
  | 500 => "Internal Server Error"
  | 502 => "Bad Gateway"
  | 503 => "Service Unavailable"
  | _ => ""

def nonEmptyString (value : Str) : Option Str :=
  let value := value.trim
  if value.isEmpty then none else some value

/-- The time to the first byte with the setup of the connection. -/
def fullTtfbMs (timings : HarTimings) : Nat :=
  let zero := Binary64.ofU64 0
  let setupMs := timings.dns.getD zero + timings.connect.getD zero + timings.ssl.getD zero
  Binary64.toU64 (Binary64.max (setupMs + timings.wait) zero)

/-! ### Bodies -/

/-- A body as the text of an archive: base64 for binary content types, lossy UTF-8 otherwise. -/
def harBodyText (body : Bytes) (mimeType : Str) : Str :=
  if Wire.isBinaryContentType mimeType then Base64.encode body else Utf8.decodeLossy body

/-- The text of an archive as a body. -/
def harBodyBytes (text : Str) (mimeType : Str) : Bytes :=
  if Wire.isBinaryContentType mimeType then (Base64.decode text).getD text.toUtf8 else text.toUtf8

/-! ### An exchange as an entry -/

def harHeaders (headers : HeaderMap) : List HarNameValue :=
  (headers.entries.filter fun e => !shouldSkipHarHeader e.1).map fun e => ⟨e.1, e.2⟩

def exchangeRequestToHar (request : RequestContext) : HarRequest where
  method := request.method
  url := request.uri
  httpVersion := "HTTP/1.1"
  cookies := extractRequestCookies request
  headers := harHeaders request.headers
  queryString := parseQueryString request.uri
  postData :=
    if request.body.isEmpty then none
    else some ⟨(request.headers.get "content-type").getD "application/octet-stream", request.bodyText⟩
  headersSize := -1
  bodySize := request.body.length

def emptyHarResponse : HarResponse where
  status := 0
  statusText := ""
  httpVersion := "HTTP/1.1"
  cookies := []
  headers := []
  content := ⟨0, "application/octet-stream", none⟩
  redirectUrl := ""
  headersSize := -1
  bodySize := -1

/-- `HarTimings::default()`. -/
def HarTimings.default : HarTimings where
  dns := none
  connect := none
  ssl := none
  wait := Binary64.ofU64 0
  receive := Binary64.ofU64 0
  send := Binary64.ofU64 0

/-- The time the connection took, as a 64-bit sum. -/
def setupMs (metrics : InspectionMetrics) : Nat :=
  (metrics.dnsMs.getD 0 + metrics.tcpConnectMs.getD 0 + metrics.tlsMs.getD 0) % 2 ^ 64

def harTimings (metrics : InspectionMetrics) : HarTimings where
  dns := metrics.dnsMs.map Binary64.ofU64
  connect := metrics.tcpConnectMs.map Binary64.ofU64
  ssl := metrics.tlsMs.map Binary64.ofU64
  wait := Binary64.ofU64 (metrics.ttfbMs - setupMs metrics)
  receive := Binary64.ofU64 metrics.bodyMs
  send := Binary64.ofU64 0

def exchangeResponseToHar (ex : Exchange) : HarResponse × Float × HarTimings :=
  match ex.response with
  | none => (emptyHarResponse, Binary64.ofU64 0, HarTimings.default)
  | some response =>
    let mimeType := (response.headers.get "content-type").getD "text/plain"
    let harResponse : HarResponse :=
      { status := response.status
        statusText := httpStatusText response.status
        httpVersion := (ex.metrics.bind fun m => m.protocol).getD "HTTP/1.1"
        cookies := extractResponseCookies response
        headers := harHeaders response.headers
        content :=
          { size := response.body.length
            mimeType := mimeType
            text := if response.body.isEmpty then none else some (harBodyText response.body mimeType) }
        redirectUrl := (response.headers.get "location").getD []
        headersSize := -1
        bodySize := response.body.length }
    match ex.metrics with
    | none => (harResponse, Binary64.ofU64 0, HarTimings.default)
    | some metrics => (harResponse, Binary64.ofU64 metrics.latencyMs, harTimings metrics)

def exchangeToHarEntry (world : HarWorld) (ex : Exchange) : HarEntry where
  startedDateTime := world.toRfc3339 ex.timestamp
  time := (exchangeResponseToHar ex).2.1
  request := exchangeRequestToHar ex.request
  response := (exchangeResponseToHar ex).1
  timings := (exchangeResponseToHar ex).2.2
  serverIpAddress := none
  connection := ex.connectionId
  cache := {}
  oproxyId := some ex.id
  oproxyNote := ex.note
  oproxyTags := ex.tags
  oproxyUpdatedAt := ex.updatedAt.map world.toRfc3339
  oproxyStreamId := ex.streamId
  oproxyDownstreamProtocol := ex.downstreamProtocol
  oproxyProtocolContext := ex.protocolContext

/-! ### An entry as an exchange -/

def headersOfHar (headers : List HarNameValue) : HeaderMap :=
  HeaderMap.fromIter (headers.map fun nv => (nv.name, nv.value))

def harResponseToContext (entry : HarEntry) (sessionId : Str) : Option ResponseContext :=
  if entry.response.status = 0 then none
  else
    let mimeType := ((Str.split ';' entry.response.content.mimeType).headD []).trim
    some
      { ResponseContext.default with
        status := entry.response.status
        headers := headersOfHar entry.response.headers
        body := harBodyBytes (entry.response.content.text.getD []) mimeType
        requestUri := entry.request.url
        sessionId := some sessionId
        ttfbMs := fullTtfbMs entry.timings
        bodyMs := Binary64.toU64 entry.timings.receive }

def harEntryMetrics (entry : HarEntry) : Option InspectionMetrics :=
  if entry.time ≤ Binary64.ofU64 0 ∧ entry.response.status = 0 then none
  else
    some
      { latencyMs := Binary64.toU64 entry.time
        requestSizeBytes := entry.request.bodySize.toNat
        responseSizeBytes := entry.response.bodySize.toNat
        statusCode := entry.response.status
        ttfbMs := fullTtfbMs entry.timings
        bodyMs := Binary64.toU64 entry.timings.receive
        dnsMs := entry.timings.dns.map Binary64.toU64
        tcpConnectMs := entry.timings.connect.map Binary64.toU64
        tlsMs := entry.timings.ssl.map Binary64.toU64
        protocol := nonEmptyString entry.response.httpVersion }

def harEntryToExchange (world : HarWorld) (entry : HarEntry) : Exchange :=
  let id := entry.oproxyId.getD world.newId
  { id := id
    timestamp := (world.parseRfc3339 entry.startedDateTime).getD world.now
    updatedAt := entry.oproxyUpdatedAt.bind world.parseRfc3339
    request :=
      { RequestContext.default with
        method := entry.request.method
        uri := entry.request.url
        headers := headersOfHar entry.request.headers
        body := Str.toUtf8 ((entry.request.postData.map fun p => p.text).getD [])
        host := extractHost entry.request.url }
    response := harResponseToContext entry id
    metrics := harEntryMetrics entry
    source := .imported
    wsFrames := []
    events := []
    flow := []
    note := entry.oproxyNote
    tags := entry.oproxyTags
    inspectorData := none
    pausedAt := none
    connectionId := entry.connection
    streamId := entry.oproxyStreamId
    downstreamProtocol := entry.oproxyDownstreamProtocol
    protocolContext := entry.oproxyProtocolContext }

end Har

end Oproxy
