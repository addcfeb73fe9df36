import Oproxy.ControlPlane.EgressPolicy
import Oproxy.Core.WsMessage
import Oproxy.Engine.Recording
import Oproxy.Lib.Base64

/-!
# Compose (`control_plane/forward.rs`)

The control plane sends a request which the operator has composed: an HTTP or gRPC request, on demand through the
request side of the proxy's chain, or a WebSocket handshake with scripted frames.  Each function gives the operations
which it enqueues for the session store beside its result.
-/

namespace Oproxy

inductive ForwardKind where
  | http | http2 | http3 | grpc
  deriving DecidableEq

structure ForwardReq where
  kind : ForwardKind
  method : Str
  url : Str
  headers : IndexMap Str Str
  body : Option Str
  note : Option Str
  tags : Option (List Str)
  applyProxyRules : Bool

inductive ForwardFailure where
  | badRequest (error : Str)
  | egressBlocked (error : Str)
  | upstream (error : Str)

structure ForwardProtocolResp where
  downstream : Str
  upstream : Option Str
  application : Str
  bodyMode : Str

structure ForwardResp where
  status : Nat
  headers : IndexMap Str Str
  body : Str
  isBinary : Bool
  sessionId : Str
  protocol : Option ForwardProtocolResp

/-- What the client library answers with: the response, whose body may fail to arrive, and the times it has taken. -/
structure ClientAnswer where
  status : Nat
  version : Http.Version
  headers : Http.Headers
  body : Option Bytes
  ttfbMs : Nat
  bodyMs : Nat
  latencyMs : Nat

/-- Why a request has failed, and after what time. -/
structure ClientFailure where
  error : Str
  latencyMs : Nat

structure ForwardWsFrameReq where
  opcode : Str
  payload : Str

structure ForwardWsReq where
  url : Str
  headers : IndexMap Str Str
  frames : List ForwardWsFrameReq
  note : Option Str
  tags : Option (List Str)

inductive ForwardWsFailure where
  /-- Malformed request (bad URL/scheme).  No session was recorded. -/
  | badRequest (error : Str)
  /-- Blocked by the admin egress policy.  No session was recorded. -/
  | egressBlocked (error : Str)
  /-- Connection/upstream failure; a 502 response has already been recorded onto the session. -/
  | upstream (sessionId error : Str)

structure ForwardWsFrameResp where
  direction : Str
  opcode : Str
  payload : Option Str
  payloadLen : Nat

structure ForwardWsResp where
  sessionId : Str
  frames : List ForwardWsFrameResp
  protocol : ForwardProtocolResp

/-- What arrives on a WebSocket within the time which is waited for it. -/
inductive WsReply where
  | message (message : WsMessage)
  | error (error : Str)

/-- An upstream WebSocket: the error of each send, where it fails, and what arrives until it falls silent. -/
structure WsUpstream where
  sendError : Nat → Option Str
  replies : List WsReply

/-- What Compose uses of the world outside: the chain and the engine, the parsers of the URL and HTTP libraries with
the texts of their errors, the look-ups of the two egress checks, the client libraries, and the session store. -/
structure ComposeWorld where
  recording : RecordingWorld
  rules : RecordingRules
  engine : ProxyEngine
  policy : Egress.AdminEgressPolicy
  parse : Str → Except Str Url
  parseUri : Str → Except Str Http.Uri
  setScheme : Str → Url → Option Url
  intoClientRequest : Str → Except Str Http.Headers
  resolve : Nat → Egress.Resolve
  addressText : IpAddr → Str
  sessionId : Str
  send : ClientRequest → Except ClientFailure ClientAnswer
  builderFailure : ClientFailure
  connect : Http.Headers → Except Str WsUpstream
  view : StoreView
  frameTime : Nat → Timestamp
  wsLatencyMs : Nat

namespace Forward

/-! ### Helpers -/

/-- The host of a URL, with its port where it names one. -/
def hostText (url : Url) : Str :=
  match url.hostStr, url.port with
  | some host, some port => host ++ ':' :: Str.ofNat port
  | some host, none => host
  | none, _ => []

def protocolContextForKind (kind : ForwardKind) (scheme : Str) (upstream : Option WireProtocol) : ProtocolContext where
  downstream := match kind with
    | .http => .http1
    | .http2 => .http2
    | .http3 => .http3
    | .grpc => .http2
  upstream := upstream
  application := if kind = .grpc then .grpc else .http
  bodyMode := if kind = .grpc then .streamMessages else .full
  scheme := scheme
  connectionId := none
  streamId := none

def protocolFromLabel (label : Str) : WireProtocol :=
  if label = ("HTTP/2" : Str) then .http2 else if label = ("HTTP/3" : Str) then .http3 else .http1

def protocolResponse (ctx : ProtocolContext) : ForwardProtocolResp where
  downstream := ctx.downstream.label
  upstream := ctx.upstream.map WireProtocol.label
  application := ctx.application.matchValue
  bodyMode := ctx.bodyMode.matchValue

def grpcMessage (direction : Str) (compressed : Bool) (length : Nat) : GrpcMessage :=
  ⟨direction, compressed, length, []⟩

/-- The flags and the lengths of the whole messages in a body. -/
def decodeGrpcMessageLengths : Bytes → List (Bool × Nat)
  | flag :: b0 :: b1 :: b2 :: b3 :: rest =>
    if readBe b0 b1 b2 b3 > rest.length then []
    else (flag ≠ 0, readBe b0 b1 b2 b3) :: decodeGrpcMessageLengths (rest.drop (readBe b0 b1 b2 b3))
  | _ => []
  termination_by bytes => bytes.length
  decreasing_by
    simp only [List.length_drop, List.length_cons]
    omega

/-- The fields of a response as a map of texts. -/
def responseHeaderMap (headers : Http.Headers) : IndexMap Str Str :=
  headers.foldl (fun m e => m.insert e.1 e.2.textOrEmpty) IndexMap.empty

/-- A body as text, and whether that text is an encoding of it. -/
def bodyText (headers : IndexMap Str Str) (bytes : Bytes) : Str × Bool :=
  if Wire.isBinaryContentType ((headers.get? "content-type").getD []) then (Base64.encode bytes, true)
  else (Utf8.decodeLossy bytes, false)

def annotateOps (sessionId : Str) (note : Option Str) (tags : Option (List Str)) : List WriteOp :=
  if note.isSome || tags.isSome then [.annotate sessionId note tags] else []

/-! ### HTTP and gRPC -/

variable (world : ComposeWorld)

/-- An egress check of a request, with the text of its refusal; the look-ups are numbered. -/
def checkEgress (check : Nat) (url : Url) : Except Str Unit :=
  (Egress.enforceAdminEgressPolicy (world.resolve check) url world.policy).mapError
    (Egress.Blocked.message world.addressText)

def bodyBytes (req : ForwardReq) : Bytes :=
  let requestBody := Str.toUtf8 (req.body.getD [])
  if req.kind = .grpc then encodeGrpcFrame false requestBody else requestBody

/-- What is checked before a session is recorded. -/
def validate (req : ForwardReq) : Except ForwardFailure Url :=
  if !Http.isToken req.method then .error (.badRequest (("Invalid HTTP method: " : Str) ++ req.method))
  else
    match world.parse req.url with
    | .error e => .error (.badRequest (("Invalid URL: " : Str) ++ e))
    | .ok url =>
      if !url.isWeb then .error (.badRequest (("Unsupported URL scheme: " : Str) ++ url.scheme))
      else
        match checkEgress world 0 url with
        | .error e => .error (.egressBlocked e)
        | .ok () => .ok url

/-- The context which is recorded, and which the chain starts from. -/
def requestContext (req : ForwardReq) (url : Url) : RequestContext :=
  let protocolContext := protocolContextForKind req.kind url.scheme none
  { RequestContext.default with
    method := if req.kind = .grpc then "POST" else req.method
    uri := req.url
    host := hostText url
    headers := HeaderMap.ofMap req.headers
    body := bodyBytes req
    downstreamProtocol := some protocolContext.downstream.label
    protocolContext := some protocolContext
    sessionId := some world.sessionId
    destination := if req.applyProxyRules then some (url.scheme ++ ("://" : Str) ++ hostText url) else none }

/-- What is enqueued before the chain is run. -/
def openingOps (req : ForwardReq) (url : Url) : List WriteOp :=
  .recordRequest world.sessionId (requestContext world req url) .adminForward ::
    (annotateOps world.sessionId req.note req.tags ++
      if req.kind = .grpc then
        [.appendEvent world.sessionId
          (.grpcMessage "request" (grpcMessage "request" false (((bodyBytes req).length - 5) % 2 ^ 32)))]
      else [])

/-- The answer of the chain or of the engine as a response of Compose. -/
def shortCircuitToForwardResp (req : ForwardReq) (response : ClientResponse) : List WriteOp × ForwardResp :=
  let headers := responseHeaderMap response.headers
  let bytes := if response.body.length ≤ world.engine.maxBodyBytes then response.body else []
  let recorded := { ResponseContext.default with
    status := response.status
    headers := HeaderMap.ofMap headers
    body := bytes
    requestUri := req.url
    sessionId := some world.sessionId }
  let metrics := InspectionMetrics.ofStatus response.status 0 (bodyBytes req).length bytes.length 0 0 none
  ([.recordResponseWithMetrics world.sessionId recorded metrics],
    { status := response.status
      headers := headers
      body := (bodyText headers bytes).1
      isBinary := (bodyText headers bytes).2
      sessionId := world.sessionId
      protocol := none })

/-- What becomes of a request once its session is recorded. -/
inductive Resolution where
  | failed (failure : ForwardFailure)
  | answered (response : ClientResponse)
  /-- A request for the client library; none where a field may not stand in a request. -/
  | handed (request : Option ClientRequest)

/-- The fields of a request which goes out as it was composed. -/
def literalHeaders (req : ForwardReq) : Option Http.Headers := ProxyEngine.builderHeaders req.headers.entries

/-- The field which a gRPC request gets where it has no content type. -/
def withGrpcContentType (req : ForwardReq) (headers : Http.Headers) : Http.Headers :=
  if req.kind = .grpc && !req.headers.entries.any (fun e => e.1.eqIgnoreAsciiCase "content-type") then
    Http.Headers.append "content-type" (Str.toUtf8 "application/grpc+proto") headers
  else headers

/-- The request which Compose builds: the method and the body are those it was called with. -/
def buildRequest (req : ForwardReq) (sendUrl : Str) (headers : Http.Headers) : ClientRequest where
  method := if req.kind = .grpc then "POST" else req.method
  url := sendUrl
  headers := withGrpcContentType req headers
  body := if req.kind = .grpc || !(bodyBytes req).isEmpty then some (bodyBytes req) else none

/-- The way of a request through the chain and target resolution. -/
def resolveTarget (req : ForwardReq) (url : Url) : List WriteOp × Resolution :=
  if req.applyProxyRules then
    let start := requestContext world req url
    match world.rules.executeRequestMiddleware world.recording world.view start req.url start.host start.method with
    | (after, some response) => (after.ops, .answered response)
    | (after, none) =>
      match world.parseUri req.url with
      | .error e => (after.ops, .failed (.badRequest (("Invalid URL for routing resolution: " : Str) ++ e)))
      | .ok uri =>
        match world.engine.prepareUpstream (fun text => (world.parse text).toOption) after.ctx uri req.url with
        | (_, .error refusal) => (after.ops, .answered (ProxyEngine.Refusal.response refusal))
        | (_, .ok upstream) =>
          match world.parse upstream.url with
          | .error _ => (after.ops, .handed (some (buildRequest req upstream.url upstream.headers)))
          | .ok resolved =>
            match checkEgress world 1 resolved with
            | .error e => (after.ops, .failed (.egressBlocked e))
            | .ok () => (after.ops, .handed (some (buildRequest req upstream.url upstream.headers)))
  else ([], .handed ((literalHeaders req).map (buildRequest req req.url)))

/-- The exchange with the upstream. -/
def perform (req : ForwardReq) (url : Url) (request : Option ClientRequest) :
    List WriteOp × Except ForwardFailure ForwardResp :=
  match (match request with
    | some request => world.send request
    | none => .error world.builderFailure) with
  | .ok res =>
    let upstreamProtocol := Wire.protocolLabel res.version
    let headers := responseHeaderMap res.headers
    let bytes := res.body.getD []
    let finalProtocol := protocolContextForKind req.kind url.scheme (some (protocolFromLabel upstreamProtocol))
    let recorded := { ResponseContext.default with
      status := res.status
      headers := HeaderMap.ofMap headers
      body := bytes
      requestUri := req.url
      sessionId := some world.sessionId
      ttfbMs := res.ttfbMs
      bodyMs := res.bodyMs
      protocol := some upstreamProtocol
      protocolContext := some finalProtocol }
    let metrics := InspectionMetrics.ofStatus res.status res.latencyMs (bodyBytes req).length bytes.length res.ttfbMs
      res.bodyMs (some upstreamProtocol)
    let messages := if req.kind = .grpc then decodeGrpcMessageLengths bytes else []
    (messages.map (fun m => .appendEvent world.sessionId (.grpcMessage "response" (grpcMessage "response" m.1 m.2))) ++
        [.recordResponseWithMetrics world.sessionId recorded metrics],
      .ok
        { status := res.status
          headers := headers
          body := (bodyText headers bytes).1
          isBinary := (bodyText headers bytes).2
          sessionId := world.sessionId
          protocol := some (protocolResponse finalProtocol) })
  | .error failure =>
    let recorded := { ResponseContext.default with
      status := 502
      body := Str.toUtf8 failure.error
      requestUri := req.url
      sessionId := some world.sessionId
      protocolContext := some (protocolContextForKind req.kind url.scheme none) }
    let metrics := InspectionMetrics.ofStatus 502 failure.latencyMs (bodyBytes req).length failure.error.utf8Len
      failure.latencyMs 0 none
    ([.recordResponseWithMetrics world.sessionId recorded metrics], .error (.upstream failure.error))

def forwardHttpExchange (req : ForwardReq) : List WriteOp × Except ForwardFailure ForwardResp :=
  match validate world req with
  | .error failure => ([], .error failure)
  | .ok url =>
    let opening := openingOps world req url
    match resolveTarget world req url with
    | (ops, .failed failure) => (opening ++ ops, .error failure)
    | (ops, .answered response) =>
      let (closing, resp) := shortCircuitToForwardResp world req response
      (opening ++ ops ++ closing, .ok resp)
    | (ops, .handed request) =>
      let (closing, result) := perform world req url request
      (opening ++ ops ++ closing, result)

/-! ### WebSocket -/

def wsUrlToHttp (url : Url) : Except Str Url :=
  let translate (scheme : Str) := match world.setScheme scheme url with
    | some out => .ok out
    | none => .error (("Unable to translate " : Str) ++ url.scheme ++ (" URL for egress policy" : Str))
  if url.scheme = ("ws" : Str) then translate "http"
  else if url.scheme = ("wss" : Str) then translate "https"
  else .error (("Unsupported WebSocket URL scheme: " : Str) ++ url.scheme)

def isWsForwardHeader (name : Str) : Bool :=
  !(["host", "connection", "upgrade", "sec-websocket-key", "sec-websocket-version", "sec-websocket-accept",
    "content-length"].map String.toList).contains name.toAsciiLowercase

/-- What is checked before a session is recorded. -/
def validateWs (req : ForwardWsReq) : Except ForwardWsFailure Url :=
  match world.parse req.url with
  | .error e => .error (.badRequest (("Invalid URL: " : Str) ++ e))
  | .ok url =>
    if url.scheme ≠ ("ws" : Str) ∧ url.scheme ≠ ("wss" : Str) then
      .error (.badRequest (("Unsupported WebSocket URL scheme: " : Str) ++ url.scheme))
    else
      match wsUrlToHttp world url with
      | .error e => .error (.badRequest e)
      | .ok policyUrl =>
        match checkEgress world 0 policyUrl with
        | .error e => .error (.egressBlocked e)
        | .ok () => .ok url

def wsProtocol (url : Url) : ProtocolContext :=
  { (ProtocolContext.webSocket url.scheme).withIdentity (some world.sessionId) (some 1) with
    upstream := some .webSocket }

def wsRequestContext (req : ForwardWsReq) (url : Url) : RequestContext :=
  { RequestContext.default with
    method := "WS"
    uri := req.url
    host := hostText url
    headers := HeaderMap.ofMap (req.headers.insert "upgrade" "websocket")
    connectionId := some world.sessionId
    streamId := some 1
    downstreamProtocol := some ("WebSocket" : Str)
    protocolContext := some (wsProtocol world url) }

/-- The fields of the handshake: those of the library, then the composed ones which may be set. -/
def handshakeHeaders (req : ForwardWsReq) (headers : Http.Headers) : Http.Headers :=
  req.headers.entries.foldl (fun h e =>
    match Http.HeaderName.ofStr e.1, Http.HeaderValue.ofStr e.2 with
    | some name, some value =>
      if isWsForwardHeader e.1 then Http.Headers.append name value (h.filter fun f => f.1 ≠ name) else h
    | _, _ => h) headers

def websocketMessage (frame : ForwardWsFrameReq) : WsMessage :=
  if frame.opcode = ("binary" : Str) then .binary ((Base64.decode frame.payload).getD frame.payload.toUtf8)
  else if frame.opcode = ("ping" : Str) then .ping frame.payload.toUtf8
  else if frame.opcode = ("pong" : Str) then .pong frame.payload.toUtf8
  else if frame.opcode = ("close" : Str) then .close (some (1000, frame.payload))
  else .text frame.payload

/-- What a session keeps of a message: its opcode, the length of its payload, the payload as text or in hexadecimal,
and the name of its kind. -/
def recordedMessage : WsMessage → Option (Nat × Nat × Option Str × Option Str × Str)
  | .text text => some (1, text.utf8Len, some (text.take WsMessage.maxTextChars), none, "text")
  | .binary data => some (2, data.length, none, WsMessage.hexPreview data, "binary")
  | .ping data => some (9, data.length, none, none, "ping")
  | .pong data => some (10, data.length, none, none, "pong")
  | .close _ => some (8, 0, none, none, "close")
  | .frame _ => none

def recordWsMessage (time : Timestamp) (direction : WsDirection) (message : WsMessage) :
    List WriteOp × List ForwardWsFrameResp :=
  match recordedMessage message with
  | none => ([], [])
  | some (opcode, payloadLen, payloadText, payloadHex, label) =>
    ([.appendWsFrame world.sessionId ⟨time, direction, opcode, payloadLen, payloadText, payloadHex⟩],
      [⟨if direction = .clientToServer then "client" else "server", label, payloadText.orElse fun _ => payloadHex,
        payloadLen⟩])

/-- The scripted frames are recorded and sent until one fails. -/
def sendFrames (upstream : WsUpstream) : Nat → List ForwardWsFrameReq →
    List WriteOp × List ForwardWsFrameResp × Option Str
  | _, [] => ([], [], none)
  | i, frame :: frames =>
    let (ops, sent) := recordWsMessage world (world.frameTime i) .clientToServer (websocketMessage frame)
    match upstream.sendError i with
    | some error => (ops, sent, some error)
    | none =>
      let (ops', sent', error) := sendFrames upstream (i + 1) frames
      (ops ++ ops', sent ++ sent', error)

def wsForwardMaxServerFrames : Nat := 10

/-- The replies are recorded until one fails, closes the connection or is the last one collected. -/
def collectReplies (sent : Nat) : Nat → List WsReply → List WriteOp × List ForwardWsFrameResp × Option Str
  | _, [] => ([], [], none)
  | _, .error error :: _ => ([], [], some error)
  | count, .message message :: replies =>
    let (ops, received) := recordWsMessage world (world.frameTime (sent + count)) .serverToClient message
    match message with
    | .close _ => (ops, received, none)
    | _ =>
      if count + 1 ≥ wsForwardMaxServerFrames then (ops, received, none)
      else
        let (ops', received', error) := collectReplies sent (count + 1) replies
        (ops ++ ops', received ++ received', error)

def recordWsFailure (requestUri error : Str) : List WriteOp × ForwardWsFailure :=
  let response := { ResponseContext.default with
    status := 502
    body := Str.toUtf8 error
    requestUri := requestUri
    sessionId := some world.sessionId }
  ([.recordResponseWithMetrics world.sessionId response
      (InspectionMetrics.ofStatus 502 world.wsLatencyMs 0 error.utf8Len 0 0 none)],
    .upstream world.sessionId error)

def recordWebsocketSuccess (url : Str) (protocol : ProtocolContext) : List WriteOp :=
  let response := { ResponseContext.default with
    status := 101
    headers := HeaderMap.fromIter [("upgrade", "websocket")]
    requestUri := url
    sessionId := some world.sessionId
    protocol := some ("WebSocket" : Str)
    protocolContext := some protocol }
  [.recordResponseWithMetrics world.sessionId response
    (InspectionMetrics.ofStatus 101 world.wsLatencyMs 0 0 0 0 (some ("WebSocket" : Str)))]

/-- The exchange over a connection: the scripted frames, then the replies. -/
def wsExchange (req : ForwardWsReq) (url : Url) (upstream : WsUpstream) :
    List WriteOp × Except ForwardWsFailure ForwardWsResp :=
  match sendFrames world upstream 0 req.frames with
  | (ops, _, some error) =>
    (ops ++ (recordWsFailure world req.url error).1, .error (recordWsFailure world req.url error).2)
  | (ops, sent, none) =>
    match collectReplies world req.frames.length 0 upstream.replies with
    | (ops', _, some error) =>
      (ops ++ ops' ++ (recordWsFailure world req.url error).1, .error (recordWsFailure world req.url error).2)
    | (ops', received, none) =>
      (ops ++ ops' ++ recordWebsocketSuccess world req.url (wsProtocol world url),
        .ok ⟨world.sessionId, sent ++ received, protocolResponse (wsProtocol world url)⟩)

def forwardWebsocketExchange (req : ForwardWsReq) : List WriteOp × Except ForwardWsFailure ForwardWsResp :=
  match validateWs world req with
  | .error failure => ([], .error failure)
  | .ok url =>
    let opening := .recordRequest world.sessionId (wsRequestContext world req url) .adminForward ::
      annotateOps world.sessionId req.note req.tags
    match world.intoClientRequest req.url with
    | .error e => (opening, .error (.badRequest e))
    | .ok headers =>
      match world.connect (handshakeHeaders req headers) with
      | .error error =>
        (opening ++ (recordWsFailure world req.url error).1, .error (recordWsFailure world req.url error).2)
      | .ok upstream =>
        let (ops, result) := wsExchange world req url upstream
        (opening ++ ops, result)

end Forward

end Oproxy
