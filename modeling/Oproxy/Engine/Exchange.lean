import Oproxy.Core.Decompression
import Oproxy.Engine.Upstream
import Oproxy.Middleware.Chain

/-!
# A buffered exchange (`core/engine/mod.rs`)

The two halves of `handle_request_with_destination`: what becomes of a request, up to the request that is sent
upstream, and what becomes of the upstream response.  A request body of known length above the cap and a response
which is streamed go past the buffer; everything else is read as a whole.
-/

namespace Oproxy

/-- A response as the engine hands it to the listener. -/
structure ClientResponse where
  status : Nat
  headers : Http.Headers
  body : Bytes
  trailers : Http.Headers
  deriving DecidableEq

/-- A response as the client library hands it over: `contentLength` is the length of the body where it is known
before the body is read, and `chunks` is the body as it arrives. -/
structure UpstreamResponse where
  status : Nat
  version : Http.Version
  headers : Http.Headers
  contentLength : Option Nat
  chunks : List Bytes
  status_valid : 100 ≤ status ∧ status < 1000 := by decide
  headers_wf : Http.Headers.WellFormed headers := by decide
  length_known : contentLength.all (· == chunks.flatten.length) = true := by decide

/-- A short text. -/
def UpstreamResponse.plain : UpstreamResponse where
  status := 200
  version := .http11
  headers := [("content-length", Str.toUtf8 "2")]
  contentLength := some 2
  chunks := [[0x6f, 0x6b]]

def UpstreamResponse.body (res : UpstreamResponse) : Bytes := res.chunks.flatten

/-- A request as it is handed to the client library. -/
structure UpstreamRequest where
  method : Str
  url : Str
  headers : Http.Headers
  body : Bytes

/-- A request with what it is handed to the client library with: an empty body which is attached makes the library
send a length. -/
structure ClientRequest where
  method : Str
  url : Str
  headers : Http.Headers
  body : Option Bytes
  deriving DecidableEq

/-- What becomes of a request: an answer of the engine's own, or a request to the upstream. -/
inductive RequestOutcome where
  | answered (response : ClientResponse)
  | forwarded (request : UpstreamRequest) (ctx : RequestContext)

/-- What the response side knows of its request, and what the clock says. -/
structure Forwarded where
  displayUri : Str
  host : Str
  method : Str
  sent : RequestContext
  streamedUnbuffered : Bool
  ownsRecording : Bool
  ttfbMs : Nat
  bodyMs : Nat
  latencyMs : Nat

/-- A response with the number of response bytes which the engine has held before it returned the head. -/
structure Delivery where
  response : ClientResponse
  accumulated : Nat

def tagRewritten (response : ResponseContext) (request : RequestContext) : ResponseContext :=
  if request.rewritten then { response with tags := response.tags ++ [("rewrite" : Str)] } else response

namespace ProxyEngine

variable (engine : ProxyEngine)

/-! ### Answers of the engine's own -/

def emptyResponse (status : Nat) : ClientResponse := ⟨status, [], [], []⟩

def textResponse (status : Nat) (text : Str) : ClientResponse :=
  ⟨status, [("content-type", Str.toUtf8 "text/plain; charset=utf-8")], text.toUtf8, []⟩

def Refusal.response (refusal : Refusal) : ClientResponse := textResponse refusal.status refusal.text

def stoppedByMiddleware (side : Str) : ClientResponse := textResponse 403 (side ++ (" stopped by middleware" : Str))

/-! ### Response heads -/

/-- A field of a response builder, where name and value are allowed. -/
def builderField (field : Str × Str) : Option (Str × Http.HeaderValue) :=
  (Http.HeaderName.ofStr field.1).bind fun name => (Http.HeaderValue.ofStr field.2).map fun value => (name, value)

/-- The fields of a response builder; none once a name or a value is not allowed. -/
def builderHeaders (fields : List (Str × Str)) : Option Http.Headers :=
  (fields.mapM builderField).map Http.Headers.ofList

/-- Whether a field may stand in a head. -/
def FieldAllowed (field : Str × Str) : Prop :=
  Http.isToken field.1 = true ∧ field.2.toUtf8.all Http.isFieldByte = true

instance (field : Str × Str) : Decidable (FieldAllowed field) := by
  unfold FieldAllowed
  infer_instance

theorem builderField_eq (field : Str × Str) :
    builderField field = if FieldAllowed field then some (field.1.toAsciiLowercase, field.2.toUtf8) else none := by
  unfold builderField Http.HeaderName.ofStr Http.HeaderValue.ofStr
  by_cases hname : Http.isToken field.1 = true
  · by_cases hvalue : field.2.toUtf8.all Http.isFieldByte = true
    · rw [if_pos hname, if_pos hvalue, if_pos (show FieldAllowed field from ⟨hname, hvalue⟩)]
      rfl
    · rw [if_pos hname, if_neg hvalue, if_neg fun h : FieldAllowed field => hvalue h.2]
      rfl
  · rw [if_neg hname, if_neg fun h : FieldAllowed field => hname h.1]
    rfl

/-- A head is built exactly where all fields are allowed, and then it has all of them. -/
theorem builderHeaders_eq (fields : List (Str × Str)) :
    builderHeaders fields = if ∀ f ∈ fields, FieldAllowed f then
      some (Http.Headers.ofList (fields.map fun f => (f.1.toAsciiLowercase, f.2.toUtf8))) else none := by
  have hmapM : fields.mapM builderField = if ∀ f ∈ fields, FieldAllowed f then
      some (fields.map fun f => (f.1.toAsciiLowercase, f.2.toUtf8)) else none := by
    induction fields with
    | nil => rfl
    | cons f fields ih =>
      rw [List.mapM_cons, builderField_eq, ih]
      by_cases hf : FieldAllowed f
      · by_cases hfields : ∀ f ∈ fields, FieldAllowed f
        · rw [if_pos hf, if_pos hfields, if_pos (List.forall_mem_cons.2 ⟨hf, hfields⟩)]
          rfl
        · rw [if_pos hf, if_neg hfields, if_neg fun h => hfields (List.forall_mem_cons.1 h).2]
          rfl
      · rw [if_neg hf, if_neg fun h => hf (List.forall_mem_cons.1 h).1]
        rfl
  unfold builderHeaders
  rw [hmapM]
  split <;> rfl

/-- Finish a builder with a body; `fallback` is the answer where the head is not valid. -/
def finish (status : Nat) (fields : List (Str × Str)) (body : Bytes) (trailers : Http.Headers)
    (fallback : ClientResponse) : ClientResponse :=
  match builderHeaders fields with
  | some headers => ⟨status, headers, body, trailers⟩
  | none => fallback

/-- The value `set_alt_svc_header` is called with. -/
def altSvcHeader : Option Str :=
  engine.http3Port.map fun port => ("h3=\":" : Str) ++ Str.ofNat port ++ ("\"; ma=86400" : Str)

/-- The fields `response_builder` sends: those of the context, and `alt-svc` where HTTP/3 is on. -/
def responseFields (response : ResponseContext) : List (Str × Str) :=
  response.headers.entries ++ (engine.altSvcHeader.map fun altSvc => (("alt-svc" : Str), altSvc)).toList

theorem altSvc_fieldBytes {altSvc : Str} (h : engine.altSvcHeader = some altSvc) :
    altSvc.toUtf8.all Http.isFieldByte = true := by
  obtain ⟨port, -, rfl⟩ := Option.map_eq_some_iff.1 h
  unfold Str.toUtf8
  rw [List.flatMap_append, List.flatMap_append, List.all_append, List.all_append, Bool.and_eq_true, Bool.and_eq_true]
  exact ⟨⟨by decide, Http.fieldBytes_ofNat port⟩, by decide⟩

/-- The fields of the context go into the head as they are. -/
theorem getAll_builderHeaders {fields : List (Str × Str)} {headers : Http.Headers}
    (h : builderHeaders fields = some headers) (name : Str) :
    headers.getAll name = ((fields.filter fun f => f.1.toAsciiLowercase = name).map Prod.snd).map Str.toUtf8 := by
  rw [builderHeaders_eq] at h
  split at h
  · cases h
    rw [Http.Headers.getAll_ofList]
    unfold Http.Headers.getAll
    rw [List.filter_map, List.map_map, List.map_map]
    rfl
  · cases h

theorem mem_altSvc {field : Str × Str}
    (h : field ∈ (engine.altSvcHeader.map fun altSvc => (("alt-svc" : Str), altSvc)).toList) :
    field.1 = "alt-svc" ∧ FieldAllowed field := by
  rw [Option.mem_toList, Option.map_eq_some_iff] at h
  obtain ⟨altSvc, hvalue, rfl⟩ := h
  have htoken : Http.isToken "alt-svc" = true := by decide
  exact ⟨rfl, htoken, altSvc_fieldBytes engine hvalue⟩

/-- `alt-svc` is always allowed. -/
theorem responseFields_allowed {ctx : ResponseContext} :
    (∀ f ∈ engine.responseFields ctx, FieldAllowed f) ↔ ∀ f ∈ ctx.headers.entries, FieldAllowed f := by
  unfold responseFields
  constructor
  · exact fun h f hf => h f (List.mem_append_left _ hf)
  · intro h f hf
    rcases List.mem_append.1 hf with hf | hf
    · exact h f hf
    · exact (mem_altSvc engine hf).2

theorem filter_responseFields {ctx : ResponseContext} {name : Str} (hname : name.toAsciiLowercase = name)
    (hne : name ≠ "alt-svc") :
    ((engine.responseFields ctx).filter fun f => f.1.toAsciiLowercase = name).map Prod.snd =
      ctx.headers.getAll name := by
  have hnone : (engine.altSvcHeader.map fun altSvc => (("alt-svc" : Str), altSvc)).toList.filter
      (fun f => Str.toAsciiLowercase f.1 = name) = [] := by
    rw [List.filter_eq_nil_iff]
    intro f hf
    rw [(mem_altSvc engine hf).1, decide_eq_true_eq]
    exact Ne.symm hne
  unfold responseFields HeaderMap.getAll
  rw [List.filter_append, hnone, List.append_nil, hname]
  congr 1
  apply List.filter_congr
  intro f hf
  rw [ctx.headers.lower f hf, beq_eq_decide]

/-- A context with allowed fields is sent as it is, up to `alt-svc`. -/
theorem finish_responseFields {ctx : ResponseContext} (hvalid : ∀ e ∈ ctx.headers.entries, FieldAllowed e)
    (status : Nat) (body : Bytes) (trailers : Http.Headers) (fallback : ClientResponse) :
    ∃ headers, finish status (engine.responseFields ctx) body trailers fallback = ⟨status, headers, body, trailers⟩ ∧
      ∀ name, Http.IsFieldName name → name ≠ "alt-svc" →
        headers.getAll name = (ctx.headers.getAll name).map Str.toUtf8 := by
  obtain ⟨headers, hbuilt⟩ : ∃ headers, builderHeaders (engine.responseFields ctx) = some headers := by
    rw [builderHeaders_eq, if_pos ((responseFields_allowed engine).2 hvalid)]
    exact ⟨_, rfl⟩
  refine ⟨headers, ?_, ?_⟩
  · unfold finish
    rw [hbuilt]
  · intro name hname hne
    rw [getAll_builderHeaders hbuilt, filter_responseFields engine hname.2 hne]

/-! ### The request side -/

def respondToIntercepted (chain : List Middleware) (intercepted : InterceptedResponse) (request : RequestContext)
    (displayUri host method : Str) (ownsRecording : Bool) : ClientResponse :=
  let response := { ResponseContext.default with
    status := intercepted.status
    headers := intercepted.headers
    body := intercepted.body
    requestUri := displayUri
    sessionId := request.sessionId
    tags := intercepted.tags
    requestHost := host
    requestMethod := method
    protocolContext := request.protocolContext
    terminalRecordingPending := ownsRecording }.extendFlow request.flow
  match MiddlewareChain.executeResponse chain response with
  | (response, .proceed) =>
    finish ((Http.statusCode response.status).getD 200) response.headers.entries response.body []
      (textResponse 500 "mock error")
  | (_, .stopAndReturn) => stoppedByMiddleware "Response"

/-- The declared length of a request body. -/
def declaredContentLength (headers : HeaderMap) : Option Nat :=
  (headerValue headers "content-length").bind fun v => Str.parseUnsigned Wire.u64Max v.trim

def requestStreamedUnbuffered (req : IncomingRequest) : Bool :=
  (declaredContentLength (copyHeaders req.headers)).any fun len => len > engine.maxBodyBytes

def tooLargeText : Str :=
  ("Request body exceeds the " : Str) ++ Str.ofNat engine.maxBodyBytes ++
    (" byte limit. Raise max_body_bytes in settings to increase it." : Str)

/-- The request side of `handle_request_with_destination`. -/
def handleRequest (parse : Str → Option Url) (chain : List Middleware) (req : IncomingRequest)
    (mitmDestination : Option Str) (body : Bytes) (ownsRecording : Bool) : RequestOutcome :=
  let head := engine.buildRequestHead req mitmDestination
  let streamed := engine.requestStreamedUnbuffered req
  if req.method = ("CONNECT" : Str) then .answered (textResponse 502 "CONNECT should be handled upstream")
  else if !streamed && body.length > engine.maxBodyBytes then .answered (textResponse 413 engine.tooLargeText)
  else
    match MiddlewareChain.executeRequest chain
        (requestContext head mitmDestination (if streamed then [] else body)) with
    | (ctx, .stopAndReturn) =>
      match ctx.mockResponse with
      | some intercepted =>
        .answered (respondToIntercepted chain intercepted ctx head.displayUri head.host head.method ownsRecording)
      | none => .answered (stoppedByMiddleware "Request")
    | (ctx, .proceed) =>
      match engine.prepareUpstream parse ctx req.uri head.reqUri with
      | (_, .error refusal) => .answered (Refusal.response refusal)
      | (sent, .ok upstream) =>
        .forwarded
          { method := upstream.method
            url := upstream.url
            headers := upstream.headers
            body := if streamed then body
              else if !sent.body.isEmpty || sent.headers.containsKey "content-length" then sent.body else [] }
          (sent.pushFlow (.forwarded upstream.url))

/-- The request which is handed to the client library for a context whose body has been read. -/
def clientRequest (sent : RequestContext) (upstream : PreparedUpstream) : ClientRequest where
  method := upstream.method
  url := upstream.url
  headers := upstream.headers
  body := if !sent.body.isEmpty || sent.headers.containsKey "content-length" then some sent.body else none

/-- A request whose body has been read is forwarded as it is handed to the client library. -/
theorem handleRequest_eq_clientRequest {parse : Str → Option Url} {chain : List Middleware} {req : IncomingRequest}
    {mitmDestination : Option Str} {body : Bytes} {ctx sent : RequestContext} {upstream : PreparedUpstream}
    (hconnect : req.method ≠ "CONNECT") (hread : engine.requestStreamedUnbuffered req = false)
    (hsize : body.length ≤ engine.maxBodyBytes)
    (hrun : MiddlewareChain.executeRequest chain
      (requestContext (engine.buildRequestHead req mitmDestination) mitmDestination body) = (ctx, .proceed))
    (hprepared : engine.prepareUpstream parse ctx req.uri req.uri.display = (sent, .ok upstream))
    (ownsRecording : Bool) :
    engine.handleRequest parse chain req mitmDestination body ownsRecording =
      .forwarded
        { method := (clientRequest sent upstream).method
          url := (clientRequest sent upstream).url
          headers := (clientRequest sent upstream).headers
          body := (clientRequest sent upstream).body.getD [] }
        (sent.pushFlow (.forwarded upstream.url)) := by
  have hlarge : decide (body.length > engine.maxBodyBytes) = false := by simpa using hsize
  unfold handleRequest
  simp only [hread, if_neg hconnect, Bool.not_false, Bool.true_and, hlarge, Bool.false_eq_true, if_false, hrun]
  rw [show (engine.buildRequestHead req mitmDestination).reqUri = req.uri.display from rfl, hprepared]
  unfold clientRequest
  dsimp only
  split <;> rfl

/-! ### The response side -/

/-- The fields of the response which go on, as text. -/
def responseHeaders (res : UpstreamResponse) : HeaderMap :=
  Wire.stripHopByHopResponseHeaders (copyHeaders res.headers)

def responseContentType (res : UpstreamResponse) : Str :=
  (headerValue (copyHeaders res.headers) "content-type").getD []

def isChunked (res : UpstreamResponse) : Bool :=
  (res.headers.getStr "transfer-encoding").any fun v => Str.contains "chunked" v.toAsciiLowercase

/-- Whether a response is streamed to the client instead of being read as a whole. -/
def streamsResponse (res : UpstreamResponse) : Bool :=
  Str.contains "text/event-stream" (responseContentType res) ||
    res.contentLength.getD 0 > engine.streamThresholdBytes || isChunked res

/-- The response context the chain starts from. -/
def responseContext (fwd : Forwarded) (res : UpstreamResponse) (headers : HeaderMap) (body : Bytes) (streamed : Bool) :
    ResponseContext :=
  let ctx := ({ ResponseContext.default with
    status := res.status
    headers := headers
    body := body
    requestUri := fwd.displayUri
    sessionId := fwd.sent.sessionId
    ttfbMs := fwd.ttfbMs
    bodyMs := if streamed then 0 else fwd.bodyMs
    requestHost := fwd.host
    requestMethod := fwd.method
    protocol := some (Wire.protocolLabel res.version)
    protocolContext := fwd.sent.protocolContext
    terminalRecordingPending := fwd.ownsRecording
    responseBodyObserverPending := streamed }.extendFlow fwd.sent.flow).pushFlow
      (.responseReceived res.status fwd.ttfbMs)
  let ctx := if streamed || fwd.streamedUnbuffered then { ctx with tags := ctx.tags ++ [("streamed" : Str)] } else ctx
  tagRewritten ctx fwd.sent

/-- The head and the body which the response chain starts from. -/
theorem responseContext_message (fwd : Forwarded) (res : UpstreamResponse) (headers : HeaderMap) (body : Bytes)
    (streamed : Bool) :
    (responseContext fwd res headers body streamed).status = res.status ∧
      (responseContext fwd res headers body streamed).headers = headers ∧
      (responseContext fwd res headers body streamed).body = body := by
  unfold responseContext tagRewritten
  dsimp only
  rw [ResponseContext.extendFlow_frame]
  split <;> split <;> exact ⟨rfl, rfl, rfl⟩

/-- The trailers which end a successful gRPC response. -/
def grpcTrailers (res : UpstreamResponse) (status : Nat) : Http.Headers :=
  if Str.startsWith (responseContentType res) "application/grpc" && status = 200 then
    [("grpc-status", Str.toUtf8 "0")]
  else []

/-- The response side of `handle_request_with_destination`. -/
def deliverResponse (codecs : Codecs) (chain : List Middleware) (fwd : Forwarded) (res : UpstreamResponse) :
    Delivery :=
  if engine.streamsResponse res then
    match MiddlewareChain.executeResponse chain (responseContext fwd res (responseHeaders res) [] true) with
    | (ctx, .proceed) =>
      ⟨finish ((Http.statusCode ctx.status).getD 500) (engine.responseFields ctx) res.body [] (emptyResponse 500), 0⟩
    | (_, .stopAndReturn) => ⟨stoppedByMiddleware "Response", 0⟩
  else
    let (headers, body) := decodedResponseBody codecs (responseHeaders res) res.body
    match MiddlewareChain.executeResponse chain (responseContext fwd res headers body false) with
    | (ctx, .proceed) =>
      ⟨finish ((Http.statusCode ctx.status).getD 500) (engine.responseFields ctx) ctx.body (grpcTrailers res ctx.status)
        (emptyResponse 500), res.body.length⟩
    | (_, .stopAndReturn) => ⟨stoppedByMiddleware "Response", res.body.length⟩

end ProxyEngine

end Oproxy
