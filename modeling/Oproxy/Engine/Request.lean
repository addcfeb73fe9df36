import Oproxy.Engine.Wire

/-!
# The request head (`core/engine/mod.rs`)

What the engine derives from an incoming request before its body is read, and the context which it hands to the
middleware chain.
-/

namespace Oproxy

/-- The settings of the engine; `http3Port` is the port of the HTTP/3 listener, where there is one. -/
structure ProxyEngine where
  maxBodyBytes : Nat
  streamThresholdBytes : Nat
  bindPort : Nat
  bindHost : Str
  selfLanHosts : List Str
  http3Port : Option Nat

/-- The head of a request as the listener hands it over.  `peer` is the text of the downstream address, and
`connection` the identity of the downstream connection with the number of the stream on it. -/
structure IncomingRequest where
  method : Str
  uri : Http.Uri
  version : Http.Version
  headers : Http.Headers
  peer : Option Str
  connection : Option (Str × Nat)
  method_token : Http.isToken method = true := by decide
  headers_wf : Http.Headers.WellFormed headers := by decide

/-- `GET /` for `api.test`. -/
def IncomingRequest.plain : IncomingRequest where
  method := "GET"
  uri := .root
  version := .http11
  headers := [("host", Str.toUtf8 "api.test")]
  peer := none
  connection := none
  method_token := Http.isToken_get

structure RequestHead where
  method : Str
  uri : Http.Uri
  host : Str
  remoteAddr : Option Str
  connectionId : Option Str
  streamId : Option Nat
  downstreamProtocol : Option Str
  reqUri : Str
  reqHeaders : HeaderMap
  displayUri : Str
  protocolContext : ProtocolContext

namespace ProxyEngine

/-- The authority a request is for: its Host header, the authority of its target, or a placeholder. -/
def requestHost (req : IncomingRequest) : Str :=
  ((req.headers.getStr "host").orElse fun _ => req.uri.authority).getD "unknown"

/-- The fields as text; a value which is no text becomes empty. -/
def copyHeaders (headers : Http.Headers) : HeaderMap :=
  headers.foldl (fun h e => h.append e.1 e.2.textOrEmpty) HeaderMap.new

private theorem copyHeaders_eq (headers : Http.Headers) :
    copyHeaders headers = HeaderMap.fromIter (headers.map fun e => (e.1, e.2.textOrEmpty)) := by
  unfold copyHeaders HeaderMap.fromIter
  rw [List.foldl_map]

/-- The fields of a message are allowed in every head. -/
theorem valid_copyHeaders {headers : Http.Headers} (hwf : headers.WellFormed) :
    ∀ e ∈ (copyHeaders headers).entries, Http.isToken e.1 = true ∧ e.2.toUtf8.all Http.isFieldByte = true := by
  intro e he
  rw [copyHeaders_eq] at he
  obtain ⟨g, hg, rfl⟩ := HeaderMap.mem_fromIter he
  obtain ⟨f, hf, rfl⟩ := List.mem_map.1 hg
  refine ⟨?_, f.2.textOrEmpty_fieldBytes⟩
  dsimp only
  rw [(hwf f hf).2.1]
  exact (hwf f hf).1

/-- Copying keeps the values of each field, as text, and their order. -/
theorem getAll_copyHeaders {headers : Http.Headers} (hwf : headers.WellFormed) {name : Str}
    (hname : name.toAsciiLowercase = name) :
    (copyHeaders headers).getAll name = (headers.getAll name).map Http.HeaderValue.textOrEmpty := by
  rw [copyHeaders_eq, HeaderMap.getAll_fromIter, hname, List.filter_map, List.map_map]
  unfold Http.Headers.getAll
  rw [List.map_map]
  congr 1
  apply List.filter_congr
  intro e he
  simp [(hwf e he).2.1]

def buildRequestHead (engine : ProxyEngine) (req : IncomingRequest) (mitmDestination : Option Str) : RequestHead :=
  let host := requestHost req
  let reqHeaders := copyHeaders req.headers
  let connectionId := req.connection.map Prod.fst
  let streamId := req.connection.map Prod.snd
  { method := req.method
    uri := req.uri
    host := host
    remoteAddr := req.peer
    connectionId := connectionId
    streamId := streamId
    downstreamProtocol := some (Wire.protocolLabel req.version)
    reqUri := req.uri.display
    reqHeaders := reqHeaders
    displayUri := Wire.displayRequestUri req.uri mitmDestination host
    protocolContext := (ProtocolContext.http req.version (Wire.requestScheme req.uri mitmDestination)
      (Wire.inferApplicationProtocol reqHeaders)
      (Wire.inferBodyMode req.method reqHeaders engine.streamThresholdBytes)).withIdentity connectionId streamId }

/-- The context which the middleware chain starts from. -/
def requestContext (head : RequestHead) (mitmDestination : Option Str) (body : Bytes) : RequestContext :=
  { RequestContext.default with
    method := head.method
    uri := head.displayUri
    headers := head.reqHeaders
    body := body
    host := head.host
    destination := mitmDestination
    connectionId := head.connectionId
    streamId := head.streamId
    downstreamProtocol := head.downstreamProtocol
    remoteAddr := head.remoteAddr
    protocolContext := some head.protocolContext }.pushFlow
      (.requestReceived head.method head.host head.displayUri)

end ProxyEngine

end Oproxy
