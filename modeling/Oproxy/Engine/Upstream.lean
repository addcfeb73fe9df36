import Oproxy.Engine.Request

/-!
# The upstream request (`core/engine/mod.rs`)

`prepareUpstream` turns the context which the request chain has left into the request which is sent: the URL, the
fields and the method.  A URL which leads back to the proxy itself is refused.
-/

namespace Oproxy

structure PreparedUpstream where
  url : Str
  headers : Http.Headers
  method : Str
  sessionId : Option Str
  protocolContext : Option ProtocolContext

/-- A response of the engine's own: a status and a text. -/
structure Refusal where
  status : Nat
  text : Str
  deriving DecidableEq

namespace ProxyEngine

def isSelfProxy (engine : ProxyEngine) (parse : Str → Option Url) (targetUrl : Str) : Bool :=
  ((parse targetUrl).bind fun url => url.hostStr.map fun host => (url, host)).any fun (url, host) =>
    let hostClean := host.toAsciiLowercase
    let targetPort := url.port.getD (if url.scheme = ("https" : Str) then 443 else 80)
    if targetPort ≠ engine.bindPort then false
    else if (["localhost", "127.0.0.1", "::1", "0.0.0.0", "[::]"].map String.toList).contains hostClean then true
    else
      let bindHostClean :=
        (Str.trim (((Str.splitOnce ':' engine.bindHost).map Prod.fst).getD engine.bindHost)).toAsciiLowercase
      hostClean == bindHostClean ||
        ((["0.0.0.0", "::", "[::]"].map String.toList).contains bindHostClean &&
          engine.selfLanHosts.contains hostClean)

/-- The URL which a context is forwarded to. -/
def upstreamUrl (parse : Str → Option Url) (request : RequestContext) (uri : Http.Uri) (fallbackUri : Str) : Str :=
  (Wire.targetUrl parse request.destination request.host (Wire.upstreamPath uri fallbackUri)
    (Wire.sanitizeForwardedRequestHeaders request.headers)).1

def loopRefusal : Refusal :=
  ⟨502, "Proxy error: Proxy loop detected (request forwarded to the proxy itself)"⟩

def prepareUpstream (engine : ProxyEngine) (parse : Str → Option Url) (request : RequestContext) (uri : Http.Uri)
    (fallbackUri : Str) : RequestContext × Except Refusal PreparedUpstream :=
  let (url, headers) := Wire.targetUrl parse request.destination request.host (Wire.upstreamPath uri fallbackUri)
    (Wire.sanitizeForwardedRequestHeaders request.headers)
  let sent := { request with destination := none, headers := headers }
  let sent := if request.destination.isNone then sent.pushFlow (.targetSelected .originalHost url none none) else sent
  if engine.isSelfProxy parse url then (sent, .error loopRefusal)
  else if !Http.isToken request.method then (sent, .error ⟨400, "invalid HTTP method"⟩)
  else
    (sent, .ok
      { url := url
        headers := Wire.upstreamHeaders headers
        method := request.method
        sessionId := request.sessionId
        protocolContext := request.protocolContext })

/-- The URL of the request as it came in. -/
def receivedUrl (req : IncomingRequest) (mitmDestination : Option Str) : Str :=
  (match mitmDestination with
    | some destination => Wire.destinationBase destination
    | none => ("http://" : Str) ++ requestHost req) ++ Wire.upstreamPath req.uri req.uri.display

/-- What is sent goes to `upstreamUrl`, with the method and the sanitised fields of the context. -/
theorem prepareUpstream_ok {engine : ProxyEngine} {parse : Str → Option Url} {request sent : RequestContext}
    {uri : Http.Uri} {fallbackUri : Str} {prepared : PreparedUpstream}
    (h : engine.prepareUpstream parse request uri fallbackUri = (sent, .ok prepared)) :
    prepared.url = upstreamUrl parse request uri fallbackUri ∧ prepared.method = request.method ∧
      prepared.headers = Wire.upstreamHeaders (Wire.targetUrl parse request.destination request.host
        (Wire.upstreamPath uri fallbackUri) (Wire.sanitizeForwardedRequestHeaders request.headers)).2 ∧
      sent.body = request.body := by
  unfold prepareUpstream at h
  dsimp only at h
  split at h
  · cases h
  · split at h
    · cases h
    · cases h
      refine ⟨rfl, rfl, rfl, ?_⟩
      split <;> rfl

/-- What is refused is a loop or a method which is no token. -/
theorem prepareUpstream_error {engine : ProxyEngine} {parse : Str → Option Url} {request sent : RequestContext}
    {uri : Http.Uri} {fallbackUri : Str} {refusal : Refusal}
    (h : engine.prepareUpstream parse request uri fallbackUri = (sent, .error refusal)) :
    refusal.status = 502 ∨ refusal.status = 400 := by
  unfold prepareUpstream at h
  dsimp only at h
  split at h
  · cases h
    exact Or.inl rfl
  · split at h
    · cases h
      exact Or.inr rfl
    · cases h

/-- Where the chain has left no destination, the URL is made of the host and of the original target. -/
theorem upstreamUrl_of_destination_none {parse : Str → Option Url} {request : RequestContext}
    (h : request.destination = none) (uri : Http.Uri) (fallbackUri : Str) :
    upstreamUrl parse request uri fallbackUri =
      ("http://" : Str) ++ request.host ++ Wire.upstreamPath uri fallbackUri := by
  unfold upstreamUrl Wire.targetUrl
  rw [h]

theorem upstreamUrl_of_destination {parse : Str → Option Url} {request : RequestContext} {destination : Str}
    (h : request.destination = some destination) (uri : Http.Uri) (fallbackUri : Str) :
    upstreamUrl parse request uri fallbackUri =
      Wire.destinationBase destination ++ Wire.upstreamPath uri fallbackUri := by
  unfold upstreamUrl Wire.targetUrl
  rw [h]

/-- A context with the host and the destination of the request is sent to the URL of the request as it came in. -/
theorem upstreamUrl_eq_receivedUrl {parse : Str → Option Url} {req : IncomingRequest} {mitmDestination : Option Str}
    {ctx : RequestContext} (hdestination : ctx.destination = mitmDestination) (hhost : ctx.host = requestHost req) :
    upstreamUrl parse ctx req.uri req.uri.display = receivedUrl req mitmDestination := by
  cases mitmDestination with
  | none =>
    rw [upstreamUrl_of_destination_none hdestination, hhost]
    rfl
  | some destination =>
    rw [upstreamUrl_of_destination hdestination]
    rfl

end ProxyEngine

end Oproxy
