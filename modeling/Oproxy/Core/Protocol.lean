import Oproxy.Lib.Http

/-!
# Protocol planning (`core/forward.rs`)

The typed protocol identity of an exchange, the body hints of the plugins and the choice of the forwarding class.
-/

namespace Oproxy

inductive WireProtocol where
  | http1 | http2 | http3 | socks5 | webSocket
  deriving DecidableEq

def WireProtocol.label : WireProtocol → Str
  | http1 => "HTTP/1.1"
  | http2 => "HTTP/2"
  | http3 => "HTTP/3"
  | socks5 => "SOCKS5"
  | webSocket => "WebSocket"

def WireProtocol.matchValue : WireProtocol → Str
  | http1 => "http1"
  | http2 => "http2"
  | http3 => "http3"
  | socks5 => "socks5"
  | webSocket => "websocket"

def WireProtocol.fromHttpVersion : Http.Version → WireProtocol
  | .http2 => http2
  | .http3 => http3
  | _ => http1

inductive ApplicationProtocol where
  | http | grpc | sse | graphql | json | binary
  deriving DecidableEq

def ApplicationProtocol.matchValue : ApplicationProtocol → Str
  | http => "http"
  | grpc => "grpc"
  | sse => "sse"
  | graphql => "graphql"
  | json => "json"
  | binary => "binary"

inductive BodyMode where
  | empty | full | streamBytes | streamMessages | frames | tunnel
  deriving DecidableEq

def BodyMode.matchValue : BodyMode → Str
  | empty => "empty"
  | full => "full"
  | streamBytes => "stream_bytes"
  | streamMessages => "stream_messages"
  | frames => "frames"
  | tunnel => "tunnel"

structure ProtocolContext where
  downstream : WireProtocol
  upstream : Option WireProtocol
  application : ApplicationProtocol
  bodyMode : BodyMode
  scheme : Str
  connectionId : Option Str
  streamId : Option Nat
  deriving DecidableEq

def ProtocolContext.http (version : Http.Version) (scheme : Str) (application : ApplicationProtocol)
    (bodyMode : BodyMode) : ProtocolContext where
  downstream := WireProtocol.fromHttpVersion version
  upstream := none
  application := application
  bodyMode := bodyMode
  scheme := scheme
  connectionId := none
  streamId := none

def ProtocolContext.withIdentity (p : ProtocolContext) (connectionId : Option Str) (streamId : Option Nat) :
    ProtocolContext :=
  { p with connectionId := connectionId, streamId := streamId }

def ProtocolContext.webSocket (scheme : Str) : ProtocolContext where
  downstream := .webSocket
  upstream := none
  application := .http
  bodyMode := .frames
  scheme := scheme
  connectionId := none
  streamId := none

def ProtocolContext.socks5Tunnel : ProtocolContext where
  downstream := .socks5
  upstream := none
  application := .binary
  bodyMode := .tunnel
  scheme := "socks5"
  connectionId := none
  streamId := none

/-- `ProtocolContext::default()`. -/
def ProtocolContext.default : ProtocolContext where
  downstream := .http1
  upstream := none
  application := .http
  bodyMode := .full
  scheme := []
  connectionId := none
  streamId := none

/-! ### The forwarding class -/

/-- Granularity at which an inspecting plugin observes a streamed body. -/
inductive Granularity where
  | bytes | messages
  deriving DecidableEq

/-- How a plugin needs to access the body. -/
inductive BodyHint where
  | fullBody
  | streamingInspect (granularity : Granularity)
  deriving DecidableEq

inductive ForwardClass where
  | buffered | streaming
  deriving DecidableEq

inductive ExecutionClass where
  | buffered | streamingInspect | frameInspect | tunnelMetadata
  deriving DecidableEq

structure CapabilityPlan where
  execution : ExecutionClass
  forwardClass : ForwardClass
  diagnostic : Option Str

def fullBodyDiagnostic : BodyMode → Option Str
  | .tunnel =>
    some "full-body middleware cannot run on a raw tunnel; only metadata-safe actions are supported".toList
  | .frames =>
    some "full-body middleware forces buffered HTTP handling; frame streams need a frame-aware action".toList
  | _ => none

/-- Select the execution path: one plugin which needs the whole body forces the buffered class. -/
def planExecution (protocol : ProtocolContext) (hints : List BodyHint) : CapabilityPlan :=
  if .fullBody ∈ hints then ⟨.buffered, .buffered, fullBodyDiagnostic protocol.bodyMode⟩
  else
    match protocol.bodyMode with
    | .tunnel => ⟨.tunnelMetadata, .buffered, none⟩
    | .frames => ⟨.frameInspect, .streaming, none⟩
    | _ => if hints.isEmpty then ⟨.buffered, .buffered, none⟩ else ⟨.streamingInspect, .streaming, none⟩

end Oproxy
