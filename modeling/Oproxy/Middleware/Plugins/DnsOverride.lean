import Oproxy.Lib.IndexMap
import Oproxy.Middleware.Chain

/-!
# DNS overrides (`middleware/plugins/dns_override.rs`)

An enabled override for the host of a request replaces the host by the configured address and makes a destination
of it.
-/

namespace Oproxy

structure DnsEntry where
  ip : Str
  enabled : Bool
  deriving DecidableEq

abbrev DnsOverrides := IndexMap Str DnsEntry

namespace DnsOverride

/-- The host without its port, and the text of the port. -/
def splitHost (host : Str) : Str × Str := (Str.rsplitOnce ':' host).getD (host, [])

/-- The enabled override for a host. -/
def lookup (overrides : DnsOverrides) (host : Str) : Option DnsEntry :=
  (overrides.get? (splitHost host).1).filter DnsEntry.enabled

def newHost (entry : DnsEntry) (port : Str) : Str := if port.isEmpty then entry.ip else entry.ip ++ ':' :: port

def scheme (port : Str) : Str := if port = ("443" : Str) then "https" else "http"

def onRequest (overrides : DnsOverrides) (ctx : RequestContext) : RequestContext × MiddlewareAction :=
  match lookup overrides ctx.host with
  | some entry =>
    let port := (splitHost ctx.host).2
    ({ ctx with
        host := newHost entry port
        destination := some (scheme port ++ ("://" : Str) ++ newHost entry port) }, .proceed)
  | none => (ctx, .proceed)

def middleware (overrides : DnsOverrides) : Middleware where
  onRequest := onRequest overrides

theorem onRequest_proceeds (overrides : DnsOverrides) (ctx : RequestContext) :
    (onRequest overrides ctx).2 = .proceed := by
  unfold onRequest
  split <;> rfl

theorem onRequest_of_none {overrides : DnsOverrides} {ctx : RequestContext} (h : lookup overrides ctx.host = none) :
    onRequest overrides ctx = (ctx, .proceed) := by
  unfold onRequest
  rw [h]

theorem onRequest_of_some {overrides : DnsOverrides} {ctx : RequestContext} {entry : DnsEntry}
    (h : lookup overrides ctx.host = some entry) :
    (onRequest overrides ctx).1.destination =
      some (scheme (splitHost ctx.host).2 ++ ("://" : Str) ++ newHost entry (splitHost ctx.host).2) := by
  unfold onRequest
  rw [h]

/-- An override leaves everything but the host and the destination as it was. -/
theorem onRequest_frame (overrides : DnsOverrides) (ctx : RequestContext) :
    (onRequest overrides ctx).1 =
      { ctx with
        host := (onRequest overrides ctx).1.host
        destination := (onRequest overrides ctx).1.destination } := by
  unfold onRequest
  split <;> rfl

end DnsOverride

end Oproxy
