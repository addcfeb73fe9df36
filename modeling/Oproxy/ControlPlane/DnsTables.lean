import Oproxy.ControlPlane.RefusedChanges

/-!
# The table of DNS overrides and its two forms (`control_plane/policy.rs`, `storage.rs`)

`GET /admin/dns` shows an enabled override as its address and another one as an object, and the file has an object for
each.  Both forms are read back by the same decoder of a table; but a body in which the hosts `host` and `ip` have
addresses is taken for one override.
-/

namespace Oproxy

open Persisted Mutations

namespace DnsOverride

/-! ### The two forms -/

/-- Two tables are equal as maps; a `HashMap` has no order. -/
def SameTable (a b : DnsOverrides) : Prop := ∀ host, a.get? host = b.get? host

variable {env : Env} {table : DnsOverrides} {memory : Memory}

/-! ### Reading a table -/

end DnsOverride

end Oproxy
