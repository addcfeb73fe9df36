import Oproxy.ControlPlane.Auth

/-!
# Dispatch by authority (`control_plane/auth.rs`)

The dispatch layer looks at the Host header alone, and at the peer where there is none.  A target in absolute form, and
every request of HTTP/2, says itself what it is for.
-/

namespace Oproxy

namespace Auth

variable {lan : Option Str} {config : Config} {req : AdminRequest}

/-- The authority which a request is for: that of its target, or that of its Host header where the target has none. -/
def effectiveAuthority (req : AdminRequest) : Option Str := req.uri.authority.orElse fun _ => req.headers.getStr "host"

/-- The router gets the public setup endpoints and what is for a management host, and nothing else. -/
def FollowsAuthority (lan : Option Str) (config : Config) (req : AdminRequest) : Prop :=
  proxyDispatchLayer lan config req = true →
    isPublicSetupEndpoint req = true ∨
      (effectiveAuthority req).any (isManagementAuthority lan config req.peerIp) = true

/-- Whether what stands for the authority does not name a management host where the authority names none.  The Host
header stands for it, and the peer where there is no Host header. -/
def HostSpeaksFor (lan : Option Str) (config : Config) (req : AdminRequest) : Prop :=
  match req.uri.authority, req.headers.getStr "host" with
  | none, some _ => True
  | none, none => req.peerIp.any IpAddr.isLoopback = false
  | some authority, some host =>
    isManagementAuthority lan config req.peerIp host = true →
      isManagementAuthority lan config req.peerIp authority = true
  | some authority, none =>
    req.peerIp.any IpAddr.isLoopback = true → isManagementAuthority lan config req.peerIp authority = true

/-- Without the setup endpoints, the layer decides by the authority exactly where the Host header, or the peer, speaks
for it. -/
theorem isAdminHost_imp_iff :
    (isAdminHost lan config req = true →
      (effectiveAuthority req).any (isManagementAuthority lan config req.peerIp) = true) ↔
      HostSpeaksFor lan config req := by
  unfold isAdminHost effectiveAuthority HostSpeaksFor
  cases hauthority : req.uri.authority with
  | none =>
    cases hhost : req.headers.getStr "host" with
    | some host => simp
    | none => simp
  | some authority =>
    cases hhost : req.headers.getStr "host" with
    | some host => simp
    | none => simp

/-- A request is dispatched by its authority exactly where it is for a setup endpoint or the Host header, or the peer,
speaks for its authority. -/
theorem followsAuthority_iff (lan : Option Str) (config : Config) (req : AdminRequest) :
    FollowsAuthority lan config req ↔ isPublicSetupEndpoint req = true ∨ HostSpeaksFor lan config req := by
  rw [← isAdminHost_imp_iff]
  unfold FollowsAuthority proxyDispatchLayer
  cases isPublicSetupEndpoint req with
  | true => simp
  | false => simp

/-- A forward proxy request over HTTP/2 without TLS, from this machine. -/
private def foreignRequest : AdminRequest where
  method := "GET"
  uri := .http "example.com" (by decide)
  headers := []
  peerIp := some (.v4 127 0 0 1)

/-- It is taken for one to the management interface. -/
theorem not_followsAuthority : ¬ ∀ lan config req, FollowsAuthority lan config req := by
  intro h
  have hforeign := h none ⟨8080, "127.0.0.1", false, none⟩ foreignRequest (by decide)
  revert hforeign
  decide

/-- Management hosts are told by their names and ports alone. -/
theorem isManagementAuthority_congr {a b : Str} (h : sameAuthority a b = true) (peerIp : Option IpAddr) :
    isManagementAuthority lan config peerIp a = isManagementAuthority lan config peerIp b := by
  obtain ⟨hhost, hport⟩ := Prod.mk.inj (beq_iff_eq.1 h)
  unfold isManagementAuthority isManagementHost
  simp only [hhost, hport]

theorem followsAuthority_of_hostSpeaksFor (h : HostSpeaksFor lan config req) : FollowsAuthority lan config req := by
  rw [← isAdminHost_imp_iff] at h
  unfold FollowsAuthority proxyDispatchLayer
  cases isPublicSetupEndpoint req with
  | true => simp
  | false => simpa using h

/-- A client which repeats the authority of its target in the Host header is dispatched by it. -/
theorem followsAuthority_of_sameAuthority {authority host : Str} (hauthority : req.uri.authority = some authority)
    (hhost : req.headers.getStr "host" = some host) (hsame : sameAuthority host authority = true) :
    FollowsAuthority lan config req := by
  apply followsAuthority_of_hostSpeaksFor
  unfold HostSpeaksFor
  rw [hauthority, hhost]
  dsimp only
  intro hmanagement
  rw [← isManagementAuthority_congr hsame]
  exact hmanagement

end Auth

end Oproxy
