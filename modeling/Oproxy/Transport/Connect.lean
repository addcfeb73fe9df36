import Oproxy.Middleware.Plugins.DnsOverride
import Oproxy.Transport.Tunnel

/-!
# CONNECT (`transport/connect.rs`)

The CONNECT handler records a session up front unless it may intercept the connection, and records the response when
the tunnel ends by itself.  A run is a function of what its awaits come to.
-/

namespace Oproxy

structure ConnectTarget where
  authority : Str
  hostname : Str
  address : Str

namespace Connect

def resolve (dns : DnsOverrides) (authority : Str) : ConnectTarget :=
  let rawAddress := if ':' ∈ authority then authority else authority ++ (":443" : Str)
  let (hostname, port) := (Str.splitOnce ':' rawAddress).getD (rawAddress, "443")
  { authority := authority
    hostname := hostname
    address := match (dns.get? hostname).filter DnsEntry.enabled with
      | some entry => entry.ip ++ ':' :: port
      | none => rawAddress }

def connectRequestContext (target : ConnectTarget) (scheme : Str) : RequestContext :=
  { RequestContext.default with
    method := "CONNECT"
    uri := scheme ++ ("://" : Str) ++ target.authority
    host := target.authority }

inductive TunnelOutcome where
  | connected (bytesUp bytesDown : Nat)
  | unreachable (error : Str)
  | timedOut

/-- First byte of a TLS record carrying a handshake (ClientHello). -/
def tlsHandshakeRecord : UInt8 := 0x16

/-- The settings of the handler, and what it uses of the world outside: the id of the session, the text of a number
of bytes, and the time a tunnel has taken. -/
structure ConnectWorld where
  dns : DnsOverrides
  isMitm : Bool
  sessionId : Str
  fmtBytes : Nat → Str
  latencyMs : Nat

/-- What the awaits of a run come to: the upgrade of the client's connection, the first read on it, which is empty
where the client has gone, and the connection to the upstream. -/
structure ConnectRun where
  upgrade : Awaited (Except Str Unit)
  peek : Awaited Bytes
  dial : Awaited Dial

variable (world : ConnectWorld)

def recordTunnelOutcome (target : ConnectTarget) (outcome : TunnelOutcome) : List WriteOp :=
  let (status, body, bytesUp, bytesDown) : Nat × Str × Nat × Nat := match outcome with
    | .connected bytesUp bytesDown =>
      (200, '↑' :: world.fmtBytes bytesUp ++ (" ↓" : Str) ++ world.fmtBytes bytesDown, bytesUp, bytesDown)
    | .unreachable error => (502, ("upstream unreachable: " : Str) ++ error, 0, 0)
    | .timedOut => (504, "upstream connect timed out", 0, 0)
  let response := { ResponseContext.default with
    status := status
    body := body.toUtf8
    requestUri := ("https://" : Str) ++ target.authority
    sessionId := some world.sessionId }
  [.recordResponseWithMetrics world.sessionId response
    (InspectionMetrics.ofStatus status world.latencyMs bytesUp bytesDown 0 0 none)]

/-- The tunnel to the upstream, as far as it gets. -/
def tunnelOps (target : ConnectTarget) (dial : Awaited Dial) : List WriteOp :=
  match dial with
  | .stopped => []
  | .ready (.refused error) => recordTunnelOutcome world target (.unreachable error)
  | .ready .timedOut => recordTunnelOutcome world target .timedOut
  | .ready (.connected relay) =>
    match relay.copyBidirectional with
    | .stopped => []
    | .ready result =>
      let (toServer, toClient) := result.getD (0, 0)
      recordTunnelOutcome world target (.connected toServer toClient)

/-- The run of a CONNECT for an authority. -/
def handleConnect (authority : Str) (run : ConnectRun) : List WriteOp :=
  let target := resolve world.dns authority
  let opening := if world.isMitm then []
    else [.recordRequest world.sessionId (connectRequestContext target "https") .proxy]
  match run.upgrade with
  | .stopped => opening
  | .ready (.error _) => opening
  | .ready (.ok ()) =>
    if world.isMitm then
      match run.peek with
      | .stopped => opening
      | .ready [] => opening
      | .ready (first :: _) =>
        -- a TLS connection is intercepted: its requests get sessions of their own
        if first = tlsHandshakeRecord then opening
        else
          opening ++ .recordRequest world.sessionId (connectRequestContext target "http") .proxy ::
            tunnelOps world target run.dial
    else opening ++ tunnelOps world target run.dial

/-! ### A run, case by case -/

/-- A run which records a session: one which may not intercept, or one whose client speaks clear text. -/
def Records (world : ConnectWorld) (run : ConnectRun) : Prop :=
  world.isMitm = false ∨
    (run.upgrade = .ready (.ok ()) ∧ ∃ first rest, run.peek = .ready (first :: rest) ∧ first ≠ tlsHandshakeRecord)

variable {world}

/-- A CONNECT which may not intercept has its session up front. -/
theorem handleConnect_of_plain (authority : Str) (run : ConnectRun) (hmitm : world.isMitm = false) :
    handleConnect world authority run =
      [.recordRequest world.sessionId (connectRequestContext (resolve world.dns authority) "https") .proxy] ++
        match run.upgrade with
        | .ready (.ok ()) => tunnelOps world (resolve world.dns authority) run.dial
        | _ => [] := by
  unfold handleConnect
  rw [hmitm]
  rcases run.upgrade with (error | _) | _ <;> rfl

/-- Where a CONNECT may intercept, only clear text gets a session. -/
theorem handleConnect_of_mitm (authority : Str) (run : ConnectRun) (hmitm : world.isMitm = true) :
    (∃ first rest, run.upgrade = .ready (.ok ()) ∧ run.peek = .ready (first :: rest) ∧ first ≠ tlsHandshakeRecord ∧
      handleConnect world authority run =
        [.recordRequest world.sessionId (connectRequestContext (resolve world.dns authority) "http") .proxy] ++
          tunnelOps world (resolve world.dns authority) run.dial) ∨
      (¬ Records world run ∧ handleConnect world authority run = []) := by
  -- only what a client sends in plain text is recorded
  have hnone : ∀ {ops : List WriteOp}, (¬ ∃ first rest, run.upgrade = .ready (.ok ()) ∧
      run.peek = .ready (first :: rest) ∧ first ≠ tlsHandshakeRecord) → ops = [] → ¬ Records world run ∧ ops = [] := by
    intro ops hno hops
    refine ⟨?_, hops⟩
    rintro (hplain | ⟨hupgrade, first, rest, hpeek, hfirst⟩)
    · rw [hmitm] at hplain
      cases hplain
    · exact hno ⟨first, rest, hupgrade, hpeek, hfirst⟩
  -- by what the client does after the answer: the upgrade, then its first bytes
  rcases hupgrade : run.upgrade with (error | _) | _
  · right
    apply hnone
    · rintro ⟨-, -, h, -⟩
      rw [hupgrade] at h
      cases h
    · simp only [handleConnect, hupgrade, hmitm, if_true]
  · rcases hpeek : run.peek with (_ | ⟨first, rest⟩) | _
    · right
      apply hnone
      · rintro ⟨first, rest, -, h, -⟩
        rw [hpeek] at h
        cases h
      · simp only [handleConnect, hupgrade, hmitm, hpeek, if_true]
    · by_cases hfirst : first = tlsHandshakeRecord
      · right
        apply hnone
        · rintro ⟨first', rest', -, h, hne⟩
          rw [hpeek] at h
          cases h
          exact hne hfirst
        · simp only [handleConnect, hupgrade, hmitm, hpeek, if_true, hfirst]
      · left
        refine ⟨first, rest, rfl, rfl, hfirst, ?_⟩
        simp only [handleConnect, hupgrade, hmitm, hpeek, if_true, hfirst, if_false, List.nil_append,
          List.singleton_append]
    · right
      apply hnone
      · rintro ⟨first, rest, -, h, -⟩
        rw [hpeek] at h
        cases h
      · simp only [handleConnect, hupgrade, hmitm, hpeek, if_true]
  · right
    apply hnone
    · rintro ⟨-, -, h, -⟩
      rw [hupgrade] at h
      cases h
    · simp only [handleConnect, hupgrade, hmitm, if_true]

end Connect

end Oproxy
