import Oproxy.Transport.DialPaths
import Oproxy.Transport.Socks5Grammar

/-!
# The names in intercepted certificates (`transport/connect.rs`, `transport/socks5.rs`, `transport/tls.rs`)

An intercepted connection is answered with a certificate for a name, and its requests go to an authority.  CONNECT takes
the name out of the authority that the client sent, up to the first colon; SOCKS5 takes both from the target, in which
an override has already replaced the host.
-/

namespace Oproxy

namespace CertificateNames

open DialPaths

/-- A client which asks for a host. -/
inductive Client where
  | connect (authority : Authority)
  | socks5 (request : Socks5.ConnectRequest)

/-- The arguments of `mitm_intercept`: the name goes to `get_certificate_for_domain`, the authority into the destination
of the requests. -/
structure MitmIntercept where
  hostname : Str
  authority : Str

/-- `serve_mitm`, if the port of the target is one for TLS. -/
def Client.mitmIntercept (dns : DnsOverrides) : Client → Option MitmIntercept
  | .connect authority =>
    let target := Connect.resolve dns authority.text
    some ⟨target.hostname, target.authority⟩
  | .socks5 request =>
    let target := Socks5.resolveTarget dns request.target
    if Socks5.isTlsPort target.port then some ⟨target.host, Socks5.mitmAuthority target⟩ else none

/-! ### What the client named -/

/-- A name for a host; that of an IPv6 address may be in brackets. -/
def Names (name : Str) : Host → Prop
  | .name text _ _ => name = text
  | .ipv6 address _ _ => name = address ∨ name = '[' :: (address ++ [']'])

def Client.Named (name : Str) : Client → Prop
  | .connect authority => Names name authority.host
  | .socks5 request => name = request.address.host

def Client.port : Client → Nat
  | .connect authority => (authority.port.map Port.value).getD 443
  | .socks5 request => request.target.port

/-- The port of an HTTPS destination. -/
def HasPort (authority : Str) (port : Nat) : Prop :=
  ∃ a : Authority, a.text = authority ∧ (a.port.map Port.value).getD 443 = port

/-- An intercepted connection is answered under the name which the client gave, and goes to the port that it gave. -/
def NamesClient (dns : DnsOverrides) (client : Client) : Prop :=
  ∀ call, client.mitmIntercept dns = some call → client.Named call.hostname ∧ HasPort call.authority client.port

/-- The condition: CONNECT names no IPv6 address; and where SOCKS5 is intercepted no override is enabled which has
another address, and the host may stand in an authority. -/
def Nameable (dns : DnsOverrides) : Client → Prop
  | .connect authority => authority.host.IsName
  | .socks5 request => Socks5.isTlsPort request.target.port = true →
      (∀ entry, dns.get? request.address.host = some entry → entry.enabled = true → entry.ip = request.address.host) ∧
        ∃ host : Host, host.text = request.address.host

/-! ### CONNECT -/

/-- What CONNECT takes for the host has no colon. -/
theorem colon_not_mem_hostname (dns : DnsOverrides) (authority : Str) :
    ':' ∉ (Connect.resolve dns authority).hostname := by
  have hsplit : ∀ raw, ':' ∈ raw → ':' ∉ ((Str.splitOnce ':' raw).getD (raw, "443")).1 := by
    intro raw hraw
    cases hparts : Str.splitOnce ':' raw with
    | none => exact absurd hraw (Str.splitOnce_eq_none.1 hparts)
    | some parts =>
      obtain ⟨before, after⟩ := parts
      exact (Str.splitOnce_eq_some.1 hparts).2
  unfold Connect.resolve
  dsimp only
  refine hsplit _ ?_
  split
  · assumption
  · exact List.mem_append_right _ (by decide)

theorem not_names_ipv6 {name address : Str} (colon : ':' ∈ address)
    (plain : ∀ c ∈ address, c = ':' ∨ isReserved c = false) (hname : ':' ∉ name) :
    ¬Names name (.ipv6 address colon plain) := by
  rintro (rfl | rfl)
  · exact hname colon
  · exact hname (List.mem_cons_of_mem _ (List.mem_append_left _ colon))

theorem namesClient_connect_iff (dns : DnsOverrides) (authority : Authority) :
    NamesClient dns (.connect authority) ↔ authority.host.IsName := by
  obtain ⟨host, port⟩ := authority
  cases host with
  | name text ne plain =>
    refine iff_of_true ?_ trivial
    intro call hcall
    cases hcall
    exact ⟨(connectReads_name dns ne plain port).1, ⟨.name text ne plain, port⟩, rfl, rfl⟩
  | ipv6 address colon plain =>
    refine iff_of_false ?_ id
    intro h
    exact not_names_ipv6 colon plain (colon_not_mem_hostname dns _) (h _ rfl).1

/-! ### SOCKS5 -/

/-- The port of an authority as it is written down. -/
def portOf (n : Nat) (h : n ≤ 65535) : Port where
  text := Str.ofNat n
  ne := Str.ofNat_ne_nil n
  digits := fun _ hc => Str.isAsciiDigit_of_mem_ofNat hc
  le := by
    unfold Str.ofNat
    rw [Nat.ofDigitChars_ten_toDigits]
    exact h

theorem value_portOf (n : Nat) (h : n ≤ 65535) : (portOf n h).value = n := Nat.ofDigitChars_ten_toDigits

/-- A host and a port make an authority exactly if the host may stand in one. -/
theorem hasPort_iff {host : Str} {port : Nat} (hport : port ≤ 65535) :
    HasPort (host ++ ':' :: Str.ofNat port) port ↔ ∃ h : Host, h.text = host := by
  have hcolon : ':' ∉ Str.ofNat port := Socks5.colon_not_mem_ofNat port
  constructor
  · rintro ⟨⟨h, named⟩, htext, -⟩
    refine ⟨h, ?_⟩
    have hsplit := congrArg (Str.rsplitOnce ':') htext
    rw [Str.rsplitOnce_append hcolon] at hsplit
    cases named with
    | some p =>
      rw [rsplitOnce_some] at hsplit
      exact congrArg Prod.fst (Option.some.inj hsplit)
    | none =>
      rw [text_none] at htext hsplit
      cases h with
      | name text ne plain =>
        rw [Host.text, Str.rsplitOnce_eq_none.2 (not_mem_of_plain plain (by decide))] at hsplit
        cases hsplit
      | ipv6 address colon plain =>
        -- the text ends with a bracket, and with a digit
        have hlast := congrArg List.getLast? htext
        have hbracket : (Host.ipv6 address colon plain).text.getLast? = some ']' := by
          rw [Host.text, ← List.cons_append, List.getLast?_concat]
        obtain ⟨digits, digit, hdigits⟩ : ∃ digits digit, Str.ofNat port = digits ++ [digit] := by
          rcases List.eq_nil_or_concat (Str.ofNat port) with hnil | ⟨digits, digit, hconcat⟩
          · exact absurd hnil (Str.ofNat_ne_nil port)
          · exact ⟨digits, digit, by rw [hconcat, List.concat_eq_append]⟩
        have hdigit : Str.isAsciiDigit digit = true :=
          Str.isAsciiDigit_of_mem_ofNat (n := port) (by rw [hdigits]; simp)
        rw [hbracket, hdigits, ← List.cons_append, ← List.append_assoc, List.getLast?_concat] at hlast
        cases hlast
        exact absurd hdigit (by decide)
  · rintro ⟨h, rfl⟩
    exact ⟨⟨h, some (portOf port hport)⟩, rfl, value_portOf port hport⟩

theorem port_le (request : Socks5.ConnectRequest) : request.target.port ≤ 65535 := by
  have hhigh := request.portHigh.toNat_lt
  have hlow := request.portLow.toNat_lt
  show 256 * request.portHigh.toNat + request.portLow.toNat ≤ 65535
  omega

theorem host_resolveTarget_iff (dns : DnsOverrides) (target : Socks5Target) :
    (Socks5.resolveTarget dns target).host = target.host ↔
      ∀ entry, dns.get? target.host = some entry → entry.enabled = true → entry.ip = target.host := by
  unfold Socks5.resolveTarget
  dsimp only
  cases hentry : dns.get? target.host with
  | none => simp
  | some entry => cases henabled : entry.enabled <;> simp [Option.filter, henabled]

theorem namesClient_socks5_iff (dns : DnsOverrides) (request : Socks5.ConnectRequest) :
    NamesClient dns (.socks5 request) ↔ Nameable dns (.socks5 request) := by
  have hcall : Client.mitmIntercept dns (.socks5 request) =
      if Socks5.isTlsPort request.target.port then
        some ⟨(Socks5.resolveTarget dns request.target).host,
          Socks5.mitmAuthority (Socks5.resolveTarget dns request.target)⟩
      else none := rfl
  unfold NamesClient Nameable
  rw [hcall]
  cases htls : Socks5.isTlsPort request.target.port with
  | false =>
    refine iff_of_true (fun call h => ?_) (fun h => ?_)
    · cases h
    · rw [htls] at h
      cases h
  | true =>
    simp only [if_true, Option.some.injEq, forall_eq', Client.Named, Client.port, htls, forall_const]
    rw [← hasPort_iff (port_le request)]
    have hredirect := host_resolveTarget_iff dns request.target
    constructor
    · rintro ⟨hname, hport⟩
      refine ⟨hredirect.1 hname, ?_⟩
      unfold Socks5.mitmAuthority at hport
      rw [hname] at hport
      exact hport
    · rintro ⟨hnone, hport⟩
      have hname := hredirect.2 hnone
      refine ⟨hname, ?_⟩
      unfold Socks5.mitmAuthority
      rw [hname]
      exact hport

/-- An intercepted connection has the name and the port which the client gave exactly where the client is nameable. -/
theorem namesClient_iff (dns : DnsOverrides) (client : Client) : NamesClient dns client ↔ Nameable dns client := by
  cases client with
  | connect authority => exact namesClient_connect_iff dns authority
  | socks5 request => exact namesClient_socks5_iff dns request

/-- CONNECT to `[::1]:443`. -/
def loopbackClient : Client :=
  .connect ⟨.ipv6 "::1" (by decide) (by decide), some DialPaths.httpsPort⟩

/-- The certificate is for an opening bracket. -/
theorem not_namesClient : ¬ ∀ (dns : DnsOverrides) (client : Client), NamesClient dns client := by
  intro h
  have hname := (h IndexMap.empty loopbackClient _ rfl).1
  rcases hname with hname | hname <;> exact absurd hname (by decide +kernel)

end CertificateNames

end Oproxy
