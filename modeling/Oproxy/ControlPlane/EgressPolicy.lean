import Oproxy.ControlPlane.Auth

/-!
# The admin egress policy (`security.rs`)

What the control plane contacts for an admin is checked once, before it is contacted: an address in the URL itself,
or the addresses to which its host resolves at that moment.  A host which does not resolve passes.
-/

namespace Oproxy

/-! ### Addresses as text -/

namespace IpAddr

/-- One octet: up to three digits, no leading zero. -/
def parseOctet (text : Str) : Option UInt8 :=
  if text.isEmpty || text.length > 3 || !text.all Str.isAsciiDigit || (text.length > 1 && text.head? == some '0')
    then none
  else (Str.parseUnsigned 255 text).map UInt8.ofNat

def parseV4 (text : Str) : Option IpAddr :=
  match (Str.split '.' text).map parseOctet with
  | [some a, some b, some c, some d] => some (.v4 a b c d)
  | _ => none

def hexDigit (c : Char) : Option Nat :=
  if '0' ≤ c ∧ c ≤ '9' then some (c.toNat - '0'.toNat)
  else if 'a' ≤ c ∧ c ≤ 'f' then some (c.toNat - 'a'.toNat + 10)
  else if 'A' ≤ c ∧ c ≤ 'F' then some (c.toNat - 'A'.toNat + 10)
  else none

/-- One group of an IPv6 address. -/
def parseGroup (text : Str) : Option Nat :=
  if text.isEmpty || text.length > 4 then none
  else (text.mapM hexDigit).map fun digits => digits.foldl (fun n digit => 16 * n + digit) 0

/-- A row of groups; where `last` allows it, the last part may be an IPv4 address, which makes two groups. -/
def parseGroups (last : Bool) : List Str → Option (List Nat)
  | [] => some []
  | [part] =>
    match parseGroup part, parseV4 part with
    | some group, _ => some [group]
    | none, some (.v4 a b c d) =>
      if last then some [256 * a.toNat + b.toNat, 256 * c.toNat + d.toNat] else none
    | none, _ => none
  | part :: parts => (parseGroup part).bind fun group => (parseGroups last parts).map fun groups => group :: groups

def groupsOf (last : Bool) (text : Str) : Option (List Nat) :=
  if text.isEmpty then some [] else parseGroups last (Str.split ':' text)

/-- The address of eight groups. -/
def ofGroups (groups : List Nat) : IpAddr := .v6 (BitVec.ofNat 128 (groups.foldl (fun n group => 65536 * n + group) 0))

def parseV6 (text : Str) : Option IpAddr :=
  match Str.splitOnceStr "::" text with
  | none => ((groupsOf true text).filter fun groups => groups.length == 8).map ofGroups
  | some (head, tail) =>
    (groupsOf false head).bind fun before => (groupsOf true tail).bind fun after =>
      if before.length + after.length ≤ 7 then
        some (ofGroups (before ++ List.replicate (8 - (before.length + after.length)) 0 ++ after))
      else none

/-- `IpAddr::from_str`. -/
def parse (text : Str) : Option IpAddr := (parseV4 text).orElse fun _ => parseV6 text

end IpAddr

/-! ### The policy -/

namespace Egress

structure AdminEgressPolicy where
  blockPrivateTargets : Bool

def isProtectedAdminEgressIp : IpAddr → Bool
  | .v4 a b c d =>
    a == 127 ||
      (a == 10 || (a == 172 && 16 ≤ b && b ≤ 31) || (a == 192 && b == 168)) ||
      (a == 169 && b == 254) ||
      (224 ≤ a && a ≤ 239) ||
      (a == 255 && b == 255 && c == 255 && d == 255) ||
      (a == 0 && b == 0 && c == 0 && d == 0) ||
      (a == 100 && 64 ≤ b && b ≤ 127)
  | .v6 bits =>
    bits == 1 || bits == 0 ||
      bits.extractLsb' 121 7 == 0x7e ||
      bits.extractLsb' 118 10 == 0x3fa ||
      bits.extractLsb' 120 8 == 0xff

/-- What a look-up of a host and a port comes to; none where it fails or takes too long. -/
abbrev Resolve : Type := Str → Nat → Option (List IpAddr)

inductive Blocked where
  | noHost
  | noPort
  | literal (ip : IpAddr)
  | resolved (host : Str) (ip : IpAddr)

/-- The text of a refusal, with the text of its address. -/
def Blocked.message (text : IpAddr → Str) : Blocked → Str
  | noHost => "admin egress URL must include a host"
  | noPort => "admin egress URL must include a resolvable port"
  | literal ip =>
    ("admin egress to protected address " : Str) ++ text ip ++ (" is blocked while remote admin is enabled" : Str)
  | resolved host ip =>
    ("admin egress target " : Str) ++ host ++ (" resolved to protected address " : Str) ++ text ip

def enforceAdminEgressPolicy (resolve : Resolve) (url : Url) (policy : AdminEgressPolicy) : Except Blocked Unit :=
  if !policy.blockPrivateTargets then .ok ()
  else
    match url.hostStr with
    | none => .error .noHost
    | some host =>
      match IpAddr.parse host with
      | some ip => if isProtectedAdminEgressIp ip then .error (.literal ip) else .ok ()
      | none =>
        match url.portOrKnownDefault with
        | none => .error .noPort
        | some port =>
          match resolve host port with
          | none => .ok ()
          | some addrs =>
            match addrs.find? isProtectedAdminEgressIp with
            | some ip => .error (.resolved host ip)
            | none => .ok ()

end Egress

/-- Local addresses of both families as text. -/
example : (IpAddr.parse "127.0.0.1").map Egress.isProtectedAdminEgressIp = some true ∧
    (IpAddr.parse "::1").map Egress.isProtectedAdminEgressIp = some true ∧
    (IpAddr.parse "fe80::1:2").map Egress.isProtectedAdminEgressIp = some true ∧
    (IpAddr.parse "::ffff:10.0.0.1").map Egress.isProtectedAdminEgressIp = some false ∧
    (IpAddr.parse "93.184.216.34").map Egress.isProtectedAdminEgressIp = some false ∧
    IpAddr.parse "[::1]" = none := by decide +kernel

end Oproxy
