import Oproxy.ControlPlane.EgressLiterals
import Oproxy.Lib.Segments
import Oproxy.Lib.Utf8
import Oproxy.Transport.Socks5

/-!
# The SOCKS5 handshake (`transport/socks5.rs`)

A client greets with the methods it offers, and then asks for a connection to an address.  The bytes come in segments;
`read` is how a number of them is taken off the front, and what is written is written at once.
-/

namespace Oproxy

namespace Socks5

inductive Socks5Error where
  | io
  | badVersion (version : UInt8)
  | noAcceptableMethod
  | unsupportedCommand (command : UInt8)
  | unsupportedAddrType (addrType : UInt8)
  | invalidAddress
  deriving DecidableEq

/-! ### Texts of addresses -/

/-- `Ipv4Addr::to_string`. -/
def ipv4Text (ip : Bytes) : Str := List.intercalate ['.'] (ip.map fun b => Str.ofNat b.toNat)

/-- The groups of an IPv6 address. -/
def ipv6Groups : Bytes → List Nat
  | high :: low :: ip => (256 * high.toNat + low.toNat) :: ipv6Groups ip
  | _ => []

/-- The first of the longest rows of zeros, by its start and its length; `start` and `length` are those of the row that
is being counted. -/
def longestZeros : (index start length : Nat) → (longest : Nat × Nat) → List Nat → Nat × Nat
  | _, _, _, longest, [] => longest
  | index, start, length, longest, group :: groups =>
    if group = 0 then
      let start := if length = 0 then index else start
      let length := length + 1
      longestZeros (index + 1) start length (if length > longest.2 then (start, length) else longest) groups
    else longestZeros (index + 1) 0 0 longest groups

def groupsText (groups : List Nat) : Str := List.intercalate [':'] (groups.map (Nat.toDigits 16))

/-- `Ipv6Addr::to_string`. -/
def ipv6Text (ip : Bytes) : Str :=
  if ip.take 12 = List.replicate 10 0 ++ [0xff, 0xff] then ("::ffff:" : Str) ++ ipv4Text (ip.drop 12)
  else
    let groups := ipv6Groups ip
    let (start, length) := longestZeros 0 0 0 (0, 0) groups
    if length > 1 then groupsText (groups.take start) ++ ("::" : Str) ++ groupsText (groups.drop (start + length))
    else groupsText groups

/-- `String::from_utf8`. -/
def fromUtf8 (bytes : Bytes) : Option Str :=
  let text := Utf8.decodeLossy bytes
  if text.toUtf8 = bytes then some text else none

/-! ### The handshake -/

def commandNotSupported : Bytes := [5, 7, 0, 1, 0, 0, 0, 0, 0, 0]

section

variable {S : Type} (read : Nat → S → Option (Bytes × S))

def readExact (n : Nat) (stream : S) : Except Socks5Error (Bytes × S) :=
  match read n stream with
  | some r => .ok r
  | none => .error .io

def readU8 (stream : S) : Except Socks5Error (UInt8 × S) := do
  let (bytes, stream) ← readExact read 1 stream
  return (bytes.headD 0, stream)

/-- The greeting, with what is written. -/
def greet (stream : S) : Except Socks5Error S × Bytes :=
  match readExact read 2 stream with
  | .error e => (.error e, [])
  | .ok (buf, stream) =>
    let version := buf.getD 0 0
    if version ≠ 5 then (.error (.badVersion version), [])
    else
      match readExact read (buf.getD 1 0).toNat stream with
      | .error e => (.error e, [])
      | .ok (methods, stream) =>
        if 0 ∉ methods then (.error .noAcceptableMethod, [5, 0xff]) else (.ok stream, [5, 0])

def readHost (addrType : UInt8) (stream : S) : Except Socks5Error (Str × S) :=
  if addrType = 1 then do
    let (ip, stream) ← readExact read 4 stream
    return (ipv4Text ip, stream)
  else if addrType = 3 then do
    let (length, stream) ← readU8 read stream
    let (name, stream) ← readExact read length.toNat stream
    match fromUtf8 name with
    | some host => return (host, stream)
    | none => .error .invalidAddress
  else if addrType = 4 then do
    let (ip, stream) ← readExact read 16 stream
    return (ipv6Text ip, stream)
  else .error (.unsupportedAddrType addrType)

def readTarget (addrType : UInt8) (stream : S) : Except Socks5Error (Socks5Target × S) := do
  let (host, stream) ← readHost read addrType stream
  let (high, stream) ← readU8 read stream
  let (low, stream) ← readU8 read stream
  return (⟨host, 256 * high.toNat + low.toNat⟩, stream)

/-- The request, with what is written. -/
def readRequest (stream : S) : Except Socks5Error (Socks5Target × S) × Bytes :=
  match readExact read 4 stream with
  | .error e => (.error e, [])
  | .ok (hdr, stream) =>
    if hdr.getD 0 0 ≠ 5 then (.error (.badVersion (hdr.getD 0 0)), [])
    else if hdr.getD 1 0 ≠ 1 then (.error (.unsupportedCommand (hdr.getD 1 0)), commandNotSupported)
    else (readTarget read (hdr.getD 3 0) stream, [])

def handshake (stream : S) : Except Socks5Error (Socks5Target × S) × Bytes :=
  match greet read stream with
  | (.error e, written) => (.error e, written)
  | (.ok stream, written) =>
    let (result, reply) := readRequest read stream
    (result, written ++ reply)

end

/-! ### Where a target is dialled -/

/-- `connect_addr`, the address which a tunnel dials. -/
def connectAddr (target : Socks5Target) : Str :=
  if (IpAddr.parseV6 target.host).isSome then
    '[' :: (target.host ++ ("]:" : Str)) ++ Str.ofNat target.port
  else target.host ++ ':' :: Str.ofNat target.port

/-- The authority of an intercepted connection, in `serve_mitm`. -/
def mitmAuthority (target : Socks5Target) : Str := target.host ++ ':' :: Str.ofNat target.port

end Socks5

end Oproxy
