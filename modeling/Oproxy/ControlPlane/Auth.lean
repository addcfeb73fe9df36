import Oproxy.ControlPlane.Router
import Oproxy.Lib.Url

/-!
# Admission to the control plane (`control_plane/auth.rs`)

The two layers in front of the control-plane router: `proxyDispatchLayer` sends what is not for the management
interface to the proxy engine, and `adminAuthLayer` checks origin and token of what remains.
-/

namespace Oproxy

/-- The configuration which the layers read. -/
structure Config where
  port : Nat
  bindHost : Str
  allowRemoteAdmin : Bool
  adminToken : Option Str

inductive IpAddr where
  | v4 (a b c d : UInt8)
  | v6 (bits : BitVec 128)
  deriving DecidableEq

def IpAddr.isLoopback : IpAddr → Bool
  | v4 a _ _ _ => a == 127
  | v6 bits => bits == 1

/-- A request as the layers see it; `peerIp` is the address of the downstream peer, where it is known. -/
structure AdminRequest where
  method : Str
  uri : Http.Uri
  headers : Http.Headers
  peerIp : Option IpAddr

namespace Auth

/-- The target of the sessions. -/
def sessionsUri : Http.Uri := { Http.Uri.root with rawPathAndQuery := "/admin/sessions", path_start := by decide }

/-! ### Authorities -/

def hostWithoutPort (hostHeader : Str) : Str :=
  let host := hostHeader.trim
  match Str.stripPrefix "[" host with
  | some rest => ((Str.splitOnce ']' rest).map Prod.fst).getD rest
  | none =>
    match Str.rsplitOnce ':' host with
    | some (name, port) => if host.count ':' = 1 ∧ port.all Str.isAsciiDigit then name else host
    | none => host

def u16Max : Nat := 65535

def authorityPort (authority : Str) : Option Nat :=
  let authority := authority.trim
  match Str.stripPrefix "[" authority with
  | some rest =>
    (Str.splitOnce ']' rest).bind fun p => (Str.stripPrefix ":" p.2).bind (Str.parseUnsigned u16Max)
  | none =>
    match Str.rsplitOnce ':' authority with
    | some (_, port) =>
      if authority.count ':' = 1 ∧ port.all Str.isAsciiDigit then Str.parseUnsigned u16Max port else none
    | none => none

def normalizedAuthority (authority : Str) : Str × Option Nat :=
  ((hostWithoutPort authority).toAsciiLowercase, authorityPort authority)

def sameAuthority (left right : Str) : Bool := normalizedAuthority left == normalizedAuthority right

/-! ### The management host -/

def configuredAdminToken (config : Config) : Option Str :=
  (config.adminToken.map Str.trim).filter fun token => !token.isEmpty

/-- `lan` is the answer of the look-up of the machine's own LAN address. -/
def isManagementHost (lan : Option Str) (hostHeader bindHost : Str)
    (allowRemoteAdmin remoteAdminTokenConfigured : Bool) (peerIp : Option IpAddr) (proxyPort : Nat) : Bool :=
  let host := (hostWithoutPort hostHeader).toAsciiLowercase
  let hostPort := authorityPort hostHeader
  if host ∈ (["localhost", "127.0.0.1", "::1", "0.0.0.0"].map String.toList : List Str) then
    if hostPort.getD 80 ≠ proxyPort then false
    else if peerIp.any IpAddr.isLoopback then true
    else allowRemoteAdmin && remoteAdminTokenConfigured
  else if !allowRemoteAdmin || !remoteAdminTokenConfigured then false
  else
    let bindHost := bindHost.trim.toAsciiLowercase
    if bindHost ∉ (["0.0.0.0", "::", "[::]"].map String.toList : List Str) then
      host == (hostWithoutPort bindHost).toAsciiLowercase
    else if host = ("0.0.0.0" : Str) then true
    else lan.any fun lanHost => host == lanHost.toAsciiLowercase

/-- The management test of a host text, with the settings of the configuration. -/
def isManagementAuthority (lan : Option Str) (config : Config) (peerIp : Option IpAddr) (host : Str) : Bool :=
  isManagementHost lan host config.bindHost config.allowRemoteAdmin (configuredAdminToken config).isSome peerIp
    config.port

/-- The test both layers make: the Host header names the management interface, or there is no readable Host header
and the peer is on this machine. -/
def isAdminHost (lan : Option Str) (config : Config) (req : AdminRequest) : Bool :=
  ((req.headers.getStr "host").map (isManagementAuthority lan config req.peerIp)).getD
    (req.peerIp.any IpAddr.isLoopback)

def isPublicSetupEndpoint (req : AdminRequest) : Bool :=
  if req.uri.scheme.isSome then false
  else req.method == ("GET" : Str) &&
    (["/admin/ca", "/setup", "/setup/mobile", "/admin/setup/network-info"].map String.toList).contains req.uri.path

/-- Whether the request goes to the router; the proxy engine takes it otherwise. -/
def proxyDispatchLayer (lan : Option Str) (config : Config) (req : AdminRequest) : Bool :=
  isAdminHost lan config req || isPublicSetupEndpoint req

/-! ### Tokens -/

/-- Comparison of two tokens through keyed digests, which agree exactly on equal texts. -/
def tokenMatches (candidate expected : Str) : Bool := candidate == expected

def requestHasHeaderAdminToken (req : AdminRequest) (expected : Str) : Bool :=
  (req.headers.getStr "x-oproxy-admin-token").any (fun token => tokenMatches token.trim expected) ||
    ((req.headers.getStr "authorization").bind (Str.stripPrefix "Bearer ")).any fun token =>
      tokenMatches token.trim expected

def queryAdminToken (query : Option Str) : Option Str :=
  query.bind fun query => (Str.split '&' query).findSome? fun pair =>
    let (key, value) := (Str.splitOnce '=' pair).getD (pair, [])
    if key = ("token" : Str) ∨ key = ("admin_token" : Str) then some value else none

def cookieHasAdminToken (cookies expected : Str) : Bool :=
  (Str.split ';' cookies).any fun cookie =>
    let (name, value) := (Str.splitOnce '=' cookie.trim).getD ([], [])
    name == ("oproxy_admin_token" : Str) && tokenMatches value.trim expected

def requestHasAdminToken (req : AdminRequest) (expected : Str) : Bool :=
  requestHasHeaderAdminToken req expected ||
    (req.headers.getStr "cookie").any (fun cookies => cookieHasAdminToken cookies expected) ||
    (queryAdminToken req.uri.query).any fun token => tokenMatches token expected

/-- The bytes a cookie value may have. -/
def isCookieOctet (b : UInt8) : Bool :=
  let n := b.toNat
  n == 0x21 || (0x23 ≤ n && n ≤ 0x2b) || (0x2d ≤ n && n ≤ 0x3a) || (0x3c ≤ n && n ≤ 0x5b) || (0x5d ≤ n && n ≤ 0x7e)

def adminTokenCookie (token : Str) : Option Str :=
  if token.toUtf8.all isCookieOctet then
    some (("oproxy_admin_token=" : Str) ++ token ++ ("; HttpOnly; SameSite=Strict; Path=/" : Str))
  else none

/-! ### The origin check -/

def isStateChangingAdminRequest (req : AdminRequest) : Bool :=
  !(["GET", "HEAD", "OPTIONS"].map String.toList).contains req.method

/-- The authority of an `http` or `https` URL. -/
def urlAuthority (parse : Str → Option Url) (value : Str) : Option Str :=
  (parse value).bind fun url =>
    if url.scheme = ("http" : Str) ∨ url.scheme = ("https" : Str) then
      url.hostStr.map fun host =>
        match url.port with
        | some port => host ++ ':' :: Str.ofNat port
        | none => host
    else none

def requestOriginAuthority (parse : Str → Option Url) (req : AdminRequest) : Option Str :=
  ((req.headers.getStr "origin").bind (urlAuthority parse)).orElse fun _ =>
    (req.headers.getStr "referer").bind (urlAuthority parse)

def csrfOriginAllowed (parse : Str → Option Url) (lan : Option Str) (config : Config) (req : AdminRequest) : Bool :=
  match requestOriginAuthority parse req with
  | none => true
  | some originAuthority =>
    match req.headers.getStr "host" with
    | none => false
    | some requestHost =>
      if !sameAuthority originAuthority requestHost then false
      else isManagementAuthority lan config req.peerIp requestHost

/-! ### The layers -/

def isBrowserNavigation (req : AdminRequest) : Bool :=
  (req.headers.getStr "accept").any (Str.contains "text/html")

def hexDigit (n : Nat) : Char :=
  ['0', '1', '2', '3', '4', '5', '6', '7', '8', '9', 'A', 'B', 'C', 'D', 'E', 'F'].getD n '0'

def isUnreservedByte (b : UInt8) : Bool :=
  let c := Char.ofNat b.toNat
  b.toNat < 128 && (c.isAlphanum || c == '-' || c == '_' || c == '.' || c == '~' || c == '/')

def encodeNextParam (s : Str) : Str :=
  s.toUtf8.flatMap fun b =>
    if isUnreservedByte b then [Char.ofNat b.toNat]
    else ['%', hexDigit (b.toNat / 16), hexDigit (b.toNat % 16)]

def isPublicPath (path : Str) : Bool :=
  (["/", "/login", "/health", "/robots.txt", "/favicon.ico", "/setup", "/setup/mobile"].map String.toList).contains
      path ||
    Str.startsWith path "/assets/" || (["/admin/ca", "/admin/setup/network-info"].map String.toList).contains path

/-- What the authentication layer does with a request. -/
inductive Decision where
  | next (setCookie : Option Str)
  | forbidden
  | redirect (location : Str)
  | unauthorized
  deriving DecidableEq

def adminAuthLayer (parse : Str → Option Url) (lan : Option Str) (config : Config) (req : AdminRequest) : Decision :=
  let isAdminTarget := isAdminHost lan config req
  if isPublicPath req.uri.path || (req.uri.scheme.isSome && !isAdminTarget) then .next none
  else
    let expectedToken := configuredAdminToken config
    let headerTokenAuthenticated := expectedToken.any (requestHasHeaderAdminToken req)
    if isStateChangingAdminRequest req && !headerTokenAuthenticated && !csrfOriginAllowed parse lan config req then
      .forbidden
    else
      match expectedToken with
      | none => .next none
      | some expectedToken =>
        let setCookie := (queryAdminToken req.uri.query).any fun token => tokenMatches token expectedToken
        if requestHasAdminToken req expectedToken then
          .next (if setCookie then adminTokenCookie expectedToken else none)
        else
          let pathAndQuery := req.uri.pathAndQuery.getD "/"
          if isBrowserNavigation req ∧ pathAndQuery ≠ ("/login" : Str) then
            .redirect (("/login?next=" : Str) ++ encodeNextParam pathAndQuery)
          else .unauthorized

/-- What becomes of a request at the proxy's own listener. -/
inductive Outcome where
  | proxied
  | handled (handler : Router.Handler) (setCookie : Option Str)
  | methodNotAllowed
  | refused (decision : Decision)
  deriving DecidableEq

/-- The two layers and the router behind them. -/
def controlPlane (parse : Str → Option Url) (lan : Option Str) (config : Config) (req : AdminRequest) : Outcome :=
  if proxyDispatchLayer lan config req then
    match adminAuthLayer parse lan config req with
    | .next setCookie =>
      match Router.handlerFor req.method req.uri.path with
      | some handler => .handled handler setCookie
      | none => .methodNotAllowed
    | decision => .refused decision
  else .proxied

end Auth

end Oproxy
