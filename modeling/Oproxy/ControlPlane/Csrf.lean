import Oproxy.ControlPlane.Auth

/-!
# The origin check

What the origin check is for: a state-changing request that names the page it comes from must come from the
management interface's own origin.  `OwnOrigin` says when the `Origin` header is the origin of the authority the
request was sent to, and `OriginGate` what the check should do with it.  The check compares authorities as texts
with optional ports, and takes the `Referer` header for an `Origin` it cannot read; `OriginGateCondition` says for
which requests this comes to the same.
-/

namespace Oproxy

open Auth

/-- The scheme a request comes in under, `tls` telling whether the connection is encrypted. -/
def downstreamScheme (tls : Bool) : Str := if tls then "https" else "http"

/-- The port which an authority without a port stands for. -/
def downstreamPort (tls : Bool) : Nat := if tls then 443 else 80

/-- The name of a host, without brackets and in lower case. -/
def hostName (host : Str) : Str := (hostWithoutPort host).toAsciiLowercase

/-- The URL is at the host and the port of the authority. -/
def NamesAuthority (tls : Bool) (u : Url) (authority : Str) : Prop :=
  hostName (u.hostStr.getD []) = hostName authority ∧
    u.portOrKnownDefault = some ((authorityPort authority).getD (downstreamPort tls))

/-- The authority a request was sent to: its Host header, or on HTTP/2 without one the `:authority`. -/
def ownAuthority (req : AdminRequest) : Option Str :=
  match req.headers.get "host" with
  | some value => Http.HeaderValue.toStr value
  | none => req.uri.authority

/-- The `Origin` header as an `http` or `https` URL; none when it is opaque or cannot be read as one. -/
def originUrl (parse : Str → Option Url) (req : AdminRequest) : Option Url :=
  ((req.headers.getStr "origin").bind parse).filter Url.isWeb

/-- The `Origin` header is the origin of the request's own authority. -/
def OwnOrigin (parse : Str → Option Url) (tls : Bool) (req : AdminRequest) : Prop :=
  ∃ u authority, originUrl parse req = some u ∧ ownAuthority req = some authority ∧ NamesAuthority tls u authority

/-- The `Origin` header is the origin of the management authority the request was sent to, as a browser which sent
it there writes it. -/
def BrowserOrigin (parse : Str → Option Url) (lan : Option Str) (config : Config) (tls : Bool) (req : AdminRequest) :
    Prop :=
  ∃ u authority, originUrl parse req = some u ∧ req.headers.getStr "origin" = some u.originText ∧
    u.scheme = downstreamScheme tls ∧ ownAuthority req = some authority ∧ NamesAuthority tls u authority ∧
    isManagementAuthority lan config req.peerIp authority = true

/-- What the origin check is for. -/
structure OriginGate (parse : Str → Option Url) (lan : Option Str) (config : Config) (tls : Bool)
    (req : AdminRequest) : Prop where
  foreign_refused : (req.headers.get "origin").isSome = true → ¬ OwnOrigin parse tls req →
    adminAuthLayer parse lan config req = .forbidden
  own_passes : BrowserOrigin parse lan config tls req → adminAuthLayer parse lan config req ≠ .forbidden

/-- The requests on which the check does what it is for. -/
structure OriginGateCondition (parse : Str → Option Url) (lan : Option Str) (config : Config) (tls : Bool)
    (req : AdminRequest) : Prop where
  /-- An `Origin` that is no web origin comes with a `Referer` from elsewhere. -/
  opaque_origin : (req.headers.get "origin").isSome = true → originUrl parse req = none →
    ∃ referer, (req.headers.getStr "referer").bind (urlAuthority parse) = some referer ∧
      ∀ host, req.headers.getStr "host" = some host → sameAuthority referer host = false
  /-- When neither names a port, the `Origin` has the scheme of the connection. -/
  same_scheme : ∀ u host, originUrl parse req = some u → req.headers.getStr "host" = some host →
    hostName (u.hostStr.getD []) = hostName host → u.port = none → authorityPort host = none →
    u.scheme = downstreamScheme tls
  /-- A browser's own origin comes with a Host header that does not spell the default port out. -/
  plain_host : BrowserOrigin parse lan config tls req →
    ∃ host, req.headers.getStr "host" = some host ∧ authorityPort host ≠ some (downstreamPort tls)

namespace Auth

/-! ### Authorities of parsed URLs -/

private theorem normalizedAuthority_bracketed {address : Str} (h : ']' ∉ address) (suffix : Str)
    (hsuffix : ∀ c ∈ suffix, Str.isWhitespace c = false) :
    normalizedAuthority ('[' :: (address ++ ']' :: suffix)) =
      (address.toAsciiLowercase, (Str.stripPrefix ":" suffix).bind (Str.parseUnsigned u16Max)) := by
  have htrim : Str.trim ('[' :: (address ++ ']' :: suffix)) = '[' :: (address ++ ']' :: suffix) := by
    refine Str.trim_eq_self ?_ ?_
    · intro c hc
      cases hc
      decide
    · intro c hc
      have hmem : c ∈ ']' :: suffix := by
        rw [← List.cons_append, List.getLast?_append_of_ne_nil _ (by simp)] at hc
        exact List.mem_of_getLast? hc
      rcases List.mem_cons.1 hmem with rfl | hmem
      · decide
      · exact hsuffix c hmem
  have hprefix : Str.stripPrefix "[" ('[' :: (address ++ ']' :: suffix)) = some (address ++ ']' :: suffix) :=
    Str.stripPrefix_eq_some.2 rfl
  have hsplit := Str.splitOnce_append h suffix
  simp only [normalizedAuthority, hostWithoutPort, authorityPort, htrim, hprefix, hsplit, Option.map_some,
    Option.getD_some, Option.bind_some]

private theorem normalizedAuthority_name {name : Str} (hcolon : ':' ∉ name) (hbracket : '[' ∉ name)
    (hspace : ∀ c ∈ name, Str.isWhitespace c = false) : normalizedAuthority name = (name.toAsciiLowercase, none) := by
  have htrim : name.trim = name :=
    Str.trim_eq_self (fun c hc => hspace c (List.mem_of_mem_head? hc)) (fun c hc => hspace c (List.mem_of_getLast? hc))
  have hprefix : Str.stripPrefix "[" name = none := by
    rw [Option.eq_none_iff_forall_ne_some]
    intro rest hrest
    rw [Str.stripPrefix_eq_some] at hrest
    exact hbracket (by rw [hrest]; simp)
  have hsplit := Str.rsplitOnce_eq_none.2 hcolon
  simp only [normalizedAuthority, hostWithoutPort, authorityPort, htrim, hprefix, hsplit]

private theorem isWhitespace_ofNat {n : Nat} {c : Char} (h : c ∈ Str.ofNat n) : Str.isWhitespace c = false := by
  have hd := Str.isAsciiDigit_of_mem_ofNat h
  unfold Str.isAsciiDigit Char.isDigit at hd
  rw [Bool.and_eq_true, decide_eq_true_eq, decide_eq_true_eq] at hd
  have h48 : 48 ≤ c.toNat := hd.1
  have h57 : c.toNat ≤ 57 := hd.2
  unfold Str.isWhitespace
  simp only [Bool.or_eq_false_iff, Bool.and_eq_false_iff, decide_eq_false_iff_not, beq_eq_false_iff_ne, ne_eq]
  omega

private theorem normalizedAuthority_name_port {name : Str} (hcolon : ':' ∉ name) (hbracket : '[' ∉ name)
    (hne : name ≠ []) (hspace : ∀ c ∈ name, Str.isWhitespace c = false) {port : Nat} (hport : port ≤ u16Max) :
    normalizedAuthority (name ++ ':' :: Str.ofNat port) = (name.toAsciiLowercase, some port) := by
  have hdigits : ':' ∉ Str.ofNat port := fun h => absurd (Str.isAsciiDigit_of_mem_ofNat h) (by decide)
  have htrim : Str.trim (name ++ ':' :: Str.ofNat port) = name ++ ':' :: Str.ofNat port := by
    have hall : ∀ c ∈ name ++ ':' :: Str.ofNat port, Str.isWhitespace c = false := by
      intro c hc
      rcases List.mem_append.1 hc with hc | hc
      · exact hspace c hc
      · rcases List.mem_cons.1 hc with rfl | hc
        · decide
        · exact isWhitespace_ofNat hc
    exact Str.trim_eq_self (fun c hc => hall c (List.mem_of_mem_head? hc))
      (fun c hc => hall c (List.mem_of_getLast? hc))
  have hprefix : Str.stripPrefix "[" (name ++ ':' :: Str.ofNat port) = none := by
    rw [Option.eq_none_iff_forall_ne_some]
    intro rest hrest
    rw [Str.stripPrefix_eq_some] at hrest
    cases name with
    | nil => exact hne rfl
    | cons c name =>
      have hc : c = '[' := (List.cons.inj hrest).1
      exact hbracket (by rw [hc]; exact List.mem_cons_self)
  have hsplit := Str.rsplitOnce_append hdigits name
  have hcount : (name ++ ':' :: Str.ofNat port).count ':' = 1 := by
    rw [List.count_append, List.count_cons_self, List.count_eq_zero_of_not_mem hcolon,
      List.count_eq_zero_of_not_mem hdigits]
  have hall : (Str.ofNat port).all Str.isAsciiDigit = true :=
    List.all_eq_true.2 fun c hc => Str.isAsciiDigit_of_mem_ofNat hc
  simp only [normalizedAuthority, hostWithoutPort, authorityPort, htrim, hprefix, hsplit, hcount, hall, and_self,
    if_true, Str.parseUnsigned_ofNat hport]

/-- The authority of a parsed URL reads back as its host and its port. -/
theorem normalizedAuthority_authorityText {u : Url} (hweb : u.isWeb = true) :
    normalizedAuthority u.authorityText = (hostName (u.hostStr.getD []), u.port) := by
  have hscheme : u.scheme = ("http" : Str) ∨ u.scheme = ("https" : Str) := Url.isWeb_iff.1 hweb
  obtain ⟨host, hhost, hshape⟩ := u.host_shape hscheme
  unfold Url.authorityText
  rw [hhost]
  simp only [Option.getD_some]
  rcases hshape with ⟨address, rfl, hbracket, hlower⟩ | ⟨hne, hcolon, hbracket, hlower, hspace⟩
  · have hname : hostName ('[' :: (address ++ [']'])) = address.toAsciiLowercase :=
      congrArg Prod.fst (normalizedAuthority_bracketed hbracket [] (by simp))
    rw [hname]
    cases hport : u.port with
    | none => exact normalizedAuthority_bracketed hbracket [] (by simp)
    | some port =>
      have hread := normalizedAuthority_bracketed hbracket (':' :: Str.ofNat port) (by
        intro c hc
        rcases List.mem_cons.1 hc with rfl | hc
        · decide
        · exact isWhitespace_ofNat hc)
      have hstrip : Str.stripPrefix ":" (':' :: Str.ofNat port) = some (Str.ofNat port) :=
        Str.stripPrefix_eq_some.2 rfl
      have hle : port ≤ u16Max := u.port_lt port hport
      rw [hstrip, Option.bind_some, Str.parseUnsigned_ofNat hle] at hread
      simpa using hread
  · have hname : hostName host = host.toAsciiLowercase :=
      congrArg Prod.fst (normalizedAuthority_name hcolon hbracket hspace)
    rw [hname]
    cases hport : u.port with
    | none => exact normalizedAuthority_name hcolon hbracket hspace
    | some port => exact normalizedAuthority_name_port hcolon hbracket hne hspace (u.port_lt port hport)

theorem urlAuthority_eq (parse : Str → Option Url) (value : Str) :
    urlAuthority parse value = ((parse value).filter Url.isWeb).map Url.authorityText := by
  unfold urlAuthority
  cases hp : parse value with
  | none => rfl
  | some u =>
    simp only [Option.bind_some]
    by_cases hscheme : u.scheme = ("http" : Str) ∨ u.scheme = ("https" : Str)
    · have hweb : u.isWeb = true := Url.isWeb_iff.2 hscheme
      obtain ⟨host, hhost, -⟩ := u.host_shape hscheme
      have hfilter : (some u).filter Url.isWeb = some u := Option.filter_some_pos hweb
      rw [if_pos hscheme, hfilter]
      cases hport : u.port <;> simp [hhost, hport, Url.authorityText]
    · have hweb : u.isWeb = false := Bool.eq_false_iff.2 fun h => hscheme (Url.isWeb_iff.1 h)
      simp only [if_neg hscheme, Option.filter_some_neg hweb, Option.map_none]

/-! ### The check -/

theorem originAuthority_eq (parse : Str → Option Url) (req : AdminRequest) :
    (req.headers.getStr "origin").bind (urlAuthority parse) = (originUrl parse req).map Url.authorityText := by
  unfold originUrl
  cases req.headers.getStr "origin" with
  | none => rfl
  | some text => exact urlAuthority_eq parse text

/-- A state-changing request reaches the router only as one for the management host. -/
theorem isAdminHost_of_dispatched {lan : Option Str} {config : Config} {req : AdminRequest}
    (hstate : isStateChangingAdminRequest req = true) (hreach : proxyDispatchLayer lan config req = true) :
    isAdminHost lan config req = true := by
  unfold proxyDispatchLayer at hreach
  rw [Bool.or_eq_true] at hreach
  rcases hreach with h | h
  · exact h
  · -- the setup endpoints are there for `GET` alone
    unfold isPublicSetupEndpoint at h
    split at h
    · cases h
    · rw [Bool.and_eq_true, beq_iff_eq] at h
      unfold isStateChangingAdminRequest at hstate
      rw [h.1] at hstate
      exact absurd hstate (by decide)

section Gate

variable {parse : Str → Option Url} {lan : Option Str} {config : Config} {req : AdminRequest}

/-- Without a header token the layer refuses exactly what the origin check does not allow. -/
theorem adminAuthLayer_eq_forbidden_iff (hstate : isStateChangingAdminRequest req = true)
    (hpath : isPublicPath req.uri.path = false) (hreach : proxyDispatchLayer lan config req = true)
    (htoken : (configuredAdminToken config).any (requestHasHeaderAdminToken req) = false) :
    adminAuthLayer parse lan config req = .forbidden ↔ csrfOriginAllowed parse lan config req = false := by
  have hadmin := isAdminHost_of_dispatched hstate hreach
  unfold adminAuthLayer
  simp only [hpath, hadmin, Bool.not_true, Bool.and_false, Bool.or_false, Bool.false_eq_true, if_false, hstate, htoken,
    Bool.not_false, Bool.and_true, Bool.true_and]
  by_cases hcsrf : csrfOriginAllowed parse lan config req = true
  · rw [hcsrf]
    simp only [Bool.not_true, Bool.false_eq_true, if_false, reduceCtorEq, iff_false]
    split
    · intro h; cases h
    · split
      · intro h; cases h
      · split <;> (intro h; cases h)
  · simp [Bool.eq_false_iff.2 hcsrf]

/-- Where the Host header can be read it names the management interface, so that the check comes down to the
comparison. -/
theorem csrfOriginAllowed_iff (hadmin : isAdminHost lan config req = true) :
    csrfOriginAllowed parse lan config req = true ↔
      ∀ origin, requestOriginAuthority parse req = some origin →
        ∃ host, req.headers.getStr "host" = some host ∧ sameAuthority origin host = true := by
  unfold csrfOriginAllowed
  cases requestOriginAuthority parse req with
  | none => simp
  | some origin =>
    cases hhost : req.headers.getStr "host" with
    | none => simp
    | some host =>
      have hmanaged : isManagementAuthority lan config req.peerIp host = true := by
        unfold isAdminHost at hadmin
        rw [hhost] at hadmin
        exact hadmin
      cases hsame : sameAuthority origin host <;> simp [hsame, hmanaged]

theorem sameAuthority_authorityText_iff {u : Url} (hweb : u.isWeb = true) (host : Str) :
    sameAuthority u.authorityText host = true ↔
      hostName (u.hostStr.getD []) = hostName host ∧ u.port = authorityPort host := by
  unfold sameAuthority
  rw [normalizedAuthority_authorityText hweb, beq_iff_eq]
  unfold normalizedAuthority hostName
  rw [Prod.mk.injEq]

theorem isWeb_of_originUrl {u : Url} (h : originUrl parse req = some u) : u.isWeb = true := by
  unfold originUrl at h
  exact (Option.filter_eq_some_iff.1 h).2

theorem ownAuthority_of_host {host : Str} (h : req.headers.getStr "host" = some host) :
    ownAuthority req = some host := by
  obtain ⟨value, hvalue, htext⟩ := Option.bind_eq_some_iff.1 h
  unfold ownAuthority
  rw [hvalue]
  exact htext

/-- The default port of a web scheme is the connection's exactly when the scheme is. -/
theorem defaultPort_eq_downstreamPort_iff {u : Url} (hweb : u.isWeb = true) (tls : Bool) :
    defaultPort u.scheme = some (downstreamPort tls) ↔ u.scheme = downstreamScheme tls := by
  have hscheme : u.scheme = ("http" : Str) ∨ u.scheme = ("https" : Str) := Url.isWeb_iff.1 hweb
  rcases hscheme with h | h <;> rw [h] <;> cases tls <;> decide

/-- When the check finds the texts of the authorities equal, they name the same authority unless both leave the
port out and the schemes differ. -/
theorem namesAuthority_iff_of_same {u : Url} (hweb : u.isWeb = true) {host : Str} (tls : Bool)
    (hname : hostName (u.hostStr.getD []) = hostName host) (hport : u.port = authorityPort host) :
    NamesAuthority tls u host ↔ (u.port = none → u.scheme = downstreamScheme tls) := by
  unfold NamesAuthority Url.portOrKnownDefault
  rw [← hport]
  cases hp : u.port with
  | none => simp [hname, ← defaultPort_eq_downstreamPort_iff hweb tls]
  | some port => simp [hname]

theorem isSome_origin_of_originUrl {u : Url} (h : originUrl parse req = some u) :
    (req.headers.get "origin").isSome = true := by
  unfold originUrl at h
  obtain ⟨text, htext, -⟩ := Option.bind_eq_some_iff.1 (Option.filter_eq_some_iff.1 h).1
  obtain ⟨value, hvalue, -⟩ := Option.bind_eq_some_iff.1 htext
  rw [hvalue]
  rfl

theorem requestOriginAuthority_of_originUrl {u : Url} (h : originUrl parse req = some u) :
    requestOriginAuthority parse req = some u.authorityText := by
  unfold requestOriginAuthority
  rw [originAuthority_eq, h]
  rfl

theorem requestOriginAuthority_of_noweb (h : originUrl parse req = none) :
    requestOriginAuthority parse req = (req.headers.getStr "referer").bind (urlAuthority parse) := by
  unfold requestOriginAuthority
  rw [originAuthority_eq, h]
  rfl

theorem ownOrigin_iff {u : Url} {host : Str} (tls : Bool) (hu : originUrl parse req = some u)
    (hhost : req.headers.getStr "host" = some host) : OwnOrigin parse tls req ↔ NamesAuthority tls u host := by
  constructor
  · rintro ⟨u', authority, hu', hauthority, hnames⟩
    rw [hu] at hu'
    rw [ownAuthority_of_host hhost] at hauthority
    cases hu'
    cases hauthority
    exact hnames
  · intro hnames
    exact ⟨u, host, hu, ownAuthority_of_host hhost, hnames⟩

/-- A URL under the connection's scheme which names an authority has the port the authority spells out, if that is
not the scheme's own. -/
theorem port_eq_of_namesAuthority {u : Url} {authority : Str} {tls : Bool} (hweb : u.isWeb = true)
    (hscheme : u.scheme = downstreamScheme tls) (hnames : NamesAuthority tls u authority)
    (hplain : authorityPort authority ≠ some (downstreamPort tls)) : u.port = authorityPort authority := by
  have hdefault := (defaultPort_eq_downstreamPort_iff hweb tls).2 hscheme
  have hport := hnames.2
  unfold Url.portOrKnownDefault at hport
  cases hp : u.port with
  | none =>
    cases ha : authorityPort authority with
    | none => rfl
    | some q =>
      rw [hp, ha] at hport
      have : defaultPort u.scheme = some q := hport
      rw [hdefault] at this
      rw [ha, ← this] at hplain
      exact absurd rfl hplain
  | some p =>
    cases ha : authorityPort authority with
    | none =>
      rw [hp, ha] at hport
      have hp' : u.port = some (downstreamPort tls) := by rw [hp]; exact hport
      exact absurd hdefault (u.port_ne_default _ hp')
    | some q =>
      rw [hp, ha] at hport
      exact hport

/-- The origin check does what it is for exactly on the requests which meet the condition. -/
theorem originGate_iff (tls : Bool) (hstate : isStateChangingAdminRequest req = true)
    (hpath : isPublicPath req.uri.path = false) (hreach : proxyDispatchLayer lan config req = true)
    (htoken : (configuredAdminToken config).any (requestHasHeaderAdminToken req) = false) :
    OriginGate parse lan config tls req ↔ OriginGateCondition parse lan config tls req := by
  have hforbidden : adminAuthLayer parse lan config req = .forbidden ↔ _ :=
    adminAuthLayer_eq_forbidden_iff hstate hpath hreach htoken
  have hallowed : csrfOriginAllowed parse lan config req = true ↔ _ :=
    csrfOriginAllowed_iff (isAdminHost_of_dispatched hstate hreach)
  constructor
  · rintro ⟨hforeign, hown⟩
    refine ⟨?_, ?_, ?_⟩
    · -- no usable Origin: the gate falls back to the referer
      intro horigin hnoweb
      have hnot : ¬ OwnOrigin parse tls req := by
        rintro ⟨u, _, hu, -, -⟩
        rw [hnoweb] at hu
        cases hu
      have hrefused := hforbidden.1 (hforeign horigin hnot)
      by_contra hno
      rw [Bool.eq_false_iff] at hrefused
      refine hrefused (hallowed.2 fun origin heq => ?_)
      rw [requestOriginAuthority_of_noweb hnoweb] at heq
      by_contra hhost
      refine hno ⟨origin, heq, fun host hh => ?_⟩
      rw [Bool.eq_false_iff]
      intro hsame
      exact hhost ⟨host, hh, hsame⟩
    · -- same name and no written port: only the scheme tells the origins apart, which the gate drops
      intro u host hu hhost hname hport hplain
      by_contra hscheme
      have hweb := isWeb_of_originUrl hu
      have hport' : u.port = authorityPort host := by rw [hport, hplain]
      have hnot : ¬ OwnOrigin parse tls req := by
        rw [ownOrigin_iff tls hu hhost, namesAuthority_iff_of_same hweb tls hname hport']
        exact fun h => hscheme (h hport)
      have hrefused := hforbidden.1 (hforeign (isSome_origin_of_originUrl hu) hnot)
      rw [Bool.eq_false_iff] at hrefused
      refine hrefused (hallowed.2 fun origin heq => ⟨host, hhost, ?_⟩)
      rw [requestOriginAuthority_of_originUrl hu] at heq
      cases heq
      exact (sameAuthority_authorityText_iff hweb host).2 ⟨hname, hport'⟩
    · -- a page of the server itself is let through
      intro hbrowser
      have hpass : csrfOriginAllowed parse lan config req = true := by
        by_contra hcsrf
        exact hown hbrowser (hforbidden.2 (Bool.eq_false_iff.2 hcsrf))
      obtain ⟨u, authority, hu, -, hscheme, -, -, -⟩ := hbrowser
      obtain ⟨host, hhost, hsame⟩ := hallowed.1 hpass _ (requestOriginAuthority_of_originUrl hu)
      have hweb := isWeb_of_originUrl hu
      refine ⟨host, hhost, fun hspelled => ?_⟩
      have hport := ((sameAuthority_authorityText_iff hweb host).1 hsame).2
      exact u.port_ne_default _ (hport.trans hspelled) ((defaultPort_eq_downstreamPort_iff hweb tls).2 hscheme)
  · rintro ⟨hnoweb, hscheme, hplain⟩
    constructor
    · -- a foreign origin that passes is none, or one that differs in the scheme only
      intro horigin hnot
      rw [hforbidden, Bool.eq_false_iff]
      intro hpass
      cases hu : originUrl parse req with
      | none =>
        obtain ⟨referer, hreferer, hdiffers⟩ := hnoweb horigin hu
        rw [← requestOriginAuthority_of_noweb hu] at hreferer
        obtain ⟨host, hhost, hsame⟩ := hallowed.1 hpass referer hreferer
        rw [hdiffers host hhost] at hsame
        cases hsame
      | some u =>
        have hweb := isWeb_of_originUrl hu
        obtain ⟨host, hhost, hsame⟩ := hallowed.1 hpass _ (requestOriginAuthority_of_originUrl hu)
        obtain ⟨hname, hport⟩ := (sameAuthority_authorityText_iff hweb host).1 hsame
        refine hnot ((ownOrigin_iff tls hu hhost).2 ?_)
        rw [namesAuthority_iff_of_same hweb tls hname hport]
        exact fun hnone => hscheme u host hu hhost hname hnone (hport.symm.trans hnone)
    · -- the server's own page names the authority of the Host header
      intro hbrowser
      rw [Ne, hforbidden, Bool.not_eq_false]
      obtain ⟨host, hhost, hnotSpelled⟩ := hplain hbrowser
      obtain ⟨u, authority, hu, -, hs, hauthority, hnames, -⟩ := hbrowser
      rw [ownAuthority_of_host hhost] at hauthority
      cases hauthority
      have hweb := isWeb_of_originUrl hu
      refine hallowed.2 fun origin heq => ⟨host, hhost, ?_⟩
      rw [requestOriginAuthority_of_originUrl hu] at heq
      cases heq
      exact (sameAuthority_authorityText_iff hweb host).2
        ⟨hnames.1, port_eq_of_namesAuthority hweb hs hnames hnotSpelled⟩

end Gate

/-- The management interface on its default port, without a token. -/
private def openConfig : Config := ⟨8080, "127.0.0.1", false, none⟩

/-- A page in a sandboxed frame, whose origin is `null`, deletes the sessions. -/
private def nullOriginRequest : AdminRequest where
  method := "DELETE"
  uri := sessionsUri
  headers := [("host", Str.toUtf8 "localhost:8080"), ("origin", Str.toUtf8 "null")]
  peerIp := some (.v4 127 0 0 1)

/-- The parser has no URL for the text `null`, and the request has no `Referer`. -/
theorem not_originGate_nullOrigin :
    isStateChangingAdminRequest nullOriginRequest = true ∧ isPublicPath nullOriginRequest.uri.path = false ∧
      proxyDispatchLayer none openConfig nullOriginRequest = true ∧
      (configuredAdminToken openConfig).any (requestHasHeaderAdminToken nullOriginRequest) = false ∧
      ¬ OriginGate (fun _ => none) none openConfig false nullOriginRequest := by
  refine ⟨by decide, by decide, by decide, by decide, fun hgate => ?_⟩
  have hforbidden := hgate.foreign_refused (by decide) (by rintro ⟨u, _, hu, -, -⟩; cases hu)
  revert hforbidden
  decide

theorem originGate_iff_nullOrigin :
    OriginGate (fun _ => none) none openConfig false nullOriginRequest ↔
      OriginGateCondition (fun _ => none) none openConfig false nullOriginRequest :=
  originGate_iff false (by decide) (by decide) (by decide) (by decide)

end Auth

end Oproxy
