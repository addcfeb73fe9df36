import Oproxy.Engine.Wire
import Oproxy.Transport.Connect
import Oproxy.Transport.WebSocket

/-!
# How the dial paths read an authority (`connect.rs`, `websocket.rs`, `dns_override.rs`, `matcher.rs`)

CONNECT, the HTTP chain, WebSocket upgrades and the matcher each split an authority by themselves.  What they take for
the host and the port is compared, and where each of them dials under the DNS overrides.
-/

namespace Oproxy

namespace DialPaths

/-! ### Authorities -/

/-- The characters which end the parts of an authority or of a URL. -/
def isReserved (c : Char) : Bool := (":/?#@[]" : Str).contains c

/-- A registered name or an IPv4 address, or an IPv6 address, which an authority has in brackets. -/
inductive Host where
  | name (text : Str) (ne : text ≠ []) (plain : ∀ c ∈ text, isReserved c = false)
  | ipv6 (address : Str) (colon : ':' ∈ address) (plain : ∀ c ∈ address, c = ':' ∨ isReserved c = false)

def Host.text : Host → Str
  | .name text _ _ => text
  | .ipv6 address _ _ => '[' :: (address ++ [']'])

def Host.IsName : Host → Prop
  | .name _ _ _ => True
  | .ipv6 _ _ _ => False

structure Port where
  text : Str
  ne : text ≠ []
  digits : ∀ c ∈ text, Str.isAsciiDigit c = true
  le : Nat.ofDigitChars 10 text 0 ≤ 65535

def Port.value (port : Port) : Nat := Nat.ofDigitChars 10 port.text 0

structure Authority where
  host : Host
  port : Option Port

/-- The port with its colon, where there is one. -/
def Authority.suffix (a : Authority) : Str := (a.port.map fun port => ':' :: port.text).getD []

def Authority.text (a : Authority) : Str := a.host.text ++ a.suffix

/-- A host and a port. -/
def WellFormed (address : Str) : Prop := ∃ a : Authority, a.port.isSome = true ∧ address = a.text

/-- Where a host is dialled: at the address of its enabled override, and at itself where there is none. -/
def dialHost (dns : DnsOverrides) (host : Host) : Str :=
  (((dns.get? host.text).filter DnsEntry.enabled).map DnsEntry.ip).getD host.text

section

variable (dns : DnsOverrides) (a : Authority)

/-! ### The paths -/

/-- CONNECT looks the host up, and dials the address with the port, or with 443. -/
def ConnectReads : Prop :=
  (Connect.resolve dns a.text).hostname = a.host.text ∧
    (Connect.resolve dns a.text).address = dialHost dns a.host ++ ':' :: (a.port.map Port.text).getD "443"

/-- The chain splits the host of a request and the port; the URL it sends the request to has the address and the port,
or none where its scheme is `http`. -/
def HttpReads : Prop :=
  DnsOverride.splitHost a.text = (a.host.text, (a.port.map Port.text).getD []) ∧
    ∀ (parse : Str → Option Url) (ctx : RequestContext) (path : Str) (headers : HeaderMap), ctx.host = a.text →
      ctx.destination = none → ∃ scheme : Str, (scheme = "http" ∨ scheme = "https" ∧ a.port.isSome = true) ∧
        (Wire.targetUrl parse (DnsOverride.onRequest dns ctx).1.destination (DnsOverride.onRequest dns ctx).1.host path
          headers).1 = scheme ++ ("://" : Str) ++ dialHost dns a.host ++ a.suffix ++ path

/-- An upgrade with the authority in its target. -/
def WsTargetReads : Prop :=
  ∀ (uri : Http.Uri) (headerHost : Str), uri.authority = some a.text →
    (WebSocket.resolveWsTarget uri headerHost none).1 = dialHost dns a.host ∧
      (WebSocket.resolveWsTarget uri headerHost none).2.1 = (a.port.map Port.value).getD
        (if uri.scheme.getD "ws" = ("wss" : Str) ∨ uri.scheme.getD "ws" = ("https" : Str) then 443 else 80)

/-- An upgrade with the authority in its `Host` field alone. -/
def WsHeaderReads : Prop :=
  ∀ uri : Http.Uri, uri.authority = none →
    (WebSocket.resolveWsTarget uri a.text none).1 = dialHost dns a.host ∧
      (WebSocket.resolveWsTarget uri a.text none).2.1 = (a.port.map Port.value).getD 80

/-- An upgrade in an intercepted connection to the authority. -/
def WsInterceptedReads : Prop :=
  ∀ (uri : Http.Uri) (headerHost : Str),
    (WebSocket.resolveWsTarget uri headerHost (some (("https://" : Str) ++ a.text))).1 = dialHost dns a.host ∧
      (WebSocket.resolveWsTarget uri headerHost (some (("https://" : Str) ++ a.text))).2.1 =
        (a.port.map Port.value).getD 443

def MatcherReads : Prop := Matcher.splitHostPort a.text = (a.host.text, a.port.map Port.value)

/-- All the paths read the authority alike and follow the overrides, and CONNECT dials a host and a port. -/
structure ReadAlike : Prop where
  connect : ConnectReads dns a
  dialled : WellFormed (Connect.resolve dns a.text).address
  http : HttpReads dns a
  wsTarget : WsTargetReads dns a
  wsHeader : WsHeaderReads dns a
  wsIntercepted : WsInterceptedReads dns a
  matcher : MatcherReads a

end

/-! ### Splitting an authority -/

theorem isReserved_of_isAsciiDigit {c : Char} (h : Str.isAsciiDigit c = true) : isReserved c = false := by
  have hall : ∀ c ∈ (":/?#@[]" : Str), Str.isAsciiDigit c = false := by decide
  unfold isReserved
  rw [Bool.eq_false_iff]
  intro hreserved
  have hnot := hall c (List.contains_iff_mem.1 hreserved)
  rw [h] at hnot
  cases hnot

theorem not_mem_of_plain {text : Str} {c : Char} (h : ∀ d ∈ text, isReserved d = false) (hc : isReserved c = true) :
    c ∉ text := by
  intro hmem
  rw [h c hmem] at hc
  cases hc

theorem Port.not_mem (port : Port) {c : Char} (hc : isReserved c = true) : c ∉ port.text :=
  not_mem_of_plain (fun d hd => isReserved_of_isAsciiDigit (port.digits d hd)) hc

theorem Port.parse (port : Port) : Str.parseUnsigned 65535 port.text = some port.value := by
  have hplus : ∀ rest, port.text ≠ '+' :: rest := by
    intro rest heq
    have hdigit := port.digits '+' (by rw [heq]; exact List.mem_cons_self)
    exact absurd hdigit (by decide)
  have hall : port.text.all Str.isAsciiDigit = true := List.all_eq_true.2 port.digits
  have hempty : port.text.isEmpty = false := by simpa using port.ne
  unfold Str.parseUnsigned
  split
  · rename_i rest heq
    exact absurd heq (hplus rest)
  · dsimp only
    rw [hempty, hall, Bool.false_or, Bool.not_true, if_neg Bool.false_ne_true, if_pos port.le]
    rfl

/-- A text with a bracket is no number. -/
private theorem parse_of_bracket {bound : Nat} {text : Str} (h : ']' ∈ text) : Str.parseUnsigned bound text = none := by
  have hall : ∀ digits : Str, ']' ∈ digits → (digits.isEmpty || !digits.all Str.isAsciiDigit) = true := by
    intro digits hmem
    rw [Bool.or_eq_true, Bool.not_eq_true']
    refine Or.inr (Bool.eq_false_iff.2 fun hdigits => ?_)
    exact absurd (List.all_eq_true.1 hdigits _ hmem) (by decide)
  unfold Str.parseUnsigned
  split
  · rename_i rest
    dsimp only
    rw [if_pos (hall rest ((List.mem_cons.1 h).resolve_left (by decide)))]
  · dsimp only
    rw [if_pos (hall text h)]

section

variable {text address : Str} {ne : text ≠ []} {plain : ∀ c ∈ text, isReserved c = false} {colon : ':' ∈ address}
  {plain' : ∀ c ∈ address, c = ':' ∨ isReserved c = false}

theorem not_mem_address (plain' : ∀ c ∈ address, c = ':' ∨ isReserved c = false) {c : Char} (hc : isReserved c = true)
    (hne : c ≠ ':') : c ∉ address := by
  intro hmem
  rcases plain' c hmem with heq | hplain
  · exact hne heq
  · rw [hplain] at hc
    cases hc

/-- An authority has no character which would end it. -/
theorem Authority.not_mem (a : Authority) {c : Char} (hc : isReserved c = true)
    (hne : c ≠ ':' ∧ c ≠ '[' ∧ c ≠ ']') : c ∉ a.text := by
  obtain ⟨host, port⟩ := a
  unfold Authority.text Authority.suffix
  rw [List.mem_append, not_or]
  constructor
  · cases host with
    | name text ne plain => exact not_mem_of_plain plain hc
    | ipv6 address colon plain =>
      unfold Host.text
      simp only [List.mem_cons, List.mem_append, List.not_mem_nil, or_false, not_or]
      exact ⟨hne.2.1, not_mem_address plain hc hne.1, hne.2.2⟩
  · cases port with
    | none => exact List.not_mem_nil
    | some port =>
      rw [Option.map_some, Option.getD_some, List.mem_cons, not_or]
      exact ⟨hne.1, port.not_mem hc⟩

theorem text_some (host : Host) (port : Port) : Authority.text ⟨host, some port⟩ = host.text ++ ':' :: port.text := rfl

theorem text_none (host : Host) : Authority.text ⟨host, none⟩ = host.text := List.append_nil _

theorem rsplitOnce_some (host : Host) (port : Port) :
    Str.rsplitOnce ':' (Authority.text ⟨host, some port⟩) = some (host.text, port.text) :=
  Str.rsplitOnce_append (port.not_mem (by decide)) host.text

theorem rsplitOnce_name : Str.rsplitOnce ':' (Authority.text ⟨.name text ne plain, none⟩) = none := by
  rw [text_none]
  exact Str.rsplitOnce_eq_none.2 (not_mem_of_plain plain (by decide))

/-- Without a port, what stands behind the last colon of an IPv6 address has its bracket. -/
theorem rsplitOnce_ipv6 (colon : ':' ∈ address) (plain' : ∀ c ∈ address, c = ':' ∨ isReserved c = false) :
    ∃ before after, ']' ∈ after ∧
    Str.rsplitOnce ':' (Authority.text ⟨.ipv6 address colon plain', none⟩) = some (before, after) := by
  have hsplit : ∃ before after, address = before ++ ':' :: after ∧ ':' ∉ after := by
    obtain ⟨after, before, heq, hfirst⟩ := List.eq_append_cons_of_mem (List.mem_reverse.2 colon)
    refine ⟨before.reverse, after.reverse, ?_, by simpa using hfirst⟩
    have hreverse := congrArg List.reverse heq
    simpa using hreverse
  obtain ⟨before, after, rfl, hafter⟩ := hsplit
  refine ⟨'[' :: before, after ++ [']'], by simp, ?_⟩
  have htext : Authority.text ⟨.ipv6 (before ++ ':' :: after) colon plain', none⟩ =
      ('[' :: before) ++ ':' :: (after ++ [']']) := by
    rw [text_none]
    simp [Host.text]
  rw [htext]
  refine Str.rsplitOnce_append ?_ _
  simpa using hafter

theorem takeWhile_name (ne : text ≠ []) (plain : ∀ c ∈ text, isReserved c = false) (port : Option Port) :
    (Authority.text ⟨.name text ne plain, port⟩).takeWhile (fun c => c ≠ ':') = text := by
  have hplain : ∀ c ∈ text, decide (c ≠ ':') = true := by
    intro c hc
    refine decide_eq_true fun heq => not_mem_of_plain plain ?_ hc
    rw [heq]
    decide
  have htext : Authority.text ⟨.name text ne plain, port⟩ = text ++ Authority.suffix ⟨.name text ne plain, port⟩ := rfl
  rw [htext, List.takeWhile_append_of_pos hplain]
  cases port with
  | none => exact List.append_nil _
  | some port =>
    have hsuffix : Authority.suffix ⟨.name text ne plain, some port⟩ = ':' :: port.text := rfl
    rw [hsuffix, List.takeWhile_cons_of_neg (by simp), List.append_nil]

/-! ### The matcher and the targets of upgrades -/

theorem matcherReads (a : Authority) : MatcherReads a := by
  obtain ⟨host, port⟩ := a
  unfold MatcherReads Matcher.splitHostPort
  cases host with
  | name text ne plain =>
    have hbracket : Str.stripPrefix "[" (Authority.text ⟨.name text ne plain, port⟩) = none := by
      cases text with
      | nil => exact absurd rfl ne
      | cons c rest =>
        have hc : '[' ≠ c := by
          rintro rfl
          exact not_mem_of_plain plain (by decide) List.mem_cons_self
        exact if_neg hc
    rw [hbracket]
    dsimp only
    cases port with
    | none =>
      rw [rsplitOnce_name]
      exact congrArg (fun s => (s, none)) (text_none _)
    | some port =>
      rw [rsplitOnce_some]
      dsimp only
      rw [if_pos ⟨List.all_eq_true.2 port.digits, port.ne⟩]
      exact congrArg (Prod.mk _) port.parse
  | ipv6 address colon plain =>
    have hbracket : ']' ∉ address := not_mem_address plain (by decide) (by decide)
    have hsplit : Str.splitOnce ']' (address ++ ']' :: Authority.suffix ⟨.ipv6 address colon plain, port⟩) = _ :=
      Str.splitOnce_append hbracket _
    have hstrip : Str.stripPrefix "[" (Authority.text ⟨.ipv6 address colon plain, port⟩) =
        some (address ++ ']' :: Authority.suffix ⟨.ipv6 address colon plain, port⟩) := by
      refine Str.stripPrefix_eq_some.2 ?_
      unfold Authority.text Host.text
      simp
    rw [hstrip]
    dsimp only
    rw [hsplit]
    dsimp only
    cases port with
    | none => rfl
    | some port => exact congrArg (Prod.mk _) port.parse

theorem uri_host (a : Authority) {uri : Http.Uri} (h : uri.authority = some a.text) : uri.host = some a.host.text := by
  have hat : Str.rsplitOnce '@' a.text = none := Str.rsplitOnce_eq_none.2 (a.not_mem (by decide) (by decide))
  unfold Http.Uri.host
  rw [h, Option.map_some, hat]
  obtain ⟨host, port⟩ := a
  refine congrArg some ?_
  cases host with
  | name text ne plain =>
    have htake := takeWhile_name ne plain port
    dsimp only [Option.map_none, Option.getD_none]
    split
    · rename_i rest heq
      have hmem : '[' ∈ text := by
        rw [heq, List.takeWhile_cons_of_pos (by decide)] at htake
        rw [← htake]
        exact List.mem_cons_self
      exact absurd hmem (not_mem_of_plain plain (by decide))
    · exact htake
  | ipv6 address colon plain =>
    have hbracket : ∀ c ∈ '[' :: address, decide (c ≠ ']') = true := by
      intro c hc
      refine decide_eq_true ?_
      rintro rfl
      exact not_mem_address plain (by decide) (by decide) ((List.mem_cons.1 hc).resolve_left (by decide))
    have htext : Authority.text ⟨.ipv6 address colon plain, port⟩ =
        ('[' :: address) ++ ']' :: Authority.suffix ⟨.ipv6 address colon plain, port⟩ := by
      unfold Authority.text Host.text
      simp
    show (Authority.text ⟨.ipv6 address colon plain, port⟩).takeWhile (fun c => c ≠ ']') ++ [']'] =
      '[' :: (address ++ [']'])
    rw [htext, List.takeWhile_append_of_pos hbracket, List.takeWhile_cons_of_neg (by simp), List.append_nil]
    rfl

theorem uri_portU16 (a : Authority) {uri : Http.Uri} (h : uri.authority = some a.text) :
    uri.portU16 = a.port.map Port.value := by
  unfold Http.Uri.portU16
  rw [h, Option.bind_some]
  obtain ⟨host, port⟩ := a
  cases port with
  | some port =>
    rw [rsplitOnce_some, Option.bind_some]
    exact port.parse
  | none =>
    cases host with
    | name text ne plain =>
      rw [rsplitOnce_name]
      rfl
    | ipv6 address colon plain =>
      obtain ⟨before, after, hbracket, hsplit⟩ := rsplitOnce_ipv6 colon plain
      rw [hsplit, Option.bind_some]
      exact parse_of_bracket hbracket

end

/-! ### Each path by itself -/

variable (dns : DnsOverrides) (a : Authority)

/-- No enabled override sends the host elsewhere. -/
def NotRedirected : Prop := ∀ entry, dns.get? a.host.text = some entry → entry.enabled = true → entry.ip = a.host.text

theorem dialHost_eq_iff : dialHost dns a.host = a.host.text ↔ NotRedirected dns a := by
  unfold dialHost NotRedirected
  cases hentry : dns.get? a.host.text with
  | none => simp
  | some entry => cases henabled : entry.enabled <;> simp [Option.filter, henabled]

/-- A target of an upgrade that has the authority. -/
def upgradeTo : Http.Uri where
  scheme := some "ws"
  authority := some a.text
  rawPathAndQuery := []
  absolute := fun _ => rfl
  scheme_chars := by decide
  authority_chars := by
    intro c hc
    have hnot : ∀ d : Char, isReserved d = true → d ≠ ':' ∧ d ≠ '[' ∧ d ≠ ']' → c ≠ d := by
      rintro d hd hne rfl
      exact a.not_mem hd hne hc
    exact ⟨hnot '/' (by decide) (by decide), hnot '?' (by decide) (by decide), hnot '#' (by decide) (by decide)⟩
  path_start := Or.inl rfl

/-- The target of an upgrade reads every authority, but it does not follow the overrides. -/
theorem wsTargetReads_iff : WsTargetReads dns a ↔ NotRedirected dns a := by
  rw [← dialHost_eq_iff]
  have hreads : ∀ (uri : Http.Uri) (headerHost : Str), uri.authority = some a.text →
      (WebSocket.resolveWsTarget uri headerHost none).1 = a.host.text ∧
        (WebSocket.resolveWsTarget uri headerHost none).2.1 = (a.port.map Port.value).getD
          (if uri.scheme.getD "ws" = ("wss" : Str) ∨ uri.scheme.getD "ws" = ("https" : Str) then 443 else 80) := by
    intro uri headerHost huri
    unfold WebSocket.resolveWsTarget
    dsimp only
    rw [uri_host a huri, uri_portU16 a huri]
    refine ⟨rfl, ?_⟩
    simp only [Bool.or_eq_true, decide_eq_true_eq]
  constructor
  · intro h
    rw [← (h (upgradeTo a) [] rfl).1, (hreads (upgradeTo a) [] rfl).1]
  · intro heq uri headerHost huri
    rw [heq]
    exact hreads uri headerHost huri

theorem not_connectReads_ipv6 {address : Str} {colon : ':' ∈ address}
    {plain : ∀ c ∈ address, c = ':' ∨ isReserved c = false} {port : Option Port} :
    ¬ConnectReads dns ⟨.ipv6 address colon plain, port⟩ := by
  intro h
  have hcolon : ':' ∈ Host.text (.ipv6 address colon plain) := by simp [Host.text, colon]
  have hauthority : ':' ∈ Authority.text ⟨.ipv6 address colon plain, port⟩ := List.mem_append_left _ hcolon
  have hname := h.1
  unfold Connect.resolve at hname
  rw [if_pos hauthority] at hname
  dsimp only at hname
  cases hsplit : Str.splitOnce ':' (Authority.text ⟨.ipv6 address colon plain, port⟩) with
  | none => exact Str.splitOnce_eq_none.1 hsplit hauthority
  | some parts =>
    obtain ⟨before, after⟩ := parts
    rw [hsplit] at hname
    have hbefore : before = Host.text (.ipv6 address colon plain) := hname
    exact (Str.splitOnce_eq_some.1 hsplit).2 (hbefore ▸ hcolon)

section

variable {text : Str} {ne : text ≠ []} {plain : ∀ c ∈ text, isReserved c = false} {port : Option Port}

theorem connectReads_name (ne : text ≠ []) (plain : ∀ c ∈ text, isReserved c = false) (port : Option Port) :
    ConnectReads dns ⟨.name text ne plain, port⟩ := by
  have hcolon : ':' ∉ text := not_mem_of_plain plain (by decide)
  have hraw : (if ':' ∈ Authority.text ⟨.name text ne plain, port⟩ then Authority.text ⟨.name text ne plain, port⟩
      else Authority.text ⟨.name text ne plain, port⟩ ++ (":443" : Str)) =
        text ++ ':' :: (port.map Port.text).getD "443" := by
    cases port with
    | none =>
      rw [text_none]
      exact if_neg hcolon
    | some port =>
      rw [text_some, if_pos (List.mem_append_right _ List.mem_cons_self)]
      rfl
  unfold ConnectReads Connect.resolve
  dsimp only
  rw [hraw, Str.splitOnce_append hcolon]
  dsimp only [Option.getD_some]
  refine ⟨rfl, ?_⟩
  have hdial : dialHost dns (.name text ne plain) =
      (((dns.get? text).filter DnsEntry.enabled).map DnsEntry.ip).getD text := rfl
  rw [hdial]
  cases (dns.get? text).filter DnsEntry.enabled <;> rfl

/-- Of a `Host` field without a port in the target, the port is not read. -/
theorem wsHeaderReads_name_iff : WsHeaderReads dns ⟨.name text ne plain, port⟩ ↔
    NotRedirected dns ⟨.name text ne plain, port⟩ ∧ (port.map Port.value).getD 80 = 80 := by
  rw [← dialHost_eq_iff]
  have hreads : ∀ uri : Http.Uri, uri.authority = none →
      (WebSocket.resolveWsTarget uri (Authority.text ⟨.name text ne plain, port⟩) none).1 = text ∧
        (WebSocket.resolveWsTarget uri (Authority.text ⟨.name text ne plain, port⟩) none).2.1 = 80 := by
    intro uri huri
    have hscheme : uri.scheme = none := by
      have habsolute := uri.absolute
      rw [huri] at habsolute
      cases hscheme : uri.scheme with
      | none => rfl
      | some scheme =>
        rw [hscheme] at habsolute
        exact absurd (habsolute rfl) (by decide)
    unfold WebSocket.resolveWsTarget Http.Uri.host Http.Uri.portU16
    dsimp only
    rw [huri, hscheme]
    refine ⟨takeWhile_name ne plain port, ?_⟩
    decide
  constructor
  · intro h
    obtain ⟨hhost, hport⟩ := h ⟨none, none, "/", by decide, by decide, by decide, by decide⟩ rfl
    obtain ⟨hhost', hport'⟩ := hreads ⟨none, none, "/", by decide, by decide, by decide, by decide⟩ rfl
    exact ⟨hhost.symm.trans hhost', hport.symm.trans hport'⟩
  · rintro ⟨hhost, hport⟩ uri huri
    rw [hhost, hport]
    exact hreads uri huri

theorem wsInterceptedReads_name (h : NotRedirected dns ⟨.name text ne plain, port⟩) :
    WsInterceptedReads dns ⟨.name text ne plain, port⟩ := by
  intro uri headerHost
  have hscheme : Str.splitOnceStr "://" (("https://" : Str) ++ Authority.text ⟨.name text ne plain, port⟩) =
      some (("https" : Str), Authority.text ⟨.name text ne plain, port⟩) :=
    Str.splitOnceStr_append (a := ("https" : Str)) (by decide) "//" _
  rw [(dialHost_eq_iff dns ⟨.name text ne plain, port⟩).2 h]
  unfold WebSocket.resolveWsTarget
  dsimp only
  rw [hscheme]
  dsimp only [Option.map_some, Option.getD_some]
  cases port with
  | none =>
    rw [rsplitOnce_name]
    have hport : (Str.parseUnsigned 65535 "443").getD 443 = 443 := by decide
    exact ⟨text_none _, hport⟩
  | some port =>
    rw [rsplitOnce_some]
    dsimp only [Option.getD_some]
    rw [port.parse]
    exact ⟨rfl, rfl⟩

/-- A destination which an override makes does not end in a slash. -/
theorem destinationBase_eq {scheme : Str} (hscheme : scheme = "http" ∨ scheme = "https") (a : Authority) :
    Wire.destinationBase (scheme ++ ("://" : Str) ++ a.text) = scheme ++ ("://" : Str) ++ a.text := by
  have hslash : '/' ∉ a.text := a.not_mem (by decide) (by decide)
  have hne : a.text ≠ [] := by
    obtain ⟨host, port⟩ := a
    cases host with
    | name text ne plain => exact fun h => ne (List.append_eq_nil_iff.1 h).1
    | ipv6 address colon plain => exact fun h => by cases h
  have hlast : (scheme ++ ("://" : Str) ++ a.text).getLast? ≠ some '/' := by
    rw [List.getLast?_append_of_ne_nil _ hne]
    exact fun h => hslash (List.mem_of_getLast? h)
  unfold Wire.destinationBase
  rw [Str.trimEndMatches_of_last hlast]
  have hstart : (Str.startsWith (scheme ++ ("://" : Str) ++ a.text) "http://" ||
      Str.startsWith (scheme ++ ("://" : Str) ++ a.text) "https://") = true := by
    rw [Bool.or_eq_true, Str.startsWith_iff, Str.startsWith_iff]
    rcases hscheme with rfl | rfl
    · exact Or.inl ⟨a.text, rfl⟩
    · exact Or.inr ⟨a.text, rfl⟩
  dsimp only
  rw [if_pos hstart]

theorem httpReads_name (h : NotRedirected dns ⟨.name text ne plain, port⟩) :
    HttpReads dns ⟨.name text ne plain, port⟩ := by
  have hsplit : DnsOverride.splitHost (Authority.text ⟨.name text ne plain, port⟩) =
      (text, (port.map Port.text).getD []) := by
    unfold DnsOverride.splitHost
    cases port with
    | none =>
      rw [rsplitOnce_name]
      exact congrArg (fun s => (s, [])) (text_none _)
    | some port =>
      rw [rsplitOnce_some]
      rfl
  refine ⟨hsplit, fun parse ctx path headers hhost hdestination => ?_⟩
  have hdial : dialHost dns (.name text ne plain) = text := (dialHost_eq_iff dns ⟨.name text ne plain, port⟩).2 h
  have haddress : ∀ scheme : Str, scheme ++ ("://" : Str) ++ dialHost dns (.name text ne plain) ++
      Authority.suffix ⟨.name text ne plain, port⟩ ++ path =
        scheme ++ ("://" : Str) ++ Authority.text ⟨.name text ne plain, port⟩ ++ path := by
    intro scheme
    rw [hdial]
    unfold Authority.text Host.text
    simp only [List.append_assoc]
  cases hlookup : DnsOverride.lookup dns ctx.host with
  | none =>
    refine ⟨"http", Or.inl rfl, ?_⟩
    rw [haddress, DnsOverride.onRequest_of_none hlookup, hdestination, hhost]
    rfl
  | some entry =>
    have hentry : entry.ip = text := by
      unfold DnsOverride.lookup at hlookup
      rw [hhost, hsplit, Option.filter_eq_some_iff] at hlookup
      exact h entry hlookup.1 hlookup.2
    have hnew : DnsOverride.newHost entry ((port.map Port.text).getD []) =
        Authority.text ⟨.name text ne plain, port⟩ := by
      unfold DnsOverride.newHost
      rw [hentry]
      cases port with
      | none =>
        rw [text_none]
        rfl
      | some port => exact if_neg (by simpa using port.ne)
    have hscheme : DnsOverride.scheme ((port.map Port.text).getD []) = "http" ∨
        DnsOverride.scheme ((port.map Port.text).getD []) = "https" ∧ port.isSome = true := by
      unfold DnsOverride.scheme
      cases port with
      | none => exact Or.inl (if_neg (by decide))
      | some port =>
        split
        · exact Or.inr ⟨rfl, rfl⟩
        · exact Or.inl rfl
    refine ⟨_, hscheme, ?_⟩
    rw [haddress, DnsOverride.onRequest_of_some hlookup, hhost, hsplit, hnew]
    exact congrArg (fun base => base ++ path) (destinationBase_eq (hscheme.imp_right And.left) _)

end

/-! ### All paths -/

/-- The port which is dialled where an authority has none. -/
def httpsPort : Port := ⟨"443", by decide, by decide, by decide⟩

/-- The exact condition on an authority and the overrides. -/
theorem readAlike_iff : ReadAlike dns a ↔
    a.host.IsName ∧ (a.port.map Port.value).getD 80 = 80 ∧ NotRedirected dns a := by
  obtain ⟨host, port⟩ := a
  cases host with
  | ipv6 address colon plain => exact iff_of_false (fun h => not_connectReads_ipv6 dns h.connect) fun h => h.1
  | name text ne plain =>
    constructor
    · intro h
      obtain ⟨hredirected, hport⟩ := (wsHeaderReads_name_iff dns).1 h.wsHeader
      exact ⟨trivial, hport, hredirected⟩
    · rintro ⟨-, hport, hredirected⟩
      have hconnect := connectReads_name dns ne plain port
      have hdial : dialHost dns (.name text ne plain) = text :=
        (dialHost_eq_iff dns ⟨.name text ne plain, port⟩).2 hredirected
      refine ⟨hconnect, ⟨⟨.name text ne plain, some (port.getD httpsPort)⟩, rfl, ?_⟩, httpReads_name dns hredirected,
        (wsTargetReads_iff dns _).2 hredirected, (wsHeaderReads_name_iff dns).2 ⟨hredirected, hport⟩,
        wsInterceptedReads_name dns hredirected, matcherReads _⟩
      rw [hconnect.2, hdial, text_some]
      cases port <;> rfl

/-- The port of `example.com:8080` is not read where it stands in the `Host` field of an upgrade alone. -/
theorem not_readAlike : ¬ ∀ dns a, ReadAlike dns a := by
  intro h
  have hport := ((h IndexMap.empty ⟨.name "example.com" (by decide) (by decide),
    some ⟨"8080", by decide, by decide, by decide⟩⟩).wsHeader ⟨none, none, "/", by decide, by decide, by decide,
      by decide⟩ rfl).2
  exact absurd hport (by decide)

end DialPaths

end Oproxy
