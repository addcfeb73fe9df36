import Oproxy.Core.Playback

/-!
# Webhooks and playback (`webhooks.rs`, `core/playback.rs`)

Both check the configured URL once and hand it to the client library.  The client is a parameter: it looks hosts up
again and follows redirects on its own.  The network is what look-ups may give and servers may answer, and every run is
one of those which it allows.
-/

namespace Oproxy

namespace Egress

/-! ### The network -/

/-- What a contacted server does. -/
inductive ServerAnswer where
  | response
  | failure
  | redirect (url : Url)

/-- What the network may do at any time: what a look-up of a host and a port comes to, none where it fails, and how an
address answers a request for a URL.  An address which never answers takes no connection. -/
structure Network where
  resolves : Str → Nat → Option (List IpAddr) → Prop
  answers : IpAddr → Url → ServerAnswer → Prop
  resolves_total : ∀ host port, ∃ found, resolves host port found

/-- The look-ups of one moment. -/
def Network.Allows (net : Network) (resolve : Resolve) : Prop := ∀ host port, net.resolves host port (resolve host port)

/-- The address which the host of a URL is; one of IPv6 stands in brackets. -/
def hostAddress (url : Url) : Option IpAddr :=
  match url.hostStr with
  | some ('[' :: rest) => IpAddr.parse rest.dropLast
  | some host => IpAddr.parse host
  | none => none

/-- An address at which the host of a URL may be found. -/
def Target (net : Network) (url : Url) (ip : IpAddr) : Prop :=
  hostAddress url = some ip ∨
    (hostAddress url = none ∧ ∃ host port found, url.hostStr = some host ∧ url.portOrKnownDefault = some port ∧
      net.resolves host port (some found) ∧ ip ∈ found)

/-- A connection, for a URL, to an address, and what came of it. -/
structure Hop where
  url : Url
  ip : IpAddr
  answer : ServerAnswer

/-- Such a connection may be made. -/
structure Dials (net : Network) (hop : Hop) : Prop where
  web : hop.url.isWeb = true
  target : Target net hop.url hop.ip
  answers : net.answers hop.ip hop.url hop.answer

/-! ### The client library -/

/-- What one `send` comes to: its connections, and whether it returned a response. -/
structure Sent where
  hops : List Hop
  ok : Bool

def maxRedirects : Nat := 10

/-- The connections of one request as the documentation of the client has them. -/
structure Route (net : Network) (url : Url) (hops : List Hop) : Prop where
  /-- The first one is for the URL itself. -/
  starts : ∀ hop ∈ hops.head?, hop.url = url
  /-- A further one is for the URL to which the server before it has redirected. -/
  follows : hops.IsChain fun hop next => hop.answer = .redirect next.url
  /-- Each is for a web URL and to an address of its host. -/
  dials : ∀ hop ∈ hops, Dials net hop
  /-- The default policy follows ten redirects. -/
  limit : hops.length ≤ maxRedirects + 1

/-- What is relied on of the client: it makes such connections, and none of them is kept from it. -/
structure Documented (net : Network) (sends : Url → Sent → Prop) : Prop where
  route : ∀ {url sent}, sends url sent → Route net url sent.hops
  free : ∀ {url hops}, Route net url hops → ∃ sent, sends url sent ∧ hops <+: sent.hops

/-! ### Webhooks and playback -/

def webhookAttempts : Nat := 3

/-- The loop of `fire_webhook`, which ends with the first response. -/
def attempts (outcome : Nat → Sent) : Nat → Nat → List Hop
  | 0, _ => []
  | left + 1, attempt =>
    if (outcome attempt).ok then (outcome attempt).hops
    else (outcome attempt).hops ++ attempts outcome left (attempt + 1)

/-- `fire_webhook`, whose check looks the host up with `resolve`; `outcome` is what each `send` comes to. -/
def fireWebhook (parse : Str → Option Url) (resolve : Resolve) (policy : AdminEgressPolicy) (text : Str)
    (outcome : Nat → Sent) : List Hop :=
  match parse text with
  | none => []
  | some url =>
    match enforceAdminEgressPolicy resolve url policy with
    | .error _ => []
    | .ok () => attempts outcome webhookAttempts 0

/-- The connections of `replay`, from the exchange with the number `n` on. -/
def replayHops (world : PlaybackWorld) (outcome : Nat → Sent) : Nat → List Exchange → List Hop
  | _, [] => []
  | n, exchange :: exchanges =>
    (match Playback.prepareReplay world n exchange with
      | none => []
      | some _ => (outcome n).hops) ++ replayHops world outcome (n + 1) exchanges

theorem mem_attempts {outcome : Nat → Sent} {left attempt : Nat} {hop : Hop} (h : hop ∈ attempts outcome left attempt) :
    ∃ i, hop ∈ (outcome i).hops := by
  induction left generalizing attempt with
  | zero => cases h
  | succ left ih =>
    unfold attempts at h
    split at h
    · exact ⟨attempt, h⟩
    · rcases List.mem_append.1 h with h | h
      · exact ⟨attempt, h⟩
      · exact ih h

/-- The first attempt is always made. -/
theorem mem_attempts_of_first {outcome : Nat → Sent} {left attempt : Nat} {hop : Hop}
    (h : hop ∈ (outcome attempt).hops) : hop ∈ attempts outcome (left + 1) attempt := by
  unfold attempts
  split
  · exact h
  · exact List.mem_append_left _ h

theorem mem_replayHops {world : PlaybackWorld} {outcome : Nat → Sent} {n : Nat} {exchanges : List Exchange}
    {hop : Hop} :
    hop ∈ replayHops world outcome n exchanges ↔ ∃ i exchange, exchanges[i]? = some exchange ∧
      (Playback.prepareReplay world (n + i) exchange).isSome = true ∧ hop ∈ (outcome (n + i)).hops := by
  induction exchanges generalizing n with
  | nil => simp [replayHops]
  | cons exchange exchanges ih =>
    unfold replayHops
    rw [List.mem_append, ih]
    constructor
    · rintro (h | ⟨i, exchange', hi, hprepared, hhop⟩)
      · split at h
        · cases h
        · rename_i replay hprepared
          refine ⟨0, exchange, rfl, ?_, h⟩
          rw [Nat.add_zero, hprepared]
          rfl
      · refine ⟨i + 1, exchange', hi, ?_⟩
        rw [Nat.add_right_comm, Nat.add_assoc] at hprepared hhop
        exact ⟨hprepared, hhop⟩
    · rintro ⟨i, exchange', hi, hprepared, hhop⟩
      cases i with
      | zero =>
        cases hi
        left
        rw [Nat.add_zero] at hprepared hhop
        obtain ⟨replay, hreplay⟩ := Option.isSome_iff_exists.1 hprepared
        rw [hreplay]
        exact hhop
      | succ i =>
        right
        refine ⟨i, exchange', hi, ?_⟩
        rw [Nat.add_right_comm, Nat.add_assoc]
        exact ⟨hprepared, hhop⟩

/-! ### What the check can tell -/

/-- The address which the check reads in a URL: it takes the host as it stands, with its brackets. -/
def checkedAddress (url : Url) : Option IpAddr := url.hostStr.bind IpAddr.parse

/-- The check may find nothing wrong: with the address in the URL, or with a look-up, be it that this one fails. -/
def MayPass (net : Network) (url : Url) : Prop :=
  match checkedAddress url with
  | some ip => isProtectedAdminEgressIp ip = false
  | none => ∃ host port found, url.hostStr = some host ∧ url.portOrKnownDefault = some port ∧
      net.resolves host port found ∧ ∀ ip ∈ found.getD [], isProtectedAdminEgressIp ip = false

theorem enforce_of_literal {resolve : Resolve} {url : Url} {ip : IpAddr} (hip : checkedAddress url = some ip) :
    enforceAdminEgressPolicy resolve url ⟨true⟩ = .ok () ↔ isProtectedAdminEgressIp ip = false := by
  unfold checkedAddress at hip
  obtain ⟨host, hhost, hparse⟩ := Option.bind_eq_some_iff.1 hip
  unfold enforceAdminEgressPolicy
  simp only [Bool.not_true, Bool.false_eq_true, if_false, hhost, hparse]
  cases hprotected : isProtectedAdminEgressIp ip <;> simp

theorem enforce_of_name {resolve : Resolve} {url : Url} (hnone : checkedAddress url = none) :
    enforceAdminEgressPolicy resolve url ⟨true⟩ = .ok () ↔ ∃ host port, url.hostStr = some host ∧
      url.portOrKnownDefault = some port ∧ ∀ ip ∈ (resolve host port).getD [], isProtectedAdminEgressIp ip = false := by
  unfold checkedAddress at hnone
  unfold enforceAdminEgressPolicy
  simp only [Bool.not_true, Bool.false_eq_true, if_false]
  cases hhost : url.hostStr with
  | none => simp
  | some host =>
    rw [hhost, Option.bind_some] at hnone
    dsimp only
    rw [hnone]
    cases hport : url.portOrKnownDefault with
    | none => simp
    | some port =>
      dsimp only
      cases hfound : resolve host port with
      | none => simp [hfound]
      | some found =>
        dsimp only
        cases hfind : found.find? isProtectedAdminEgressIp with
        | none =>
          rw [List.find?_eq_none] at hfind
          refine iff_of_true rfl ⟨host, port, rfl, rfl, fun ip hip => ?_⟩
          rw [hfound] at hip
          exact (Bool.not_eq_true _).mp (hfind ip hip)
        | some ip =>
          have hmem := List.mem_of_find?_eq_some hfind
          have hprotected := List.find?_some hfind
          simp only [reduceCtorEq, false_iff, not_exists, not_and]
          intro host' port' hhost' hport' hall
          cases hhost'
          cases hport'
          rw [hfound] at hall
          rw [hall ip hmem] at hprotected
          cases hprotected

variable {net : Network} {url : Url}

/-- There are look-ups of one moment, and one of them may be chosen. -/
theorem exists_allows (net : Network) {host : Str} {port : Nat} {found : Option (List IpAddr)}
    (h : net.resolves host port found) : ∃ resolve, net.Allows resolve ∧ resolve host port = found := by
  choose resolve hresolve using net.resolves_total
  refine ⟨fun host' port' => if host' = host ∧ port' = port then found else resolve host' port', ?_, if_pos ⟨rfl, rfl⟩⟩
  intro host' port'
  dsimp only
  split
  · rename_i heq
    rw [heq.1, heq.2]
    exact h
  · exact hresolve host' port'

theorem mayPass_iff (net : Network) (url : Url) :
    MayPass net url ↔ ∃ resolve, net.Allows resolve ∧ enforceAdminEgressPolicy resolve url ⟨true⟩ = .ok () := by
  unfold MayPass
  cases hip : checkedAddress url with
  | some ip =>
    dsimp only
    simp only [enforce_of_literal hip]
    constructor
    · intro h
      choose resolve hresolve using net.resolves_total
      exact ⟨resolve, hresolve, h⟩
    · exact fun ⟨_, _, h⟩ => h
  | none =>
    dsimp only
    simp only [enforce_of_name hip]
    constructor
    · rintro ⟨host, port, found, hhost, hport, hfound, hall⟩
      obtain ⟨resolve, hallows, hresolve⟩ := exists_allows net hfound
      exact ⟨resolve, hallows, host, port, hhost, hport, by rw [hresolve]; exact hall⟩
    · rintro ⟨resolve, hallows, host, port, hhost, hport, hall⟩
      exact ⟨host, port, resolve host port, hhost, hport, hallows host port, hall⟩

/-! ### Redirects -/

/-- So many redirects may lead from one URL to another. -/
inductive Leads (net : Network) : Nat → Url → Url → Prop
  | here (url : Url) : Leads net 0 url url
  | redirect {n : Nat} {url next last : Url} {ip : IpAddr} (hdials : Dials net ⟨url, ip, .redirect next⟩)
    (hleads : Leads net n next last) : Leads net (n + 1) url last

/-- No protected address answers where the check does not look: at the host itself, unless the check has read this
address in the URL, and behind one to ten redirects. -/
structure Harmless (net : Network) (url : Url) : Prop where
  direct : ∀ hop, hop.url = url → Dials net hop → checkedAddress url ≠ some hop.ip →
    isProtectedAdminEgressIp hop.ip = false
  redirects : ∀ n hop, n < maxRedirects → Leads net (n + 1) url hop.url → Dials net hop →
    isProtectedAdminEgressIp hop.ip = false

theorem leads_of_mem {hops : List Hop} (hstarts : ∀ hop ∈ hops.head?, hop.url = url)
    (hfollows : hops.IsChain fun hop next => hop.answer = .redirect next.url) (hdials : ∀ hop ∈ hops, Dials net hop)
    {hop : Hop} (hhop : hop ∈ hops) : ∃ n < hops.length, Leads net n url hop.url := by
  induction hops generalizing url with
  | nil => cases hhop
  | cons first hops ih =>
    have hfirst : first.url = url := hstarts first rfl
    rcases List.mem_cons.1 hhop with rfl | hrest
    · refine ⟨0, Nat.succ_pos _, ?_⟩
      rw [hfirst]
      exact .here url
    · cases hops with
      | nil => cases hrest
      | cons second hops =>
        obtain ⟨hredirect, hchain⟩ := List.isChain_cons_cons.1 hfollows
        obtain ⟨n, hn, hleads⟩ := ih (fun hop hhop => by rw [← Option.some.inj hhop]) hchain
          (fun hop hhop => hdials hop (List.mem_cons_of_mem _ hhop)) hrest
        refine ⟨n + 1, Nat.succ_lt_succ hn, ?_⟩
        have hdial := hdials first List.mem_cons_self
        obtain ⟨firstUrl, ip, answer⟩ := first
        dsimp only at hfirst hredirect
        subst hfirst hredirect
        exact .redirect hdial hleads

/-- Where redirects lead there is a way. -/
theorem exists_route {n : Nat} {hop : Hop} (hleads : Leads net n url hop.url) (hdial : Dials net hop)
    (hn : n ≤ maxRedirects) : ∃ hops, Route net url hops ∧ hop ∈ hops := by
  have hroute : ∃ hops : List Hop, hops.length = n + 1 ∧ (∀ first ∈ hops.head?, first.url = url) ∧
      (hops.IsChain fun hop next => hop.answer = .redirect next.url) ∧ (∀ hop ∈ hops, Dials net hop) ∧ hop ∈ hops := by
    clear hn
    generalize hlast : hop.url = last at hleads
    induction hleads with
    | here url =>
      refine ⟨[hop], rfl, ?_, .singleton _, ?_, List.mem_singleton_self _⟩
      · intro first hfirst
        rw [← Option.some.inj hfirst]
        exact hlast
      · intro hop' hhop'
        rw [List.mem_singleton.1 hhop']
        exact hdial
    | @redirect n url next last ip hfirst hleads ih =>
      obtain ⟨hops, hlength, hstarts, hfollows, hdials, hmem⟩ := ih hlast
      refine ⟨⟨url, ip, .redirect next⟩ :: hops, by rw [List.length_cons, hlength], ?_, ?_, ?_,
        List.mem_cons_of_mem _ hmem⟩
      · intro first hfirst
        rw [← Option.some.inj hfirst]
      · cases hops with
        | nil => cases hmem
        | cons second hops =>
          refine List.isChain_cons_cons.2 ⟨?_, hfollows⟩
          rw [hstarts second rfl]
      · exact List.forall_mem_cons.2 ⟨hfirst, hdials⟩
  obtain ⟨hops, hlength, hstarts, hfollows, hdials, hmem⟩ := hroute
  exact ⟨hops, ⟨hstarts, hfollows, hdials, by omega⟩, hmem⟩

/-- What passes the check and is harmless has no protected address on its way. -/
theorem not_protected_of_harmless {hops : List Hop} (hroute : Route net url hops) (hpass : MayPass net url)
    (hharmless : Harmless net url) {hop : Hop} (hhop : hop ∈ hops) : isProtectedAdminEgressIp hop.ip = false := by
  obtain ⟨n, hn, hleads⟩ := leads_of_mem hroute.starts hroute.follows hroute.dials hhop
  have hdial := hroute.dials hop hhop
  cases n with
  | succ n =>
    have hlimit := hroute.limit
    exact hharmless.redirects n hop (by omega) hleads hdial
  | zero =>
    have hurl : hop.url = url := by
      cases hleads
      rfl
    by_cases hchecked : checkedAddress url = some hop.ip
    · unfold MayPass at hpass
      rw [hchecked] at hpass
      exact hpass
    · exact hharmless.direct hop hurl hdial hchecked

/-! ### Every hop -/

section

variable (parse : Str → Option Url) (net : Network) (sends : Url → Sent → Prop) (text : Str) (exchanges : List Exchange)

/-- With the policy on, no protected address is ever connected to, whatever the network does. -/
structure EveryHop : Prop where
  webhook : ∀ resolve outcome, net.Allows resolve →
    (∀ url, parse text = some url → ∀ attempt, sends url (outcome attempt)) →
    ∀ hop ∈ fireWebhook parse resolve ⟨true⟩ text outcome, isProtectedAdminEgressIp hop.ip = false
  playback : ∀ world outcome, world.parse = parse → world.policy = ⟨true⟩ → (∀ n, net.Allows (world.resolve n)) →
    (∀ n exchange url, exchanges[n]? = some exchange → parse exchange.request.uri = some url → sends url (outcome n)) →
    ∀ hop ∈ replayHops world outcome 0 exchanges, isProtectedAdminEgressIp hop.ip = false

/-- The condition: whatever may pass the check is harmless. -/
structure Safe : Prop where
  webhook : ∀ url, parse text = some url → MayPass net url → Harmless net url
  playback : ∀ exchange ∈ exchanges, Http.isToken exchange.request.method = true →
    ∀ url, parse exchange.request.uri = some url → MayPass net url → Harmless net url

end

section

variable {parse : Str → Option Url} {sends : Url → Sent → Prop} {text : Str} {exchanges : List Exchange}

theorem exists_sends (hclient : Documented net sends) (url : Url) : ∃ sent, sends url sent := by
  have hroute : Route net url [] := ⟨nofun, .nil, nofun, Nat.zero_le _⟩
  obtain ⟨sent, hsent, -⟩ := hclient.free hroute
  exact ⟨sent, hsent⟩

/-- Where every connection that may be made is to an unprotected address, the URL is harmless. -/
theorem harmless_of_sends (hclient : Documented net sends)
    (h : ∀ sent, sends url sent → ∀ hop ∈ sent.hops, isProtectedAdminEgressIp hop.ip = false) : Harmless net url := by
  have hreached : ∀ n hop, n ≤ maxRedirects → Leads net n url hop.url → Dials net hop →
      isProtectedAdminEgressIp hop.ip = false := by
    intro n hop hn hleads hdial
    obtain ⟨hops, hroute, hmem⟩ := exists_route hleads hdial hn
    obtain ⟨sent, hsent, hmade⟩ := hclient.free hroute
    exact h sent hsent hop (hmade.subset hmem)
  refine ⟨fun hop hurl hdial _ => ?_, fun n hop hn => hreached (n + 1) hop hn⟩
  refine hreached 0 hop (Nat.zero_le _) ?_ hdial
  rw [hurl]
  exact .here url

theorem harmless_of_webhook (hclient : Documented net sends) (h : EveryHop parse net sends text exchanges)
    (hparse : parse text = some url) (hpass : MayPass net url) : Harmless net url := by
  obtain ⟨resolve, hallows, henforce⟩ := (mayPass_iff net url).1 hpass
  refine harmless_of_sends hclient fun sent hsent hop hhop => ?_
  refine h.webhook resolve (fun _ => sent) hallows (fun url' hurl' _ => ?_) hop ?_
  · rw [hparse] at hurl'
    cases hurl'
    exact hsent
  · unfold fireWebhook
    rw [hparse]
    dsimp only
    rw [henforce]
    exact mem_attempts_of_first hhop

theorem isSome_prepareReplay_iff {world : PlaybackWorld} {n : Nat} {exchange : Exchange} :
    (Playback.prepareReplay world n exchange).isSome = true ↔ Http.isToken exchange.request.method = true ∧
      ∃ url, world.parse exchange.request.uri = some url ∧
        enforceAdminEgressPolicy (world.resolve n) url world.policy = .ok () := by
  unfold Playback.prepareReplay
  dsimp only
  cases hmethod : Http.isToken exchange.request.method with
  | false => simp
  | true =>
    cases hparse : world.parse exchange.request.uri with
    | none => simp
    | some url =>
      simp only [Bool.not_true, Bool.false_eq_true, if_false, true_and, Option.some.injEq, exists_eq_left']
      cases enforceAdminEgressPolicy (world.resolve n) url world.policy with
      | error blocked => simp
      | ok allowed => simp

theorem harmless_of_playback (hclient : Documented net sends) (h : EveryHop parse net sends text exchanges)
    {exchange : Exchange} (hexchange : exchange ∈ exchanges) (hmethod : Http.isToken exchange.request.method = true)
    (hparse : parse exchange.request.uri = some url) (hpass : MayPass net url) : Harmless net url := by
  obtain ⟨resolve, hallows, henforce⟩ := (mayPass_iff net url).1 hpass
  obtain ⟨n, hn⟩ := List.mem_iff_getElem?.1 hexchange
  refine harmless_of_sends hclient fun sent hsent hop hhop => ?_
  -- the other exchanges come to whatever the client may make of them
  have hothers : ∀ m, ∃ sent', (m = n → sent' = sent) ∧ ∀ exchange' url', exchanges[m]? = some exchange' →
      parse exchange'.request.uri = some url' → sends url' sent' := by
    intro m
    by_cases hm : m = n
    · refine ⟨sent, fun _ => rfl, fun exchange' url' hexchange' hurl' => ?_⟩
      rw [hm, hn] at hexchange'
      cases hexchange'
      rw [hparse] at hurl'
      cases hurl'
      exact hsent
    · cases hexchange' : exchanges[m]? with
      | none => exact ⟨sent, fun heq => absurd heq hm, fun _ _ heq => by cases heq⟩
      | some exchange' =>
        cases hurl' : parse exchange'.request.uri with
        | none =>
          refine ⟨sent, fun heq => absurd heq hm, fun _ _ heq hsome => ?_⟩
          cases heq
          rw [hurl'] at hsome
          cases hsome
        | some url' =>
          obtain ⟨sent', hsent'⟩ := exists_sends hclient url'
          refine ⟨sent', fun heq => absurd heq hm, fun _ _ heq hsome => ?_⟩
          cases heq
          rw [hurl'] at hsome
          cases hsome
          exact hsent'
  choose outcome houtcome hsends using hothers
  refine h.playback ⟨parse, fun _ => resolve, ⟨true⟩, fun _ => none, fun _ => []⟩ outcome rfl rfl (fun _ => hallows)
    hsends hop (mem_replayHops.2 ⟨n, exchange, hn, ?_, ?_⟩)
  · rw [isSome_prepareReplay_iff]
    exact ⟨hmethod, url, hparse, henforce⟩
  · rw [Nat.zero_add, houtcome n rfl]
    exact hhop

theorem everyHop_iff (hclient : Documented net sends) :
    EveryHop parse net sends text exchanges ↔ Safe parse net text exchanges := by
  constructor
  · intro h
    constructor
    · exact fun url hparse hpass => harmless_of_webhook hclient h hparse hpass
    · exact fun exchange hexchange hmethod url hparse hpass =>
        harmless_of_playback hclient h hexchange hmethod hparse hpass
  · intro h
    constructor
    · intro resolve outcome hallows hsends hop hhop
      unfold fireWebhook at hhop
      split at hhop
      · cases hhop
      · rename_i url hparse
        split at hhop
        · cases hhop
        · rename_i henforce
          have hpass : MayPass net url := (mayPass_iff net url).2 ⟨resolve, hallows, henforce⟩
          obtain ⟨attempt, hattempt⟩ := mem_attempts hhop
          exact not_protected_of_harmless (hclient.route (hsends url hparse attempt)) hpass
            (h.webhook url hparse hpass) hattempt
    · intro world outcome hparser hpolicy hallows hsends hop hhop
      obtain ⟨n, exchange, hn, hprepared, hmem⟩ := mem_replayHops.1 hhop
      obtain ⟨hmethod, url, hparse, henforce⟩ := isSome_prepareReplay_iff.1 hprepared
      rw [Nat.zero_add] at henforce hmem
      rw [hparser] at hparse
      rw [hpolicy] at henforce
      have hpass : MayPass net url := (mayPass_iff net url).2 ⟨world.resolve n, hallows n, henforce⟩
      exact not_protected_of_harmless (hclient.route (hsends n exchange url hn hparse)) hpass
        (h.playback exchange (List.mem_of_getElem? hn) hmethod url hparse hpass) hmem

end

/-! ### A redirect, a second look-up, an address in brackets -/

private def hookUrl : Url := .ofHost "http" "hook.test" "/" (Eq.refl true)

private def metadataUrl : Url := .ofHost "http" "169.254.169.254" "/" (Eq.refl true)

private def loopbackUrl : Url :=
  { Url.loopback with
    port := none
    port_lt := hookUrl.port_lt
    port_ne_default := hookUrl.port_ne_default }

private def readHook (text : Str) : Option Url :=
  if text = ("http://hook.test/" : Str) then some hookUrl
  else if text = ("http://[::1]/" : Str) then some loopbackUrl
  else none

/-- A public server which sends the client on to a link-local address. -/
private def redirecting : Network where
  resolves _ _ found := found = some [.v4 93 184 216 34]
  answers ip _ answer := answer = if ip = .v4 93 184 216 34 then .redirect metadataUrl else .response
  resolves_total _ _ := ⟨_, rfl⟩

/-- A name which is public at one time and local at another. -/
private def rebinding : Network where
  resolves _ _ found := found = some [.v4 93 184 216 34] ∨ found = some [.v4 127 0 0 1]
  answers _ _ answer := answer = .response
  resolves_total _ _ := ⟨_, Or.inl rfl⟩

/-- A network in which no name resolves. -/
private def nameless : Network where
  resolves _ _ found := found = none
  answers _ _ answer := answer = .response
  resolves_total _ _ := ⟨_, rfl⟩

/-- A client whose requests may end at any time; one which ends with a response has succeeded. -/
private def clientOf (net : Network) (url : Url) (sent : Sent) : Prop :=
  Route net url sent.hops ∧ (sent.ok = true ↔ ∃ hop, sent.hops.getLast? = some hop ∧ hop.answer = .response)

private theorem documented_clientOf (net : Network) : Documented net (clientOf net) where
  route h := h.1
  free {url hops} h := by
    classical
    exact ⟨⟨hops, decide (∃ hop, hops.getLast? = some hop ∧ hop.answer = .response)⟩, ⟨h, decide_eq_true_iff⟩,
      List.prefix_refl _⟩

private def replayedHook : Exchange :=
  SessionStore.recordedExchange 0 "s1" { RequestContext.default with
    method := "GET"
    uri := "http://hook.test/" } .proxy

theorem everyHop_iff_redirecting :
    EveryHop readHook redirecting (clientOf redirecting) "http://hook.test/" [replayedHook] ↔
      Safe readHook redirecting "http://hook.test/" [replayedHook] := everyHop_iff (documented_clientOf redirecting)

private def publicHop : Hop := ⟨hookUrl, .v4 93 184 216 34, .redirect metadataUrl⟩

private def metadataHop : Hop := ⟨metadataUrl, .v4 169 254 169 254, .response⟩

private def reboundHop : Hop := ⟨hookUrl, .v4 127 0 0 1, .response⟩

private def loopbackHop : Hop := ⟨loopbackUrl, .v6 1, .response⟩

private theorem target_hookUrl {net : Network} {ip : IpAddr} (h : net.resolves "hook.test" 80 (some [ip])) :
    Target net hookUrl ip :=
  Or.inr ⟨by decide +kernel, "hook.test", 80, [ip], rfl, by decide +kernel, h, List.mem_singleton_self ip⟩

private theorem sends_redirected : clientOf redirecting hookUrl ⟨[publicHop, metadataHop], true⟩ := by
  refine ⟨⟨?_, ?_, ?_, by decide⟩, iff_of_true rfl ⟨metadataHop, rfl, rfl⟩⟩
  · intro hop hhop
    rw [← Option.some.inj hhop]
    rfl
  · exact List.isChain_cons_cons.2 ⟨rfl, .singleton _⟩
  · refine List.forall_mem_cons.2 ⟨?_, List.forall_mem_singleton.2 ?_⟩
    · exact ⟨by decide +kernel, target_hookUrl rfl, rfl⟩
    · exact ⟨by decide +kernel, Or.inl (by decide +kernel), rfl⟩

private theorem sends_one {net : Network} {hop : Hop} (hdial : Dials net hop) (hanswer : hop.answer = .response) :
    clientOf net hop.url ⟨[hop], true⟩ := by
  refine ⟨⟨?_, .singleton _, List.forall_mem_singleton.2 hdial, Nat.succ_pos _⟩,
    iff_of_true rfl ⟨hop, rfl, hanswer⟩⟩
  intro first hfirst
  rw [← Option.some.inj hfirst]

/-- All three lead to a protected address. -/
theorem not_everyHop :
    ¬ EveryHop readHook redirecting (clientOf redirecting) "http://hook.test/" [] ∧
      ¬ EveryHop readHook rebinding (clientOf rebinding) "http://hook.test/" [replayedHook] ∧
      ¬ EveryHop readHook nameless (clientOf nameless) "http://[::1]/" [] := by
  refine ⟨?_, ?_, ?_⟩
  · intro h
    have hall :=
      h.webhook (fun _ _ => some [.v4 93 184 216 34]) (fun _ => ⟨[publicHop, metadataHop], true⟩) (fun _ _ => rfl)
      (fun url hurl _ => by cases hurl; exact sends_redirected) metadataHop (List.mem_cons_of_mem _ List.mem_cons_self)
    revert hall
    decide +kernel
  · intro h
    have hdial : Dials rebinding reboundHop := ⟨by decide +kernel, target_hookUrl (Or.inr rfl), rfl⟩
    have hall := h.playback
      ⟨readHook, fun _ _ _ => some [.v4 93 184 216 34], ⟨true⟩, fun _ => none, fun _ => []⟩
        (fun _ => ⟨[reboundHop], true⟩)
      rfl rfl (fun _ _ _ => Or.inl rfl) ?_ reboundHop List.mem_cons_self
    · revert hall
      decide +kernel
    · intro n exchange url hn hurl
      cases List.mem_singleton.1 (List.mem_of_getElem? hn)
      cases hurl
      exact sends_one hdial rfl
  · intro h
    have hdial : Dials nameless loopbackHop := ⟨by decide +kernel, Or.inl (by decide +kernel), rfl⟩
    have hall := h.webhook (fun _ _ => none) (fun _ => ⟨[loopbackHop], true⟩) (fun _ _ => rfl)
      (fun url hurl _ => by cases hurl; exact sends_one hdial rfl) loopbackHop List.mem_cons_self
    revert hall
    decide +kernel

end Egress

end Oproxy
