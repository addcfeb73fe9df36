import Oproxy.Har.Entry

/-!
# Export and import

An exchange which is exported and imported again.  The ids, the annotations, the requests and the bodies come back as
they were; four facts of an exchange are not in its entry and are made up again: the host is read from the URL, the
status of the metrics is the one of the response, the protocol has a default, and the time to the first byte is the sum
of its parts.  `restores_iff` says for which exchanges what is made up is what was there.
-/

namespace Oproxy

namespace Har

/-! ### What is to come back -/

/-- The headers without those which an archive does not keep. -/
def keptHeaders (headers : HeaderMap) : HeaderMap := headers.retain fun name _ => !shouldSkipHarHeader name

structure RestoresResponse (res restored : ResponseContext) : Prop where
  status : restored.status = res.status
  headers : restored.headers = keptHeaders res.headers
  body : restored.body = res.body

structure RestoresMetrics (metrics restored : InspectionMetrics) : Prop where
  latencyMs : restored.latencyMs = metrics.latencyMs
  ttfbMs : restored.ttfbMs = metrics.ttfbMs
  bodyMs : restored.bodyMs = metrics.bodyMs
  dnsMs : restored.dnsMs = metrics.dnsMs
  tcpConnectMs : restored.tcpConnectMs = metrics.tcpConnectMs
  tlsMs : restored.tlsMs = metrics.tlsMs
  statusCode : restored.statusCode = metrics.statusCode
  protocol : restored.protocol = metrics.protocol

/-- The restored exchange agrees with the exchange, headers aside which an archive does not keep. -/
structure Restores (ex restored : Exchange) : Prop where
  id : restored.id = ex.id
  timestamp : restored.timestamp = ex.timestamp
  updatedAt : restored.updatedAt = ex.updatedAt
  note : restored.note = ex.note
  tags : restored.tags = ex.tags
  connectionId : restored.connectionId = ex.connectionId
  streamId : restored.streamId = ex.streamId
  downstreamProtocol : restored.downstreamProtocol = ex.downstreamProtocol
  protocolContext : restored.protocolContext = ex.protocolContext
  method : restored.request.method = ex.request.method
  uri : restored.request.uri = ex.request.uri
  host : restored.request.host = ex.request.host
  headers : restored.request.headers = keptHeaders ex.request.headers
  body : restored.request.body = ex.request.body
  response : Option.Rel RestoresResponse ex.response restored.response
  metrics : Option.Rel RestoresMetrics ex.metrics restored.metrics

/-- The counters of milliseconds are below a bound. -/
structure CountersBelow (bound : Nat) (metrics : InspectionMetrics) : Prop where
  latencyMs : metrics.latencyMs < bound
  ttfbMs : metrics.ttfbMs < bound
  bodyMs : metrics.bodyMs < bound
  dnsMs : ∀ ms ∈ metrics.dnsMs, ms < bound
  tcpConnectMs : ∀ ms ∈ metrics.tcpConnectMs, ms < bound
  tlsMs : ∀ ms ∈ metrics.tlsMs, ms < bound

/-- What follows the scheme in a URI, up to the path or the query. -/
def uriAuthority (uri : Str) : Str :=
  (((Str.splitOnceStr "://" uri).map Prod.snd).getD uri).takeWhile fun c => c ≠ '/' && c ≠ '?'

/-- What an entry does not say is as the import makes it up. -/
structure Recoverable (ex : Exchange) (res : ResponseContext) (metrics : InspectionMetrics) : Prop where
  host : ex.request.host = uriAuthority ex.request.uri
  status : metrics.statusCode = res.status
  setup : metrics.dnsMs.getD 0 + metrics.tcpConnectMs.getD 0 + metrics.tlsMs.getD 0 ≤ metrics.ttfbMs
  protocol : ∃ protocol, metrics.protocol = some protocol ∧ protocol ≠ [] ∧ protocol.trim = protocol

/-! ### Headers -/

/-- The headers which are kept come back in their order. -/
theorem headersOfHar_harHeaders (headers : HeaderMap) : headersOfHar (harHeaders headers) = keptHeaders headers := by
  have hlower : ∀ e ∈ headers.entries.filter (fun e => !shouldSkipHarHeader e.1), (e.1.toAsciiLowercase, e.2) = e :=
    fun e he => Prod.ext (headers.lower e (List.mem_of_mem_filter he)) rfl
  apply HeaderMap.ext_entries
  unfold headersOfHar harHeaders
  rw [HeaderMap.entries_fromIter, List.map_map, List.map_map]
  exact (List.map_congr_left hlower).trans (List.map_id _)

/-! ### Bodies -/

/-- A media type is judged without its parameters. -/
theorem isBinaryContentType_essence (mimeType : Str) :
    Wire.isBinaryContentType ((Str.split ';' mimeType).headD []).trim = Wire.isBinaryContentType mimeType := by
  have hnone : ';' ∉ ((Str.split ';' mimeType).headD []).trim := by
    intro hmem
    rw [Str.headD_split] at hmem
    have hdrop := (List.rdropWhile_prefix Str.isWhitespace _).subset hmem
    have htake := (List.dropWhile_suffix Str.isWhitespace).subset hdrop
    simpa using List.mem_takeWhile_imp htake
  have hsplit : ((Str.splitOnce ';' ((Str.split ';' mimeType).headD []).trim).map Prod.fst).getD
      ((Str.split ';' mimeType).headD []).trim = ((Str.split ';' mimeType).headD []).trim := by
    rw [Str.splitOnce_eq_none.2 hnone]
    rfl
  unfold Wire.isBinaryContentType
  rw [hsplit, Str.trim_trim, Str.headD_split, Str.fst_splitOnce]

/-- A body comes back from its text, unless it is a text body which is no UTF-8. -/
theorem harBodyBytes_harBodyText {body : Bytes} {mimeType : Str}
    (hvalid : Wire.isBinaryContentType mimeType = false → Utf8.Valid body) :
    harBodyBytes (harBodyText body mimeType) ((Str.split ';' mimeType).headD []).trim = body := by
  unfold harBodyBytes harBodyText
  rw [isBinaryContentType_essence]
  cases hbinary : Wire.isBinaryContentType mimeType with
  | true => simp [Base64.decode_encode]
  | false => simpa using (Utf8.toUtf8_decodeLossy_iff body).2 (hvalid hbinary)

/-- A body comes back from the text of its content, which an empty body does not have. -/
theorem harBodyBytes_content {body : Bytes} {mimeType : Str}
    (hvalid : Wire.isBinaryContentType mimeType = false → Utf8.Valid body) :
    harBodyBytes ((if body.isEmpty then none else some (harBodyText body mimeType)).getD [])
      ((Str.split ';' mimeType).headD []).trim = body := by
  cases body with
  | nil =>
    unfold harBodyBytes
    split <;> rfl
  | cons b body => exact harBodyBytes_harBodyText hvalid

theorem postData_body (request : RequestContext) (hvalid : Utf8.Valid request.body) :
    Str.toUtf8 (((exchangeRequestToHar request).postData.map fun p => p.text).getD []) = request.body := by
  by_cases hbody : request.body = []
  · simp [exchangeRequestToHar, hbody, Str.toUtf8]
  · have hback : request.bodyText.toUtf8 = request.body := (Utf8.toUtf8_decodeLossy_iff request.body).2 hvalid
    simpa [exchangeRequestToHar, hbody] using hback

/-! ### The host -/

private theorem takeWhile_takeWhile {α : Type} (p q : α → Bool) (l : List α) :
    (l.takeWhile p).takeWhile q = l.takeWhile fun a => p a && q a := by
  induction l with
  | nil => rfl
  | cons a l ih =>
    cases hp : p a <;> cases hq : q a <;> simp [hp, hq, ih]

theorem extractHost_eq (uri : Str) : extractHost uri = uriAuthority uri := by
  unfold extractHost uriAuthority
  rw [Str.headD_split, Str.headD_split, takeWhile_takeWhile]

/-! ### Times -/

private theorem getD_lt {o : Option Nat} (ho : ∀ ms ∈ o, ms < 2 ^ 53) : o.getD 0 < 2 ^ 53 := by
  cases o with
  | none => decide
  | some ms => exact ho ms rfl

private theorem setupMs_eq {metrics : InspectionMetrics} (hbelow : CountersBelow (2 ^ 53) metrics) :
    setupMs metrics = metrics.dnsMs.getD 0 + metrics.tcpConnectMs.getD 0 + metrics.tlsMs.getD 0 := by
  have hdns := getD_lt hbelow.dnsMs
  have hconnect := getD_lt hbelow.tcpConnectMs
  have htls := getD_lt hbelow.tlsMs
  unfold setupMs
  omega

/-- Three times and what is left of the time to the first byte after them: their sum is that time exactly where
something is left, or nothing. -/
private theorem sum_eq_iff {dns connect tls ttfb : Nat} (hdns : dns < 2 ^ 53) (hconnect : connect < 2 ^ 53)
    (htls : tls < 2 ^ 53) (httfb : ttfb < 2 ^ 53) :
    Binary64.toU64 (Binary64.max (Binary64.ofU64 dns + Binary64.ofU64 connect + Binary64.ofU64 tls +
      Binary64.ofU64 (ttfb - (dns + connect + tls))) (Binary64.ofU64 0)) = ttfb ↔ dns + connect + tls ≤ ttfb := by
  have hd := Binary64.holds_ofU64 hdns
  have hc := Binary64.holds_ofU64 hconnect
  have ht := Binary64.holds_ofU64 htls
  have hw := Binary64.holds_ofU64 (show ttfb - (dns + connect + tls) < 2 ^ 53 by omega)
  by_cases hle : dns + connect + tls < 2 ^ 53
  · have hsetup := (hd.add hc (by omega)).add ht hle
    by_cases hfits : dns + connect + tls ≤ ttfb
    · have hsum := hsetup.add hw (by omega)
      rw [hsum.max_zero.toU64]
      omega
    · have hsum := hsetup.add hw (by omega)
      rw [hsum.max_zero.toU64]
      omega
  · -- the sum of the parts is too large to be held, and stays so
    have hsetup : Binary64.Exceeds (Binary64.ofU64 dns + Binary64.ofU64 connect + Binary64.ofU64 tls) 4 := by
      by_cases htwo : dns + connect < 2 ^ 53
      · obtain ⟨e, hnormal, hone, hle⟩ := (hd.add hc htwo).add_exceeds ht (by omega)
        exact ⟨e, hnormal, hone, by omega⟩
      · exact (hd.add_exceeds hc (by omega)).add ht (by decide)
    have hlarge := (hsetup.add hw (by decide)).max_zero.toU64
    omega

/-- The time to the first byte comes back where the setup of the connection is a part of it. -/
theorem fullTtfbMs_harTimings_iff {metrics : InspectionMetrics} (hbelow : CountersBelow (2 ^ 53) metrics) :
    fullTtfbMs (harTimings metrics) = metrics.ttfbMs ↔
      metrics.dnsMs.getD 0 + metrics.tcpConnectMs.getD 0 + metrics.tlsMs.getD 0 ≤ metrics.ttfbMs := by
  have hiff := sum_eq_iff (getD_lt hbelow.dnsMs) (getD_lt hbelow.tcpConnectMs) (getD_lt hbelow.tlsMs) hbelow.ttfbMs
  rw [← setupMs_eq hbelow] at hiff ⊢
  unfold fullTtfbMs harTimings
  simp only [Option.getD_map]
  exact hiff

private theorem map_toU64_ofU64 {o : Option Nat} (ho : ∀ ms ∈ o, ms < 2 ^ 53) :
    (o.map Binary64.ofU64).map Binary64.toU64 = o := by
  cases o with
  | none => rfl
  | some ms => exact congrArg some (Binary64.toU64_ofU64 (ho ms rfl))

/-! ### The protocol -/

/-- A protocol comes back unless it has a default, is blank or is trimmed. -/
theorem nonEmptyString_eq_iff (protocol : Option Str) :
    nonEmptyString (protocol.getD "HTTP/1.1") = protocol ↔ ∃ p, protocol = some p ∧ p ≠ [] ∧ p.trim = p := by
  have hspec : ∀ s : Str, nonEmptyString s = if s.trim = [] then none else some s.trim := by
    intro s
    unfold nonEmptyString
    simp only [List.isEmpty_iff]
  cases protocol with
  | none =>
    have hdefault : nonEmptyString ("HTTP/1.1" : Str) = some ("HTTP/1.1" : Str) := by decide +kernel
    constructor
    · intro h
      rw [Option.getD_none, hdefault] at h
      cases h
    · rintro ⟨p, hp, -⟩
      cases hp
  | some s =>
    rw [Option.getD_some, hspec]
    by_cases hblank : s.trim = []
    · rw [if_pos hblank]
      constructor
      · intro h
        cases h
      · rintro ⟨p, hp, hne, htrim⟩
        cases hp
        exact absurd (htrim.symm.trans hblank) hne
    · rw [if_neg hblank]
      constructor
      · intro h
        have htrim := Option.some.inj h
        exact ⟨s, rfl, fun hnil => hblank (htrim.trans hnil), htrim⟩
      · rintro ⟨p, hp, -, htrim⟩
        cases hp
        rw [htrim]

/-! ### The whole exchange -/

/-- The import of the export. -/
def reimported (world : HarWorld) (ex : Exchange) : Exchange := harEntryToExchange world (exchangeToHarEntry world ex)

theorem reimported_response {ex : Exchange} {res : ResponseContext} (world : HarWorld) (hres : ex.response = some res)
    (hstatus : res.status ≠ 0) (hvalid : Wire.isBinaryContentType ((res.headers.get "content-type").getD "text/plain") =
      false → Utf8.Valid res.body) :
    Option.Rel RestoresResponse ex.response (reimported world ex).response := by
  have hexport : (exchangeToHarEntry world ex).response.status = res.status ∧
      (exchangeToHarEntry world ex).response.headers = harHeaders res.headers ∧
      (exchangeToHarEntry world ex).response.content.mimeType = (res.headers.get "content-type").getD "text/plain" ∧
      (exchangeToHarEntry world ex).response.content.text =
        if res.body.isEmpty then none
        else some (harBodyText res.body ((res.headers.get "content-type").getD "text/plain")) := by
    unfold exchangeToHarEntry exchangeResponseToHar
    rw [hres]
    cases ex.metrics <;> exact ⟨rfl, rfl, rfl, rfl⟩
  obtain ⟨hexpStatus, hexpHeaders, hexpMime, hexpText⟩ := hexport
  have himport : (reimported world ex).response = harResponseToContext (exchangeToHarEntry world ex) ex.id := rfl
  rw [himport, hres]
  unfold harResponseToContext
  rw [hexpStatus, if_neg hstatus, hexpHeaders, hexpMime, hexpText]
  exact .some
    { status := rfl
      headers := headersOfHar_harHeaders res.headers
      body := harBodyBytes_content hvalid }

theorem reimported_metrics_iff {ex : Exchange} {res : ResponseContext} {metrics : InspectionMetrics} (world : HarWorld)
    (hres : ex.response = some res) (hstatus : res.status ≠ 0) (hmetrics : ex.metrics = some metrics)
    (hbelow : CountersBelow (2 ^ 53) metrics) :
    Option.Rel RestoresMetrics ex.metrics (reimported world ex).metrics ↔
      metrics.statusCode = res.status ∧
      metrics.dnsMs.getD 0 + metrics.tcpConnectMs.getD 0 + metrics.tlsMs.getD 0 ≤ metrics.ttfbMs ∧
      ∃ protocol, metrics.protocol = some protocol ∧ protocol ≠ [] ∧ protocol.trim = protocol := by
  have hexport : (exchangeToHarEntry world ex).response.status = res.status ∧
      (exchangeToHarEntry world ex).response.httpVersion = metrics.protocol.getD "HTTP/1.1" ∧
      (exchangeToHarEntry world ex).time = Binary64.ofU64 metrics.latencyMs ∧
      (exchangeToHarEntry world ex).timings = harTimings metrics := by
    unfold exchangeToHarEntry exchangeResponseToHar
    rw [hres, hmetrics]
    exact ⟨rfl, rfl, rfl, rfl⟩
  obtain ⟨hexpStatus, hexpVersion, hexpTime, hexpTimings⟩ := hexport
  have himport : (reimported world ex).metrics = harEntryMetrics (exchangeToHarEntry world ex) := rfl
  rw [himport, hmetrics]
  unfold harEntryMetrics
  rw [hexpStatus, if_neg fun h => hstatus h.2, hexpVersion, hexpTime, hexpTimings,
    ← fullTtfbMs_harTimings_iff hbelow, ← nonEmptyString_eq_iff]
  constructor
  · intro h
    cases h with
    | some h => exact ⟨h.statusCode.symm, h.ttfbMs, h.protocol⟩
  · rintro ⟨hcode, httfb, hprotocol⟩
    exact .some
      { latencyMs := Binary64.toU64_ofU64 hbelow.latencyMs
        ttfbMs := httfb
        bodyMs := Binary64.toU64_ofU64 hbelow.bodyMs
        dnsMs := map_toU64_ofU64 hbelow.dnsMs
        tcpConnectMs := map_toU64_ofU64 hbelow.tcpConnectMs
        tlsMs := map_toU64_ofU64 hbelow.tlsMs
        statusCode := hcode.symm
        protocol := hprotocol }

/-- An exchange comes back from an archive exactly where its host is the one in the URI, its metrics have the status of
the response and a protocol, and the time to the first byte has the setup of the connection in it. -/
theorem restores_iff {ex : Exchange} {res : ResponseContext} {metrics : InspectionMetrics} (world : HarWorld)
    (hres : ex.response = some res) (hstatus : res.status ≠ 0) (hmetrics : ex.metrics = some metrics)
    (hrequest : Utf8.Valid ex.request.body)
    (hresponse : Wire.isBinaryContentType ((res.headers.get "content-type").getD "text/plain") = false →
      Utf8.Valid res.body)
    (hbelow : CountersBelow (2 ^ 53) metrics) (htimestamp : world.ReadsBack ex.timestamp)
    (hupdated : ∀ time ∈ ex.updatedAt, world.ReadsBack time) :
    Restores ex (reimported world ex) ↔ Recoverable ex res metrics := by
  have hmetricsIff := reimported_metrics_iff world hres hstatus hmetrics hbelow
  have hhost : (reimported world ex).request.host = uriAuthority ex.request.uri := extractHost_eq ex.request.uri
  constructor
  · intro h
    obtain ⟨hcode, hsetup, hprotocol⟩ := hmetricsIff.1 h.metrics
    exact ⟨h.host.symm.trans hhost, hcode, hsetup, hprotocol⟩
  · intro h
    have htime : (world.parseRfc3339 (world.toRfc3339 ex.timestamp)).getD world.now = ex.timestamp := by
      rw [show world.parseRfc3339 (world.toRfc3339 ex.timestamp) = some ex.timestamp from htimestamp]
      rfl
    have hupdate : (ex.updatedAt.map world.toRfc3339).bind world.parseRfc3339 = ex.updatedAt := by
      cases hex : ex.updatedAt with
      | none => rfl
      | some time => exact hupdated time hex
    exact
      { id := rfl
        timestamp := htime
        updatedAt := hupdate
        note := rfl
        tags := rfl
        connectionId := rfl
        streamId := rfl
        downstreamProtocol := rfl
        protocolContext := rfl
        method := rfl
        uri := rfl
        host := hhost.trans h.host.symm
        headers := headersOfHar_harHeaders ex.request.headers
        body := postData_body ex.request hrequest
        response := reimported_response world hres hstatus hresponse
        metrics := hmetricsIff.2 ⟨h.status, h.setup, h.protocol⟩ }

/-! ### A request for a page -/

private def epochWorld : HarWorld where
  toRfc3339 _ := "1970-01-01T00:00:00+00:00"
  parseRfc3339 _ := some 0
  now := 0
  newId := "new"

private def pageResponse : ResponseContext :=
  { ResponseContext.default with
    status := 200
    headers := HeaderMap.fromIter [("content-type", "text/html")]
    body := Str.toUtf8 "hello" }

private def pageMetrics (protocol : Option Str) : InspectionMetrics :=
  { InspectionMetrics.ofStatus 200 120 0 5 95 25 protocol with
    dnsMs := some 5, tcpConnectMs := some 10, tlsMs := some 20 }

private def pageExchange (protocol : Option Str) : Exchange where
  id := "e1"
  timestamp := 0
  updatedAt := some 0
  request :=
    { RequestContext.default with method := "GET", uri := "https://example.com/page?q=1", host := "example.com" }
  response := some pageResponse
  metrics := some (pageMetrics protocol)
  source := .proxy
  wsFrames := []
  events := []
  flow := []
  note := none
  tags := []
  inspectorData := none
  pausedAt := none
  connectionId := none
  streamId := none
  downstreamProtocol := none
  protocolContext := none

private theorem pageResponse_valid :
    Wire.isBinaryContentType ((pageResponse.headers.get "content-type").getD "text/plain") = false →
      Utf8.Valid pageResponse.body := fun _ => ⟨"hello", rfl⟩

private theorem readsBack_epoch (time : Timestamp) (htime : time ∈ some (0 : Timestamp)) :
    epochWorld.ReadsBack time := by
  cases htime
  rfl

private theorem pageMetrics_below (protocol : Option Str) : CountersBelow (2 ^ 53) (pageMetrics protocol) := by
  constructor <;> simp [pageMetrics, InspectionMetrics.ofStatus]

theorem restores_page :
    Restores (pageExchange (some "HTTP/2")) (reimported epochWorld (pageExchange (some "HTTP/2"))) :=
  (@restores_iff (pageExchange (some "HTTP/2")) pageResponse _ epochWorld rfl (by decide) rfl ⟨[], rfl⟩
    pageResponse_valid
      (pageMetrics_below _) (readsBack_epoch 0 rfl) readsBack_epoch).2
    { host := by decide +kernel
      status := rfl
      setup := by decide
      protocol := ⟨"HTTP/2", rfl, by decide, by decide⟩ }

/-- The protocol of an exchange whose recorder did not say one comes back as the default. -/
theorem not_restores_all :
    ¬ ∀ (world : HarWorld) (ex : Exchange) (res : ResponseContext) (metrics : InspectionMetrics),
      ex.response = some res → res.status ≠ 0 → ex.metrics = some metrics → Utf8.Valid ex.request.body →
      (Wire.isBinaryContentType ((res.headers.get "content-type").getD "text/plain") = false → Utf8.Valid res.body) →
      CountersBelow (2 ^ 53) metrics → world.ReadsBack ex.timestamp → (∀ time ∈ ex.updatedAt, world.ReadsBack time) →
      Restores ex (reimported world ex) := by
  intro hall
  have hback := hall epochWorld (pageExchange none) pageResponse (pageMetrics none) rfl (by decide) rfl ⟨[], rfl⟩
    pageResponse_valid (pageMetrics_below none) (readsBack_epoch 0 rfl) readsBack_epoch
  obtain ⟨-, -, protocol, hprotocol, -⟩ :=
    (reimported_metrics_iff epochWorld rfl (by decide) rfl (pageMetrics_below none)).1 hback.metrics
  cases hprotocol

end Har

end Oproxy
