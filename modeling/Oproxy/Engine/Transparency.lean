import Oproxy.Engine.Exchange
import Oproxy.Engine.Production

/-!
# Transparency

With nothing enabled, an exchange is to go through the proxy as if the proxy were not there, but for the fields which
belong to one connection only.  The fields go through a text representation, in which a value with a byte outside
visible ASCII is empty, and past fixed lists of names, which lack the fields for the authentication at a proxy and do
not know what a Connection field nominates.  Where none of this matters, the exchange does go through unchanged.
-/

namespace Oproxy

namespace Transparency

open ProxyEngine Wire

/-! ### What is to be kept -/

/-- The bytes of a value as characters. -/
def latin1 (v : Http.HeaderValue) : Str := v.map fun b => Char.ofNat b.toNat

/-- The names which the Connection fields of a message nominate. -/
def nominated (headers : Http.Headers) : List Str :=
  (headers.getAll "connection").flatMap fun v => (Str.split ',' (latin1 v)).map fun t => t.trim.toAsciiLowercase

/-- The names of hop-by-hop fields, with those for the authentication at a proxy, as in the lists of `playback.rs`,
`export.rs` and `har.rs`. -/
def hopByHopNames : List Str :=
  ["connection", "keep-alive", "proxy-authenticate", "proxy-authorization", "proxy-connection", "te", "trailer",
    "trailers", "transfer-encoding", "upgrade"]

def IsHopByHop (headers : Http.Headers) (name : Str) : Prop := name ∈ hopByHopNames ∨ name ∈ nominated headers

instance (headers : Http.Headers) (name : Str) : Decidable (IsHopByHop headers name) := by
  unfold IsHopByHop
  infer_instance

/-- The request fields which the proxy writes itself or keeps to itself. -/
def IsOwnRequestField (name : Str) : Prop :=
  name = "host" ∨ name = "content-length" ∨ Str.startsWith name "x-oproxy-" = true

instance (name : Str) : Decidable (IsOwnRequestField name) := by
  unfold IsOwnRequestField
  infer_instance

/-- A `te` field which says `trailers` may go on to the upstream. -/
def saysTrailers (v : Http.HeaderValue) : Bool := v.textOrEmpty.trim.eqIgnoreAsciiCase "trailers"

/-- A request reaches the upstream as it came in: `url` is what the client library makes of the URL. -/
structure RequestTransparent (req : IncomingRequest) (body : Bytes) (sent : UpstreamRequest) (url : Url) : Prop where
  method : sent.method = req.method
  target : url.path = req.uri.path ∧ url.query = req.uri.query
  fields : ∀ name, Http.IsFieldName name → ¬ IsHopByHop req.headers name → ¬ IsOwnRequestField name →
    sent.headers.getAll name = req.headers.getAll name
  hopByHop : ∀ name, Http.IsFieldName name → IsHopByHop req.headers name →
    ∀ v ∈ sent.headers.getAll name, name = "te" ∧ name ∉ nominated req.headers ∧ saysTrailers v = true
  body : sent.body = body

/-- The fields which decoding drops. -/
def IsCodingField (name : Str) : Prop := name = "content-encoding" ∨ name = "content-length"

/-- The body as the proxy decodes it; none where it is passed on as it is. -/
def decoded (codecs : Codecs) (engine : ProxyEngine) (res : UpstreamResponse) : Option Bytes :=
  if engine.streamsResponse res then none else decodedBody codecs (responseHeaders res) res.body

/-- A response reaches the client as the upstream sent it, but for `alt-svc` and for the coding of a decoded body. -/
structure ResponseTransparent (codecs : Codecs) (engine : ProxyEngine) (res : UpstreamResponse)
    (response : ClientResponse) : Prop where
  status : response.status = res.status
  fields : ∀ name, Http.IsFieldName name → ¬ IsHopByHop res.headers name → name ≠ "alt-svc" →
    ((decoded codecs engine res).isSome = true → ¬ IsCodingField name) →
    response.headers.getAll name = res.headers.getAll name
  hopByHop : ∀ name, Http.IsFieldName name → IsHopByHop res.headers name → name ≠ "alt-svc" →
    response.headers.getAll name = []
  body : response.body = (decoded codecs engine res).getD res.body
  coding : (decoded codecs engine res).isSome = true → ∀ name, IsCodingField name → response.headers.getAll name = []

/-! ### When it is kept -/

/-- The condition on a request. -/
structure RequestKept (parse : Str → Option Url) (req : IncomingRequest) (mitmDestination : Option Str) : Prop where
  /-- The URL parser leaves the path and the query of the target as they are. -/
  target : ∀ url, parse (receivedUrl req mitmDestination) = some url →
    url.path = req.uri.path ∧ url.query = req.uri.query
  /-- End-to-end fields have values in visible ASCII. -/
  visible : ∀ e ∈ req.headers, ¬ IsHopByHop req.headers e.1 → ¬ IsOwnRequestField e.1 →
    e.2.all Http.isVisibleAscii = true
  /-- Hop-by-hop fields, those which a Connection field nominates with them, are on the fixed lists. -/
  hopByHop : ∀ e ∈ req.headers, IsHopByHop req.headers e.1 →
    e.1 ∈ strippedRequestNames.map String.toList ∨ IsOwnRequestField e.1 ∨
      (e.1 = "te" ∧ (saysTrailers e.2 = false ∨ e.1 ∉ nominated req.headers))

/-- The condition on a response. -/
structure ResponseKept (codecs : Codecs) (engine : ProxyEngine) (res : UpstreamResponse) : Prop where
  visible : ∀ e ∈ res.headers, ¬ IsHopByHop res.headers e.1 → e.1 ≠ "alt-svc" →
    ((decoded codecs engine res).isSome = true → ¬ IsCodingField e.1) → e.2.all Http.isVisibleAscii = true
  hopByHop : ∀ e ∈ res.headers, IsHopByHop res.headers e.1 → e.1 ≠ "alt-svc" →
    e.1 ∈ strippedResponseNames.map String.toList ∨ ((decoded codecs engine res).isSome = true ∧ IsCodingField e.1)

/-! ### Values -/

/-- The bytes of a value after it has been text. -/
def sentValue (v : Http.HeaderValue) : Http.HeaderValue := v.textOrEmpty.toUtf8

theorem sentValue_eq_self {v : Http.HeaderValue} : sentValue v = v ↔ v.all Http.isVisibleAscii = true := by
  unfold sentValue
  rw [Http.HeaderValue.toUtf8_textOrEmpty]
  by_cases hv : v.all Http.isVisibleAscii = true
  · simp [hv]
  · rw [if_neg hv]
    constructor
    · intro hnil
      rw [← hnil] at hv
      exact absurd rfl hv
    · exact fun h => absurd h hv

theorem saysTrailers_sentValue (v : Http.HeaderValue) : saysTrailers (sentValue v) = saysTrailers v := by
  by_cases hv : v.all Http.isVisibleAscii = true
  · rw [sentValue_eq_self.2 hv]
  · have hempty : v.textOrEmpty = [] := by
      unfold Http.HeaderValue.textOrEmpty Http.HeaderValue.toStr
      rw [if_neg hv]
      rfl
    have hsent : sentValue v = [] := by
      unfold sentValue
      rw [hempty]
      rfl
    unfold saysTrailers
    rw [hsent, hempty]
    rfl

/-- Values which have been text are the same exactly where all of them are visible ASCII. -/
theorem map_sentValue_eq_self {vs : List Http.HeaderValue} :
    vs.map sentValue = vs ↔ ∀ v ∈ vs, v.all Http.isVisibleAscii = true := by
  induction vs with
  | nil => simp
  | cons v vs ih => simp [ih, sentValue_eq_self]

/-! ### The request side -/

section Request

variable {parse : Str → Option Url} {engine : ProxyEngine} {req : IncomingRequest} {mitmDestination : Option Str}

/-- The request fields which never go on. -/
def Dropped (name : Str) : Prop := name ∈ strippedRequestNames.map String.toList ∨ IsOwnRequestField name

instance (name : Str) : Decidable (Dropped name) := by
  unfold Dropped
  infer_instance

/-- What is sent of a field. -/
theorem getAll_sentHeaders {name : Str} (hname : Http.IsFieldName name) (destination : Option Str) (host path : Str) :
    (upstreamHeaders (targetUrl parse destination host path
        (sanitizeForwardedRequestHeaders (copyHeaders req.headers))).2).getAll name =
      if Dropped name then []
      else ((req.headers.getAll name).filter fun v => name ≠ ("te" : Str) || saysTrailers v).map sentValue := by
  by_cases hskipped : name = ("host" : Str) ∨ name = ("content-length" : Str)
  · have hdropped : Dropped name := by
      rcases hskipped with h | h
      · exact Or.inr (Or.inl h)
      · exact Or.inr (Or.inr (Or.inl h))
    rw [getAll_upstreamHeaders_of_skipped _ hskipped, if_pos hdropped]
  · have hsanitized := getAll_sanitize (copyHeaders req.headers) hname.2 (Http.trim_of_token hname.1)
    rw [getAll_copyHeaders req.headers_wf hname.2, List.filter_map] at hsanitized
    have htarget := getAll_targetUrl parse destination host path
      (sanitizeForwardedRequestHeaders (copyHeaders req.headers)) hname.2 (fun h => hskipped (Or.inl h))
    rw [hsanitized] at htarget
    by_cases hstripped : name ∈ strippedRequestNames.map String.toList ∨ Str.startsWith name "x-oproxy-" = true
    · have hdropped : Dropped name := by
        rcases hstripped with h | h
        · exact Or.inl h
        · exact Or.inr (Or.inr (Or.inr h))
      rw [if_pos hstripped] at htarget
      rw [getAll_upstreamHeaders _ hname hskipped (by simp [htarget]), htarget, if_pos hdropped, List.map_nil]
    · have hkept : ¬ Dropped name := by
        rintro (h | h | h | h)
        · exact hstripped (Or.inl h)
        · exact hskipped (Or.inl h)
        · exact hskipped (Or.inr h)
        · exact hstripped (Or.inr h)
      rw [if_neg hstripped] at htarget
      rw [getAll_upstreamHeaders _ hname hskipped, htarget, if_neg hkept, List.map_map]
      · rfl
      · intro value hvalue
        rw [htarget] at hvalue
        obtain ⟨v, -, rfl⟩ := List.mem_map.1 hvalue
        exact v.textOrEmpty_fieldBytes

theorem mem_hopByHopNames_of_request {name : Str} (h : name ∈ strippedRequestNames.map String.toList ∨ name = "te") :
    name ∈ hopByHopNames := by
  have hlisted : ∀ n ∈ strippedRequestNames.map String.toList, n ∈ hopByHopNames := by decide
  rcases h with h | rfl
  · exact hlisted name h
  · decide

theorem mem_hopByHopNames_of_response {name : Str} (h : name ∈ strippedResponseNames.map String.toList) :
    name ∈ hopByHopNames := by
  have hlisted : ∀ n ∈ strippedResponseNames.map String.toList, n ∈ hopByHopNames := by decide
  exact hlisted name h

variable {world : Surroundings} {rules : ProductionRules} {body : Bytes} {ownsRecording : Bool} {sent : UpstreamRequest}
  {ctx : RequestContext}

/-- What is forwarded of a request, with nothing enabled. -/
theorem handleRequest_forwarded (h : rules.NothingEnabled)
    (hforwarded : engine.handleRequest parse (rules.chain world) req mitmDestination body ownsRecording =
      .forwarded sent ctx) :
    sent.method = req.method ∧ sent.url = receivedUrl req mitmDestination ∧ sent.body = body ∧
      sent.headers = upstreamHeaders (targetUrl parse mitmDestination (requestHost req)
        (upstreamPath req.uri req.uri.display) (sanitizeForwardedRequestHeaders (copyHeaders req.headers))).2 := by
  unfold handleRequest at hforwarded
  dsimp only at hforwarded
  split at hforwarded
  · cases hforwarded
  · split at hforwarded
    · cases hforwarded
    · rw [ProductionRules.executeRequest_of_nothingEnabled h] at hforwarded
      dsimp only at hforwarded
      split at hforwarded
      · cases hforwarded
      · rename_i sentCtx prepared hprepared
        obtain ⟨hurl, hmethod, hheaders, hbody⟩ := prepareUpstream_ok hprepared
        cases hforwarded
        refine ⟨hmethod, hurl.trans (upstreamUrl_eq_receivedUrl rfl rfl), ?_, hheaders⟩
        dsimp only
        rw [hbody]
        show (if engine.requestStreamedUnbuffered req then body
          else if !(if engine.requestStreamedUnbuffered req then [] else body).isEmpty || _ then
            (if engine.requestStreamedUnbuffered req then [] else body) else []) = body
        by_cases hstreamed : engine.requestStreamedUnbuffered req = true
        · rw [if_pos hstreamed]
        · rw [if_neg hstreamed, if_neg hstreamed]
          -- an empty body is left out, which makes no difference
          cases body with
          | nil => exact ite_self []
          | cons b body => rfl

/-- A request reaches the upstream as it came in exactly where it meets the condition. -/
theorem requestTransparent_iff (h : rules.NothingEnabled)
    (hforwarded : engine.handleRequest parse (rules.chain world) req mitmDestination body ownsRecording =
      .forwarded sent ctx) {url : Url} (hparse : parse sent.url = some url) :
    RequestTransparent req body sent url ↔ RequestKept parse req mitmDestination := by
  obtain ⟨hmethod, hurl, hbody, hheaders⟩ := handleRequest_forwarded h hforwarded
  rw [hurl] at hparse
  -- what the upstream gets under a name
  have hsent : ∀ {name}, Http.IsFieldName name → sent.headers.getAll name =
      if Dropped name then []
      else ((req.headers.getAll name).filter fun v => name ≠ ("te" : Str) || saysTrailers v).map sentValue := by
    intro name hname
    rw [hheaders]
    exact getAll_sentHeaders hname _ _ _
  constructor
  · intro htransparent
    refine ⟨?_, ?_, ?_⟩
    · intro url' hparse'
      rw [hparse] at hparse'
      cases hparse'
      exact htransparent.target
    · intro e he hend hown
      have hname : Http.IsFieldName e.1 := ⟨(req.headers_wf e he).1, (req.headers_wf e he).2.1⟩
      -- an end-to-end field is not stripped, nor is it a te field
      have hnot := not_or.1 (mt mem_hopByHopNames_of_request fun hmem => hend (Or.inl hmem))
      have hkept := htransparent.fields e.1 hname hend hown
      rw [hsent hname, if_neg (by rintro (hd | hd); exacts [hnot.1 hd, hown hd]),
        List.filter_eq_self.2 (fun v _ => by rw [decide_eq_true hnot.2, Bool.true_or]), map_sentValue_eq_self] at hkept
      exact hkept e.2 (Http.Headers.mem_getAll.2 he)
    · intro e he hhop
      have hname : Http.IsFieldName e.1 := ⟨(req.headers_wf e he).1, (req.headers_wf e he).2.1⟩
      by_cases hdropped : Dropped e.1
      · rcases hdropped with hd | hd
        · exact Or.inl hd
        · exact Or.inr (Or.inl hd)
      · by_cases hpass : (e.1 ≠ ("te" : Str) || saysTrailers e.2) = true
        · -- what is sent is a `te` field which the transparent proxy may send
          have hsentValue : sentValue e.2 ∈ sent.headers.getAll e.1 := by
            rw [hsent hname, if_neg hdropped]
            exact List.mem_map_of_mem (List.mem_filter.2 ⟨Http.Headers.mem_getAll.2 he, hpass⟩)
          obtain ⟨hte, hnot, -⟩ := htransparent.hopByHop e.1 hname hhop _ hsentValue
          exact Or.inr (Or.inr ⟨hte, Or.inr hnot⟩)
        · rw [Bool.or_eq_true, not_or, decide_eq_true_eq, not_not, Bool.not_eq_true] at hpass
          exact Or.inr (Or.inr ⟨hpass.1, Or.inl hpass.2⟩)
  · intro hkept
    refine ⟨hmethod, hkept.target url hparse, ?_, ?_, hbody⟩
    · intro name hname hend hown
      have hnot := not_or.1 (mt mem_hopByHopNames_of_request fun hmem => hend (Or.inl hmem))
      rw [hsent hname, if_neg (by rintro (hd | hd); exacts [hnot.1 hd, hown hd]),
        List.filter_eq_self.2 (fun v _ => by rw [decide_eq_true hnot.2, Bool.true_or]), map_sentValue_eq_self]
      intro v hv
      exact hkept.visible (name, v) (Http.Headers.mem_getAll.1 hv) hend hown
    · intro name hname hhop v hv
      rw [hsent hname] at hv
      by_cases hdropped : Dropped name
      · rw [if_pos hdropped] at hv
        cases hv
      · rw [if_neg hdropped] at hv
        obtain ⟨v₀, hv₀, rfl⟩ := List.mem_map.1 hv
        obtain ⟨hmem, hpass⟩ := List.mem_filter.1 hv₀
        -- a hop-by-hop field that is sent can be te: trailers only
        rcases hkept.hopByHop (name, v₀) (Http.Headers.mem_getAll.1 hmem) hhop with hd | hd | ⟨hte, hallowed⟩
        · exact absurd (Or.inl hd) hdropped
        · exact absurd (Or.inr hd) hdropped
        · have hte : name = "te" := hte
          have hsays : saysTrailers v₀ = true := by
            rw [decide_eq_false (not_not.2 hte), Bool.false_or] at hpass
            exact hpass
          have hnot : name ∉ nominated req.headers :=
            hallowed.resolve_left fun hnone => Bool.false_ne_true (hnone.symm.trans hsays)
          exact ⟨hte, hnot, (saysTrailers_sentValue v₀).trans hsays⟩

end Request

/-! ### The response side -/

section Response

variable {codecs : Codecs} {engine : ProxyEngine} {res : UpstreamResponse}

instance (name : Str) : Decidable (IsCodingField name) := by
  unfold IsCodingField
  infer_instance

/-- The fields of a response which never go on. -/
def NotDelivered (codecs : Codecs) (engine : ProxyEngine) (res : UpstreamResponse) (name : Str) : Prop :=
  name ∈ strippedResponseNames.map String.toList ∨ ((decoded codecs engine res).isSome = true ∧ IsCodingField name)

/-- The fields which a response without a coding goes on with. -/
def deliveredHeaders (codecs : Codecs) (engine : ProxyEngine) (res : UpstreamResponse) : HeaderMap :=
  match decoded codecs engine res with
  | some _ => removeHeader (removeHeader (responseHeaders res) "content-encoding") "content-length"
  | none => responseHeaders res

private theorem getAll_responseHeaders {name : Str} (hname : Http.IsFieldName name) :
    (responseHeaders res).getAll name =
      if name ∈ strippedResponseNames.map String.toList then []
      else (res.headers.getAll name).map Http.HeaderValue.textOrEmpty := by
  have hstripped := getAll_stripHopByHop (copyHeaders res.headers) hname.2
  rw [getAll_copyHeaders res.headers_wf hname.2] at hstripped
  exact hstripped

private theorem getAll_removeCoding (headers : HeaderMap) {name : Str} (hname : Http.IsFieldName name) :
    (removeHeader (removeHeader headers "content-encoding") "content-length").getAll name =
      if IsCodingField name then [] else headers.getAll name := by
  have hlength : Str.toAsciiLowercase "content-length" = name.toAsciiLowercase ↔ name = "content-length" := by
    rw [hname.2]
    exact eq_comm
  have hencoding : Str.toAsciiLowercase "content-encoding" = name.toAsciiLowercase ↔ name = "content-encoding" := by
    rw [hname.2]
    exact eq_comm
  unfold removeHeader
  rw [HeaderMap.getAll_remove, HeaderMap.getAll_remove]
  simp only [hlength, hencoding]
  by_cases hcoding : IsCodingField name
  · rw [if_pos hcoding]
    rcases hcoding with h | h
    · rw [if_pos h, ite_self]
    · rw [if_pos h]
  · have hnot := not_or.1 hcoding
    rw [if_neg hcoding, if_neg hnot.2, if_neg hnot.1]

theorem getAll_deliveredHeaders_of_dropped {name : Str} (hname : Http.IsFieldName name)
    (h : NotDelivered codecs engine res name) : (deliveredHeaders codecs engine res).getAll name = [] := by
  unfold deliveredHeaders
  rcases h with hhop | ⟨hdecoded, hcoding⟩
  · split
    · rw [getAll_removeCoding _ hname, getAll_responseHeaders hname, if_pos hhop, ite_self]
    · rw [getAll_responseHeaders hname, if_pos hhop]
  · obtain ⟨out, hout⟩ := Option.isSome_iff_exists.1 hdecoded
    rw [hout]
    exact (getAll_removeCoding _ hname).trans (if_pos hcoding)

theorem getAll_deliveredHeaders {name : Str} (hname : Http.IsFieldName name)
    (h : ¬ NotDelivered codecs engine res name) :
    (deliveredHeaders codecs engine res).getAll name =
      (res.headers.getAll name).map Http.HeaderValue.textOrEmpty := by
  obtain ⟨hhop, hcoding⟩ := not_or.1 h
  unfold deliveredHeaders
  split
  · rename_i out hout
    rw [hout, Option.isSome_some, eq_self, true_and] at hcoding
    rw [getAll_removeCoding _ hname, if_neg hcoding, getAll_responseHeaders hname, if_neg hhop]
  · rw [getAll_responseHeaders hname, if_neg hhop]

theorem valid_deliveredHeaders :
    ∀ e ∈ (deliveredHeaders codecs engine res).entries,
      Http.isToken e.1 = true ∧ e.2.toUtf8.all Http.isFieldByte = true := by
  intro e he
  have hmem : e ∈ (responseHeaders res).entries := by
    unfold deliveredHeaders at he
    split at he
    · exact List.mem_of_mem_filter (List.mem_of_mem_filter he)
    · exact he
  exact valid_copyHeaders res.headers_wf e (mem_stripHopByHop hmem)

variable {world : Surroundings} {rules : ProductionRules} {fwd : Forwarded}

/-- What is delivered of a response, with nothing enabled. -/
theorem deliverResponse_plain (h : rules.NothingEnabled) :
    ∃ headers trailers, (engine.deliverResponse codecs (rules.chain world) fwd res).response =
        ⟨res.status, headers, (decoded codecs engine res).getD res.body, trailers⟩ ∧
      ∀ name, Http.IsFieldName name → name ≠ "alt-svc" →
        (NotDelivered codecs engine res name → headers.getAll name = []) ∧
        (¬ NotDelivered codecs engine res name → headers.getAll name = (res.headers.getAll name).map sentValue) := by
  have hstatus : (Http.statusCode res.status).getD 500 = res.status := by
    unfold Http.statusCode
    rw [if_pos res.status_valid, Option.getD_some]
  -- the head and the body of the context the engine builds, streamed or not
  obtain ⟨ctx, body, trailers, hresponse, hctx, hheaders, hbody⟩ : ∃ ctx body trailers,
      (engine.deliverResponse codecs (rules.chain world) fwd res).response =
        finish ((Http.statusCode ctx.status).getD 500) (engine.responseFields ctx) body trailers (emptyResponse 500) ∧
      ctx.status = res.status ∧ ctx.headers = deliveredHeaders codecs engine res ∧
      body = (decoded codecs engine res).getD res.body := by
    unfold deliverResponse deliveredHeaders decoded
    by_cases hstreams : engine.streamsResponse res = true
    · simp only [if_pos hstreams]
      rw [ProductionRules.executeResponse_of_nothingEnabled h]
      obtain ⟨h1, h2, -⟩ := responseContext_message fwd res (responseHeaders res) [] true
      exact ⟨_, _, _, rfl, h1, h2, rfl⟩
    · simp only [if_neg hstreams]
      rw [ProductionRules.executeResponse_of_nothingEnabled h]
      obtain ⟨h1, h2, h3⟩ := responseContext_message fwd res
        (decodedResponseBody codecs (responseHeaders res) res.body).1
        (decodedResponseBody codecs (responseHeaders res) res.body).2 false
      refine ⟨_, _, _, rfl, h1, h2.trans ?_, h3.trans ?_⟩
      · unfold decodedResponseBody
        cases decodedBody codecs (responseHeaders res) res.body <;> rfl
      · unfold decodedResponseBody
        cases decodedBody codecs (responseHeaders res) res.body <;> rfl
  -- the builder accepts every field, so nothing falls back to an empty response
  have hvalid : ∀ e ∈ ctx.headers.entries, Http.isToken e.1 = true ∧ e.2.toUtf8.all Http.isFieldByte = true := by
    rw [hheaders]
    exact valid_deliveredHeaders
  obtain ⟨headers, hfinish, hfields⟩ := finish_responseFields engine hvalid ((Http.statusCode ctx.status).getD 500) body
    trailers (emptyResponse 500)
  refine ⟨headers, trailers, ?_, ?_⟩
  · rw [hresponse, hfinish, hctx, hstatus, hbody]
  · intro name hname hne
    rw [hfields name hname hne, hheaders]
    constructor
    · intro hdropped
      rw [getAll_deliveredHeaders_of_dropped hname hdropped, List.map_nil]
    · intro hkept
      rw [getAll_deliveredHeaders hname hkept, List.map_map]
      rfl

/-- A response reaches the client as the upstream sent it exactly where it meets the condition. -/
theorem responseTransparent_iff (h : rules.NothingEnabled) :
    ResponseTransparent codecs engine res (engine.deliverResponse codecs (rules.chain world) fwd res).response ↔
      ResponseKept codecs engine res := by
  obtain ⟨headers, trailers, hresponse, hfields⟩ := @deliverResponse_plain codecs engine res world rules fwd h
  rw [hresponse]
  have hentry : ∀ e ∈ res.headers, Http.IsFieldName e.1 := fun e he =>
    ⟨(res.headers_wf e he).1, (res.headers_wf e he).2.1⟩
  constructor
  · intro htransparent
    refine ⟨?_, ?_⟩
    · intro e he hend hne hcoding
      -- what is end-to-end is delivered
      have hkept : ¬ NotDelivered codecs engine res e.1 := by
        rintro (hhop | ⟨hdecoded, hfield⟩)
        · exact hend (Or.inl (mem_hopByHopNames_of_response hhop))
        · exact hcoding hdecoded hfield
      have hsame := htransparent.fields e.1 (hentry e he) hend hne hcoding
      rw [(hfields e.1 (hentry e he) hne).2 hkept, map_sentValue_eq_self] at hsame
      exact hsame e.2 (Http.Headers.mem_getAll.2 he)
    · intro e he hhop hne
      by_contra hkept
      have hnone := htransparent.hopByHop e.1 (hentry e he) hhop hne
      rw [(hfields e.1 (hentry e he) hne).2 hkept, List.map_eq_nil_iff] at hnone
      have hmem := Http.Headers.mem_getAll.2 he
      rw [hnone] at hmem
      cases hmem
  · intro hkept
    refine ⟨rfl, ?_, ?_, rfl, ?_⟩
    · intro name hname hend hne hcoding
      have hdelivered : ¬ NotDelivered codecs engine res name := by
        rintro (hhop | ⟨hdecoded, hfield⟩)
        · exact hend (Or.inl (mem_hopByHopNames_of_response hhop))
        · exact hcoding hdecoded hfield
      dsimp only
      rw [(hfields name hname hne).2 hdelivered, map_sentValue_eq_self]
      intro v hv
      exact hkept.visible (name, v) (Http.Headers.mem_getAll.1 hv) hend hne hcoding
    · intro name hname hhop hne
      by_cases hdropped : NotDelivered codecs engine res name
      · exact (hfields name hname hne).1 hdropped
      · -- a hop-by-hop name which goes on is not in the message at all
        have hnone : res.headers.getAll name = [] := by
          apply List.eq_nil_iff_forall_not_mem.2
          intro v hv
          exact hdropped (hkept.hopByHop (name, v) (Http.Headers.mem_getAll.1 hv) hhop hne)
        dsimp only
        rw [(hfields name hname hne).2 hdropped, hnone, List.map_nil]
    · intro hdecoded name hcoding
      have hname : Http.IsFieldName name := by
        rcases hcoding with rfl | rfl <;> exact ⟨by decide, by decide⟩
      have hne : name ≠ "alt-svc" := by
        rcases hcoding with rfl | rfl <;> decide
      exact (hfields name hname hne).1 (Or.inr ⟨hdecoded, hcoding⟩)

end Response

/-! ### The exchange -/

/-- Without rules the proxy is transparent exactly where the request and the response meet their conditions. -/
theorem transparent_iff {parse : Str → Option Url} {engine : ProxyEngine} {codecs : Codecs} {world : Surroundings}
    {rules : ProductionRules} {req : IncomingRequest} {mitmDestination : Option Str} {body : Bytes}
    {ownsRecording : Bool} {sent : UpstreamRequest} {ctx : RequestContext} {url : Url} (fwd : Forwarded)
    (res : UpstreamResponse) (h : rules.NothingEnabled)
    (hforwarded : engine.handleRequest parse (rules.chain world) req mitmDestination body ownsRecording =
      .forwarded sent ctx) (hparse : parse sent.url = some url) :
    (RequestTransparent req body sent url ∧
        ResponseTransparent codecs engine res (engine.deliverResponse codecs (rules.chain world) fwd res).response) ↔
      (RequestKept parse req mitmDestination ∧ ResponseKept codecs engine res) :=
  and_congr (requestTransparent_iff h hforwarded hparse) (responseTransparent_iff h)

/-! ### A field value in Latin-1 -/

private def nameRequest : IncomingRequest :=
  { IncomingRequest.plain with
    headers := [("host", Str.toUtf8 "api.test"), ("x-name", [0x4a, 0xf6])]
    headers_wf := by decide }

private def nameUrl : Url := .ofHost "http" "api.test" "/" (Eq.refl true)

private def plainEngine : ProxyEngine := ⟨10485760, 524288, 8080, "127.0.0.1", [], none⟩

private def readUrl (text : Str) : Option Url := if text = ("http://api.test/" : Str) then some nameUrl else none

/-- The request comes with a name in Latin-1, the upstream gets an empty one. -/
theorem not_transparent :
    ∃ sent ctx, plainEngine.handleRequest readUrl (ProductionRules.empty.chain Surroundings.bare) nameRequest none []
      false =
        .forwarded sent ctx ∧ readUrl sent.url = some nameUrl ∧ ¬ RequestTransparent nameRequest [] sent nameUrl := by
  refine ⟨_, _, rfl, ?_, ?_⟩
  · exact if_pos (by decide)
  · intro htransparent
    have hname := htransparent.fields "x-name" ⟨by decide, by decide⟩ (by decide) (by decide)
    revert hname
    decide

private def okResponse : UpstreamResponse := .plain

private def noCodecs : Codecs := ⟨fun _ => none, fun _ => none, fun _ => none, fun _ => none, fun _ => none⟩

theorem transparent_iff_name :
    ∃ sent ctx, plainEngine.handleRequest readUrl (ProductionRules.empty.chain Surroundings.bare) nameRequest none []
      false =
        .forwarded sent ctx ∧
      ((RequestTransparent nameRequest [] sent nameUrl ∧
          ResponseTransparent noCodecs plainEngine okResponse
            (plainEngine.deliverResponse noCodecs (ProductionRules.empty.chain Surroundings.bare)
              ⟨"http://api.test/", "api.test", "GET", ctx, false, false, 1, 1, 2⟩ okResponse).response) ↔
        (RequestKept readUrl nameRequest none ∧ ResponseKept noCodecs plainEngine okResponse)) := by
  obtain ⟨sent, ctx, hrun, hparse⟩ : ∃ sent ctx,
      plainEngine.handleRequest readUrl (ProductionRules.empty.chain Surroundings.bare) nameRequest none [] false =
        .forwarded sent ctx ∧ readUrl sent.url = some nameUrl := ⟨_, _, rfl, if_pos (by decide)⟩
  exact ⟨sent, ctx, hrun, transparent_iff _ okResponse ProductionRules.nothingEnabled_empty hrun hparse⟩

end Transparency

end Oproxy
