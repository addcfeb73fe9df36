import Oproxy.Lib.Url
import Oproxy.Middleware.Context

/-!
# Wire helpers (`core/engine/wire.rs`)

Protocol inference, header sanitisation and the construction of upstream URLs, free of the state of the engine.
-/

namespace Oproxy

namespace Wire

/-! ### Protocol inference -/

def isBinaryContentType (ct : Str) : Bool :=
  let ct := Str.trim (((Str.splitOnce ';' ct).map Prod.fst).getD ct)
  (["image/", "audio/", "video/", "font/"].map String.toList).any (Str.startsWith ct) ||
    (["application/octet-stream", "application/pdf", "application/wasm", "application/zip", "application/gzip",
      "application/x-tar", "application/x-gzip", "application/msgpack", "application/x-msgpack", "application/cbor",
      "application/protobuf", "application/x-protobuf",
      "application/vnd.google.protobuf"].map String.toList).contains ct

/-- The binary types are in lower case, so that a type which is found among them is found in lower case as well. -/
theorem isBinaryContentType_toAsciiLowercase {ct : Str} (h : isBinaryContentType ct = true) :
    isBinaryContentType ct.toAsciiLowercase = true := by
  have hsemicolon : ∀ c : Char, decide (c.toLower ≠ ';') = decide (c ≠ ';') := by
    intro c
    have hval : (';' : Char).toNat = 59 := rfl
    rcases Str.toLower_cases c with hc | ⟨hge, hle, hc⟩
    · rw [hc]
    · have hne : c ≠ ';' := by
        rintro rfl
        omega
      have hne' : c.toLower ≠ ';' := by
        intro heq
        rw [heq] at hc
        omega
      rw [decide_eq_true hne, decide_eq_true hne']
  unfold isBinaryContentType at h ⊢
  rw [Str.fst_splitOnce] at h ⊢
  rw [Str.takeWhile_toAsciiLowercase hsemicolon, Str.trim_toAsciiLowercase]
  generalize Str.trim (ct.takeWhile fun c => decide (c ≠ ';')) = essence at h ⊢
  simp only [Bool.or_eq_true, List.any_eq_true, List.contains_iff_mem] at h ⊢
  rcases h with ⟨pat, hpat, hstarts⟩ | hmem
  · obtain ⟨r, hessence⟩ := Str.startsWith_iff.1 hstarts
    have hlower : ∀ t ∈ (["image/", "audio/", "video/", "font/"].map String.toList), Str.toAsciiLowercase t = t := by
      decide
    refine Or.inl ⟨pat, hpat, Str.startsWith_iff.2 ⟨Str.toAsciiLowercase r, ?_⟩⟩
    rw [hessence, Str.toAsciiLowercase, List.map_append]
    exact congrArg (· ++ _) (hlower pat hpat)
  · have hlower : ∀ t ∈ (["application/octet-stream", "application/pdf", "application/wasm", "application/zip",
        "application/gzip", "application/x-tar", "application/x-gzip", "application/msgpack", "application/x-msgpack",
        "application/cbor", "application/protobuf", "application/x-protobuf",
        "application/vnd.google.protobuf"].map String.toList), Str.toAsciiLowercase t = t := by
      decide +kernel
    refine Or.inr ?_
    rw [hlower essence hmem]
    exact hmem

def protocolLabel : Http.Version → Str
  | .http09 => "HTTP/0.9"
  | .http10 => "HTTP/1.0"
  | .http11 => "HTTP/1.1"
  | .http2 => "HTTP/2"
  | .http3 => "HTTP/3"

def inferApplicationProtocol (headers : HeaderMap) : ApplicationProtocol :=
  let contentType := ((headerValue headers "content-type").getD []).toAsciiLowercase
  if Str.startsWith contentType "application/grpc" then .grpc
  else if Str.startsWith contentType "text/event-stream" then .sse
  else if Str.contains "graphql" contentType then .graphql
  else if Str.contains "json" contentType then .json
  else if isBinaryContentType contentType then .binary
  else .http

def u64Max : Nat := 2 ^ 64 - 1

def inferBodyMode (method : Str) (headers : HeaderMap) (streamThresholdBytes : Nat) : BodyMode :=
  if (headerValue headers "upgrade").any fun v => v.eqIgnoreAsciiCase "websocket" then .frames
  else if inferApplicationProtocol headers = .grpc then .streamMessages
  else if (["GET", "HEAD", "OPTIONS"].map String.toList).contains method &&
      !headers.containsKey "content-length" && !headers.containsKey "transfer-encoding" then .empty
  else
    let chunked := (headerValue headers "transfer-encoding").any fun v => Str.contains "chunked" v.toAsciiLowercase
    let large := ((headerValue headers "content-length").bind (Str.parseUnsigned u64Max)).any fun len =>
      len > streamThresholdBytes
    if chunked || large then .streamBytes else .full

/-! ### Hop-by-hop fields -/

/-- The hop-by-hop fields which are dropped from requests; `te` is a case of its own. -/
def strippedRequestNames : List String :=
  ["connection", "keep-alive", "proxy-connection", "transfer-encoding", "trailer", "trailers", "upgrade"]

def strippedResponseNames : List String :=
  ["connection", "keep-alive", "proxy-connection", "transfer-encoding", "te", "trailer", "trailers", "upgrade"]

private def removeAll (headers : HeaderMap) (names : List String) : HeaderMap :=
  names.foldl (fun h name => h.remove name.toList) headers

/-- Drop client-supplied `x-oproxy-*` fields and hop-by-hop fields; `te` stays when it says `trailers`. -/
def sanitizeForwardedRequestHeaders (headers : HeaderMap) : HeaderMap :=
  let headers := headers.retain fun name _ => !Str.startsWith name.trim.toAsciiLowercase "x-oproxy-"
  let headers := removeAll headers strippedRequestNames
  headers.retain fun name value => name ≠ ("te" : Str) || value.trim.eqIgnoreAsciiCase "trailers"

def stripHopByHopResponseHeaders (headers : HeaderMap) : HeaderMap := removeAll headers strippedResponseNames

theorem getAll_sanitize (headers : HeaderMap) {name : Str} (hlower : name.toAsciiLowercase = name)
    (htrim : name.trim = name) :
    (sanitizeForwardedRequestHeaders headers).getAll name =
      if name ∈ strippedRequestNames.map String.toList ∨ Str.startsWith name "x-oproxy-" = true then []
      else (headers.getAll name).filter fun value =>
        name ≠ ("te" : Str) || value.trim.eqIgnoreAsciiCase "trailers" := by
  have hnames : ∀ n ∈ strippedRequestNames, Str.toAsciiLowercase n.toList = n.toList := by decide
  unfold sanitizeForwardedRequestHeaders removeAll
  rw [HeaderMap.getAll_retain, HeaderMap.getAll_removeAll _ _ hlower hnames, HeaderMap.getAll_retain, hlower, htrim,
    hlower]
  by_cases hstripped : name ∈ strippedRequestNames.map String.toList
  · rw [if_pos hstripped, if_pos (Or.inl hstripped), List.filter_nil]
  · rw [if_neg hstripped]
    by_cases hown : Str.startsWith name "x-oproxy-" = true
    · rw [if_pos (Or.inr hown), hown, Bool.not_true, List.filter_false, List.filter_nil]
    · rw [if_neg (not_or.2 ⟨hstripped, hown⟩), (Bool.not_eq_true _).mp hown, Bool.not_false, List.filter_true]

theorem getAll_stripHopByHop (headers : HeaderMap) {name : Str} (hlower : name.toAsciiLowercase = name) :
    (stripHopByHopResponseHeaders headers).getAll name =
      if name ∈ strippedResponseNames.map String.toList then [] else headers.getAll name :=
  HeaderMap.getAll_removeAll _ _ hlower (by decide)

theorem mem_stripHopByHop {headers : HeaderMap} {e : Str × Str}
    (he : e ∈ (stripHopByHopResponseHeaders headers).entries) : e ∈ headers.entries :=
  HeaderMap.mem_removeAll he

/-! ### Targets -/

def requestScheme (uri : Http.Uri) (mitmDestination : Option Str) : Str :=
  match mitmDestination.bind (Str.splitOnceStr "://") with
  | some (scheme, _) => scheme
  | none => uri.scheme.getD "http"

def displayRequestUri (uri : Http.Uri) (mitmDestination : Option Str) (host : Str) : Str :=
  let pathAndQuery := uri.pathAndQuery.getD "/"
  match mitmDestination with
  | some destination => destination.trimEndMatches '/' ++ pathAndQuery
  | none =>
    if uri.scheme.isSome && uri.authority.isSome then uri.display
    else ("http://" : Str) ++ host ++ pathAndQuery

def upstreamPath (uri : Http.Uri) (fallback : Str) : Str :=
  uri.pathAndQuery.getD (if Str.startsWith fallback "/" then fallback else "/")

/-- The base URL of a destination. -/
def destinationBase (destination : Str) : Str :=
  let destination := destination.trimEndMatches '/'
  if Str.startsWith destination "http://" || Str.startsWith destination "https://" then destination
  else ("http://" : Str) ++ destination

/-- The upstream URL, and the fields with `host` set to a destination's host. -/
def targetUrl (parse : Str → Option Url) (destination : Option Str) (requestHost path : Str) (headers : HeaderMap) :
    Str × HeaderMap :=
  match destination with
  | none => (("http://" : Str) ++ requestHost ++ path, headers)
  | some destination =>
    let base := destinationBase destination
    let headers := match (parse base).bind fun url => url.hostStr.map fun host => (host, url.port) with
      | some (host, some port) => headers.insert "host" (host ++ ':' :: Str.ofNat port)
      | some (host, none) => headers.insert "host" host
      | none => headers
    (base ++ path, headers)

/-- A destination changes the `host` field alone. -/
theorem getAll_targetUrl (parse : Str → Option Url) (destination : Option Str) (requestHost path : Str)
    (headers : HeaderMap) {name : Str} (hlower : name.toAsciiLowercase = name) (hhost : name ≠ "host") :
    (targetUrl parse destination requestHost path headers).2.getAll name = headers.getAll name := by
  have hinsert : ∀ value, (headers.insert "host" value).getAll name = headers.getAll name := by
    intro value
    rw [HeaderMap.getAll_insert, if_neg]
    rw [hlower]
    exact Ne.symm hhost
  unfold targetUrl
  cases destination with
  | none => rfl
  | some destination =>
    dsimp only
    split
    · exact hinsert _
    · exact hinsert _
    · rfl

/-- A field as it is sent upstream; a name or a value which is not allowed on the wire is dropped. -/
def upstreamField (e : Str × Str) : Option (Str × Http.HeaderValue) :=
  if e.1 = ("host" : Str) ∨ e.1 = ("content-length" : Str) then none
  else
    match Http.HeaderName.ofStr e.1, Http.HeaderValue.ofStr e.2 with
    | some name, some value => some (name, value)
    | _, _ => none

def upstreamHeaders (headers : HeaderMap) : Http.Headers :=
  Http.Headers.ofList (headers.entries.filterMap upstreamField)

private theorem getAll_filterMap {f : Str × Str → Option (Str × Http.HeaderValue)} {entries : List (Str × Str)}
    {name : Str} (hkeep : ∀ e ∈ entries, e.1 = name → f e = some (name, e.2.toUtf8))
    (hother : ∀ e ∈ entries, e.1 ≠ name → ∀ e', f e = some e' → e'.1 ≠ name) :
    Http.Headers.getAll (entries.filterMap f) name =
      ((entries.filter fun e => e.1 == name).map Prod.snd).map Str.toUtf8 := by
  induction entries with
  | nil => rfl
  | cons e entries ih =>
    have hrest := ih (fun e' he' => hkeep e' (List.mem_cons_of_mem _ he'))
      fun e' he' => hother e' (List.mem_cons_of_mem _ he')
    by_cases hname : e.1 = name
    · rw [List.filterMap_cons_some (hkeep e List.mem_cons_self hname), Http.Headers.getAll_cons, if_pos rfl, hrest,
        List.filter_cons_of_pos (by simpa using hname)]
      rfl
    · rw [List.filter_cons_of_neg (by simpa using hname), ← hrest]
      cases hf : f e with
      | none => rw [List.filterMap_cons_none hf]
      | some e' =>
        rw [List.filterMap_cons_some hf, Http.Headers.getAll_cons, if_neg (hother e List.mem_cons_self hname e' hf)]

private theorem upstreamField_name {e : Str × Str} (hlower : e.1.toAsciiLowercase = e.1) {e' : Str × Http.HeaderValue}
    (h : upstreamField e = some e') : e'.1 = e.1 ∧ ¬ (e.1 = ("host" : Str) ∨ e.1 = ("content-length" : Str)) := by
  unfold upstreamField at h
  split at h
  · cases h
  · rename_i hskipped
    split at h
    · rename_i name value hname _
      cases h
      unfold Http.HeaderName.ofStr at hname
      split at hname
      · cases hname
        exact ⟨hlower, hskipped⟩
      · cases hname
    · cases h

/-- The host and the length are left to the client library. -/
theorem getAll_upstreamHeaders_of_skipped (headers : HeaderMap) {name : Str}
    (h : name = ("host" : Str) ∨ name = ("content-length" : Str)) : (upstreamHeaders headers).getAll name = [] := by
  unfold upstreamHeaders
  rw [Http.Headers.getAll_ofList]
  apply Http.Headers.getAll_eq_nil
  intro e' he' hname
  obtain ⟨e, he, hf⟩ := List.mem_filterMap.1 he'
  obtain ⟨heq, hsent⟩ := upstreamField_name (headers.lower e he) hf
  rw [← heq, hname] at hsent
  exact hsent h

/-- What is sent of another field, with values which are allowed on the wire. -/
theorem getAll_upstreamHeaders (headers : HeaderMap) {name : Str} (hname : Http.IsFieldName name)
    (hsent : ¬ (name = ("host" : Str) ∨ name = ("content-length" : Str)))
    (hvalues : ∀ value ∈ headers.getAll name, value.toUtf8.all Http.isFieldByte = true) :
    (upstreamHeaders headers).getAll name = (headers.getAll name).map Str.toUtf8 := by
  obtain ⟨htoken, hlower⟩ := hname
  have hfields : Http.Headers.getAll (headers.entries.filterMap upstreamField) name = _ := getAll_filterMap ?_ ?_
  · unfold upstreamHeaders
    rw [Http.Headers.getAll_ofList, hfields]
    unfold HeaderMap.getAll
    rw [hlower]
  · intro e he heq
    have hmem : e.2 ∈ headers.getAll name := by
      rw [HeaderMap.mem_getAll, hlower, ← heq]
      exact he
    unfold upstreamField Http.HeaderName.ofStr Http.HeaderValue.ofStr
    rw [heq, if_neg hsent, if_pos htoken, if_pos (hvalues e.2 hmem), hlower]
  · intro e he hne e' hf heq
    exact hne ((upstreamField_name (headers.lower e he) hf).1.symm.trans heq)

end Wire

end Oproxy
