import Oproxy.Engine.Wire
import Oproxy.Lib.Base64
import Oproxy.Middleware.Plugins.Breakpoints

/-!
# Wire forms of contexts (`middleware/mod.rs`)

The JSON forms of the two contexts.  They hold the persisted fields only, with one value for each header field, and
the body as a string: that of a response in base64 where its content type is a binary one, and lossy UTF-8 otherwise.
-/

namespace Oproxy

structure RequestContextWire where
  method : Str
  uri : Str
  headers : IndexMap Str Str
  body : Str
  host : Str
  remoteAddr : Option Str

structure ResponseContextWire where
  status : Nat
  headers : IndexMap Str Str
  body : Str
  requestUri : Str
  sessionId : Option Str
  ttfbMs : Nat
  bodyMs : Nat

def contentTypeOf (headers : HeaderMap) : Str := (headers.get "content-type").getD []

namespace RequestContextWire

def fromContext (ctx : RequestContext) : RequestContextWire where
  method := ctx.method
  uri := ctx.uri
  headers := ctx.headers.toMap
  body := Utf8.decodeLossy ctx.body
  host := ctx.host
  remoteAddr := ctx.remoteAddr

def toContext (wire : RequestContextWire) : RequestContext :=
  { RequestContext.default with
    method := wire.method
    uri := wire.uri
    headers := HeaderMap.ofMap wire.headers
    body := wire.body.toUtf8
    host := wire.host
    remoteAddr := wire.remoteAddr }

end RequestContextWire

namespace ResponseContextWire

def fromContext (ctx : ResponseContext) : ResponseContextWire where
  status := ctx.status
  headers := ctx.headers.toMap
  body := if Wire.isBinaryContentType (contentTypeOf ctx.headers) then Base64.encode ctx.body
    else Utf8.decodeLossy ctx.body
  requestUri := ctx.requestUri
  sessionId := ctx.sessionId
  ttfbMs := ctx.ttfbMs
  bodyMs := ctx.bodyMs

def toContext (wire : ResponseContextWire) : ResponseContext :=
  let headers := HeaderMap.ofMap wire.headers
  { ResponseContext.default with
    status := wire.status
    headers := headers
    body := if Wire.isBinaryContentType (contentTypeOf headers) then
        (Base64.decode wire.body).getD wire.body.toUtf8
      else wire.body.toUtf8
    requestUri := wire.requestUri
    sessionId := wire.sessionId
    ttfbMs := wire.ttfbMs
    bodyMs := wire.bodyMs }

end ResponseContextWire

/-! ### There and back -/

/-- A context as it comes back where it is sent as it was listed. -/
def RequestContext.throughWire (ctx : RequestContext) : RequestContext := (RequestContextWire.fromContext ctx).toContext

def ResponseContext.throughWire (ctx : ResponseContext) : ResponseContext :=
  (ResponseContextWire.fromContext ctx).toContext

def BreakpointContext.throughWire : BreakpointContext → BreakpointContext
  | .request ctx => .request ctx.throughWire
  | .response ctx => .response ctx.throughWire

/-- The body of a request comes back exactly where it is text. -/
theorem RequestContext.throughWire_body_iff (ctx : RequestContext) :
    ctx.throughWire.body = ctx.body ↔ Utf8.Valid ctx.body := Utf8.toUtf8_decodeLossy_iff ctx.body

/-- Whether the first content type of a response is a binary one; this decides on the body which is listed. -/
def listsBinary (headers : HeaderMap) : Bool :=
  Wire.isBinaryContentType ((headers.getAll "content-type").head?.getD [])

/-- Whether the last content type of a response is a binary one; this decides on the body which is read back. -/
def readsBinary (headers : HeaderMap) : Bool :=
  Wire.isBinaryContentType ((headers.getAll "content-type").getLast?.getD [])

/-- The bodies which a response keeps under its header fields: any where it is binary, text where it is not; and where
its content types do not agree, the text which is no base64. -/
def BodySurvives (headers : HeaderMap) (body : Bytes) : Prop :=
  match listsBinary headers, readsBinary headers with
  | true, true => True
  | false, false => Utf8.Valid body
  | true, false => body = []
  | false, true => Utf8.Valid body ∧ (body = [] ∨ Base64.decode (Utf8.decodeLossy body) = none)

/-- Without a content type the bodies which are kept are the texts. -/
theorem bodySurvives_of_no_contentType {headers : HeaderMap} (h : headers.getAll "content-type" = []) (body : Bytes) :
    BodySurvives headers body ↔ Utf8.Valid body := by
  have hempty : Wire.isBinaryContentType [] = false := by decide +kernel
  unfold BodySurvives listsBinary readsBinary
  rw [h]
  simp only [List.head?_nil, List.getLast?_nil, Option.getD_none, hempty]

theorem isBinaryContentType_contentTypeOf (headers : HeaderMap) :
    Wire.isBinaryContentType (contentTypeOf headers) = listsBinary headers := by
  unfold contentTypeOf listsBinary
  rw [HeaderMap.get_eq_head?]

theorem isBinaryContentType_throughMap (headers : HeaderMap) :
    Wire.isBinaryContentType (contentTypeOf (HeaderMap.ofMap headers.toMap)) = readsBinary headers := by
  unfold contentTypeOf readsBinary
  rw [HeaderMap.get_eq_head?, HeaderMap.getAll_ofMap_toMap]
  cases (headers.getAll "content-type").getLast? <;> rfl

private theorem length_le_toUtf8 (text : Str) : text.length ≤ text.toUtf8.length := by
  unfold Str.toUtf8
  induction text with
  | nil => simp
  | cons c text ih =>
    have hsize := Char.utf8Size_pos c
    rw [List.flatMap_cons, List.length_append, List.length_cons, String.length_utf8EncodeChar]
    omega

/-- Base64 is no encoding of its own bytes. -/
private theorem encode_toUtf8_iff (body : Bytes) : (Base64.encode body).toUtf8 = body ↔ body = [] := by
  constructor
  · intro h
    by_contra hne
    have hlonger := Base64.length_lt_encode hne
    have hle := length_le_toUtf8 (Base64.encode body)
    rw [h] at hle
    omega
  · rintro rfl
    rfl

/-- Text which is listed and then read as base64 comes back where it is not base64, or empty. -/
private theorem decode_lossy_iff (body : Bytes) :
    (Base64.decode (Utf8.decodeLossy body)).getD (Utf8.decodeLossy body).toUtf8 = body ↔
      Utf8.Valid body ∧ (body = [] ∨ Base64.decode (Utf8.decodeLossy body) = none) := by
  cases hdecode : Base64.decode (Utf8.decodeLossy body) with
  | none =>
    rw [Option.getD_none, Utf8.toUtf8_decodeLossy_iff]
    exact ⟨fun h => ⟨h, Or.inr rfl⟩, fun h => h.1⟩
  | some bytes =>
    rw [Option.getD_some]
    constructor
    · rintro rfl
      -- what is decoded is shorter than its text, which is no longer than the body
      have hempty : Utf8.decodeLossy bytes = [] := by
        by_contra hne
        have hshorter := Base64.length_lt_of_decode hdecode hne
        have hle := Utf8.length_decodeLossy_le bytes
        omega
      rw [hempty] at hdecode
      cases hdecode
      exact ⟨⟨[], rfl⟩, Or.inl rfl⟩
    · rintro ⟨-, rfl | hnone⟩
      · cases hdecode
        rfl
      · cases hnone

/-- The body of a response comes back exactly where it survives. -/
theorem ResponseContext.throughWire_body_iff (ctx : ResponseContext) :
    ctx.throughWire.body = ctx.body ↔ BodySurvives ctx.headers ctx.body := by
  have hbody : ctx.throughWire.body =
      if readsBinary ctx.headers then
        (Base64.decode (ResponseContextWire.fromContext ctx).body).getD
          (ResponseContextWire.fromContext ctx).body.toUtf8
      else (ResponseContextWire.fromContext ctx).body.toUtf8 := by
    rw [← isBinaryContentType_throughMap]
    rfl
  have hlisted : (ResponseContextWire.fromContext ctx).body =
      if listsBinary ctx.headers then Base64.encode ctx.body else Utf8.decodeLossy ctx.body := by
    rw [← isBinaryContentType_contentTypeOf]
    rfl
  rw [hbody, hlisted]
  unfold BodySurvives
  cases listsBinary ctx.headers with
  | true =>
    cases readsBinary ctx.headers with
    | true => simp [Base64.decode_encode]
    | false => simpa using encode_toUtf8_iff ctx.body
  | false =>
    cases readsBinary ctx.headers with
    | true =>
      simp only [if_true, Bool.false_eq_true, if_false]
      exact decode_lossy_iff ctx.body
    | false => simpa using Utf8.toUtf8_decodeLossy_iff ctx.body

/-! ### The bodies which should come back -/

/-- Whether the first content type of a response is a binary one in any case. -/
def carriesBinary (headers : HeaderMap) : Bool :=
  Wire.isBinaryContentType (Str.toAsciiLowercase ((headers.getAll "content-type").head?.getD []))

theorem carriesBinary_of_listsBinary {headers : HeaderMap} (h : listsBinary headers = true) :
    carriesBinary headers = true := Wire.isBinaryContentType_toAsciiLowercase h

/-- Where the bodies which should come back do.  With two binary content types in lower case they all do; a binary type
which is not recognised for its case needs a text, and content types which do not agree need a body which is the same
as text and as base64, or no base64. -/
def PersistsBody (headers : HeaderMap) (body : Bytes) : Prop :=
  match listsBinary headers, readsBinary headers with
  | true, true => True
  | true, false => body = []
  | false, true =>
    (carriesBinary headers = true → Utf8.Valid body) ∧
      (Utf8.Valid body → body = [] ∨ Base64.decode (Utf8.decodeLossy body) = none)
  | false, false => carriesBinary headers = true → Utf8.Valid body

/-- A body which is text, or belongs to a binary content type in any case, comes back exactly under this condition. -/
theorem ResponseContext.persists_iff (ctx : ResponseContext) :
    (carriesBinary ctx.headers = true ∨ Utf8.Valid ctx.body → ctx.throughWire.body = ctx.body) ↔
      PersistsBody ctx.headers ctx.body := by
  rw [ctx.throughWire_body_iff]
  unfold BodySurvives PersistsBody
  cases hlists : listsBinary ctx.headers with
  | true =>
    have hcarries := carriesBinary_of_listsBinary hlists
    cases readsBinary ctx.headers with
    | true => simp
    | false => simp [hcarries]
  | false =>
    cases readsBinary ctx.headers with
    | true =>
      dsimp only
      constructor
      · intro h
        exact ⟨fun hcarries => (h (Or.inl hcarries)).1, fun hvalid => (h (Or.inr hvalid)).2⟩
      · rintro ⟨hbinary, htext⟩ hbody
        have hvalid : Utf8.Valid ctx.body := hbody.elim hbinary id
        exact ⟨hvalid, htext hvalid⟩
    | false =>
      dsimp only
      constructor
      · intro h hcarries
        exact h (Or.inl hcarries)
      · intro h hbody
        exact hbody.elim h id

/-- A response `Image/PNG` with the first byte of an image. -/
private def shoutedImage : ResponseContext :=
  { ResponseContext.default with
    headers := HeaderMap.new.insert "content-type" "Image/PNG"
    body := [0x89] }

/-- Its byte is stored as a replacement character. -/
theorem ResponseContext.not_persists :
    ¬ ∀ ctx : ResponseContext,
      carriesBinary ctx.headers = true ∨ Utf8.Valid ctx.body → ctx.throughWire.body = ctx.body := by
  intro h
  have hcarries : carriesBinary shoutedImage.headers = true := by decide +kernel
  have hbody : shoutedImage.throughWire.body ≠ shoutedImage.body := by decide +kernel
  exact hbody (h shoutedImage (Or.inl hcarries))

end Oproxy
