import Oproxy.Engine.Request

/-!
# HTTP/3 bodies (`transport/http3.rs`)

A request body is read to the end of its stream before the engine is called, and the body of the response is sent
chunk by chunk.  The first loop takes an error for the end, and the second one an error or an empty chunk.
-/

namespace Oproxy

/-- How a stream of chunks ends; a reset is an error. -/
inductive StreamEnd where
  | clean | error
  deriving DecidableEq

structure BodyStream where
  chunks : List Bytes
  ended : StreamEnd

def BodyStream.bytes (body : BodyStream) : Bytes := body.chunks.flatten

namespace Http3

/-! ### Requests -/

/-- The head of a request as the library resolves it. -/
structure Parts where
  method : Str
  uri : Http.Uri
  headers : Http.Headers
  method_token : Http.isToken method = true := by decide
  headers_wf : Http.Headers.WellFormed headers := by decide

/-- What becomes of a request: an answer without a body, or a call of the engine. -/
inductive Handled where
  | answered (status : Nat)
  | called (req : IncomingRequest) (body : Bytes)

/-- The loop of `read_request_body`: what has been read when the stream ends, however it ends; none where the body
is too large. -/
def readRequestBody (maxBodyBytes : Nat) : Bytes → List Bytes → Option Bytes
  | body, [] => some body
  | body, chunk :: chunks =>
    if body.length + chunk.length > maxBodyBytes then none else readRequestBody maxBodyBytes (body ++ chunk) chunks

/-- The fields which are copied; the names of pseudo fields start with a colon. -/
def copiedFields (headers : Http.Headers) : Http.Headers :=
  Http.Headers.ofList (headers.filter fun f => !Str.startsWith f.1 ":")

theorem copiedFields_wf {headers : Http.Headers} (h : headers.WellFormed) : (copiedFields headers).WellFormed := by
  intro f hf
  exact h f (List.mem_of_mem_filter (Http.Headers.mem_ofList.1 hf))

/-- Build the request for the engine; the target goes through its text. -/
def buildAxumRequest (parseUri : Str → Option Http.Uri) (parts : Parts) (connection : Option (Str × Nat)) :
    Option IncomingRequest :=
  (parseUri parts.uri.display).map fun uri =>
    { method := parts.method
      uri := uri
      version := .http3
      headers := copiedFields parts.headers
      peer := none
      connection := connection
      method_token := parts.method_token
      headers_wf := copiedFields_wf parts.headers_wf }

def handleH3Request (engine : ProxyEngine) (parseUri : Str → Option Http.Uri) (parts : Parts)
    (connection : Option (Str × Nat)) (stream : BodyStream) : Handled :=
  match readRequestBody engine.maxBodyBytes [] stream.chunks with
  | none => .answered 413
  | some body =>
    match buildAxumRequest parseUri parts connection with
    | none => .answered 400
    | some req => .called req body

/-! ### Responses -/

/-- What has gone out on a stream; `finished` says that it was ended as a complete one. -/
structure Sent where
  head : Option (Nat × Http.Headers)
  data : List Bytes
  finished : Bool

/-- The fields which may not stand in an HTTP/3 head. -/
def droppedFields : List Str := ["transfer-encoding", "connection", "keep-alive", "upgrade"].map String.toList

/-- The loop over the body; `takes` says whether the peer takes the message with a number. -/
def sendBody (takes : Nat → Bool) : Nat → List Bytes → List Bytes × Bool
  | _, [] => ([], true)
  | n, chunk :: chunks =>
    if chunk.isEmpty then ([], true)
    else if takes n then
      let (data, finished) := sendBody takes (n + 1) chunks
      (chunk :: data, finished)
    else ([], false)

def sendH3Response (takes : Nat → Bool) (status : Nat) (headers : Http.Headers) (body : BodyStream) : Sent :=
  if takes 0 then
    let (data, finished) := sendBody takes 1 body.chunks
    ⟨some (status, Http.Headers.ofList (headers.filter fun f => !droppedFields.contains f.1.toAsciiLowercase)), data,
      finished⟩
  else ⟨none, [], false⟩

/-! ### What the loops do -/

/-- The request loop has the whole of a body within the cap, and nothing of any other. -/
theorem readRequestBody_eq (maxBodyBytes : Nat) (body : Bytes) (chunks : List Bytes) (h : body.length ≤ maxBodyBytes) :
    readRequestBody maxBodyBytes body chunks =
      if body.length + chunks.flatten.length ≤ maxBodyBytes then some (body ++ chunks.flatten) else none := by
  induction chunks generalizing body with
  | nil => simp [readRequestBody, h]
  | cons chunk chunks ih =>
    unfold readRequestBody
    rw [List.flatten_cons, List.length_append]
    by_cases hover : body.length + chunk.length > maxBodyBytes
    · rw [if_pos hover, if_neg (by omega)]
    · have hlength : (body ++ chunk).length = body.length + chunk.length := List.length_append
      rw [if_neg hover, ih (body ++ chunk) (by omega), hlength, List.append_assoc, Nat.add_assoc]

/-- The chunks before the first empty one. -/
def leading (chunks : List Bytes) : List Bytes := chunks.takeWhile fun chunk => !chunk.isEmpty

/-- The chunks from the first empty one on. -/
def trailing (chunks : List Bytes) : List Bytes := chunks.dropWhile fun chunk => !chunk.isEmpty

/-- To a peer which takes everything the response loop sends the chunks before the first empty one. -/
theorem sendBody_data {takes : Nat → Bool} (htakes : ∀ n, takes n = true) (n : Nat) (chunks : List Bytes) :
    (sendBody takes n chunks).1 = leading chunks := by
  unfold leading
  induction chunks generalizing n with
  | nil => rfl
  | cons chunk chunks ih =>
    unfold sendBody
    by_cases hempty : chunk.isEmpty = true
    · rw [if_pos hempty, List.takeWhile_cons_of_neg (by simp [hempty])]
    · rw [if_neg hempty, if_pos (htakes n), List.takeWhile_cons_of_pos (by simp [hempty]), ← ih (n + 1)]

/-- The response loop finishes the stream exactly where the peer takes those chunks, however the body ends. -/
theorem sendBody_finished (takes : Nat → Bool) (n : Nat) (chunks : List Bytes) :
    (sendBody takes n chunks).2 = true ↔ ∀ i < (leading chunks).length, takes (n + i) = true := by
  unfold leading
  induction chunks generalizing n with
  | nil => simp [sendBody]
  | cons chunk chunks ih =>
    unfold sendBody
    by_cases hempty : chunk.isEmpty = true
    · rw [if_pos hempty, List.takeWhile_cons_of_neg (by simp [hempty])]
      simp
    · rw [if_neg hempty, List.takeWhile_cons_of_pos (by simp [hempty]), List.length_cons]
      by_cases htakes : takes n = true
      · rw [if_pos htakes]
        dsimp only
        rw [ih (n + 1)]
        constructor
        · intro h i hi
          cases i with
          | zero => exact htakes
          | succ i =>
            have hrest := h i (by omega)
            rw [show n + (i + 1) = n + 1 + i by omega]
            exact hrest
        · intro h i hi
          have hrest := h (i + 1) (by omega)
          rw [show n + 1 + i = n + (i + 1) by omega]
          exact hrest
      · rw [if_neg htakes]
        constructor
        · intro h
          cases h
        · intro h
          exact absurd (h 0 (by omega)) htakes

/-! ### Exactness -/

section

variable (engine : ProxyEngine) (parseUri : Str → Option Http.Uri) (parts : Parts) (connection : Option (Str × Nat))
  (stream : BodyStream) (takes : Nat → Bool) (status : Nat) (headers : Http.Headers) (body : BodyStream)

/-- Bodies are relayed exactly: the engine gets whole bodies only, the peer gets all of a response which it takes, and
only what has ended is ended. -/
structure Exact : Prop where
  broken : stream.ended = .error → ∀ req bytes,
    handleH3Request engine parseUri parts connection stream ≠ .called req bytes
  whole : stream.ended = .clean → stream.bytes.length ≤ engine.maxBodyBytes →
    ∃ req, handleH3Request engine parseUri parts connection stream = .called req stream.bytes
  data : (∀ n, takes n = true) → (sendH3Response takes status headers body).data.flatten = body.bytes
  finished : (sendH3Response takes status headers body).finished = true → body.ended = .clean

/-- The condition: a request which breaks off is refused for its size or for its target, and no other is; there is
nothing after the first empty chunk of a response; and one which breaks off is not taken by the peer. -/
structure EndsClean : Prop where
  broken : stream.ended = .error →
    stream.bytes.length > engine.maxBodyBytes ∨ (parseUri parts.uri.display).isSome = false
  whole : stream.ended = .clean → stream.bytes.length ≤ engine.maxBodyBytes →
    (parseUri parts.uri.display).isSome = true
  data : (∀ n, takes n = true) → (trailing body.chunks).flatten = []
  finished : body.ended = .error → ∃ n ≤ (leading body.chunks).length, takes n = false

end

variable {engine : ProxyEngine} {parseUri : Str → Option Http.Uri} {parts : Parts} {connection : Option (Str × Nat)}
  {stream : BodyStream} {takes : Nat → Bool} {status : Nat} {headers : Http.Headers} {body : BodyStream}

/-- The engine is called with whatever was read, if it fits and the target has a form. -/
theorem handleH3Request_eq :
    handleH3Request engine parseUri parts connection stream =
      if stream.bytes.length ≤ engine.maxBodyBytes then
        match buildAxumRequest parseUri parts connection with
        | none => .answered 400
        | some req => .called req stream.bytes
      else .answered 413 := by
  unfold handleH3Request
  rw [readRequestBody_eq _ _ _ (Nat.zero_le _), List.length_nil, Nat.zero_add, List.nil_append]
  unfold BodyStream.bytes
  by_cases hfits : stream.chunks.flatten.length ≤ engine.maxBodyBytes
  · rw [if_pos hfits, if_pos hfits]
  · rw [if_neg hfits, if_neg hfits]

theorem called_iff {req : IncomingRequest} {bytes : Bytes} :
    handleH3Request engine parseUri parts connection stream = .called req bytes ↔
      stream.bytes.length ≤ engine.maxBodyBytes ∧ buildAxumRequest parseUri parts connection = some req ∧
        bytes = stream.bytes := by
  rw [handleH3Request_eq]
  by_cases hfits : stream.bytes.length ≤ engine.maxBodyBytes
  · rw [if_pos hfits]
    cases hbuilt : buildAxumRequest parseUri parts connection with
    | none => simp
    | some req' =>
      constructor
      · intro h
        cases h
        exact ⟨hfits, rfl, rfl⟩
      · rintro ⟨-, h, rfl⟩
        cases h
        rfl
  · rw [if_neg hfits]
    constructor
    · intro h
      cases h
    · intro h
      exact absurd h.1 hfits

theorem isSome_buildAxumRequest :
    (buildAxumRequest parseUri parts connection).isSome = (parseUri parts.uri.display).isSome := by
  unfold buildAxumRequest
  exact Option.isSome_map

/-- The chunks before the first empty one and those from it on make up the body. -/
theorem leading_append_trailing (chunks : List Bytes) : leading chunks ++ trailing chunks = chunks :=
  List.takeWhile_append_dropWhile

theorem data_sendH3Response (htakes : ∀ n, takes n = true) :
    (sendH3Response takes status headers body).data = leading body.chunks := by
  unfold sendH3Response
  rw [if_pos (htakes 0)]
  exact sendBody_data htakes 1 body.chunks

theorem finished_sendH3Response :
    (sendH3Response takes status headers body).finished = true ↔
      ∀ n ≤ (leading body.chunks).length, takes n = true := by
  unfold sendH3Response
  by_cases hhead : takes 0 = true
  · rw [if_pos hhead]
    dsimp only
    rw [sendBody_finished]
    constructor
    · intro h n hn
      cases n with
      | zero => exact hhead
      | succ n =>
        rw [Nat.add_comm]
        exact h n (by omega)
    · intro h i hi
      exact h (1 + i) (by omega)
  · rw [if_neg hhead]
    constructor
    · intro h
      cases h
    · intro h
      exact absurd (h 0 (Nat.zero_le _)) hhead

theorem exact_iff :
    Exact engine parseUri parts connection stream takes status headers body ↔
      EndsClean engine parseUri parts stream takes body := by
  have hbuilds := @isSome_buildAxumRequest parseUri parts connection
  constructor
  · intro h
    refine ⟨?_, ?_, ?_, ?_⟩
    · intro herror
      by_cases hfits : stream.bytes.length ≤ engine.maxBodyBytes
      · right
        cases hbuilt : buildAxumRequest parseUri parts connection with
        | none =>
          rw [← hbuilds, hbuilt]
          rfl
        | some req => exact absurd (called_iff.2 ⟨hfits, hbuilt, rfl⟩) (h.broken herror req stream.bytes)
      · left
        omega
    · intro hclean hfits
      obtain ⟨req, hcalled⟩ := h.whole hclean hfits
      rw [← hbuilds, (called_iff.1 hcalled).2.1]
      rfl
    · intro htakes
      -- what follows the first empty chunk is what is missing from the data
      have hall := h.data htakes
      unfold BodyStream.bytes at hall
      rw [data_sendH3Response htakes, ← leading_append_trailing body.chunks, List.flatten_append,
        leading_append_trailing] at hall
      exact List.append_right_eq_self.1 hall.symm
    · intro herror
      -- a peer that takes everything sees a normal finish
      by_contra hnone
      have hall : ∀ n ≤ (leading body.chunks).length, takes n = true := by
        intro n hn
        rw [← Bool.not_eq_false]
        exact fun hrefused => hnone ⟨n, hn, hrefused⟩
      have hclean := h.finished (finished_sendH3Response.2 hall)
      rw [herror] at hclean
      cases hclean
  · intro h
    refine ⟨?_, ?_, ?_, ?_⟩
    · intro herror req bytes hcalled
      obtain ⟨hfits, hbuilt, -⟩ := called_iff.1 hcalled
      rcases h.broken herror with hlarge | hnone
      · omega
      · rw [← hbuilds, hbuilt] at hnone
        cases hnone
    · intro hclean hfits
      have hsome := h.whole hclean hfits
      rw [← hbuilds] at hsome
      obtain ⟨req, hbuilt⟩ := Option.isSome_iff_exists.1 hsome
      exact ⟨req, called_iff.2 ⟨hfits, hbuilt, rfl⟩⟩
    · intro htakes
      have hrest := h.data htakes
      have hbytes := congrArg List.flatten (leading_append_trailing body.chunks)
      rw [List.flatten_append, hrest, List.append_nil] at hbytes
      rw [data_sendH3Response htakes]
      exact hbytes
    · intro hfinished
      cases hended : body.ended with
      | clean => rfl
      | error =>
        obtain ⟨n, hn, hrefused⟩ := h.finished hended
        rw [finished_sendH3Response.1 hfinished n hn] at hrefused
        cases hrefused

/-! ### Bodies which break off -/

private def uploadParts : Parts where
  method := "POST"
  uri := { scheme := some "https", authority := some "api.test", rawPathAndQuery := "/upload" }
  headers := []
  method_token := Http.isToken_post
  headers_wf := Http.Headers.wellFormed_nil

private def readTarget (text : Str) : Option Http.Uri :=
  if text = ("https://api.test/upload" : Str) then some uploadParts.uri else none

private def openEngine : ProxyEngine := ⟨10485760, 524288, 8080, "127.0.0.1", [], none⟩

/-- The first byte of an upload which is reset. -/
private def resetUpload : BodyStream := ⟨[[97]], .error⟩

/-- Three chunks, the second one empty, and then an error. -/
private def brokenDownload : BodyStream := ⟨[[97], [], [98]], .error⟩

/-- The engine is called with the first byte of an upload which was reset, and of the response the peer gets one byte
of two, as a complete body. -/
theorem not_exact :
    (∃ req, handleH3Request openEngine readTarget uploadParts none resetUpload = .called req [97]) ∧
      (sendH3Response (fun _ => true) 200 [] brokenDownload).data = [[97]] ∧
      (sendH3Response (fun _ => true) 200 [] brokenDownload).finished = true ∧
      ¬ Exact openEngine readTarget uploadParts none resetUpload (fun _ => true) 200 [] brokenDownload := by
  have hcalled : ∃ req, handleH3Request openEngine readTarget uploadParts none resetUpload = .called req [97] :=
    ⟨_, rfl⟩
  refine ⟨hcalled, by decide, by decide, ?_⟩
  intro hexact
  obtain ⟨req, hcalled⟩ := hcalled
  exact hexact.broken rfl req [97] hcalled

end Http3

end Oproxy
