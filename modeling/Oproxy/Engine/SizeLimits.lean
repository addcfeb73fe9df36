import Oproxy.Engine.Stream
import Oproxy.Engine.Transparency

/-!
# Size limits

The limits bound what the engine holds of a body, and are not to change what goes through.  A response of unknown
length which is not chunked is read as a whole however long it is, and a coded response of unknown length above the
cap is answered with 413 on the streaming path.  gRPC messages go through a splitter there, which keeps a partial one.
-/

namespace Oproxy

namespace SizeLimits

open ProxyEngine GrpcInspector

/-! ### What is to be kept -/

/-- The body of a response as a path hands it on. -/
def normalized (decodes : Bool) (codecs : Codecs) (res : UpstreamResponse) : Bytes :=
  if decodes then (decodedBody codecs (responseHeaders res) res.body).getD res.body else res.body

/-- A response arrives with its status and its whole body, and no more of it was held than the limits allow. -/
structure Delivers (engine : ProxyEngine) (codecs : Codecs) (res : UpstreamResponse) (decodes : Bool)
    (delivery : Delivery) : Prop where
  status : delivery.response.status = res.status
  body : delivery.response.body = normalized decodes codecs res
  bounded : delivery.accumulated ≤ max engine.streamThresholdBytes engine.maxBodyBytes

/-- A request is not refused for its size, and is sent with its whole body. -/
structure RelayedWhole (outcome : RequestOutcome) (body : Bytes) : Prop where
  notRefused : ∀ response, outcome = .answered response → response.status ≠ 413
  whole : ∀ sent ctx, outcome = .forwarded sent ctx → sent.body = body

/-- The frame breakpoints of the rules. -/
def frameBreakpoints (world : Surroundings) (rules : ProductionRules) (answer : BreakpointContext → BreakpointAnswer) :
    FrameBreakpoints := ⟨world.regex, rules.breakpoints, answer⟩

/-- A request with the session under which it is recorded, if any. -/
def withSession (sessionId : Option Str) (ctx : RequestContext) : RequestContext := { ctx with sessionId := sessionId }

section

variable (parse : Str → Option Url) (engine : ProxyEngine) (codecs : Codecs) (world : Surroundings)
  (rules : ProductionRules) (answer : BreakpointContext → BreakpointAnswer) (sessionId : Option Str)

def buffered (fwd : Forwarded) (res : UpstreamResponse) : Delivery :=
  engine.deliverResponse codecs (rules.chain world) fwd res

def streamed (fwd : Forwarded) (res : UpstreamResponse) : Delivery :=
  engine.streamResponse codecs (rules.chain world) (frameBreakpoints world rules answer)
    (StreamObserver.ofRequest (withSession sessionId fwd.sent)) fwd res

def streamedRequest (req : IncomingRequest) (mitmDestination : Option Str) (chunks : List Bytes)
    (ownsRecording : Bool) :
    RequestOutcome :=
  engine.forwardStream parse (rules.chain world) (frameBreakpoints world rules answer)
    (fun ctx => StreamObserver.ofRequest (withSession sessionId ctx)) req mitmDestination chunks ownsRecording

/-- The limits show nowhere: neither in a response on one of the two paths nor in a request of a length above the
cap. -/
structure SizeBlind (fwd : Forwarded) (res : UpstreamResponse) (req : IncomingRequest) (mitmDestination : Option Str)
    (chunks : List Bytes) (ownsRecording : Bool) : Prop where
  buffered : Delivers engine codecs res (!engine.streamsResponse res) (buffered engine codecs world rules fwd res)
  streamed : Delivers engine codecs res (engine.normalizesCoding (responseHeaders res) res)
    (streamed engine codecs world rules answer sessionId fwd res)
  request : engine.requestStreamedUnbuffered req = true →
    RelayedWhole (engine.handleRequest parse (rules.chain world) req mitmDestination chunks.flatten ownsRecording)
      chunks.flatten
  streamedRequest : engine.requestStreamedUnbuffered req = true →
    RelayedWhole (streamedRequest parse engine world rules answer sessionId req mitmDestination chunks ownsRecording)
      chunks.flatten

/-- The upstream happens to give the answer which the engine gives to a coded body above the cap. -/
def SaysTooLarge (res : UpstreamResponse) : Prop :=
  res.status = 413 ∧ normalized true codecs res = Str.toUtf8 engine.codingTooLargeText

/-- A request whose head says gRPC, which does not lead back to the proxy and has a method that can be sent. -/
structure GrpcHead (req : IncomingRequest) (mitmDestination : Option Str) : Prop where
  contentType : ∃ value, (copyHeaders req.headers).get "content-type" = some value ∧
    Str.startsWith value "application/grpc" = true
  noLoop : engine.isSelfProxy parse (receivedUrl req mitmDestination) = false
  method : Http.isToken req.method = true

/-- The condition: what is read as a whole fits, and what is taken for gRPC messages is made of whole ones. -/
structure SizesFit (fwd : Forwarded) (res : UpstreamResponse) (req : IncomingRequest) (mitmDestination : Option Str)
    (chunks : List Bytes) : Prop where
  buffered : engine.streamsResponse res = true ∨
    res.body.length ≤ max engine.streamThresholdBytes engine.maxBodyBytes
  coded : hasCoding (responseHeaders res) = true → isEventStream (responseHeaders res) = false →
    res.contentLength = none → res.body.length ≤ engine.maxBodyBytes ∨ SaysTooLarge engine codecs res
  messages : engine.normalizesCoding (responseHeaders res) res = false → sessionId.isSome = true →
    isGrpc fwd.sent = true → WholeFrames res.body
  requestMessages : engine.requestStreamedUnbuffered req = true → sessionId.isSome = true →
    GrpcHead parse engine req mitmDestination → WholeFrames chunks.flatten

end

variable {parse : Str → Option Url} {engine : ProxyEngine} {codecs : Codecs} {world : Surroundings}
  {rules : ProductionRules} {answer : BreakpointContext → BreakpointAnswer} {sessionId : Option Str}

theorem hasFrameRules_of_nothingEnabled (h : rules.NothingEnabled) :
    Breakpoints.hasFrameRules (frameBreakpoints world rules answer).rules = false := by
  unfold Breakpoints.hasFrameRules frameBreakpoints
  rw [List.any_eq_false]
  intro r hr
  simp [h.breakpoints r hr]

/-! ### The buffered path -/

theorem accumulated_deliverResponse (chain : List Middleware) (fwd : Forwarded) (res : UpstreamResponse) :
    (engine.deliverResponse codecs chain fwd res).accumulated =
      if engine.streamsResponse res then 0 else res.body.length := by
  unfold deliverResponse
  split
  · split <;> rfl
  · dsimp only
    split <;> rfl

theorem buffered_iff (h : rules.NothingEnabled) (fwd : Forwarded) (res : UpstreamResponse) :
    Delivers engine codecs res (!engine.streamsResponse res) (buffered engine codecs world rules fwd res) ↔
      engine.streamsResponse res = true ∨ res.body.length ≤ max engine.streamThresholdBytes engine.maxBodyBytes := by
  obtain ⟨headers, trailers, hresponse, -⟩ := @Transparency.deliverResponse_plain codecs engine res world rules fwd h
  have haccumulated := @accumulated_deliverResponse engine codecs (rules.chain world) fwd res
  unfold buffered
  constructor
  · intro hdelivers
    have hbounded := hdelivers.bounded
    rw [haccumulated] at hbounded
    by_cases hstreams : engine.streamsResponse res = true
    · exact Or.inl hstreams
    · rw [if_neg hstreams] at hbounded
      exact Or.inr hbounded
  · intro hfits
    refine ⟨?_, ?_, ?_⟩
    · rw [hresponse]
    · rw [hresponse]
      unfold normalized Transparency.decoded
      cases engine.streamsResponse res <;> rfl
    · rw [haccumulated]
      by_cases hstreams : engine.streamsResponse res = true
      · rw [if_pos hstreams]
        exact Nat.zero_le _
      · rw [if_neg hstreams]
        exact hfits.resolve_left hstreams

/-! ### The streaming path -/

private theorem valid_responseHeaders (res : UpstreamResponse) : ∀ e ∈ (responseHeaders res).entries, FieldAllowed e :=
  fun e he => valid_copyHeaders res.headers_wf e (Wire.mem_stripHopByHop he)

private theorem finish_plain {res : UpstreamResponse} {ctx : ResponseContext} (hstatus : ctx.status = res.status)
    (hheaders : ∀ e ∈ ctx.headers.entries, e ∈ (responseHeaders res).entries) (body : Bytes) :
    (finish ((Http.statusCode ctx.status).getD 500) (engine.responseFields ctx) body [] (emptyResponse 500)).status =
        res.status ∧
      (finish ((Http.statusCode ctx.status).getD 500) (engine.responseFields ctx) body [] (emptyResponse 500)).body =
        body := by
  have hcode : (Http.statusCode res.status).getD 500 = res.status := by
    unfold Http.statusCode
    rw [if_pos res.status_valid, Option.getD_some]
  obtain ⟨headers, hfinish, -⟩ := finish_responseFields engine
    (fun e he => valid_responseHeaders res e (hheaders e he)) ((Http.statusCode ctx.status).getD 500) body []
    (emptyResponse 500)
  rw [hfinish, hstatus, hcode]
  exact ⟨rfl, rfl⟩

private theorem mem_decodedHeaders {headers : HeaderMap} {raw : Bytes} {e : Str × Str}
    (he : e ∈ (decodedResponseBody codecs headers raw).1.entries) : e ∈ headers.entries := by
  unfold decodedResponseBody at he
  split at he
  · exact List.mem_of_mem_filter (List.mem_of_mem_filter he)
  · exact he

private theorem decoded_body (headers : HeaderMap) (raw : Bytes) :
    (decodedResponseBody codecs headers raw).2 = (decodedBody codecs headers raw).getD raw := by
  unfold decodedResponseBody
  cases decodedBody codecs headers raw <;> rfl

/-- Where the coding is normalised, the body arrives decoded if it fits, and 413 otherwise. -/
theorem streamed_coded (h : rules.NothingEnabled) (fwd : Forwarded) {res : UpstreamResponse}
    (hcoded : engine.normalizesCoding (responseHeaders res) res = true) :
    (streamed engine codecs world rules answer sessionId fwd res).accumulated ≤ engine.maxBodyBytes ∧
      (res.body.length ≤ engine.maxBodyBytes →
        (streamed engine codecs world rules answer sessionId fwd res).response.status = res.status ∧
          (streamed engine codecs world rules answer sessionId fwd res).response.body = normalized true codecs res) ∧
      (¬ res.body.length ≤ engine.maxBodyBytes →
        (streamed engine codecs world rules answer sessionId fwd res).response =
          textResponse 413 engine.codingTooLargeText) := by
  obtain ⟨hstatus, hheaders⟩ := streamContext_message fwd res
  obtain ⟨hbound, hfits, hover⟩ := @readCapped_spec engine.maxBodyBytes [] res.chunks (Nat.zero_le _)
  rw [List.length_nil, Nat.zero_add] at hfits hover
  unfold streamed streamResponse
  rw [ProductionRules.executeResponse_of_nothingEnabled h]
  dsimp only
  rw [hheaders, if_pos hcoded]
  refine ⟨?_, ?_, ?_⟩
  · split
    · rename_i raw hread
      rw [hread] at hbound
      exact hbound
    · rename_i raw hread
      rw [hread] at hbound
      exact hbound
  · intro hlength
    rw [hfits hlength, List.nil_append]
    dsimp only
    obtain ⟨h1, h2⟩ := @finish_plain engine res
      { streamContext fwd res with headers := (decodedResponseBody codecs (responseHeaders res) res.chunks.flatten).1 }
      hstatus (fun e he => mem_decodedHeaders he)
      (decodedResponseBody codecs (responseHeaders res) res.chunks.flatten).2
    exact ⟨h1, h2.trans (decoded_body _ _)⟩
  · intro hlength
    have htoo := hover hlength
    split
    · rename_i raw hread
      rw [hread] at htoo
      cases htoo
    · rfl

/-- Where it is not, the body is relayed. -/
theorem streamed_relayed (h : rules.NothingEnabled) (fwd : Forwarded) {res : UpstreamResponse}
    (hcoded : engine.normalizesCoding (responseHeaders res) res = false) :
    (streamed engine codecs world rules answer sessionId fwd res).accumulated = 0 ∧
      (streamed engine codecs world rules answer sessionId fwd res).response.status = res.status ∧
      (streamed engine codecs world rules answer sessionId fwd res).response.body =
        StreamObserver.relayed (withSession sessionId fwd.sent) res.body := by
  obtain ⟨hstatus, hheaders⟩ := streamContext_message fwd res
  have hrelay := fun head => StreamObserver.relayBody_response (@hasFrameRules_of_nothingEnabled world rules answer h)
    (withSession sessionId fwd.sent) head res.chunks
  unfold streamed streamResponse
  rw [ProductionRules.executeResponse_of_nothingEnabled h]
  dsimp only
  rw [hheaders, if_neg (by rw [hcoded]; exact Bool.false_ne_true)]
  refine ⟨rfl, ?_⟩
  have hkept : ∀ e ∈ (if (StreamObserver.ofRequest (withSession sessionId fwd.sent)).isEmpty then responseHeaders res
      else removeHeader (responseHeaders res) "content-length").entries, e ∈ (responseHeaders res).entries := by
    intro e he
    split at he
    · exact he
    · exact List.mem_of_mem_filter he
  obtain ⟨h1, h2⟩ := @finish_plain engine res
    { streamContext fwd res with
      headers := if (StreamObserver.ofRequest (withSession sessionId fwd.sent)).isEmpty then responseHeaders res
        else removeHeader (responseHeaders res) "content-length" }
    hstatus hkept _
  exact ⟨h1, h2.trans (hrelay _)⟩

/-- The splitter is there for a gRPC request with a session. -/
theorem relayed_withSession_iff {ctx : RequestContext} {body : Bytes} :
    StreamObserver.relayed (withSession sessionId ctx) body = body ↔
      (sessionId.isSome = true → isGrpc ctx = true → WholeFrames body) := by
  rw [StreamObserver.relayed_eq_iff, isSome_streamObserver, Bool.and_eq_true]
  exact ⟨fun h hsession hgrpc => h ⟨hgrpc, hsession⟩, fun h hboth => h hboth.2 hboth.1⟩

theorem streamed_iff (h : rules.NothingEnabled) (fwd : Forwarded) (res : UpstreamResponse) :
    Delivers engine codecs res (engine.normalizesCoding (responseHeaders res) res)
        (streamed engine codecs world rules answer sessionId fwd res) ↔
      (hasCoding (responseHeaders res) = true → isEventStream (responseHeaders res) = false →
          res.contentLength = none → res.body.length ≤ engine.maxBodyBytes ∨ SaysTooLarge engine codecs res) ∧
        (engine.normalizesCoding (responseHeaders res) res = false →
          sessionId.isSome = true → isGrpc fwd.sent = true → WholeFrames res.body) := by
  -- a coded body of unknown or small length is collected and decoded, any other is relayed
  cases hcoded : engine.normalizesCoding (responseHeaders res) res with
  | true =>
    obtain ⟨hbound, hfits, hover⟩ := @streamed_coded engine codecs world rules answer sessionId h fwd res hcoded
    unfold normalizesCoding at hcoded
    rw [Bool.and_eq_true, Bool.and_eq_true, Bool.not_eq_true'] at hcoded
    obtain ⟨⟨hcoding, hevents⟩, hlength⟩ := hcoded
    constructor
    · intro hdelivers
      refine ⟨fun _ _ _ => ?_, fun hfalse => by cases hfalse⟩
      by_cases hfit : res.body.length ≤ engine.maxBodyBytes
      · exact Or.inl hfit
      · have hstatus := hdelivers.status
        have hbody := hdelivers.body
        rw [hover hfit] at hstatus hbody
        exact Or.inr ⟨hstatus.symm, hbody.symm⟩
    · rintro ⟨hcondition, -⟩
      have hdelivered : res.body.length ≤ engine.maxBodyBytes ∨ SaysTooLarge engine codecs res := by
        cases hknown : res.contentLength with
        | none => exact hcondition hcoding hevents hknown
        | some len =>
          have hsame := res.length_known
          rw [hknown] at hlength hsame
          have hle : len ≤ engine.maxBodyBytes := by simpa using hlength
          have heq : len = res.chunks.flatten.length := by simpa using hsame
          unfold UpstreamResponse.body
          exact Or.inl (by omega)
      have hbounded := Nat.le_trans hbound (Nat.le_max_right engine.streamThresholdBytes engine.maxBodyBytes)
      by_cases hfit : res.body.length ≤ engine.maxBodyBytes
      · exact ⟨(hfits hfit).1, (hfits hfit).2, hbounded⟩
      · obtain ⟨hstatus, hbody⟩ := hdelivered.resolve_left hfit
        refine ⟨?_, ?_, hbounded⟩
        · rw [hover hfit, hstatus]
          rfl
        · rw [hover hfit, hbody]
          rfl
  | false =>
    obtain ⟨haccumulated, hstatus, hbody⟩ :=
      @streamed_relayed engine codecs world rules answer sessionId h fwd res hcoded
    have hwhole := @relayed_withSession_iff sessionId fwd.sent res.body
    constructor
    · intro hdelivers
      refine ⟨fun hcoding hevents hnone => ?_, fun _ => ?_⟩
      · -- with no known length the coding would be normalised
        unfold normalizesCoding at hcoded
        rw [hcoding, hevents, hnone] at hcoded
        cases hcoded
      · have hsame := hdelivers.body
        rw [hbody] at hsame
        exact hwhole.1 hsame
    · rintro ⟨-, hmessages⟩
      refine ⟨hstatus, ?_, ?_⟩
      · rw [hbody]
        exact hwhole.2 (hmessages rfl)
      · rw [haccumulated]
        exact Nat.zero_le _

/-! ### Requests -/

private theorem answered_status {outcome : RequestOutcome} {body : Bytes}
    (h : ∃ response, outcome = .answered response ∧ response.status ≠ 413) : RelayedWhole outcome body := by
  obtain ⟨response, rfl, hstatus⟩ := h
  refine ⟨?_, ?_⟩
  · intro response' hresponse'
    cases hresponse'
    exact hstatus
  · intro sent ctx hforwarded
    cases hforwarded

private theorem refusal_status {refusal : Refusal} (h : refusal.status = 502 ∨ refusal.status = 400) :
    (Refusal.response refusal).status ≠ 413 := by
  have hsame : (Refusal.response refusal).status = refusal.status := rfl
  omega

theorem handleRequest_whole (h : rules.NothingEnabled) {req : IncomingRequest} {mitmDestination : Option Str}
    {body : Bytes} {ownsRecording : Bool} (hlarge : engine.requestStreamedUnbuffered req = true) :
    RelayedWhole (engine.handleRequest parse (rules.chain world) req mitmDestination body ownsRecording) body := by
  unfold handleRequest
  simp only [hlarge, Bool.not_true, Bool.false_and, Bool.false_eq_true, if_false, if_true,
    ProductionRules.executeRequest_of_nothingEnabled h]
  split
  · exact answered_status ⟨_, rfl, by decide⟩
  · split
    · rename_i sent refusal hprepared
      exact answered_status ⟨_, rfl, refusal_status (prepareUpstream_error hprepared)⟩
    · refine ⟨?_, ?_⟩
      · intro response hresponse
        cases hresponse
      · intro sent ctx hforwarded
        cases hforwarded
        rfl

/-- The request which is sent, with nothing enabled. -/
def prepared (parse : Str → Option Url) (engine : ProxyEngine) (req : IncomingRequest) (mitmDestination : Option Str) :
    RequestContext × Except Refusal PreparedUpstream :=
  engine.prepareUpstream parse (requestContext (engine.buildRequestHead req mitmDestination) mitmDestination []) req.uri
    req.uri.display

theorem isGrpc_prepared (req : IncomingRequest) (mitmDestination : Option Str) :
    isGrpc (prepared parse engine req mitmDestination).1 = true ↔
      ∃ value, (copyHeaders req.headers).get "content-type" = some value ∧
        Str.startsWith value "application/grpc" = true := by
  have hsent : (prepared parse engine req mitmDestination).1.headers =
      (Wire.targetUrl parse mitmDestination (requestHost req) (Wire.upstreamPath req.uri req.uri.display)
        (Wire.sanitizeForwardedRequestHeaders (copyHeaders req.headers))).2 := by
    unfold prepared prepareUpstream
    dsimp only
    split
    · split <;> rfl
    · split <;> split <;> rfl
  have hkept : ((copyHeaders req.headers).getAll "content-type").filter (fun value =>
      decide (("content-type" : Str) ≠ "te") || value.trim.eqIgnoreAsciiCase "trailers") =
        (copyHeaders req.headers).getAll "content-type" :=
    List.filter_eq_self.2 fun value _ => Bool.or_eq_true_iff.2 (Or.inl (by decide))
  unfold isGrpc
  rw [hsent, HeaderMap.get_eq_head?, Wire.getAll_targetUrl _ _ _ _ _ (by decide) (by decide),
    Wire.getAll_sanitize _ (by decide) (by decide), if_neg (by decide), hkept, ← HeaderMap.get_eq_head?,
    Option.any_eq_true]

/-- It is refused where it leads back to the proxy, or has a method that cannot be sent. -/
theorem prepared_ok_iff (req : IncomingRequest) (mitmDestination : Option Str) :
    (∃ upstream, (prepared parse engine req mitmDestination).2 = .ok upstream) ↔
      engine.isSelfProxy parse (receivedUrl req mitmDestination) = false ∧ Http.isToken req.method = true := by
  have hurl : (Wire.targetUrl parse mitmDestination (requestHost req) (Wire.upstreamPath req.uri req.uri.display)
      (Wire.sanitizeForwardedRequestHeaders (copyHeaders req.headers))).1 = receivedUrl req mitmDestination :=
    @upstreamUrl_eq_receivedUrl parse req mitmDestination
      (requestContext (engine.buildRequestHead req mitmDestination) mitmDestination []) rfl rfl
  rw [← hurl]
  unfold prepared prepareUpstream
  dsimp only
  split
  · rename_i hloop
    refine iff_of_false (by rintro ⟨upstream, heq⟩; cases heq) fun hallowed => ?_
    exact Bool.false_ne_true (hallowed.1.symm.trans hloop)
  · rename_i hloop
    split
    · rename_i hmethod
      refine iff_of_false (by rintro ⟨upstream, heq⟩; cases heq) fun hallowed => ?_
      rw [Bool.not_eq_true'] at hmethod
      exact Bool.false_ne_true (hmethod.symm.trans hallowed.2)
    · rename_i hmethod
      rw [Bool.not_eq_true', Bool.not_eq_false] at hmethod
      exact iff_of_true ⟨_, rfl⟩ ⟨Bool.eq_false_iff.2 hloop, hmethod⟩

theorem grpcHead_iff (req : IncomingRequest) (mitmDestination : Option Str) :
    GrpcHead parse engine req mitmDestination ↔
      isGrpc (prepared parse engine req mitmDestination).1 = true ∧
        ∃ upstream, (prepared parse engine req mitmDestination).2 = .ok upstream := by
  rw [isGrpc_prepared, prepared_ok_iff]
  exact ⟨fun h => ⟨h.contentType, h.noLoop, h.method⟩, fun h => ⟨h.1, h.2.1, h.2.2⟩⟩

/-- A request on the streaming path is sent whole where it is not taken apart into messages, or comes in whole ones. -/
theorem streamedRequest_iff (h : rules.NothingEnabled) (req : IncomingRequest) (mitmDestination : Option Str)
    (chunks : List Bytes) (ownsRecording : Bool) :
    RelayedWhole (streamedRequest parse engine world rules answer sessionId req mitmDestination chunks ownsRecording)
        chunks.flatten ↔
      (sessionId.isSome = true → GrpcHead parse engine req mitmDestination → WholeFrames chunks.flatten) := by
  rw [grpcHead_iff]
  unfold streamedRequest forwardStream
  simp only [ProductionRules.executeRequest_of_nothingEnabled h]
  split
  · rename_i sent refusal hprepared
    change prepared parse engine req mitmDestination = _ at hprepared
    refine iff_of_true (answered_status ⟨_, rfl, refusal_status (prepareUpstream_error hprepared)⟩) ?_
    rintro - ⟨-, upstream, hok⟩
    rw [hprepared] at hok
    cases hok
  · rename_i sent upstream hprepared
    change prepared parse engine req mitmDestination = _ at hprepared
    have hrelay := StreamObserver.relayBody_request (@hasFrameRules_of_nothingEnabled world rules answer h)
      (withSession sessionId sent) chunks
    have hwhole := @relayed_withSession_iff sessionId sent chunks.flatten
    have hsent : (isGrpc (prepared parse engine req mitmDestination).1 = true ∧
        ∃ upstream, (prepared parse engine req mitmDestination).2 = .ok upstream) ↔ isGrpc sent = true := by
      rw [hprepared]
      exact and_iff_left ⟨upstream, rfl⟩
    rw [hsent]
    constructor
    · intro hrelayed
      exact hwhole.1 (hrelay.symm.trans (hrelayed.whole _ _ rfl))
    · intro hcondition
      refine ⟨?_, ?_⟩
      · intro response hresponse
        cases hresponse
      · intro sent' ctx hforwarded
        cases hforwarded
        exact hrelay.trans (hwhole.2 hcondition)

/-! ### All of it -/

/-- Without rules, the limits show nowhere exactly where what is read as a whole fits and what is taken for gRPC
messages is made of whole ones. -/
theorem sizeBlind_iff (h : rules.NothingEnabled) (fwd : Forwarded) (res : UpstreamResponse) (req : IncomingRequest)
    (mitmDestination : Option Str) (chunks : List Bytes) (ownsRecording : Bool) :
    SizeBlind parse engine codecs world rules answer sessionId fwd res req mitmDestination chunks ownsRecording ↔
      SizesFit parse engine codecs sessionId fwd res req mitmDestination chunks := by
  have hbuffered := @buffered_iff engine codecs world rules h fwd res
  have hstreamed := @streamed_iff engine codecs world rules answer sessionId h fwd res
  have hrequest := @streamedRequest_iff parse engine world rules answer sessionId h req mitmDestination chunks
    ownsRecording
  constructor
  · intro hblind
    obtain ⟨hcoded, hmessages⟩ := hstreamed.1 hblind.streamed
    exact ⟨hbuffered.1 hblind.buffered, hcoded, hmessages, fun hlarge => hrequest.1 (hblind.streamedRequest hlarge)⟩
  · intro hfit
    exact ⟨hbuffered.2 hfit.buffered, hstreamed.2 ⟨hfit.coded, hfit.messages⟩,
      fun hlarge => handleRequest_whole h hlarge, fun hlarge => hrequest.2 (hfit.requestMessages hlarge)⟩

/-! ### A coded response of unknown length -/

private def smallEngine : ProxyEngine := ⟨4, 4, 8080, "127.0.0.1", [], none⟩

/-- A decoder which gives the bytes back. -/
private def plainCodecs : Codecs := ⟨some, some, some, some, some⟩

/-- Five coded bytes with no length, as HTTP/2 allows. -/
private def codedResponse : UpstreamResponse :=
  { UpstreamResponse.plain with
    version := .http2
    headers := [("content-encoding", Str.toUtf8 "gzip")]
    contentLength := none
    chunks := [[1, 2, 3, 4, 5]]
    headers_wf := by decide
    length_known := by decide }

private def plainRequest : IncomingRequest := { IncomingRequest.plain with version := .http2 }

private def plainForward : Forwarded :=
  ⟨"http://api.test/", "api.test", "GET", RequestContext.default, false, false, 1, 1, 2⟩

/-- With a cap of four bytes, the client gets 413 on one path, and five bytes have been held on the other. -/
theorem not_sizeBlind :
    (streamed smallEngine plainCodecs Surroundings.bare ProductionRules.empty (fun _ => .timedOut) none plainForward
        codedResponse).response.status = 413 ∧
      (buffered smallEngine plainCodecs Surroundings.bare ProductionRules.empty plainForward
        codedResponse).accumulated =
        5 ∧
      ¬ SizeBlind (fun _ => none) smallEngine plainCodecs Surroundings.bare ProductionRules.empty (fun _ => .timedOut)
        none plainForward codedResponse plainRequest none [] false := by
  refine ⟨by decide, by decide, ?_⟩
  intro hblind
  have hstatus := hblind.streamed.status
  revert hstatus
  decide

theorem sizeBlind_iff_small :
    SizeBlind (fun _ => none) smallEngine plainCodecs Surroundings.bare ProductionRules.empty (fun _ => .timedOut) none
        plainForward codedResponse plainRequest none [] false ↔
      SizesFit (fun _ => none) smallEngine plainCodecs none plainForward codedResponse plainRequest none [] :=
  sizeBlind_iff ProductionRules.nothingEnabled_empty _ _ _ _ _ _

end SizeLimits

end Oproxy
