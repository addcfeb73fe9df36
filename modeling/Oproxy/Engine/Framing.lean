import Oproxy.Engine.Exchange
import Oproxy.Engine.Production
import Oproxy.Middleware.ContentLength

/-!
# Framing

A response head is to carry no `content-length` or the length of the body it is sent with.  The upstream, the mocks
and Map Local start with a right length, decoding and the rewrite rules drop it when they change the body, but
scripts and the operator at a breakpoint change the body alone.
-/

namespace Oproxy

namespace Framing

open ProxyEngine ContentLength

/-- Every `content-length` of the head is the length of the body. -/
def Framed (response : ClientResponse) : Prop :=
  ∀ v ∈ response.headers.getAll "content-length", v.toStr.bind declared = some response.body.length

instance (response : ClientResponse) : Decidable (Framed response) := by
  unfold Framed
  infer_instance

/-- The upstream declares the length of the body it sends, if any. -/
def UpstreamFramed (res : UpstreamResponse) : Prop :=
  ∀ v ∈ res.headers.getAll "content-length", v.toStr.bind declared = some res.body.length

instance (res : UpstreamResponse) : Decidable (UpstreamFramed res) := by
  unfold UpstreamFramed
  infer_instance

/-- No rule action, mock or script writes a `content-length`, and the operator edits bodies only. -/
structure AssignsNoLength (world : Surroundings) (rules : ProductionRules) : Prop where
  rewrite : ∀ rule ∈ rules.routing.rewrite, rule.enabled = true → ∀ action ∈ rule.actions, assigns action = false
  mocks : ∀ rule ∈ rules.mocks, MockAssignsNoLength rule
  scripts : ∀ script ∈ rules.scripts, script.enabled = true → KeepsLength world.vm script.code
  pausedRequest : OperatorPlantsNoAnswer world.onPausedRequest
  pausedResponse : OperatorKeepsLength world.onPausedResponse

section

variable (world : Surroundings) (rules : ProductionRules)

/-- A response as the scripts and the operator leave it. -/
def edited (ctx : ResponseContext) : ResponseContext × MiddlewareAction :=
  Breakpoints.onResponse world.regex rules.breakpoints world.onPausedResponse
    (LuaEngine.onResponse world.vm rules.scripts ctx).1

/-- The condition on scripts, operator and rules, for a response which starts from `ctx`: the length of the body is
kept, or the declared length is gone before the rewrite rules, or one of them drops it, or there is a field which no
head may have. -/
def LengthKept (ctx : ResponseContext) : Prop :=
  ∀ left, edited world rules ctx = (left, .proceed) →
    left.body.length = ctx.body.length ∨ fields left.headers = [] ∨
      dropped world.regex (applyingToResponse world.regex rules.routing.rewrite left) left.bodyText = true ∨
      ¬ ∀ f ∈ (UnifiedRewrite.onResponse world.regex rules.routing.rewrite left).1.headers.entries, FieldAllowed f

/-- The context which the response chain starts from for an answer in place of the upstream. -/
def interceptedContext (answer : InterceptedResponse) (request : RequestContext) (displayUri host method : Str)
    (ownsRecording : Bool) : ResponseContext :=
  { ResponseContext.default with
    status := answer.status
    headers := answer.headers
    body := answer.body
    requestUri := displayUri
    sessionId := request.sessionId
    tags := answer.tags
    requestHost := host
    requestMethod := method
    protocolContext := request.protocolContext
    terminalRecordingPending := ownsRecording }.extendFlow request.flow

/-- The responses of the intercepted and of the buffered path, each with the context its response chain starts
from. -/
inductive Builds (engine : ProxyEngine) : ResponseContext → ClientResponse → Prop
  | intercepted {request ctx : RequestContext} {answer : InterceptedResponse} (displayUri host method : Str)
      (ownsRecording : Bool) (hfresh : request.mockResponse = none)
      (hrun : MiddlewareChain.executeRequest (rules.chain world) request = (ctx, .stopAndReturn))
      (hanswer : ctx.mockResponse = some answer) :
      Builds engine (interceptedContext answer ctx displayUri host method ownsRecording)
        (respondToIntercepted (rules.chain world) answer ctx displayUri host method ownsRecording)
  | buffered (codecs : Codecs) (fwd : Forwarded) {res : UpstreamResponse} (hframed : UpstreamFramed res)
      (hbuffered : engine.streamsResponse res = false) :
      Builds engine
        (responseContext fwd res (decodedResponseBody codecs (responseHeaders res) res.body).1
          (decodedResponseBody codecs (responseHeaders res) res.body).2 false)
        (engine.deliverResponse codecs (rules.chain world) fwd res).response

end

variable {world : Surroundings} {rules : ProductionRules} {engine : ProxyEngine}

/-! ### Where the chains start -/

/-- Every plugin which answers a request declares the length of its answer. -/
theorem executeRequest_declares (h : AssignsNoLength world rules) {request : RequestContext}
    (hfresh : request.mockResponse = none) :
    AnswerDeclares (MiddlewareChain.executeRequest (rules.chain world) request).1 := by
  apply MiddlewareChain.execute_induction
  · intro step hstep ctx hctx
    obtain ⟨middleware, hmem, rfl⟩ := List.mem_map.1 hstep
    unfold ProductionRules.chain RoutingRules.chain at hmem
    simp only [List.cons_append, List.nil_append, List.mem_cons, List.not_mem_nil, or_false] at hmem
    rcases hmem with rfl | rfl | rfl | rfl | rfl | rfl | rfl | rfl
    · exact accessControl_declares hctx
    · exact dnsOverride_declares hctx
    · exact mapRemote_declares hctx
    · exact rewrite_declares hctx
    · exact breakpoints_declares h.pausedRequest hctx
    · exact mapLocal_declares hctx
    · exact mock_declares h.mocks hctx
    · exact lua_declares hctx
  · intro answer hanswer
    rw [hfresh] at hanswer
    cases hanswer

private theorem lengthName : Http.IsFieldName "content-length" := ⟨by decide, by decide⟩

theorem upstream_declares (codecs : Codecs) {res : UpstreamResponse} (h : UpstreamFramed res) :
    Declares (decodedResponseBody codecs (responseHeaders res) res.body).2.length
      (decodedResponseBody codecs (responseHeaders res) res.body).1 := by
  unfold decodedResponseBody
  cases decodedBody codecs (responseHeaders res) res.body with
  | some out =>
    apply Declares.of_eq_nil
    exact (fields_remove _ "content-length").trans (if_pos (by decide))
  | none =>
    intro t ht
    have hmem := Wire.mem_stripHopByHop (HeaderMap.mem_getAll.1 ht)
    have hcopied := HeaderMap.mem_getAll.2 hmem
    rw [getAll_copyHeaders res.headers_wf lengthName.2] at hcopied
    obtain ⟨v, hv, rfl⟩ := List.mem_map.1 hcopied
    obtain ⟨text, htext, hdeclared⟩ := Option.bind_eq_some_iff.1 (h v hv)
    unfold Http.HeaderValue.textOrEmpty
    rw [htext]
    exact hdeclared

/-- The context which a response chain starts from declares the length of its body. -/
theorem Builds.declares (h : AssignsNoLength world rules) {ctx : ResponseContext} {response : ClientResponse}
    (hbuilds : Builds world rules engine ctx response) : Declares ctx.body.length ctx.headers := by
  cases hbuilds with
  | intercepted displayUri host method ownsRecording hfresh hrun hanswer =>
    have hdeclares := executeRequest_declares h hfresh
    rw [hrun] at hdeclares
    unfold interceptedContext
    rw [ResponseContext.extendFlow_frame]
    exact hdeclares _ hanswer
  | buffered codecs fwd hframed hbuffered =>
    obtain ⟨-, hheaders, hbody⟩ := responseContext_message fwd _ _ _ false
    rw [hheaders, hbody]
    exact upstream_declares codecs hframed

/-! ### The response chain -/

theorem executeResponse_eq (ctx : ResponseContext) :
    MiddlewareChain.executeResponse (rules.chain world) ctx =
      match edited world rules ctx with
      | (left, .proceed) => UnifiedRewrite.onResponse world.regex rules.routing.rewrite left
      | (left, .stopAndReturn) => (left, .stopAndReturn) := by
  have hscripts : LuaEngine.onResponse world.vm rules.scripts ctx =
      ((LuaEngine.onResponse world.vm rules.scripts ctx).1, .proceed) :=
    Prod.ext rfl (onResponse_scripts_proceeds world.vm rules.scripts ctx)
  rw [ProductionRules.executeResponse_chain]
  simp only [MiddlewareChain.execute]
  rw [hscripts]
  unfold edited
  dsimp only
  split
  · rename_i left hleft
    rw [hleft]
    rfl
  · rename_i left hleft
    rw [hleft]

/-- Scripts and operator keep what is declared. -/
theorem edited_declares (h : AssignsNoLength world rules) {ctx left : ResponseContext} {action : MiddlewareAction}
    {n : Nat}
    (hdeclares : Declares n ctx.headers) (hedited : edited world rules ctx = (left, action)) :
    Declares n left.headers := by
  have hleft : left = (edited world rules ctx).1 := by rw [hedited]
  rw [hleft]
  unfold edited
  exact (hdeclares.of_subset (onResponse_scripts_length h.scripts ctx)).of_subset
    (onResponse_breakpoints_length h.pausedResponse _)

/-! ### Heads -/

theorem framed_of_no_length {response : ClientResponse} (h : response.headers.getAll "content-length" = []) :
    Framed response := by
  intro v hv
  rw [h] at hv
  cases hv

/-- A head with the declared length `n` is framed where the body has that length, or nothing is declared, or the head
is not built at all. -/
theorem framed_finish {n status : Nat} {sent : List (Str × Str)} {headers : HeaderMap} {body : Bytes}
    {trailers : Http.Headers} {fallback : ClientResponse} (hdeclares : Declares n headers)
    (hallowed : (∀ f ∈ sent, FieldAllowed f) ↔ ∀ f ∈ headers.entries, FieldAllowed f)
    (hlength : (sent.filter fun f => f.1.toAsciiLowercase = ("content-length" : Str)).map Prod.snd = fields headers)
    (hfallback : Framed fallback) :
    Framed (finish status sent body trailers fallback) ↔
      body.length = n ∨ fields headers = [] ∨ ¬ ∀ f ∈ headers.entries, FieldAllowed f := by
  unfold finish
  -- one refused field and the fallback response is sent instead
  cases hbuilt : builderHeaders sent with
  | none =>
    have hrefused : ¬ ∀ f ∈ headers.entries, FieldAllowed f := by
      intro hentries
      rw [builderHeaders_eq, if_pos (hallowed.2 hentries)] at hbuilt
      cases hbuilt
    exact ⟨fun _ => Or.inr (Or.inr hrefused), fun _ => hfallback⟩
  | some built =>
    have hentries : ∀ f ∈ headers.entries, FieldAllowed f := by
      by_contra hrefused
      rw [builderHeaders_eq, if_neg fun hsent => hrefused (hallowed.1 hsent)] at hbuilt
      cases hbuilt
    have hgetAll : built.getAll "content-length" = (fields headers).map Str.toUtf8 := by
      rw [getAll_builderHeaders hbuilt, hlength]
    -- every length field still declares n after the way through the builder
    have hread : ∀ t ∈ fields headers, (Http.HeaderValue.toStr t.toUtf8).bind declared = some n := by
      intro t ht
      rw [Http.HeaderValue.toStr_toUtf8_of_digits (digits_of_declared (hdeclares t ht))]
      exact hdeclares t ht
    constructor
    · intro hframed
      cases hfields : fields headers with
      | nil => exact Or.inr (Or.inl rfl)
      | cons t rest =>
        have ht : t ∈ fields headers := by rw [hfields]; exact List.mem_cons_self
        have hsame := hframed t.toUtf8 (by rw [hgetAll]; exact List.mem_map_of_mem ht)
        rw [hread t ht] at hsame
        exact Or.inl (Option.some.inj hsame).symm
    · rintro (hbody | hnone | hrefused)
      · intro v hv
        rw [hgetAll] at hv
        obtain ⟨t, ht, rfl⟩ := List.mem_map.1 hv
        rw [hread t ht, hbody]
      · exact framed_of_no_length (by rw [hgetAll, hnone]; rfl)
      · exact absurd hentries hrefused

/-- What the rewrite rules make of the condition. -/
theorem rewritten_iff (h : AssignsNoLength world rules) (left : ResponseContext) (n : Nat) (allowed : Prop) :
    ((UnifiedRewrite.onResponse world.regex rules.routing.rewrite left).1.body.length = n ∨
        fields (UnifiedRewrite.onResponse world.regex rules.routing.rewrite left).1.headers = [] ∨ ¬ allowed) ↔
      (left.body.length = n ∨ fields left.headers = [] ∨
        dropped world.regex (applyingToResponse world.regex rules.routing.rewrite left) left.bodyText = true ∨
        ¬ allowed) := by
  have hedits := @onResponse_edits world.regex rules.routing.rewrite h.rewrite left
  cases hdropped : dropped world.regex (applyingToResponse world.regex rules.routing.rewrite left) left.bodyText with
  | true => simp [hedits.1 hdropped]
  | false =>
    obtain ⟨hfields, hbody⟩ := hedits.2 hdropped
    rw [hfields, hbody]
    simp

private theorem filter_entries (headers : HeaderMap) :
    (headers.entries.filter fun f => Str.toAsciiLowercase f.1 = ("content-length" : Str)).map Prod.snd =
      fields headers := by
  unfold fields HeaderMap.getAll
  congr 1
  apply List.filter_congr
  intro f hf
  rw [headers.lower f hf, lengthName.2, beq_eq_decide]

/-- What leaves the response chain is framed exactly under the condition. -/
theorem framed_chain (h : AssignsNoLength world rules) {ctx : ResponseContext} {response : ClientResponse}
    (hdeclares : Declares ctx.body.length ctx.headers)
    (hproceed : ∀ final, MiddlewareChain.executeResponse (rules.chain world) ctx = (final, .proceed) →
      ∃ status sent trailers fallback, response = finish status sent final.body trailers fallback ∧
        ((∀ f ∈ sent, FieldAllowed f) ↔ ∀ f ∈ final.headers.entries, FieldAllowed f) ∧
        (sent.filter fun f => f.1.toAsciiLowercase = ("content-length" : Str)).map Prod.snd = fields final.headers ∧
        Framed fallback)
    (hstop : ∀ final, MiddlewareChain.executeResponse (rules.chain world) ctx = (final, .stopAndReturn) →
      Framed response) :
    Framed response ↔ LengthKept world rules ctx := by
  have hrun := @executeResponse_eq world rules ctx
  cases hedited : edited world rules ctx with
  | mk left action =>
    rw [hedited] at hrun
    unfold LengthKept
    cases action with
    | stopAndReturn =>
      refine ⟨fun _ left' hleft' => ?_, fun _ => hstop left hrun⟩
      rw [hedited] at hleft'
      cases hleft'
    | proceed =>
      have hfinal : MiddlewareChain.executeResponse (rules.chain world) ctx =
          ((UnifiedRewrite.onResponse world.regex rules.routing.rewrite left).1, .proceed) := hrun
      obtain ⟨status, sent, trailers, fallback, rfl, hallowed, hlength, hfallback⟩ := hproceed _ hfinal
      have hleft := edited_declares h hdeclares hedited
      have hedits := @onResponse_edits world.regex rules.routing.rewrite h.rewrite left
      have hfinalDeclares : Declares ctx.body.length
          (UnifiedRewrite.onResponse world.regex rules.routing.rewrite left).1.headers := by
        cases hdropped : dropped world.regex (applyingToResponse world.regex rules.routing.rewrite left)
            left.bodyText with
        | true => exact Declares.of_eq_nil (hedits.1 hdropped)
        | false =>
          unfold Declares
          rw [(hedits.2 hdropped).1]
          exact hleft
      rw [framed_finish hfinalDeclares hallowed hlength hfallback, rewritten_iff h]
      constructor
      · intro hkept left' hleft'
        rw [hedited] at hleft'
        cases hleft'
        exact hkept
      · exact fun hkept => hkept left hedited

/-! ### The two paths -/

private theorem framed_textResponse (status : Nat) (text : Str) : Framed (textResponse status text) :=
  framed_of_no_length rfl

private theorem framed_emptyResponse (status : Nat) : Framed (emptyResponse status) := framed_of_no_length rfl

private theorem respondToIntercepted_eq (chain : List Middleware) (answer : InterceptedResponse)
    (request : RequestContext) (displayUri host method : Str) (ownsRecording : Bool) :
    respondToIntercepted chain answer request displayUri host method ownsRecording =
      match MiddlewareChain.executeResponse chain
        (interceptedContext answer request displayUri host method ownsRecording) with
      | (final, .proceed) =>
        finish ((Http.statusCode final.status).getD 200) final.headers.entries final.body []
          (textResponse 500 "mock error")
      | (_, .stopAndReturn) => stoppedByMiddleware "Response" := rfl

private theorem deliverResponse_buffered {codecs : Codecs} {chain : List Middleware} {fwd : Forwarded}
    {res : UpstreamResponse} (hbuffered : engine.streamsResponse res = false) :
    (engine.deliverResponse codecs chain fwd res).response =
      match MiddlewareChain.executeResponse chain
        (responseContext fwd res (decodedResponseBody codecs (responseHeaders res) res.body).1
          (decodedResponseBody codecs (responseHeaders res) res.body).2 false) with
      | (final, .proceed) =>
        finish ((Http.statusCode final.status).getD 500) (engine.responseFields final) final.body
          (grpcTrailers res final.status) (emptyResponse 500)
      | (_, .stopAndReturn) => stoppedByMiddleware "Response" := by
  unfold deliverResponse
  rw [hbuffered]
  simp only [Bool.false_eq_true, if_false]
  rcases MiddlewareChain.executeResponse chain
    (responseContext fwd res (decodedResponseBody codecs (responseHeaders res) res.body).1
      (decodedResponseBody codecs (responseHeaders res) res.body).2 false) with ⟨final, _ | _⟩
  · rfl
  · rfl

/-- A response of the buffered or of the intercepted path is framed exactly where the length of its body is kept, or
its declared length is dropped. -/
theorem framed_iff {ctx : ResponseContext} {response : ClientResponse} (h : AssignsNoLength world rules)
    (hbuilds : Builds world rules engine ctx response) : Framed response ↔ LengthKept world rules ctx := by
  apply framed_chain h (hbuilds.declares h)
  · intro final hfinal
    cases hbuilds with
    | intercepted displayUri host method ownsRecording hfresh hrun hanswer =>
      rw [respondToIntercepted_eq, hfinal]
      exact ⟨_, _, _, _, rfl, Iff.rfl, filter_entries final.headers, framed_textResponse 500 "mock error"⟩
    | buffered codecs fwd hframed hbuffered =>
      rw [deliverResponse_buffered hbuffered, hfinal]
      exact ⟨_, _, _, _, rfl, responseFields_allowed engine, filter_responseFields engine lengthName.2 (by decide),
        framed_emptyResponse 500⟩
  · intro final hfinal
    cases hbuilds with
    | intercepted displayUri host method ownsRecording hfresh hrun hanswer =>
      rw [respondToIntercepted_eq, hfinal]
      exact framed_textResponse 403 _
    | buffered codecs fwd hframed hbuffered =>
      rw [deliverResponse_buffered hbuffered, hfinal]
      exact framed_textResponse 403 _

/-! ### A script which changes a body -/

/-- An interpreter in which every response script sets the body to `hello`. -/
private def greetingVm : LuaVm where
  request := fun _ _ _ _ _ => none
  response := fun _ _ _ _ => some ⟨none, some "hello", none⟩

private def greetingWorld : Surroundings := { Surroundings.bare with vm := greetingVm }

private def greetingRules : ProductionRules :=
  { ProductionRules.empty with scripts := [⟨"1", "greet", "response.body = \"hello\"", true⟩] }

private def greetedResponse : UpstreamResponse := .plain

private def greetedForward : Forwarded :=
  ⟨"http://api.test/", "api.test", "GET", RequestContext.default, false, false, 1, 1, 2⟩

private def greetingCodecs : Codecs := ⟨fun _ => none, fun _ => none, fun _ => none, fun _ => none, fun _ => none⟩

private def greetingEngine : ProxyEngine := ⟨10485760, 524288, 8080, "127.0.0.1", [], none⟩

private theorem greeting_assignsNoLength : AssignsNoLength greetingWorld greetingRules where
  rewrite := by
    intro rule hrule
    cases hrule
  mocks := by
    intro rule hrule
    cases hrule
  scripts := by
    intro script _ _ status body headers result hresult e he
    cases hresult
    cases he
  pausedRequest := by
    intro ctx newCtx hanswer
    cases hanswer
  pausedResponse := by
    intro ctx newCtx hanswer
    cases hanswer

/-- The upstream sends two bytes, the script makes five of them, the head still says two. -/
theorem not_framed : AssignsNoLength greetingWorld greetingRules ∧
    ∃ ctx response, Builds greetingWorld greetingRules greetingEngine ctx response ∧ ¬ Framed response := by
  refine ⟨greeting_assignsNoLength, _, _, @Builds.buffered greetingWorld greetingRules greetingEngine greetingCodecs
    greetedForward greetedResponse ?_ ?_, ?_⟩
  · decide
  · decide
  · decide

theorem framed_iff_greeting : ∃ ctx response, Builds greetingWorld greetingRules greetingEngine ctx response ∧
    (Framed response ↔ LengthKept greetingWorld greetingRules ctx) := by
  have hbuilds := @Builds.buffered greetingWorld greetingRules greetingEngine greetingCodecs greetedForward
    greetedResponse (by decide) (by decide)
  exact ⟨_, _, hbuilds, framed_iff greeting_assignsNoLength hbuilds⟩

end Framing

end Oproxy
