import Oproxy.Engine.Exchange

/-!
# The trailers of a gRPC response

The client library drops the trailers of the upstream, so the buffered path makes up trailers which say that the call
has succeeded.  It asks for the content type of the upstream and for the final status only: neither a `grpc-status`
in the head nor a body which broke off has a say.
-/

namespace Oproxy

namespace ProxyEngine

/-- The buffered response side, where `read` is what reading the body came to; after an error the body is empty. -/
def deliverRead (engine : ProxyEngine) (codecs : Codecs) (chain : List Middleware) (fwd : Forwarded)
    (res : UpstreamResponse) (read : Option Bytes) : ClientResponse :=
  let (headers, body) := decodedResponseBody codecs (responseHeaders res) (read.getD [])
  match MiddlewareChain.executeResponse chain (responseContext fwd res headers body false) with
  | (ctx, .proceed) =>
    finish ((Http.statusCode ctx.status).getD 500) (engine.responseFields ctx) ctx.body (grpcTrailers res ctx.status)
      (emptyResponse 500)
  | (_, .stopAndReturn) => stoppedByMiddleware "Response"

/-- Where reading succeeds, this is the response side of `handle_request_with_destination`. -/
theorem deliverResponse_eq_deliverRead {engine : ProxyEngine} {res : UpstreamResponse}
    (h : engine.streamsResponse res = false) (codecs : Codecs) (chain : List Middleware) (fwd : Forwarded) :
    (engine.deliverResponse codecs chain fwd res).response =
      engine.deliverRead codecs chain fwd res (some res.body) := by
  unfold deliverResponse deliverRead
  simp only [h, Bool.false_eq_true, if_false, Option.getD_some]
  rcases MiddlewareChain.executeResponse chain
    (responseContext fwd res (decodedResponseBody codecs (responseHeaders res) res.body).1
      (decodedResponseBody codecs (responseHeaders res) res.body).2 false) with ⟨ctx, _ | _⟩ <;> rfl

end ProxyEngine

namespace GrpcTrailers

open ProxyEngine

/-- The trailers say what the head says, and after an error they do not say that all went well. -/
structure Honest (res : UpstreamResponse) (read : Option Bytes) (response : ClientResponse) : Prop where
  head : ∀ status ∈ res.headers.getAll "grpc-status", ∀ sent ∈ response.trailers.getAll "grpc-status", sent = status
  read : read = none → Str.toUtf8 "0" ∉ response.trailers.getAll "grpc-status"

/-- Nothing says that the call has failed. -/
structure Succeeded (res : UpstreamResponse) (read : Option Bytes) : Prop where
  head : ∀ status ∈ res.headers.getAll "grpc-status", status = Str.toUtf8 "0"
  read : read.isSome = true

section

variable (engine : ProxyEngine) (codecs : Codecs) (chain : List Middleware) (fwd : Forwarded) (res : UpstreamResponse)
  (read : Option Bytes)

/-- The upstream speaks gRPC, and the response chain leaves the status 200 and a valid head. -/
def EndsWell : Prop :=
  Str.startsWith (responseContentType res) "application/grpc" = true ∧
    ∃ ctx, MiddlewareChain.executeResponse chain
        (responseContext fwd res (decodedResponseBody codecs (responseHeaders res) (read.getD [])).1
          (decodedResponseBody codecs (responseHeaders res) (read.getD [])).2 false) = (ctx, .proceed) ∧
      ctx.status = 200 ∧ ∀ f ∈ ctx.headers.entries, FieldAllowed f

/-- The trailers depend on the content type and on the status alone. -/
theorem trailers_deliverRead :
    (EndsWell codecs chain fwd res read →
        (engine.deliverRead codecs chain fwd res read).trailers.getAll "grpc-status" = [Str.toUtf8 "0"]) ∧
      (¬ EndsWell codecs chain fwd res read →
        (engine.deliverRead codecs chain fwd res read).trailers.getAll "grpc-status" = []) := by
  constructor
  · rintro ⟨hgrpc, ctx, hrun, hstatus, hfields⟩
    unfold deliverRead
    dsimp only
    rw [hrun]
    dsimp only
    obtain ⟨headers, hfinish, -⟩ :=
      finish_responseFields engine hfields ((Http.statusCode ctx.status).getD 500) ctx.body
      (grpcTrailers res ctx.status) (emptyResponse 500)
    rw [hfinish]
    unfold grpcTrailers
    rw [hgrpc, hstatus]
    rfl
  · intro hnot
    unfold deliverRead
    dsimp only
    split
    · rename_i ctx hrun
      unfold finish
      rw [builderHeaders_eq]
      by_cases hfields : ∀ f ∈ engine.responseFields ctx, FieldAllowed f
      · rw [if_pos hfields]
        dsimp only
        unfold grpcTrailers
        split
        · rename_i hgrpc
          rw [Bool.and_eq_true, decide_eq_true_eq] at hgrpc
          exact absurd ⟨hgrpc.1, ctx, hrun, hgrpc.2, (responseFields_allowed engine).1 hfields⟩ hnot
        · rfl
      · rw [if_neg hfields]
        rfl
    · rfl

/-- A failed call is reported as a success exactly where trailers are sent although the head or the read says that it
has failed. -/
theorem honest_iff :
    Honest res read (engine.deliverRead codecs chain fwd res read) ↔
      (EndsWell codecs chain fwd res read → Succeeded res read) := by
  obtain ⟨hsent, hnone⟩ := trailers_deliverRead engine codecs chain fwd res read
  constructor
  · intro hhonest hends
    have htrailers := hsent hends
    refine ⟨?_, ?_⟩
    · intro status hstatus
      exact (hhonest.head status hstatus _ (by rw [htrailers]; exact List.mem_singleton.2 rfl)).symm
    · rw [Option.isSome_iff_ne_none]
      intro hread
      refine hhonest.read hread ?_
      rw [htrailers]
      exact List.mem_singleton.2 rfl
  · intro hcondition
    by_cases hends : EndsWell codecs chain fwd res read
    · have htrailers := hsent hends
      obtain ⟨hhead, hread⟩ := hcondition hends
      refine ⟨?_, ?_⟩
      · intro status hstatus sent hmem
        rw [htrailers, List.mem_singleton] at hmem
        rw [hmem, hhead status hstatus]
      · intro hbroken
        rw [hbroken] at hread
        cases hread
    · have htrailers := hnone hends
      refine ⟨?_, ?_⟩
      · intro status _ sent hmem
        rw [htrailers] at hmem
        cases hmem
      · rw [htrailers]
        intro _ hmem
        cases hmem

end

/-! ### A call which fails at once -/

private def notFound : UpstreamResponse :=
  { UpstreamResponse.plain with
    version := .http2
    headers := [("content-type", Str.toUtf8 "application/grpc"), ("grpc-status", Str.toUtf8 "5")]
    contentLength := none
    chunks := []
    headers_wf := by decide
    length_known := by decide }

private def callForward : Forwarded :=
  ⟨"http://api.test/", "api.test", "POST", RequestContext.default, false, false, 1, 1, 2⟩

private def callEngine : ProxyEngine := ⟨10485760, 524288, 8080, "127.0.0.1", [], none⟩

private def callCodecs : Codecs := ⟨fun _ => none, fun _ => none, fun _ => none, fun _ => none, fun _ => none⟩

/-- A head which says 5 and a body which breaks off are both followed by trailers which say 0. -/
theorem not_honest :
    ¬ Honest notFound (some []) (callEngine.deliverRead callCodecs [] callForward notFound (some [])) ∧
      ¬ Honest notFound none (callEngine.deliverRead callCodecs [] callForward notFound none) := by
  have hsent : ∀ read, read = some [] ∨ read = none →
      (callEngine.deliverRead callCodecs [] callForward notFound read).trailers.getAll "grpc-status" =
        [Str.toUtf8 "0"] := by
    rintro read (rfl | rfl)
    · decide
    · decide
  constructor
  · intro hhonest
    have hsame := hhonest.head (Str.toUtf8 "5") (by decide) (Str.toUtf8 "0")
    rw [hsent (some []) (Or.inl rfl)] at hsame
    have heq := hsame (List.mem_singleton.2 rfl)
    revert heq
    decide
  · intro hhonest
    have hbroken := hhonest.read rfl
    rw [hsent none (Or.inr rfl)] at hbroken
    exact hbroken (List.mem_singleton.2 rfl)

end GrpcTrailers

end Oproxy
