import Oproxy.Engine.Recording

/-!
# The recorders of responses (`core/engine/mod.rs`, `middleware/plugins/inspection.rs`)

Three places give a session its response: the engine, the inspection of a response in the chain, and the observer of
a streamed response when its stream is through.  The first two look the session up beforehand.  Each enqueues the
response with its metrics and, if the response has tags, an annotation of the session with them.
-/

namespace Oproxy

namespace ProxyEngine

def recordResponseWithOptionalSize (view : StoreView) (response : ResponseContext) (sizeOverride : Option Nat) :
    List WriteOp :=
  match response.sessionId with
  | none => []
  | some sessionId =>
    match view.getSession sessionId with
    | none => [.recordResponse sessionId response]
    | some session =>
      if session.response.isSome then []
      else
        let metrics := InspectionMetrics.ofStatus response.status (latencyMs view.now session.timestamp)
          session.request.body.length (sizeOverride.getD (recordedResponseSize response)) response.ttfbMs
          response.bodyMs none
        .recordResponseWithMetrics sessionId response metrics ::
          if response.tags.isEmpty then []
          else [.annotate sessionId none (some (mergeTags session.tags response.tags))]

theorem recordShortCircuitResponse_eq (view : StoreView) (response : ResponseContext) :
    recordShortCircuitResponse view response = recordResponseWithOptionalSize view response none := rfl

end ProxyEngine

namespace Inspection

/-- `content_length` of `inspection.rs`. -/
def contentLength (headers : HeaderMap) : Option Nat :=
  (headers.get "content-length").bind fun value => Str.parseUnsigned usizeMax value.trim

/-- `on_response`: the context is recorded without its tags, which go to the session. -/
def onResponse (view : StoreView) (ctx : ResponseContext) : ResponseContext × List WriteOp :=
  if ctx.responseBodyObserverPending || ctx.terminalRecordingPending then (ctx, [])
  else
    let tags := ctx.tags
    let ctx := { ctx with tags := [] }
    match ctx.sessionId.bind view.getSession with
    | none => (ctx, [])
    | some session =>
      if session.response.isSome then (ctx, [])
      else
        let responseSizeBytes :=
          if ctx.body.isEmpty then (contentLength ctx.headers).getD 0 else ctx.body.length
        let metrics := InspectionMetrics.ofStatus ctx.status (ProxyEngine.latencyMs view.now session.timestamp)
          session.request.body.length responseSizeBytes ctx.ttfbMs ctx.bodyMs ctx.protocol
        (ctx, .recordResponseWithMetrics session.id ctx metrics ::
          if tags.isEmpty then []
          else [.annotate session.id none (some (ProxyEngine.mergeTags session.tags tags))])

end Inspection

/-- The observer of a streamed response. -/
structure InspectionObserver where
  sessionId : Str
  responseHead : Option ResponseContext
  byteCount : Nat
  retained : Bytes
  maxRetainedBodyBytes : Nat

namespace InspectionObserver

def new (sessionId : Str) (maxRetainedBodyBytes : Nat) : InspectionObserver :=
  ⟨sessionId, none, 0, [], maxRetainedBodyBytes⟩

def onResponseHead (obs : InspectionObserver) (res : ResponseContext) : InspectionObserver :=
  { obs with responseHead := some res }

def onChunk (obs : InspectionObserver) (chunk : Bytes) : InspectionObserver :=
  { obs with
    byteCount := obs.byteCount + chunk.length
    retained := obs.retained ++ chunk.take (obs.maxRetainedBodyBytes - obs.retained.length) }

/-- `finish`, `latencyMs` after the head; the byte count is taken as a `usize`. -/
def finish (obs : InspectionObserver) (latencyMs : Nat) : List WriteOp :=
  match obs.responseHead with
  | none => []
  | some head =>
    let ctx := { head with body := obs.retained }.pushFlow (.completed head.status latencyMs)
    let metrics := InspectionMetrics.ofStatus ctx.status latencyMs 0 obs.byteCount ctx.ttfbMs (latencyMs - ctx.ttfbMs)
      ctx.protocol
    .recordResponseWithMetrics obs.sessionId ctx metrics ::
      if ctx.tags.isEmpty then [] else [.annotate obs.sessionId none (some ctx.tags)]

end InspectionObserver

/-- A response on its way to its session. -/
inductive ResponseRecorder where
  | engine (response : ResponseContext) (sizeOverride : Option Nat)
  | inspection (response : ResponseContext)
  | observer (obs : InspectionObserver) (latencyMs : Nat)

namespace ResponseRecorder

/-- The tags which the response brings. -/
def tags : ResponseRecorder → List Str
  | engine response _ => response.tags
  | inspection response => response.tags
  | observer obs _ => (obs.responseHead.map ResponseContext.tags).getD []

/-- The session as the recorder finds it; the observer does not look. -/
def snapshot (view : StoreView) : ResponseRecorder → Option Exchange
  | engine response _ => response.sessionId.bind view.getSession
  | inspection response => response.sessionId.bind view.getSession
  | observer _ _ => none

/-- What the recorder enqueues, in this order. -/
def ops (view : StoreView) : ResponseRecorder → List WriteOp
  | engine response sizeOverride => ProxyEngine.recordResponseWithOptionalSize view response sizeOverride
  | inspection response => (Inspection.onResponse view response).2
  | observer obs latencyMs => obs.finish latencyMs

end ResponseRecorder

/-- The tags which an operation gives to a session. -/
def WriteOp.tagsFor (id : Str) : WriteOp → Option (List Str)
  | .annotate id' _ tags => if id' = id then tags else none
  | _ => none

theorem UnifiedRewrite.mem_pushTagOnce {tags : List Str} {tag tag' : Str} :
    tag' ∈ UnifiedRewrite.pushTagOnce tags tag ↔ tag' ∈ tags ∨ tag' = tag := by
  unfold UnifiedRewrite.pushTagOnce
  split
  · rename_i hin
    refine ⟨Or.inl, ?_⟩
    rintro (h | rfl)
    · exact h
    · exact List.contains_iff_mem.1 hin
  · rw [List.mem_append, List.mem_singleton]

theorem ProxyEngine.mem_mergeTags {existing tags : List Str} {tag : Str} :
    tag ∈ ProxyEngine.mergeTags existing tags ↔ tag ∈ existing ∨ tag ∈ tags := by
  unfold ProxyEngine.mergeTags
  induction tags generalizing existing with
  | nil => simp
  | cons first rest ih =>
    rw [List.foldl_cons, ih, UnifiedRewrite.mem_pushTagOnce, List.mem_cons, or_assoc]

namespace ResponseRecorder

variable {view : StoreView} {id : Str}

private theorem shape_annotated {recorded : WriteOp} {sessionId : Str} {tags : List Str} {empty : Bool}
    {P : List Str → Prop} (hrecorded : recorded.tagsFor id = none) (hP : P tags) :
    ∃ before last, recorded :: (if empty = true then [] else [.annotate sessionId none (some tags)]) =
      before ++ [last] ∧
      (∀ op ∈ before, op.tagsFor id = none) ∧ ∀ tags', last.tagsFor id = some tags' → P tags' := by
  cases empty with
  | true =>
    refine ⟨[], recorded, rfl, by simp, ?_⟩
    intro tags' htags
    rw [hrecorded] at htags
    cases htags
  | false =>
    refine ⟨[recorded], _, rfl, ?_, ?_⟩
    · intro op hop
      rw [List.mem_singleton] at hop
      rw [hop]
      exact hrecorded
    · intro tags' htags
      simp only [WriteOp.tagsFor] at htags
      split at htags
      · cases htags
        exact hP
      · cases htags

/-- Only the last operation of a recorder can write tags; those are the tags of the response, with the tags which the
session had when the recorder looked. -/
theorem ops_shape (recorder : ResponseRecorder) (view : StoreView) (id : Str) :
    recorder.ops view = [] ∨ ∃ before last, recorder.ops view = before ++ [last] ∧
      (∀ op ∈ before, op.tagsFor id = none) ∧ ∀ tags, last.tagsFor id = some tags →
        ∀ tag, tag ∈ tags ↔ tag ∈ recorder.tags ∨ ∃ session, recorder.snapshot view = some session ∧
          tag ∈ session.tags := by
  have hmerged : ∀ (session : Exchange) (tags : List Str) (tag : Str),
      tag ∈ ProxyEngine.mergeTags session.tags tags ↔
        tag ∈ tags ∨ ∃ session', some session = some session' ∧ tag ∈ session'.tags := by
    intro session tags tag
    rw [ProxyEngine.mem_mergeTags, or_comm]
    simp
  cases recorder with
  | engine response sizeOverride =>
    dsimp only [ops, snapshot, ResponseRecorder.tags]
    unfold ProxyEngine.recordResponseWithOptionalSize
    cases hid : response.sessionId with
    | none => exact Or.inl rfl
    | some sessionId =>
      simp only [Option.bind_some]
      cases hsession : view.getSession sessionId with
      | none =>
        refine Or.inr ⟨[], _, rfl, by simp, ?_⟩
        intro tags htags
        cases htags
      | some session =>
        dsimp only
        split
        · exact Or.inl rfl
        · exact Or.inr (shape_annotated rfl (hmerged session response.tags))
  | inspection response =>
    dsimp only [ops, snapshot, ResponseRecorder.tags]
    unfold Inspection.onResponse
    dsimp only
    split
    · exact Or.inl rfl
    · cases hsession : response.sessionId.bind view.getSession with
      | none => exact Or.inl rfl
      | some session =>
        dsimp only
        split
        · exact Or.inl rfl
        · exact Or.inr (shape_annotated rfl (hmerged session response.tags))
  | observer obs latencyMs =>
    dsimp only [ops, snapshot, ResponseRecorder.tags]
    unfold InspectionObserver.finish
    cases hhead : obs.responseHead with
    | none => exact Or.inl rfl
    | some head =>
      refine Or.inr (shape_annotated rfl ?_)
      intro tag
      simp [ResponseContext.pushFlow]

end ResponseRecorder

end Oproxy
