import Oproxy.Engine.Recorders
import Oproxy.Session.Operations

/-!
# One response in the hands of the three recorders (`core/engine/mod.rs`, `middleware/plugins/inspection.rs`)

The same response is recorded for the same session by the engine, by the inspection in the chain, or by the observer
that its body is fed to; and what the session then shows of it is compared.
-/

namespace Oproxy

/-! ### What a session shows after a recorder -/

namespace SessionStore

variable {s : SessionStore} {id : Str} {session : Exchange} (clock : Nat → Timestamp)

theorem get?_step_respond (h : s.exchanges.get? id = some session) (response : ResponseContext)
    (metrics : InspectionMetrics) :
    ∃ after, (s.step ⟨clock, .recordResponseWithMetrics id response metrics⟩).exchanges.get? id = some after ∧
      after.metrics = (if session.response = none then some metrics else session.metrics) ∧
      after.tags = session.tags := by
  have hunbudgeted := get?_unbudgeted_of_keepsIds s ⟨clock, .recordResponseWithMetrics id response metrics⟩ id rfl
  rw [h, Option.map_some] at hunbudgeted
  obtain ⟨after, hafter, hsame⟩ := get?_step_of_unbudgeted id hunbudgeted
  have htouched : touch ⟨clock, .recordResponseWithMetrics id response metrics⟩ id session =
      if session.response = none then withResponse (clock 0) response (some metrics) session else session := by
    unfold touch
    simp
  rw [htouched] at hsame
  refine ⟨after, hafter, ?_⟩
  by_cases hopen : session.response = none
  · rw [if_pos hopen] at hsame ⊢
    rcases hsame with rfl | rfl <;> exact ⟨rfl, rfl⟩
  · rw [if_neg hopen] at hsame ⊢
    rcases hsame with rfl | rfl <;> exact ⟨rfl, rfl⟩

theorem get?_step_annotate (h : s.exchanges.get? id = some session) (tags : List Str) :
    ∃ after, (s.step ⟨clock, .annotate id none (some tags)⟩).exchanges.get? id = some after ∧
      after.metrics = session.metrics ∧ after.tags = tags := by
  have hunbudgeted := get?_unbudgeted_of_keepsIds s ⟨clock, .annotate id none (some tags)⟩ id rfl
  rw [h, Option.map_some] at hunbudgeted
  obtain ⟨after, hafter, hsame⟩ := get?_step_of_unbudgeted id hunbudgeted
  have htouched : touch ⟨clock, .annotate id none (some tags)⟩ id session =
      annotated (clock 0) none (some tags) session := if_pos rfl
  rw [htouched] at hsame
  exact ⟨after, hafter, by rcases hsame with rfl | rfl <;> exact ⟨rfl, rfl⟩⟩

end SessionStore

/-- The metrics but for the time which the recorder's clock gives. -/
def InspectionMetrics.withoutLatency (metrics : InspectionMetrics) : InspectionMetrics :=
  { metrics with latencyMs := 0 }

/-- A session of the store and a response of it, whose body comes in chunks within the retention cap. -/
structure RecordedOnce where
  store : SessionStore
  id : Str
  session : Exchange
  stored : store.exchanges.get? id = some session
  own_id : session.id = id
  head : ResponseContext
  of_session : head.sessionId = some id
  body : Bytes
  chunks : List Bytes
  chunks_eq : chunks.flatten = body
  cap : Nat
  body_le : body.length ≤ cap

namespace RecordedOnce

section

variable (r : RecordedOnce) (clock : Nat → Timestamp) (now : Timestamp) (elapsedMs : Nat)

/-- The response with its body, which nobody else is to record. -/
def response : ResponseContext :=
  { r.head with body := r.body, responseBodyObserverPending := false, terminalRecordingPending := false }

def view : StoreView := ⟨r.store.exchanges.get?, now⟩

/-- The metrics and the tags of the session after some operations. -/
def shown (ops : List WriteOp) : Option (Option InspectionMetrics × List Str) :=
  ((ops.foldl (fun s op => s.step ⟨clock, op⟩) r.store).exchanges.get? r.id).map fun session =>
    (session.metrics.map InspectionMetrics.withoutLatency, session.tags)

/-- The engine knows how many bytes have gone out where it has streamed the body. -/
def byEngine (counted : Bool) : Option (Option InspectionMetrics × List Str) :=
  r.shown clock (ProxyEngine.recordResponseWithOptionalSize (r.view now) r.response
    (if counted then some r.body.length else none))

def byInspection : Option (Option InspectionMetrics × List Str) :=
  r.shown clock (Inspection.onResponse (r.view now) r.response).2

def byObserver : Option (Option InspectionMetrics × List Str) :=
  r.shown clock (((r.chunks.foldl InspectionObserver.onChunk
    ((InspectionObserver.new r.id r.cap).onResponseHead r.head))).finish elapsedMs)

/-- All three leave the same metrics and tags; and the metrics of a session which had no response have the protocol. -/
structure Agree : Prop where
  engine : ∀ counted, r.byEngine clock now counted = r.byObserver clock elapsedMs
  inspection : r.byInspection clock now = r.byObserver clock elapsedMs
  protocol : r.session.response = none → ∀ counted, ∃ metrics tags,
    r.byEngine clock now counted = some (some metrics, tags) ∧ metrics.protocol = r.head.protocol

/-- The request has no body and the response no protocol; its body time is what has passed since its first byte; and an
empty body is declared as such, if at all. -/
structure PlainMetrics : Prop where
  request : r.session.request.body = []
  protocol : r.head.protocol = none
  body_time : r.head.bodyMs = elapsedMs - r.head.ttfbMs
  length : r.body = [] → (Inspection.contentLength r.head.headers).getD 0 = 0

/-- The response brings no tags, or those which the session has and after them new ones, each once. -/
def TagsContinue : Prop :=
  r.head.tags = [] ∨ ∃ rest, r.head.tags = r.session.tags ++ rest ∧ rest.Nodup ∧ ∀ tag ∈ rest, tag ∉ r.session.tags

end

/-! ### Tags -/

theorem mergeTags_of_subset {existing tags : List Str} (h : ∀ tag ∈ tags, tag ∈ existing) :
    ProxyEngine.mergeTags existing tags = existing := by
  unfold ProxyEngine.mergeTags
  induction tags with
  | nil => rfl
  | cons tag tags ih =>
    obtain ⟨htag, htags⟩ := List.forall_mem_cons.1 h
    have hsame : UnifiedRewrite.pushTagOnce existing tag = existing := by
      unfold UnifiedRewrite.pushTagOnce
      rw [if_pos (List.contains_iff_mem.2 htag)]
    rw [List.foldl_cons, hsame]
    exact ih htags

/-- New tags are added in their order exactly where all are new and none is there twice. -/
theorem mergeTags_eq_append_iff {existing rest : List Str} :
    ProxyEngine.mergeTags existing rest = existing ++ rest ↔ rest.Nodup ∧ ∀ tag ∈ rest, tag ∉ existing := by
  have hle : ∀ (existing rest : List Str), (ProxyEngine.mergeTags existing rest).length ≤
      existing.length + rest.length := by
    intro existing rest
    unfold ProxyEngine.mergeTags
    induction rest generalizing existing with
    | nil => exact Nat.le_refl _
    | cons tag rest ih =>
      have hpush : (UnifiedRewrite.pushTagOnce existing tag).length ≤ existing.length + 1 := by
        unfold UnifiedRewrite.pushTagOnce
        split <;> simp
      have hrest := ih (UnifiedRewrite.pushTagOnce existing tag)
      rw [List.foldl_cons, List.length_cons]
      omega
  induction rest generalizing existing with
  | nil => simp [ProxyEngine.mergeTags]
  | cons tag rest ih =>
    have hfold : ProxyEngine.mergeTags existing (tag :: rest) =
        ProxyEngine.mergeTags (UnifiedRewrite.pushTagOnce existing tag) rest := rfl
    rw [hfold]
    by_cases htag : tag ∈ existing
    · refine iff_of_false (fun heq => ?_) (fun h => h.2 tag List.mem_cons_self htag)
      have hsame : UnifiedRewrite.pushTagOnce existing tag = existing := by
        unfold UnifiedRewrite.pushTagOnce
        rw [if_pos (List.contains_iff_mem.2 htag)]
      rw [hsame] at heq
      have hlength := hle existing rest
      rw [heq, List.length_append, List.length_cons] at hlength
      omega
    · have hpushed : UnifiedRewrite.pushTagOnce existing tag = existing ++ [tag] := by
        unfold UnifiedRewrite.pushTagOnce
        rw [if_neg fun hin => htag (List.contains_iff_mem.1 hin)]
      have hsplit : existing ++ tag :: rest = (existing ++ [tag]) ++ rest := by simp
      rw [hpushed, hsplit]
      refine (@ih (existing ++ [tag])).trans ?_
      rw [List.nodup_cons, List.forall_mem_cons]
      constructor
      · rintro ⟨hnodup, hnew⟩
        refine ⟨⟨fun hmem => hnew tag hmem (by simp), hnodup⟩, htag, fun tag' hmem hin => ?_⟩
        exact hnew tag' hmem (List.mem_append_left _ hin)
      · rintro ⟨⟨hfresh, hnodup⟩, -, hnew⟩
        refine ⟨hnodup, fun tag' hmem hin => ?_⟩
        rcases List.mem_append.1 hin with hin | hin
        · exact hnew tag' hmem hin
        · rw [List.mem_singleton] at hin
          exact hfresh (hin ▸ hmem)

theorem prefix_mergeTags (existing tags : List Str) : existing <+: ProxyEngine.mergeTags existing tags := by
  unfold ProxyEngine.mergeTags
  induction tags generalizing existing with
  | nil => exact List.prefix_rfl
  | cons tag tags ih =>
    have hpush : existing <+: UnifiedRewrite.pushTagOnce existing tag := by
      unfold UnifiedRewrite.pushTagOnce
      split
      · exact List.prefix_rfl
      · exact List.prefix_append _ _
    exact hpush.trans (ih _)

theorem mergeTags_append (existing tags tags' : List Str) : ProxyEngine.mergeTags existing (tags ++ tags') =
    ProxyEngine.mergeTags (ProxyEngine.mergeTags existing tags) tags' := List.foldl_append

/-- Merging is replacing exactly where the new tags continue those which are there. -/
theorem mergeTags_eq_iff {existing tags : List Str} : ProxyEngine.mergeTags existing tags = tags ↔
    ∃ rest, tags = existing ++ rest ∧ rest.Nodup ∧ ∀ tag ∈ rest, tag ∉ existing := by
  have happend : ∀ rest, ProxyEngine.mergeTags existing (existing ++ rest) = ProxyEngine.mergeTags existing rest := by
    intro rest
    rw [mergeTags_append, mergeTags_of_subset fun tag htag => htag]
  constructor
  · intro heq
    obtain ⟨rest, hrest⟩ := prefix_mergeTags existing tags
    rw [heq] at hrest
    subst hrest
    rw [happend] at heq
    exact ⟨rest, rfl, mergeTags_eq_append_iff.1 heq⟩
  · rintro ⟨rest, rfl, hnew⟩
    rw [happend]
    exact mergeTags_eq_append_iff.2 hnew

/-! ### What each recorder leaves -/

variable (r : RecordedOnce) (clock : Nat → Timestamp) (now : Timestamp) (elapsedMs : Nat)

/-- A response with its metrics, and an annotation with some tags where there are any. -/
theorem shown_recorded (response : ResponseContext) (metrics : InspectionMetrics) (empty : Bool) (tags : List Str) :
    r.shown clock (.recordResponseWithMetrics r.id response metrics ::
        if empty then [] else [.annotate r.id none (some tags)]) =
      some ((if r.session.response = none then some metrics else r.session.metrics).map
        InspectionMetrics.withoutLatency,
        if empty then r.session.tags else tags) := by
  obtain ⟨after, hafter, hmetrics, htags⟩ := SessionStore.get?_step_respond clock r.stored response metrics
  unfold shown
  cases empty with
  | true =>
    show ((r.store.step _).exchanges.get? r.id).map _ = _
    rw [hafter, Option.map_some, hmetrics, htags]
    rfl
  | false =>
    obtain ⟨last, hlast, hlastMetrics, hlastTags⟩ := SessionStore.get?_step_annotate clock hafter tags
    show (((r.store.step _).step _).exchanges.get? r.id).map _ = _
    rw [hlast, Option.map_some, hlastMetrics, hmetrics, hlastTags]
    rfl

theorem shown_nil :
    r.shown clock [] = some (r.session.metrics.map InspectionMetrics.withoutLatency, r.session.tags) := by
  unfold shown
  rw [List.foldl_nil, r.stored]
  rfl

/-- The tags after an annotation with the merged ones. -/
def mergedTags : List Str :=
  if r.head.tags.isEmpty then r.session.tags else ProxyEngine.mergeTags r.session.tags r.head.tags

theorem byEngine_eq (counted : Bool) : r.byEngine clock now counted =
    if r.session.response = none then
      some (some (InspectionMetrics.ofStatus r.head.status 0 r.session.request.body.length
        (if counted then r.body.length else ProxyEngine.recordedResponseSize r.response) r.head.ttfbMs r.head.bodyMs
          none),
        r.mergedTags)
    else some (r.session.metrics.map InspectionMetrics.withoutLatency, r.session.tags) := by
  have hid : r.response.sessionId = some r.id := r.of_session
  have hsession : (r.view now).getSession r.id = some r.session := r.stored
  unfold byEngine ProxyEngine.recordResponseWithOptionalSize
  rw [hid]
  dsimp only
  rw [hsession]
  dsimp only
  by_cases hopen : r.session.response = none
  · rw [if_pos hopen, hopen, Option.isSome_none, if_neg Bool.false_ne_true, shown_recorded, if_pos hopen]
    cases counted <;> rfl
  · rw [if_neg hopen, if_pos (Option.isSome_iff_ne_none.2 hopen), shown_nil]

theorem byInspection_eq : r.byInspection clock now =
    if r.session.response = none then
      some (some (InspectionMetrics.ofStatus r.head.status 0 r.session.request.body.length
        (if r.body.isEmpty then (Inspection.contentLength r.head.headers).getD 0 else r.body.length) r.head.ttfbMs
        r.head.bodyMs r.head.protocol), r.mergedTags)
    else some (r.session.metrics.map InspectionMetrics.withoutLatency, r.session.tags) := by
  have hid : r.response.sessionId = some r.id := r.of_session
  have hsession : (r.view now).getSession r.id = some r.session := r.stored
  unfold byInspection Inspection.onResponse
  dsimp only [response] at hid ⊢
  rw [hid]
  simp only [Bool.or_self, Bool.false_eq_true, if_false, Option.bind_some, hsession]
  by_cases hopen : r.session.response = none
  · rw [if_pos hopen, hopen, Option.isSome_none, if_neg Bool.false_ne_true]
    dsimp only
    rw [r.own_id, shown_recorded, if_pos hopen]
    rfl
  · rw [if_neg hopen, if_pos (Option.isSome_iff_ne_none.2 hopen), shown_nil]

/-- Within the cap the observer counts and keeps all the bytes. -/
theorem observed (chunks : List Bytes) : ∀ obs : InspectionObserver,
    obs.retained.length + chunks.flatten.length ≤ obs.maxRetainedBodyBytes →
    chunks.foldl InspectionObserver.onChunk obs =
      { obs with byteCount := obs.byteCount + chunks.flatten.length, retained := obs.retained ++ chunks.flatten } := by
  induction chunks with
  | nil =>
    intro obs _
    simp
  | cons chunk chunks ih =>
    intro obs hfits
    rw [List.flatten_cons, List.length_append] at hfits
    have hchunk : obs.onChunk chunk =
        { obs with byteCount := obs.byteCount + chunk.length, retained := obs.retained ++ chunk } := by
      unfold InspectionObserver.onChunk
      rw [List.take_of_length_le (by omega)]
    rw [List.foldl_cons, hchunk, ih _ (by dsimp only; rw [List.length_append]; omega)]
    simp [Nat.add_assoc]

theorem byObserver_eq : r.byObserver clock elapsedMs =
    some (if r.session.response = none then
        some (InspectionMetrics.ofStatus r.head.status 0 0 r.body.length r.head.ttfbMs (elapsedMs - r.head.ttfbMs)
          r.head.protocol)
      else r.session.metrics.map InspectionMetrics.withoutLatency,
      if r.head.tags.isEmpty then r.session.tags else r.head.tags) := by
  have hobserved := observed r.chunks ((InspectionObserver.new r.id r.cap).onResponseHead r.head) (by
    have hle := r.body_le
    rw [r.chunks_eq]
    show 0 + r.body.length ≤ r.cap
    omega)
  rw [r.chunks_eq] at hobserved
  unfold byObserver
  rw [hobserved]
  unfold InspectionObserver.finish InspectionObserver.onResponseHead InspectionObserver.new
  dsimp only
  rw [shown_recorded]
  by_cases hopen : r.session.response = none
  · rw [if_pos hopen, if_pos hopen, Nat.zero_add]
    rfl
  · rw [if_neg hopen, if_neg hopen]
    rfl

/-! ### When they agree -/

private theorem isWhitespace_of_isAsciiDigit {c : Char} (h : Str.isAsciiDigit c = true) :
    Str.isWhitespace c = false := by
  unfold Str.isAsciiDigit Char.isDigit at h
  rw [Bool.and_eq_true, decide_eq_true_iff, decide_eq_true_iff] at h
  have hlow : 48 ≤ c.toNat := h.1
  have hhigh : c.toNat ≤ 57 := h.2
  unfold Str.isWhitespace
  simp only [Bool.or_eq_false_iff, Bool.and_eq_false_iff, decide_eq_false_iff_not, beq_eq_false_iff_ne]
  omega

/-- A text which is read as a number has no white space around it. -/
private theorem trim_of_parseUnsigned {bound n : Nat} {value : Str} (h : Str.parseUnsigned bound value = some n) :
    value.trim = value := by
  have hall : ∀ digits : Str, (if (digits.isEmpty || !digits.all Str.isAsciiDigit) = true then none
      else if Nat.ofDigitChars 10 digits 0 ≤ bound then some (Nat.ofDigitChars 10 digits 0) else none) = some n →
      ∀ c ∈ digits, Str.isWhitespace c = false := by
    intro digits hread c hc
    split at hread
    · cases hread
    · rename_i hnot
      rw [Bool.not_eq_true, Bool.or_eq_false_iff, Bool.not_eq_false'] at hnot
      exact isWhitespace_of_isAsciiDigit (List.all_eq_true.1 hnot.2 c hc)
  have hdigits : ∀ c ∈ value, Str.isWhitespace c = false := by
    unfold Str.parseUnsigned at h
    dsimp only at h
    split at h
    · rename_i rest
      intro c hc
      rcases List.mem_cons.1 hc with rfl | hrest
      · decide
      · exact hall rest h c hrest
    · exact hall value h
  refine Str.trim_eq_self (fun c hc => hdigits c (List.mem_of_mem_head? hc)) fun c hc => ?_
  exact hdigits c (List.mem_of_getLast? hc)

/-- What the engine reads as the length of an empty body is nothing where the inspection reads nothing. -/
theorem recordedResponseSize_eq (h : r.body = [] → (Inspection.contentLength r.head.headers).getD 0 = 0) :
    ProxyEngine.recordedResponseSize r.response = r.body.length := by
  unfold ProxyEngine.recordedResponseSize response
  dsimp only
  cases hbody : r.body with
  | cons b body => rfl
  | nil =>
    have hdeclared := h hbody
    show ((r.head.headers.get "content-length").bind (Str.parseUnsigned usizeMax)).getD 0 = 0
    unfold Inspection.contentLength at hdeclared
    cases hvalue : r.head.headers.get "content-length" with
    | none => rfl
    | some value =>
      rw [hvalue] at hdeclared
      show (Str.parseUnsigned usizeMax value).getD 0 = 0
      cases hread : Str.parseUnsigned usizeMax value with
      | none => rfl
      | some n =>
        change (Str.parseUnsigned usizeMax value.trim).getD 0 = 0 at hdeclared
        rwa [trim_of_parseUnsigned hread, hread] at hdeclared

theorem mergedTags_eq_iff :
    r.mergedTags = (if r.head.tags.isEmpty then r.session.tags else r.head.tags) ↔ r.TagsContinue := by
  unfold mergedTags TagsContinue
  cases htags : r.head.tags with
  | nil => simp
  | cons tag tags =>
    simp only [List.isEmpty_cons, Bool.false_eq_true, if_false, reduceCtorEq, false_or]
    exact mergeTags_eq_iff

/-- Where the session has no response yet, the metrics are plain and the tags continue those of the session; where it
has one, the response brings no tags or those which the session has. -/
def Agreeable : Prop :=
  if r.session.response = none then r.PlainMetrics elapsedMs ∧ r.TagsContinue
  else r.head.tags = [] ∨ r.head.tags = r.session.tags

/-- The exact condition on a session and its response. -/
theorem agree_iff : r.Agree clock now elapsedMs ↔ r.Agreeable elapsedMs := by
  have hengine := byEngine_eq r clock now
  have hinspection := byInspection_eq r clock now
  have hobserver := byObserver_eq r clock elapsedMs
  unfold Agreeable
  by_cases hopen : r.session.response = none
  · simp only [if_pos hopen] at hengine hinspection hobserver ⊢
    constructor
    · intro h
      have hcounted := h.engine true
      have hinspected := h.inspection
      rw [hengine, hobserver] at hcounted
      rw [hinspection, hobserver] at hinspected
      simp only [InspectionMetrics.ofStatus, Option.some.injEq, Prod.mk.injEq, InspectionMetrics.mk.injEq]
        at hcounted hinspected
      obtain ⟨⟨-, hrequest, -, -, -, hbody, -, -, -, hprotocol⟩, htags⟩ := hcounted
      obtain ⟨⟨-, -, hlength, -⟩, -⟩ := hinspected
      refine ⟨⟨List.eq_nil_of_length_eq_zero hrequest, hprotocol.symm, hbody, fun hempty => ?_⟩,
        (mergedTags_eq_iff r).1 htags⟩
      simpa [hempty] using hlength
    · rintro ⟨hplain, htags⟩
      have hsize := recordedResponseSize_eq r hplain.length
      have hmerged := (mergedTags_eq_iff r).2 htags
      have hlength : (if r.body.isEmpty then (Inspection.contentLength r.head.headers).getD 0 else r.body.length) =
          r.body.length := by
        cases hbody : r.body with
        | nil => simpa [hbody] using hplain.length hbody
        | cons b body => rfl
      refine ⟨fun counted => ?_, ?_, fun _ counted => ⟨_, _, hengine counted, hplain.protocol.symm⟩⟩
      · rw [hengine, hobserver, hsize, ite_self, hmerged, hplain.request, hplain.protocol, hplain.body_time]
        rfl
      · rw [hinspection, hobserver, hlength, hmerged, hplain.request, hplain.body_time]
        rfl
  · simp only [if_neg hopen] at hengine hinspection hobserver ⊢
    have htags : r.session.tags = (if r.head.tags.isEmpty then r.session.tags else r.head.tags) ↔
        r.head.tags = [] ∨ r.head.tags = r.session.tags := by
      cases r.head.tags with
      | nil => simp
      | cons tag tags => simp [eq_comm]
    rw [← htags]
    constructor
    · intro h
      have hcounted := h.engine true
      rw [hengine, hobserver, Option.some.injEq, Prod.mk.injEq] at hcounted
      exact hcounted.2
    · intro hsame
      refine ⟨fun counted => ?_, ?_, fun hnone => absurd hnone hopen⟩
      · rw [hengine, hobserver, ← hsame]
      · rw [hinspection, hobserver, ← hsame]

/-- A response over HTTP/2 to a request without a body. -/
def overHttp2 : RecordedOnce where
  store := (SessionStore.empty 10 1000).recordRequest 0 "s" RequestContext.default .proxy
  id := "s"
  session := SessionStore.recordedExchange 0 "s" RequestContext.default .proxy
  stored := rfl
  own_id := rfl
  head := { ResponseContext.default with status := 200, sessionId := some "s", protocol := some "HTTP/2.0" }
  of_session := rfl
  body := []
  chunks := []
  chunks_eq := rfl
  cap := 1000
  body_le := Nat.zero_le _

/-- The engine leaves the protocol out. -/
theorem not_agree : ¬ ∀ (r : RecordedOnce) clock now elapsedMs, r.Agree clock now elapsedMs := by
  intro h
  obtain ⟨metrics, tags, hengine, hprotocol⟩ := (h overHttp2 (fun _ => 0) 0 0).protocol rfl true
  rw [byEngine_eq, if_pos rfl] at hengine
  cases hengine
  cases hprotocol

end RecordedOnce

end Oproxy
