import Oproxy.Transport.WsRelay

/-!
# Frames which are paused

A relay without frame rules is transparent, and so is a pause which is resolved with continue.  Where a pause is
resolved with the context that was listed for it, the payload has been through the wire form of that context.
-/

namespace Oproxy

/-- What the control plane makes of a resolution (`resolve_bp`). -/
def BreakpointAnswer.ofResolution (action : Str) (context : Option BreakpointContext) : BreakpointAnswer :=
  if action = ("drop" : Str) then .drop
  else if action = ("modify" : Str) then
    match context with
    | some (.request ctx) => .modifyRequest ctx
    | some (.response ctx) => .modifyResponse ctx
    | none => .proceed
  else .proceed

/-- The operator who continues each exchange. -/
def continues (_ : BreakpointContext) : BreakpointAnswer := .ofResolution "continue" none

/-- The operator who sends each context back as it was listed. -/
def sendsBack (context : BreakpointContext) : BreakpointAnswer := .ofResolution "modify" (some context.throughWire)

/-- The same rules with another operator. -/
def GrpcInspector.FrameBreakpoints.answeredBy (breakpoints : GrpcInspector.FrameBreakpoints)
    (answer : BreakpointContext → BreakpointAnswer) : GrpcInspector.FrameBreakpoints :=
  { breakpoints with answer := answer }

/-- What comes of a pause whose operator continues. -/
theorem Breakpoints.pauseFrame_continues (regex : RegexEngine) (rules : List BreakpointRule)
    (context : BreakpointContext) : pauseFrame regex rules continues context = .proceed := by
  unfold pauseFrame
  cases frameRuleFor regex rules context <;> rfl

/-- What comes of a pause whose operator sends back what was listed. -/
theorem Breakpoints.pauseFrame_sendsBack (regex : RegexEngine) (rules : List BreakpointRule)
    (context : BreakpointContext) :
    pauseFrame regex rules sendsBack context =
      if (frameRuleFor regex rules context).isSome then .modify context.throughWire else .proceed := by
  unfold pauseFrame
  cases frameRuleFor regex rules context with
  | none => rfl
  | some rule => cases context <;> rfl

/-- A rule which pauses a frame is an enabled rule for frames. -/
theorem Breakpoints.hasFrameRules_of_frameRuleFor {regex : RegexEngine} {rules : List BreakpointRule}
    {context : BreakpointContext} (h : (frameRuleFor regex rules context).isSome = true) :
    hasFrameRules rules = true := by
  obtain ⟨rule, hrule⟩ := Option.isSome_iff_exists.1 h
  unfold hasFrameRules
  rw [List.any_eq_true]
  cases context with
  | request ctx =>
    have hpred := List.find?_some hrule
    have hmem := List.mem_of_find?_eq_some hrule
    simp only [Bool.and_eq_true] at hpred
    exact ⟨rule, hmem, by simp [hpred.1.1.1.1, hpred.1.1.2]⟩
  | response ctx =>
    have hpred := List.find?_some hrule
    have hmem := List.mem_of_find?_eq_some hrule
    simp only [Bool.and_eq_true] at hpred
    exact ⟨rule, hmem, by simp [hpred.1.1.1.1, hpred.1.1.2]⟩

/-! ### WebSocket messages -/

namespace WsRelayContext

variable (relay : WsRelayContext)

def answeredBy (answer : BreakpointContext → BreakpointAnswer) : WsRelayContext :=
  { relay with breakpoints := relay.breakpoints.answeredBy answer }

/-- The messages which come back from the wire form of their context. -/
def MessageSurvives : WsMessage → Prop
  | .binary data => Utf8.Valid data
  | _ => True

private theorem contentTypes_frameHeaders (direction : WsDirection) (message : WsMessage) :
    (WebSocket.frameHeaders direction message).getAll "content-type" = [] := by
  unfold WebSocket.frameHeaders
  rw [HeaderMap.getAll_insert, if_neg (by decide), HeaderMap.getAll_insert, if_neg (by decide), HeaderMap.getAll_new]

/-- The payload of a message comes back exactly where it is text, in both directions. -/
private theorem body_throughWire_iff (direction : WsDirection) (message : WsMessage) :
    (match (relay.frameContext direction message).throughWire with
      | .request ctx => ctx.body
      | .response ctx => ctx.body) = WebSocket.messageBody message ↔ Utf8.Valid (WebSocket.messageBody message) := by
  cases direction with
  | clientToServer => exact RequestContext.throughWire_body_iff (relay.frameRequestContext .clientToServer message)
  | serverToClient =>
    rw [← bodySurvives_of_no_contentType (contentTypes_frameHeaders .serverToClient message)]
    exact ResponseContext.throughWire_body_iff (relay.frameResponseContext .serverToClient message)

/-- A message whose payload comes back is the one which was sent. -/
private theorem messageWithBody_iff (message : WsMessage) (body : Bytes)
    (hbody : body = WebSocket.messageBody message ↔ Utf8.Valid (WebSocket.messageBody message)) :
    WebSocket.messageWithBody message body = message ↔ MessageSurvives message := by
  cases message with
  | text text =>
    have hsame : body = text.toUtf8 := hbody.2 ⟨text, rfl⟩
    simp [WebSocket.messageWithBody, MessageSurvives, hsame]
  | binary data =>
    show WsMessage.binary body = WsMessage.binary data ↔ Utf8.Valid data
    rw [WsMessage.binary.injEq]
    exact hbody
  | ping data => simp [WebSocket.messageWithBody, MessageSurvives]
  | pong data => simp [WebSocket.messageWithBody, MessageSurvives]
  | close frame => simp [WebSocket.messageWithBody, MessageSurvives]
  | frame data => simp [WebSocket.messageWithBody, MessageSurvives]

theorem maybePauseFrame_continues (direction : WsDirection) (message : WsMessage) :
    (relay.answeredBy continues).maybePauseFrame direction message = some message := by
  unfold maybePauseFrame
  split
  · rfl
  · rw [show (relay.answeredBy continues).breakpoints.answer = continues from rfl, Breakpoints.pauseFrame_continues]
    rfl

theorem maybePauseFrame_sendsBack_iff (direction : WsDirection) (message : WsMessage) :
    (relay.answeredBy sendsBack).maybePauseFrame direction message = some message ↔
      ((relay.pausingRule direction message).isSome = true → MessageSurvives message) := by
  unfold maybePauseFrame pausingRule
  rw [show (relay.answeredBy sendsBack).breakpoints.answer = sendsBack from rfl, Breakpoints.pauseFrame_sendsBack]
  cases hrule : (Breakpoints.frameRuleFor relay.breakpoints.regex relay.breakpoints.rules
      (relay.frameContext direction message)).isSome with
  | false =>
    have hnone : (Breakpoints.frameRuleFor (relay.answeredBy sendsBack).breakpoints.regex
        (relay.answeredBy sendsBack).breakpoints.rules
        ((relay.answeredBy sendsBack).frameContext direction message)).isSome = false := hrule
    rw [hnone]
    constructor
    · intro _ h
      cases h
    · intro _
      split <;> rfl
  | true =>
    have hsome : (Breakpoints.frameRuleFor (relay.answeredBy sendsBack).breakpoints.regex
        (relay.answeredBy sendsBack).breakpoints.rules
        ((relay.answeredBy sendsBack).frameContext direction message)).isSome = true := hrule
    have hrules : Breakpoints.hasFrameRules (relay.answeredBy sendsBack).breakpoints.rules = true :=
      Breakpoints.hasFrameRules_of_frameRuleFor hrule
    rw [hsome, hrules]
    simp only [Bool.not_true, Bool.false_eq_true, if_false, if_true, forall_const]
    have hresolved : resolvedMessage message
        (.modify ((relay.answeredBy sendsBack).frameContext direction message).throughWire) =
          some (WebSocket.messageWithBody message (match (relay.frameContext direction message).throughWire with
            | .request ctx => ctx.body
            | .response ctx => ctx.body)) := by
      cases direction <;> rfl
    rw [hresolved, Option.some.injEq]
    exact messageWithBody_iff message _ (relay.body_throughWire_iff direction message)

end WsRelayContext

/-! ### gRPC messages -/

namespace GrpcInspector.Observer

variable (obs : Observer) (breakpoints : FrameBreakpoints)

/-- The messages which come back from the wire form of their context. -/
def MessageSurvives (direction : Direction) (payload : Bytes) : Prop :=
  match direction with
  | .request => Utf8.Valid payload
  | .response => BodySurvives ((obs.responseHead.map ResponseContext.headers).getD HeaderMap.new) payload

theorem relayMessage_continues (direction : Direction) (frame : Frame) :
    relayMessage frame (obs.pauseMessage (breakpoints.answeredBy continues) direction frame) =
      encodeGrpcFrame frame.1 frame.2 := by
  unfold pauseMessage
  split
  · rfl
  · rw [show (breakpoints.answeredBy continues).answer = continues from rfl, Breakpoints.pauseFrame_continues]
    rfl

private theorem body_throughWire_iff (direction : Direction) (frame : Frame) :
    (match (obs.messageContext direction frame).throughWire with
      | .request ctx => ctx.body
      | .response ctx => ctx.body) = frame.2 ↔ obs.MessageSurvives direction frame.2 := by
  cases direction with
  | request => exact RequestContext.throughWire_body_iff (obs.messageRequestContext frame.1 frame.2)
  | response =>
    have hsurvives : BodySurvives (obs.messageResponseContext frame.1 frame.2).headers frame.2 ↔
        obs.MessageSurvives .response frame.2 := by
      unfold MessageSurvives BodySurvives listsBinary readsBinary
      rw [contentTypes_messageResponseContext]
    exact (ResponseContext.throughWire_body_iff (obs.messageResponseContext frame.1 frame.2)).trans hsurvives

theorem relayMessage_sendsBack_iff (direction : Direction) (frame : Frame) :
    relayMessage frame (obs.pauseMessage (breakpoints.answeredBy sendsBack) direction frame) =
        encodeGrpcFrame frame.1 frame.2 ↔
      ((Breakpoints.frameRuleFor breakpoints.regex breakpoints.rules (obs.messageContext direction frame)).isSome =
        true →
        obs.MessageSurvives direction frame.2) := by
  have hanswer : Breakpoints.pauseFrame (breakpoints.answeredBy sendsBack).regex
    (breakpoints.answeredBy sendsBack).rules
      (breakpoints.answeredBy sendsBack).answer (obs.messageContext direction frame) =
        if (Breakpoints.frameRuleFor breakpoints.regex breakpoints.rules (obs.messageContext direction frame)).isSome
          then .modify (obs.messageContext direction frame).throughWire else .proceed :=
    Breakpoints.pauseFrame_sendsBack _ _ _
  unfold pauseMessage
  rw [hanswer]
  cases hrule : (Breakpoints.frameRuleFor breakpoints.regex breakpoints.rules
      (obs.messageContext direction frame)).isSome with
  | false =>
    constructor
    · intro _ h
      cases h
    · intro _
      split <;> rfl
  | true =>
    have hrules : Breakpoints.hasFrameRules (breakpoints.answeredBy sendsBack).rules = true :=
      Breakpoints.hasFrameRules_of_frameRuleFor hrule
    rw [hrules]
    simp only [Bool.not_true, Bool.false_eq_true, if_false, if_true, forall_const]
    have hrelayed : relayMessage frame (.modify (obs.messageContext direction frame).throughWire) =
        encodeGrpcFrame frame.1 (match (obs.messageContext direction frame).throughWire with
          | .request ctx => ctx.body
          | .response ctx => ctx.body) := by
      cases direction <;> rfl
    rw [hrelayed, encodeGrpcFrame_inj]
    exact obs.body_throughWire_iff direction frame

end GrpcInspector.Observer

/-! ### Both -/

/-- A relay without frame rules, and every pause which is continued, is transparent; a pause whose context is sent back
is so exactly where the payload comes back from the wire form. -/
theorem frames_transparent_iff (relay : WsRelayContext) (obs : GrpcInspector.Observer)
    (breakpoints : GrpcInspector.FrameBreakpoints) :
    (Breakpoints.hasFrameRules relay.breakpoints.rules = false →
        ∀ events, (relayWs relay events).1 = (WsRelayEvent.upToEnd events).filterMap WsRelayEvent.handed) ∧
      (∀ direction message, (relay.answeredBy continues).maybePauseFrame direction message = some message) ∧
      (∀ direction message, (relay.answeredBy sendsBack).maybePauseFrame direction message = some message ↔
        ((relay.pausingRule direction message).isSome = true → WsRelayContext.MessageSurvives message)) ∧
      (∀ direction frame, GrpcInspector.Observer.relayMessage frame
          (obs.pauseMessage (breakpoints.answeredBy continues) direction frame) = encodeGrpcFrame frame.1 frame.2) ∧
      ∀ direction frame, GrpcInspector.Observer.relayMessage frame
          (obs.pauseMessage (breakpoints.answeredBy sendsBack) direction frame) = encodeGrpcFrame frame.1 frame.2 ↔
        ((Breakpoints.frameRuleFor breakpoints.regex breakpoints.rules (obs.messageContext direction frame)).isSome =
          true → obs.MessageSurvives direction frame.2) :=
  ⟨fun hrules _ => relayWs_of_passes fun direction message _ _ _ =>
      WsRelayContext.maybePauseFrame_of_no_rules hrules direction message,
    relay.maybePauseFrame_continues, relay.maybePauseFrame_sendsBack_iff,
    obs.relayMessage_continues breakpoints, obs.relayMessage_sendsBack_iff breakpoints⟩

/-- A relay without rules. -/
private def openRelay : WsRelayContext :=
  { sessionId := "s", frameUri := "ws://chat.test:80/", frameHost := "chat.test", inspectFrames := true
    breakpoints := ⟨fun _ => none, [], continues⟩, breakpointId := "b" }

private def openObserver : GrpcInspector.Observer :=
  { sessionId := "s", request := RequestContext.default, responseHead := none, reqBuf := [], resBuf := [] }

theorem frames_transparent_open :
    (relayWs openRelay
      [.received .clientToServer (.binary [0xff]) true 0, .received .serverToClient (.text "hi") true 1,
       .received .clientToServer (.close none) true 2, .received .serverToClient (.text "late") true 3]).1 =
      [(.clientToServer, .binary [0xff]), (.serverToClient, .text "hi"), (.clientToServer, .close none)] :=
  ((frames_transparent_iff openRelay openObserver openRelay.breakpoints).1 (by decide) _).trans (by decide +kernel)

/-- A rule which pauses each message of one side. -/
private def everyFrame (bpType : BreakpointType) : BreakpointRule :=
  { id := "r", location := Location.default, bpType := bpType, tier := .frame, enabled := true }

private def pausedRelay : WsRelayContext :=
  { openRelay with breakpoints := ⟨fun _ => none, [everyFrame .request, everyFrame .response], continues⟩ }

/-- A binary message which is sent back as it was listed is another one, and so is a gRPC message of either side. -/
theorem not_frames_transparent :
    (pausedRelay.answeredBy sendsBack).maybePauseFrame .clientToServer (.binary [0xff]) =
        some (.binary [0xef, 0xbf, 0xbd]) ∧
      (∀ direction, (pausedRelay.answeredBy sendsBack).maybePauseFrame direction (.binary [0xff]) ≠
        some (.binary [0xff])) ∧
      ∀ direction, GrpcInspector.Observer.relayMessage (false, [0xff])
        (openObserver.pauseMessage (pausedRelay.breakpoints.answeredBy sendsBack) direction (false, [0xff])) ≠
          encodeGrpcFrame false [0xff] := by
  refine ⟨by decide +kernel, ?_, ?_⟩
  · intro direction
    cases direction <;> decide +kernel
  · intro direction
    cases direction <;> decide +kernel

end Oproxy
