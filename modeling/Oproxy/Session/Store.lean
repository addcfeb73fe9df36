import Oproxy.Lib.IndexMap
import Oproxy.Middleware.Context

/-!
# The session store (`session/mod.rs`)

`SessionStore` is the state of the single writer task, and `processWriteOp` what the task does with one write
operation: the new store, the change notifications it publishes and the reply it sends.  The counter `bodyBytes`
is kept by hand in each operation.  Sizes are numbers of bytes held in memory, so the arithmetic on them is that of
`Nat` (truncated subtraction is `saturating_sub`).
-/

namespace Oproxy

/-- `usize::MAX`. -/
def usizeMax : Nat := 2 ^ 64 - 1

structure Exchange where
  id : Str
  timestamp : Timestamp
  updatedAt : Option Timestamp
  request : RequestContext
  response : Option ResponseContext
  metrics : Option InspectionMetrics
  source : SessionSource
  wsFrames : List WsFrame
  events : List SessionEvent
  flow : List RequestFlowEvent
  note : Option Str
  tags : List Str
  inspectorData : Option InspectorData
  pausedAt : Option Timestamp
  connectionId : Option Str
  streamId : Option Nat
  downstreamProtocol : Option Str
  protocolContext : Option ProtocolContext

inductive SessionChangeKind where
  | requestCaptured | responseCaptured | sessionUpdated | sessionsImported | sessionsCleared | wsFrameCaptured
  | sessionPaused
  deriving DecidableEq

structure SessionChange where
  sessionId : Option Str
  kind : SessionChangeKind
  deriving DecidableEq

/-- The write operations routed through the writer task. -/
inductive WriteOp where
  | recordRequest (id : Str) (request : RequestContext) (source : SessionSource)
  | recordResponse (id : Str) (response : ResponseContext)
  | recordResponseWithMetrics (id : Str) (response : ResponseContext) (metrics : InspectionMetrics)
  | appendWsFrame (id : Str) (frame : WsFrame)
  | appendEvent (id : Str) (event : SessionEvent)
  | annotate (id : Str) (note : Option Str) (tags : Option (List Str))
  | importSessions (exchanges : List Exchange)
  | clearSessions
  | updateInspectorData (id : Str) (data : InspectorData)
  | markPaused (id : Str)
  | clearPaused (id : Str)
  | loadData (map : IndexMap Str Exchange)
  | flush

/-- What an operation sends back on its reply channel. -/
inductive Reply where
  | none
  | found (b : Bool)
  | done
  deriving DecidableEq

structure SessionStore where
  exchanges : IndexMap Str Exchange
  maxSessions : Nat
  maxRetainedBodyBytes : Nat
  bodyBytes : Nat

/-! ### Body sizes -/

def exchangeBodySize (exchange : Exchange) : Nat :=
  exchange.request.body.length + (exchange.response.map fun r => r.body.length).getD 0 +
    (exchange.wsFrames.map WsFrame.retainedSize).sum + (exchange.events.map SessionEvent.retainedBodySize).sum

def clearExchangeBodies (exchange : Exchange) : Exchange :=
  { exchange with
    request := { exchange.request with body := [] }
    response := exchange.response.map fun r => { r with body := [] }
    wsFrames := exchange.wsFrames.map WsFrame.clearPayload
    events := exchange.events.map SessionEvent.clearRetainedBody }

/-- One turn of the loop of `enforce_budget`.  A turn past the `break` finds the counter within the budget again
and changes nothing. -/
def enforceBudgetTurn (maxRetainedBodyBytes bodyBytes : Nat) (ex : Exchange) : Exchange × Nat :=
  if bodyBytes ≤ maxRetainedBodyBytes then (ex, bodyBytes)
  else if exchangeBodySize ex = 0 then (ex, bodyBytes)
  else (clearExchangeBodies ex, bodyBytes - exchangeBodySize ex)

def enforceBudget (store : IndexMap Str Exchange) (maxRetainedBodyBytes bodyBytes : Nat) :
    IndexMap Str Exchange × Nat :=
  store.valuesMut (enforceBudgetTurn maxRetainedBodyBytes) bodyBytes

/-! ### The operations -/

namespace SessionStore

/-- The empty store of `writer_task`. -/
def empty (maxSessions maxRetainedBodyBytes : Nat) : SessionStore :=
  ⟨IndexMap.empty, maxSessions, maxRetainedBodyBytes, 0⟩

def evictSessionIfFull (s : SessionStore) (incomingId : Str) : SessionStore :=
  if s.exchanges.len ≥ s.maxSessions ∧ s.exchanges.contains incomingId = false then
    match s.exchanges.shiftRemoveFirst with
    | (some (_, evicted), rest) =>
      { s with exchanges := rest, bodyBytes := s.bodyBytes - exchangeBodySize evicted }
    | (none, _) => s
  else s

def enforceBodyBudget (s : SessionStore) : SessionStore :=
  if s.maxRetainedBodyBytes ≠ usizeMax ∧ s.bodyBytes > s.maxRetainedBodyBytes then
    { s with
      exchanges := (enforceBudget s.exchanges s.maxRetainedBodyBytes s.bodyBytes).1
      bodyBytes := (enforceBudget s.exchanges s.maxRetainedBodyBytes s.bodyBytes).2 }
  else s

/-- The exchange which `record_request` inserts. -/
def recordedExchange (now : Timestamp) (id : Str) (request : RequestContext) (source : SessionSource) : Exchange where
  id := id
  timestamp := now
  updatedAt := none
  request := request
  response := none
  metrics := none
  source := source
  wsFrames := []
  events := []
  flow := request.flow
  note := none
  tags := []
  inspectorData := none
  pausedAt := none
  connectionId := request.connectionId
  streamId := request.streamId
  downstreamProtocol := request.downstreamProtocol
  protocolContext := request.protocolContext

def recordRequest (s : SessionStore) (now : Timestamp) (id : Str) (request : RequestContext)
    (source : SessionSource) : SessionStore :=
  let s := s.evictSessionIfFull id
  let s := { s with bodyBytes := s.bodyBytes + request.body.length }
  let s := { s with exchanges := s.exchanges.insert id (recordedExchange now id request source) }
  s.enforceBodyBudget

/-- An exchange with its response filled in. -/
def withResponse (now : Timestamp) (response : ResponseContext) (metrics : Option InspectionMetrics)
    (exchange : Exchange) : Exchange :=
  { exchange with
    flow := exchange.flow ++ response.flow
    response := some response
    metrics := metrics.orElse fun _ => exchange.metrics
    updatedAt := some now }

def recordResponse (s : SessionStore) (now : Timestamp) (id : Str) (response : ResponseContext)
    (metrics : Option InspectionMetrics) : SessionStore :=
  match s.exchanges.get? id with
  | some exchange =>
    if exchange.response.isSome then s
    else
      { s with
        exchanges := s.exchanges.modify id (withResponse now response metrics)
        bodyBytes := s.bodyBytes + response.body.length }.enforceBodyBudget
  | none => s.enforceBodyBudget

/-- An exchange with a frame added to its events and to its frames. -/
def withWsFrame (frame : WsFrame) (exchange : Exchange) : Exchange :=
  { exchange with
    events := exchange.events ++ [.wsFrame frame]
    wsFrames := exchange.wsFrames ++ [frame] }

def appendWsFrame (s : SessionStore) (id : Str) (frame : WsFrame) : SessionStore :=
  match s.exchanges.get? id with
  | some _ =>
    { s with
      exchanges := s.exchanges.modify id (withWsFrame frame)
      bodyBytes := s.bodyBytes + frame.retainedSize * 2 }.enforceBodyBudget
  | none => s.enforceBodyBudget

def withEvent (now : Timestamp) (event : SessionEvent) (exchange : Exchange) : Exchange :=
  { exchange with events := exchange.events ++ [event], updatedAt := some now }

def appendEvent (s : SessionStore) (now : Timestamp) (id : Str) (event : SessionEvent) : SessionStore :=
  match s.exchanges.get? id with
  | some _ =>
    { s with
      exchanges := s.exchanges.modify id (withEvent now event)
      bodyBytes := s.bodyBytes + event.retainedBodySize }.enforceBodyBudget
  | none => s.enforceBodyBudget

def annotated (now : Timestamp) (note : Option Str) (tags : Option (List Str)) (exchange : Exchange) :
    Exchange :=
  { exchange with
    note := match note with
      | some n => if n.isEmpty then none else some n
      | none => exchange.note
    tags := tags.getD exchange.tags
    updatedAt := some now }

def annotate (s : SessionStore) (now : Timestamp) (id : Str) (note : Option Str) (tags : Option (List Str)) :
    SessionStore × Bool :=
  if s.exchanges.contains id then
    ({ s with exchanges := s.exchanges.modify id (annotated now note tags) }, true)
  else (s, false)

/-- One turn of the loop of `import`. -/
def importOne (s : SessionStore) (exchange : Exchange) : SessionStore :=
  let s := s.evictSessionIfFull exchange.id
  let s := { s with bodyBytes := s.bodyBytes + exchangeBodySize exchange }
  { s with exchanges := s.exchanges.insert exchange.id exchange }

def importAll (s : SessionStore) (newExchanges : List Exchange) : SessionStore :=
  (newExchanges.foldl importOne s).enforceBodyBudget

def clear (s : SessionStore) : SessionStore := { s with exchanges := IndexMap.empty, bodyBytes := 0 }

def updateInspectorData (s : SessionStore) (id : Str) (data : InspectorData) : SessionStore :=
  { s with exchanges := s.exchanges.modify id fun exchange => { exchange with inspectorData := some data } }

/-- `clock` gives the readings of the clock in the order in which they are taken. -/
def setPaused (s : SessionStore) (clock : Nat → Timestamp) (id : Str) (paused : Bool) : SessionStore :=
  { s with
    exchanges := s.exchanges.modify id fun exchange =>
      { exchange with
        pausedAt := if paused then some (clock 0) else none
        updatedAt := some (clock (if paused then 1 else 0)) } }

def replace (s : SessionStore) (map : IndexMap Str Exchange) : SessionStore :=
  { s with exchanges := map, bodyBytes := map.total exchangeBodySize }.enforceBodyBudget

end SessionStore

/-- The effect of one write operation. -/
structure WriteEffect where
  store : SessionStore
  changes : List SessionChange
  reply : Reply

/-- What the writer task does with one operation, `clock` being the clock readings it takes meanwhile. -/
def processWriteOp (clock : Nat → Timestamp) (op : WriteOp) (store : SessionStore) : WriteEffect :=
  match op with
  | .recordRequest id request source =>
    ⟨store.recordRequest (clock 0) id request source, [⟨some id, .requestCaptured⟩], .none⟩
  | .recordResponse id response =>
    ⟨store.recordResponse (clock 0) id response none, [⟨some id, .responseCaptured⟩], .none⟩
  | .recordResponseWithMetrics id response metrics =>
    ⟨store.recordResponse (clock 0) id response (some metrics), [⟨some id, .responseCaptured⟩], .none⟩
  | .appendWsFrame id frame => ⟨store.appendWsFrame id frame, [⟨some id, .wsFrameCaptured⟩], .none⟩
  | .appendEvent id event => ⟨store.appendEvent (clock 0) id event, [⟨some id, .sessionUpdated⟩], .none⟩
  | .annotate id note tags =>
    let (s, found) := store.annotate (clock 0) id note tags
    ⟨s, if found then [⟨some id, .sessionUpdated⟩] else [], .found found⟩
  | .importSessions exchanges => ⟨store.importAll exchanges, [⟨none, .sessionsImported⟩], .none⟩
  | .clearSessions => ⟨store.clear, [⟨none, .sessionsCleared⟩], .none⟩
  | .updateInspectorData id data => ⟨store.updateInspectorData id data, [], .none⟩
  | .markPaused id => ⟨store.setPaused clock id true, [⟨some id, .sessionPaused⟩], .none⟩
  | .clearPaused id => ⟨store.setPaused clock id false, [⟨some id, .sessionUpdated⟩], .none⟩
  | .loadData map => ⟨store.replace map, [⟨none, .sessionsImported⟩], .done⟩
  | .flush => ⟨store, [], .done⟩

/-- An operation with the clock readings taken while it is processed. -/
structure TimedOp where
  clock : Nat → Timestamp
  op : WriteOp

/-- One turn of the loop of `writer_task`. -/
def SessionStore.step (s : SessionStore) (t : TimedOp) : SessionStore := (processWriteOp t.clock t.op s).store

end Oproxy
