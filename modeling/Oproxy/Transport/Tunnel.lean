import Oproxy.Engine.Recording

/-!
# Tunnels

What the two kinds of tunnel share: awaits at which a run may be stopped, the connection to the upstream and the
relay of bytes over it, and what the sessions of a run are to say of it.
-/

namespace Oproxy

/-- What an await comes to.  A run which is shut down or cancelled there is stopped. -/
inductive Awaited (α : Type) where
  | ready (value : α)
  | stopped

/-- How a relay ends: both sides have ended cleanly, one has failed, or the run is stopped. -/
inductive RelayEnd where
  | closed | failed | stopped
  deriving DecidableEq

/-- The bytes which a relay has moved, in their order. -/
structure Relay where
  chunks : List (WsDirection × Bytes)
  ending : RelayEnd

namespace Relay

def bytesIn (relay : Relay) (direction : WsDirection) : Nat :=
  ((relay.chunks.filter fun chunk => chunk.1 = direction).map fun chunk => chunk.2.length).sum

def bytesUp (relay : Relay) : Nat := relay.bytesIn .clientToServer

def bytesDown (relay : Relay) : Nat := relay.bytesIn .serverToClient

/-- `copy_bidirectional`: the bytes moved in each direction; an error has no counts. -/
def copyBidirectional (relay : Relay) : Awaited (Option (Nat × Nat)) :=
  match relay.ending with
  | .closed => .ready (some (relay.bytesUp, relay.bytesDown))
  | .failed => .ready none
  | .stopped => .stopped

end Relay

/-- What a connection attempt comes to. -/
inductive Dial where
  | connected (relay : Relay)
  | refused (error : Str)
  | timedOut

/-- The relay of an attempt which has established a connection. -/
def Awaited.established : Awaited Dial → Option Relay
  | .ready (.connected relay) => some relay
  | _ => none

/-! ### Sessions which tell the truth -/

/-- The response which an operation records, with its metrics. -/
def WriteOp.recordedResponse : WriteOp → Option (ResponseContext × Option InspectionMetrics)
  | .recordResponse _ response => some (response, none)
  | .recordResponseWithMetrics _ response metrics => some (response, some metrics)
  | _ => none

def recordedResponses (ops : List WriteOp) : List (ResponseContext × Option InspectionMetrics) :=
  ops.filterMap WriteOp.recordedResponse

@[simp] theorem recordedResponses_append (ops ops' : List WriteOp) :
    recordedResponses (ops ++ ops') = recordedResponses ops ++ recordedResponses ops' := List.filterMap_append

/-- The bytes which were relayed in each direction. -/
def relayedBytes (connection : Option Relay) : Nat × Nat :=
  ((connection.map Relay.bytesUp).getD 0, (connection.map Relay.bytesDown).getD 0)

/-- The sessions of a run over a connection, if there was one, with its relay: all are closed, a status of 200 says
that there was a connection, and the sizes are the bytes which were relayed. -/
structure TellTruth (ops : List WriteOp) (connection : Option Relay) : Prop where
  closed : ∀ entry ∈ recordedRequests ops, entry.1 ∈ respondedSessions ops
  status : ∀ entry ∈ recordedResponses ops, entry.1.status = 200 → connection.isSome = true
  counts : ∀ entry ∈ recordedResponses ops, entry.2.map (fun metrics =>
    (metrics.requestSizeBytes, metrics.responseSizeBytes)) = some (relayedBytes connection)

theorem tellTruth_nil (connection : Option Relay) : TellTruth [] connection :=
  ⟨by simp, by simp [recordedResponses], by simp [recordedResponses]⟩

/-- Operations which record one session and no response. -/
structure Opening (id : Str) (ops : List WriteOp) : Prop where
  requests : ∃ request, recordedRequests ops = [(id, request)]
  responded : respondedSessions ops = []
  responses : recordedResponses ops = []

namespace Opening

variable {id : Str} {opening closing : List WriteOp} {connection : Option Relay}

/-- A session whose response is never recorded stays open. -/
theorem not_tellTruth (h : Opening id opening) : ¬ TellTruth opening connection := by
  obtain ⟨request, hrequests⟩ := h.requests
  intro htruth
  have hclosed := htruth.closed (id, request) (by
    rw [hrequests]
    exact List.mem_singleton_self _)
  rw [h.responded] at hclosed
  cases hclosed

/-- A session which gets one response tells the truth where that response does. -/
theorem tellTruth_iff (h : Opening id opening) {response : ResponseContext} {metrics : InspectionMetrics}
    (hrequests : recordedRequests closing = []) (hresponded : respondedSessions closing = [id])
    (hresponses : recordedResponses closing = [(response, some metrics)]) :
    TellTruth (opening ++ closing) connection ↔
      (response.status = 200 → connection.isSome = true) ∧
        (metrics.requestSizeBytes, metrics.responseSizeBytes) = relayedBytes connection := by
  obtain ⟨request, hopened⟩ := h.requests
  have hall : recordedResponses (opening ++ closing) = [(response, some metrics)] := by
    rw [recordedResponses_append, h.responses, hresponses, List.nil_append]
  constructor
  · intro htruth
    have hmem : (response, some metrics) ∈ recordedResponses (opening ++ closing) := by
      rw [hall]
      exact List.mem_singleton_self _
    exact ⟨htruth.status _ hmem, Option.some.inj (htruth.counts _ hmem)⟩
  · rintro ⟨hstatus, hcounts⟩
    refine ⟨?_, ?_, ?_⟩
    · intro entry hentry
      rw [recordedRequests_append, hopened, hrequests, List.append_nil, List.mem_singleton] at hentry
      rw [respondedSessions_append, h.responded, hresponded, hentry]
      exact List.mem_singleton_self _
    · intro entry hentry
      rw [hall, List.mem_singleton] at hentry
      rw [hentry]
      exact hstatus
    · intro entry hentry
      rw [hall, List.mem_singleton] at hentry
      rw [hentry, Option.map_some, hcounts]

end Opening

end Oproxy
