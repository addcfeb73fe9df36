import Oproxy.ControlPlane.EgressPolicy
import Oproxy.Engine.Exchange
import Oproxy.Middleware.ContentLength
import Oproxy.Session.Retention

/-!
# Playback (`core/playback.rs`)

Every exchange in the store is sent once more.  The request is built from what the store has: a body which the byte
budget has emptied, or which was never read, is an empty body to playback.
-/

namespace Oproxy

/-- What playback uses of the world outside: the URL parser, the look-ups of the egress check by the number of the
exchange, the client library with the status and the body of its answer, and the fresh ids. -/
structure PlaybackWorld where
  parse : Str → Option Url
  resolve : Nat → Egress.Resolve
  policy : Egress.AdminEgressPolicy
  send : ClientRequest → Option (Nat × Option Bytes)
  newId : Nat → Str

structure PreparedReplay where
  exchange : Exchange
  method : Str
  uri : Str

namespace Playback

variable (world : PlaybackWorld)

def prepareReplay (n : Nat) (exchange : Exchange) : Option PreparedReplay :=
  let uri := exchange.request.uri
  if !Http.isToken exchange.request.method then none
  else
    match world.parse uri with
    | none => none
    | some parsedUrl =>
      match Egress.enforceAdminEgressPolicy (world.resolve n) parsedUrl world.policy with
      | .error _ => none
      | .ok () => some ⟨exchange, exchange.request.method, uri⟩

def hopByHopHeaders : List String :=
  ["host", "connection", "transfer-encoding", "keep-alive", "proxy-authenticate", "proxy-authorization", "te",
    "trailer", "upgrade"]

def isHopByHopHeader (name : Str) : Bool := (hopByHopHeaders.map String.toList).contains name.toAsciiLowercase

/-- The fields which are copied: those that may stand in a head, but for the hop-by-hop ones. -/
def copiedFields (fields : List (Str × Str)) : List (Str × Http.HeaderValue) :=
  fields.filterMap fun field => if isHopByHopHeader field.1 then none else ProxyEngine.builderField field

def buildRequest (replay : PreparedReplay) : ClientRequest where
  method := replay.method
  url := replay.uri
  headers := Http.Headers.ofList (copiedFields replay.exchange.request.headers.entries)
  body := if !replay.exchange.request.body.isEmpty then some replay.exchange.request.body else none

/-- The request which is sent for an exchange, if any, and the operations which are enqueued for it. -/
def replayOne (n : Nat) (exchange : Exchange) : Option ClientRequest × List WriteOp :=
  match prepareReplay world n exchange with
  | none => (none, [])
  | some replay =>
    match world.send (buildRequest replay) with
    | none => (some (buildRequest replay), [])
    | some (status, body) =>
      let newId := world.newId n
      let request := { exchange.request with method := ("[REPLAY] " : Str) ++ exchange.request.method }
      let response := { ResponseContext.default with
        status := status
        body := body.getD []
        requestUri := replay.uri }
      (some (buildRequest replay),
        [.recordRequest newId request .playback, .recordResponse newId response,
          .annotate newId none (some ["replay"])])

def replay (n : Nat) : List Exchange → List (Option ClientRequest × List WriteOp)
  | [] => []
  | exchange :: exchanges => replayOne world n exchange :: replay (n + 1) exchanges

def startPlayback (store : SessionStore) : List (Option ClientRequest × List WriteOp) :=
  replay world 0 store.exchanges.values

/-! ### What is replayed -/

/-- The exchange has a method, and a web URL which the egress policy admits. -/
structure Admitted (n : Nat) (exchange : Exchange) (url : Url) : Prop where
  method : Http.isToken exchange.request.method = true
  parsed : world.parse exchange.request.uri = some url
  web : url.isWeb = true
  egress : Egress.enforceAdminEgressPolicy (world.resolve n) url world.policy = .ok ()

/-- The field is not for one connection only: `host` is not among those which are. -/
def isEndToEnd (name : Str) : Bool := name == ("host" : Str) || !isHopByHopHeader name

/-- The fields as they are sent: the library takes the Host from the URL where it is given none. -/
def wireHeaders (url : Url) (request : ClientRequest) : Http.Headers :=
  if request.headers.getAll "host" = [] then Http.Headers.append "host" url.authorityText.toUtf8 request.headers
  else request.headers

/-- The recorded request with every end-to-end field, and its whole body in a frame of the right length. -/
structure SameRequest (url : Url) (exchange : Exchange) (request : ClientRequest) : Prop where
  method : request.method = exchange.request.method
  uri : request.url = exchange.request.uri
  fields : ∀ field ∈ exchange.request.headers.entries, isEndToEnd field.1 = true →
    (wireHeaders url request).getAll field.1 = (exchange.request.headers.getAll field.1).map Str.toUtf8
  body : request.body.getD [] = exchange.request.body
  framed : ∀ v ∈ (wireHeaders url request).getAll "content-length",
    v.toStr.bind ContentLength.declared = some exchange.request.body.length

/-- A request with an empty body, or with one of another size than the original. -/
def Misrepresents (original : Bytes) (request : ClientRequest) : Prop :=
  request.body.getD [] = [] ∨ (request.body.getD []).length ≠ original.length

/-- The request of an exchange whose body was `original`: as recorded where the store has the body, and otherwise none
that passes off another body for it. -/
structure ReplaysRecorded (url : Url) (exchange : Exchange) (original : Bytes) (sent : Option ClientRequest) :
    Prop where
  complete : exchange.request.body = original → ∃ request, sent = some request ∧ SameRequest url exchange request
  lost : exchange.request.body ≠ original → ∀ request, sent = some request → ¬ Misrepresents original request

/-- Playback replays what was recorded, `original` being the body which the request of each id had. -/
def PlaysBack (store : SessionStore) (original : Str → Bytes) : Prop :=
  ∀ n id exchange url, store.exchanges.entries[n]? = some (id, exchange) → Admitted world n exchange url →
    ReplaysRecorded url exchange (original id) ((startPlayback world store)[n]?.bind Prod.fst)

/-- The recorded request can be sent as it is: its end-to-end fields may stand in a head, its Host is that of the URL,
and a declared length is that of the body. -/
structure Restorable (url : Url) (exchange : Exchange) : Prop where
  allowed : ∀ field ∈ exchange.request.headers.entries, isHopByHopHeader field.1 = false →
    ProxyEngine.FieldAllowed field
  host : ∀ field ∈ exchange.request.headers.entries, field.1 = ("host" : Str) →
    exchange.request.headers.getAll "host" = [url.authorityText]
  length : ContentLength.Declares exchange.request.body.length exchange.request.headers

/-- The store has the body of a request which can be sent as it is.  (Another body passes for the original only where
it has the same size, and is not empty.) -/
def Replayable (url : Url) (exchange : Exchange) (original : Bytes) : Prop :=
  (exchange.request.body = original ∧ Restorable url exchange) ∨
    (exchange.request.body ≠ original ∧ exchange.request.body ≠ [] ∧ exchange.request.body.length = original.length)

/-! ### Fields -/

private theorem copiedFields_eq (fields : List (Str × Str)) :
    copiedFields fields =
      (fields.filter fun f => !isHopByHopHeader f.1 && decide (ProxyEngine.FieldAllowed f)).map fun f =>
        (f.1.toAsciiLowercase, f.2.toUtf8) := by
  unfold copiedFields
  rw [← List.filterMap_eq_map, List.filterMap_filter]
  apply List.filterMap_congr
  intro f _
  rw [ProxyEngine.builderField_eq]
  by_cases hhop : isHopByHopHeader f.1 = true
  · simp [hhop]
  · by_cases hallowed : ProxyEngine.FieldAllowed f <;> simp [hhop, hallowed]

/-- The values of a field which are sent are those recorded ones which may stand in a head. -/
theorem getAll_buildRequest (replay : PreparedReplay) {name : Str} (hlower : name.toAsciiLowercase = name) :
    (buildRequest replay).headers.getAll name =
      if isHopByHopHeader name then []
      else
        ((replay.exchange.request.headers.entries.filter fun f => f.1 == name).filter fun f =>
          ProxyEngine.FieldAllowed f).map fun f => f.2.toUtf8 := by
  have hcopied : (buildRequest replay).headers.getAll name =
      ((replay.exchange.request.headers.entries.filter fun f => !isHopByHopHeader f.1 &&
        decide (ProxyEngine.FieldAllowed f)).filter fun f => f.1 == name).map fun f => f.2.toUtf8 := by
    unfold buildRequest
    rw [Http.Headers.getAll_ofList, copiedFields_eq]
    unfold Http.Headers.getAll
    rw [List.filter_map, List.map_map]
    congr 1
    apply List.filter_congr
    intro f hf
    show decide (f.1.toAsciiLowercase = name) = (f.1 == name)
    rw [replay.exchange.request.headers.lower f (List.mem_of_mem_filter hf)]
    exact Bool.beq_eq_decide_eq f.1 name |>.symm
  rw [hcopied, List.filter_filter]
  by_cases hhop : isHopByHopHeader name = true
  · rw [if_pos hhop]
    simp only [List.map_eq_nil_iff, List.filter_eq_nil_iff, Bool.and_eq_true, not_and, beq_iff_eq]
    rintro f - rfl
    simp [hhop]
  · rw [if_neg hhop, List.filter_filter]
    congr 1
    apply List.filter_congr
    intro f _
    by_cases hname : f.1 = name
    · simp [hname, hhop]
    · have hbeq : (f.1 == name) = false := by simpa using hname
      rw [hbeq, Bool.false_and, Bool.and_false]

/-- All recorded values of a field are sent exactly where all may stand in a head. -/
theorem getAll_buildRequest_iff (replay : PreparedReplay) {name : Str} (hlower : name.toAsciiLowercase = name)
    (hhop : isHopByHopHeader name = false) :
    (buildRequest replay).headers.getAll name = (replay.exchange.request.headers.getAll name).map Str.toUtf8 ↔
      ∀ field ∈ replay.exchange.request.headers.entries, field.1 = name → ProxyEngine.FieldAllowed field := by
  have hrecorded : (replay.exchange.request.headers.getAll name).map Str.toUtf8 =
      (replay.exchange.request.headers.entries.filter fun f => f.1 == name).map fun f => f.2.toUtf8 := by
    unfold HeaderMap.getAll
    rw [List.map_map, hlower]
    rfl
  rw [getAll_buildRequest replay hlower, hhop, if_neg Bool.false_ne_true, hrecorded]
  constructor
  · intro h field hfield hname
    -- a field which is dropped is missed in the count
    have hlength := congrArg List.length h
    rw [List.length_map, List.length_map, List.length_filter_eq_length_iff] at hlength
    have hallowed := hlength field (List.mem_filter.2 ⟨hfield, by simpa using hname⟩)
    exact of_decide_eq_true hallowed
  · intro h
    rw [List.filter_eq_self.2]
    intro f hf
    obtain ⟨hmem, hname⟩ := List.mem_filter.1 hf
    exact decide_eq_true (h f hmem (beq_iff_eq.1 hname))

private theorem host_hopByHop : isHopByHopHeader "host" = true := by decide

/-- The Host which is sent is that of the URL. -/
theorem getAll_wireHeaders (url : Url) (replay : PreparedReplay) (name : Str) :
    (wireHeaders url (buildRequest replay)).getAll name =
      if ("host" : Str) = name then [url.authorityText.toUtf8] else (buildRequest replay).headers.getAll name := by
  have hnone : (buildRequest replay).headers.getAll "host" = [] := by
    rw [getAll_buildRequest replay (by decide), host_hopByHop, if_pos rfl]
  unfold wireHeaders
  rw [if_pos hnone, Http.Headers.getAll_append]
  by_cases hname : ("host" : Str) = name
  · rw [if_pos hname, if_pos hname, ← hname, hnone]
    rfl
  · rw [if_neg hname, if_neg hname]

/-! ### Requests -/

/-- The request of an exchange is the recorded one exactly where that can be sent as it is. -/
theorem sameRequest_iff (url : Url) (exchange : Exchange) :
    SameRequest url exchange (buildRequest ⟨exchange, exchange.request.method, exchange.request.uri⟩) ↔
      Restorable url exchange := by
  generalize hreplay : (⟨exchange, exchange.request.method, exchange.request.uri⟩ : PreparedReplay) = replay
  have hexchange : replay.exchange = exchange := by rw [← hreplay]
  have hlower := exchange.request.headers.lower
  have hlength : isHopByHopHeader "content-length" = false := by decide
  have hbody : (buildRequest replay).body.getD [] = exchange.request.body := by
    unfold buildRequest
    rw [hexchange]
    cases exchange.request.body <;> rfl
  constructor
  · intro h
    -- a field that is not stripped arrives under its name only if its value can be sent
    have hallowed : ∀ field ∈ exchange.request.headers.entries, isHopByHopHeader field.1 = false →
        ProxyEngine.FieldAllowed field := by
      intro field hfield hhop
      have hvalues := h.fields field hfield (by simp [isEndToEnd, hhop])
      rw [getAll_wireHeaders, if_neg, ← hexchange, getAll_buildRequest_iff replay (hlower field hfield) hhop,
        hexchange] at hvalues
      · exact hvalues field hfield rfl
      · rintro hhost
        rw [← hhost, host_hopByHop] at hhop
        cases hhop
    refine ⟨hallowed, ?_, ?_⟩
    · intro field hfield hhost
      have hvalues := h.fields field hfield (by simp [isEndToEnd, hhost])
      rw [hhost, getAll_wireHeaders, if_pos rfl, ← List.map_singleton (f := Str.toUtf8),
        (List.map_injective_iff.2 fun _ _ => Utf8.toUtf8_inj.1).eq_iff] at hvalues
      exact hvalues.symm
    · intro text htext
      have hentry : (("content-length" : Str), text) ∈ exchange.request.headers.entries := HeaderMap.mem_getAll.1 htext
      have hend : isEndToEnd "content-length" = true := by decide
      have hvalues := h.fields _ hentry hend
      apply ContentLength.declared_toUtf8.1
      apply h.framed
      rw [hvalues]
      exact List.mem_map_of_mem htext
  · intro h
    refine ⟨by rw [← hreplay]; rfl, by rw [← hreplay]; rfl, ?_, hbody, ?_⟩
    · intro field hfield hend
      rw [getAll_wireHeaders]
      by_cases hhost : ("host" : Str) = field.1
      · rw [if_pos hhost, ← hhost, h.host field hfield hhost.symm]
        rfl
      · -- an end-to-end field other than Host is not stripped
        have hhop : isHopByHopHeader field.1 = false := by
          unfold isEndToEnd at hend
          rw [Bool.or_eq_true, beq_iff_eq, Bool.not_eq_true'] at hend
          exact hend.resolve_left (Ne.symm hhost)
        rw [if_neg hhost, ← hexchange, getAll_buildRequest_iff replay (hlower field hfield) hhop, hexchange]
        intro field' hfield' hname
        exact h.allowed field' hfield' (by rw [hname]; exact hhop)
    · intro v hv
      have hvalues : (buildRequest replay).headers.getAll "content-length" =
          (exchange.request.headers.getAll "content-length").map Str.toUtf8 := by
        rw [← hexchange, getAll_buildRequest_iff replay (by decide) hlength, hexchange]
        intro field hfield hname
        exact h.allowed field hfield (by rw [hname]; exact hlength)
      rw [getAll_wireHeaders, if_neg (by decide), hvalues] at hv
      obtain ⟨text, htext, rfl⟩ := List.mem_map.1 hv
      exact ContentLength.declared_toUtf8.2 (h.length text htext)

variable {world : PlaybackWorld} {n : Nat} {exchange : Exchange} {url : Url}

theorem prepareReplay_of_admitted (h : Admitted world n exchange url) :
    prepareReplay world n exchange = some ⟨exchange, exchange.request.method, exchange.request.uri⟩ := by
  unfold prepareReplay
  simp only [h.method, Bool.not_true, Bool.false_eq_true, if_false, h.parsed, h.egress]

theorem replayOne_fst (world : PlaybackWorld) (n : Nat) (exchange : Exchange) :
    (replayOne world n exchange).1 = (prepareReplay world n exchange).map buildRequest := by
  unfold replayOne
  cases prepareReplay world n exchange with
  | none => rfl
  | some replay => dsimp only; cases world.send (buildRequest replay) <;> rfl

private theorem getElem?_replay (world : PlaybackWorld) (m : Nat) (exchanges : List Exchange) (n : Nat) :
    (replay world m exchanges)[n]? = exchanges[n]?.map (replayOne world (m + n)) := by
  induction exchanges generalizing m n with
  | nil => rfl
  | cons exchange exchanges ih =>
    cases n with
    | zero => rfl
    | succ n =>
      unfold replay
      rw [List.getElem?_cons_succ, List.getElem?_cons_succ, ih, Nat.add_right_comm m 1 n, Nat.add_assoc m n 1]

/-- The request which is sent for an exchange of the store. -/
theorem request_of_admitted {store : SessionStore} {id : Str}
    (hstored : store.exchanges.entries[n]? = some (id, exchange)) (h : Admitted world n exchange url) :
    (startPlayback world store)[n]?.bind Prod.fst =
      some (buildRequest ⟨exchange, exchange.request.method, exchange.request.uri⟩) := by
  unfold startPlayback IndexMap.values
  rw [getElem?_replay, List.getElem?_map, hstored, Nat.zero_add, Option.map_some, Option.map_some, Option.bind_some,
    replayOne_fst, prepareReplay_of_admitted h]
  rfl

private theorem not_misrepresents_iff (exchange : Exchange) (original : Bytes) :
    ¬ Misrepresents original (buildRequest ⟨exchange, exchange.request.method, exchange.request.uri⟩) ↔
      exchange.request.body ≠ [] ∧ exchange.request.body.length = original.length := by
  have hbody : (buildRequest ⟨exchange, exchange.request.method, exchange.request.uri⟩).body.getD [] =
      exchange.request.body := by
    unfold buildRequest
    cases exchange.request.body <;> rfl
  unfold Misrepresents
  rw [hbody, not_or, not_not]

/-- An exchange is replayed as it was recorded exactly where the store has the body of a request which can be sent as it
is. -/
theorem replaysRecorded_iff {world : PlaybackWorld} {store : SessionStore} {original : Bytes} {n : Nat} {id : Str}
    {exchange : Exchange} {url : Url} (hstored : store.exchanges.entries[n]? = some (id, exchange))
    (hadmitted : Admitted world n exchange url) :
    ReplaysRecorded url exchange original ((startPlayback world store)[n]?.bind Prod.fst) ↔
      Replayable url exchange original := by
  rw [request_of_admitted hstored hadmitted]
  constructor
  · intro hone
    by_cases hkept : exchange.request.body = original
    · obtain ⟨request, hsent, hsame⟩ := hone.complete hkept
      rw [← Option.some.inj hsent, sameRequest_iff] at hsame
      exact Or.inl ⟨hkept, hsame⟩
    · exact Or.inr ⟨hkept, (not_misrepresents_iff exchange original).1 (hone.lost hkept _ rfl)⟩
  · rintro (⟨hkept, hrestorable⟩ | ⟨hlost, hsize⟩)
    · exact ⟨fun _ => ⟨_, rfl, (sameRequest_iff url exchange).2 hrestorable⟩, fun hlost => absurd hkept hlost⟩
    · refine ⟨fun hkept => absurd hkept hlost, fun hlost request hrequest => ?_⟩
      rw [← Option.some.inj hrequest]
      exact (not_misrepresents_iff exchange original).2 hsize

/-- Playback replays what was recorded exactly where the store has the bodies of requests which can be sent as they
are. -/
theorem playsBack_iff (world : PlaybackWorld) (store : SessionStore) (original : Str → Bytes) :
    PlaysBack world store original ↔
      ∀ n id exchange url, store.exchanges.entries[n]? = some (id, exchange) → Admitted world n exchange url →
        Replayable url exchange (original id) := by
  apply forall_congr'; intro n
  apply forall_congr'; intro id
  apply forall_congr'; intro exchange
  apply forall_congr'; intro url
  apply forall_congr'; intro hstored
  apply forall_congr'; intro hadmitted
  exact replaysRecorded_iff hstored hadmitted

/-- In a run which records bodies as they were or not at all, playback replays what was recorded exactly where no body
is lost of a request which can be sent as it is. -/
theorem playsBack_of_captures (world : PlaybackWorld) {original : Str → Bytes} (M B : Nat) {ops : List TimedOp}
    (h : ∀ t ∈ ops, SessionStore.Captures original t) :
    PlaysBack world (Machine.run SessionStore.step (SessionStore.empty M B) ops) original ↔
      ∀ n id exchange url, (Machine.run SessionStore.step (SessionStore.empty M B) ops).exchanges.entries[n]? =
        some (id, exchange) → Admitted world n exchange url →
          exchange.request.body = original id ∧ Restorable url exchange := by
  apply forall_congr'; intro n
  apply forall_congr'; intro id
  apply forall_congr'; intro exchange
  apply forall_congr'; intro url
  apply forall_congr'; intro hstored
  apply forall_congr'; intro hadmitted
  rw [replaysRecorded_iff hstored hadmitted]
  constructor
  · rintro (hkept | ⟨hlost, hne, -⟩)
    · exact hkept
    · have hget := IndexMap.get?_of_mem (List.mem_of_getElem? hstored)
      rcases SessionStore.keeps_run M B h id exchange hget with hkept | hempty
      · exact absurd hkept hlost
      · exact absurd hempty hne
  · exact Or.inl

/-! ### An upload whose body the budget has emptied -/

private def uploadUrl : Url := .ofHost "http" "files.test" "/upload" (Eq.refl true)

private def uploadWorld : PlaybackWorld where
  parse text := if text = "http://files.test/upload" then some uploadUrl else none
  resolve _ _ _ := some []
  policy := ⟨true⟩
  send _ := some (200, some [])
  newId _ := "replayed"

private def uploadBodies : Str → Bytes := fun _ => [100, 97, 116, 97]

private def uploadRun : List TimedOp :=
  [⟨fun _ => 0, .recordRequest "s"
    { RequestContext.default with
      method := "POST"
      uri := "http://files.test/upload"
      headers := HeaderMap.fromIter [("content-length", "4")]
      body := [100, 97, 116, 97] } .proxy⟩]

private theorem captures_uploadRun : ∀ t ∈ uploadRun, SessionStore.Captures uploadBodies t := by
  intro t ht
  rw [List.mem_singleton.1 ht]
  rintro id request ⟨-, rfl⟩
  exact Or.inl rfl

/-- With a budget of three bytes the body of four bytes is emptied, and the upload is replayed without it. -/
theorem not_playsBack :
    ¬ ∀ (world : PlaybackWorld) (original : Str → Bytes) (M B : Nat) (ops : List TimedOp),
      (∀ t ∈ ops, SessionStore.Captures original t) →
        PlaysBack world (Machine.run SessionStore.step (SessionStore.empty M B) ops) original := by
  intro h
  obtain ⟨exchange, hstored⟩ : ∃ exchange,
      (Machine.run SessionStore.step (SessionStore.empty 10 3) uploadRun).exchanges.entries[0]? =
        some (("s" : Str), exchange) :=
    ⟨_, rfl⟩
  have hexchange := Option.some.inj hstored
  cases hexchange
  have hplays := h uploadWorld uploadBodies 10 3 uploadRun captures_uploadRun 0 _ _ uploadUrl hstored
    ⟨by decide, rfl, by decide, rfl⟩
  obtain ⟨request, hsent⟩ : ∃ request, (startPlayback uploadWorld
      (Machine.run SessionStore.step (SessionStore.empty 10 3) uploadRun))[0]?.bind Prod.fst = some request ∧
        request.body = none := ⟨_, rfl, rfl⟩
  refine hplays.lost (by decide) request hsent.1 (Or.inl ?_)
  rw [hsent.2]
  rfl

end Playback

end Oproxy
