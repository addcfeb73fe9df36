import Oproxy.ControlPlane.Connections
import Oproxy.ControlPlane.Mutations
import Oproxy.Engine.Recorders
import Oproxy.Lib.Checked

/-!
# Arithmetic on recorded numbers (`sessions.rs`, `metrics.rs`, `middleware/plugins/routing.rs`)

The metrics of a session come from a file as they are, and so does the bandwidth from the settings.  They are summed up,
multiplied and converted with no check; only the wait for the first byte saturates.
-/

namespace Oproxy

open Calendar Checked

/-! ### The waterfall of a session -/

structure Phase where
  phase : Str
  start : Nat
  duration : Nat

/-- A phase starts at the cursor, which goes on by its duration. -/
def pushPhase (phase : Str) (duration : Nat) (s : List Phase × Nat) : Option (List Phase × Nat) :=
  (addU64 s.2 duration).map fun cursor => (s.1 ++ [⟨phase, s.2, duration⟩], cursor)

def pushKnown (phase : Str) (duration : Option Nat) (s : List Phase × Nat) : Option (List Phase × Nat) :=
  match duration with
  | none => some s
  | some duration => pushPhase phase duration s

def waterfall (metrics : InspectionMetrics) : Option (List Phase) := do
  let s ← pushKnown "dns" metrics.dnsMs ([], 0)
  let s ← pushKnown "tcp" metrics.tcpConnectMs s
  let s ← pushKnown "tls" metrics.tlsMs s
  let ttfbWait := metrics.ttfbMs - s.2
  let s ← if 0 < ttfbWait then pushPhase "wait" ttfbWait s else some s
  some (if 0 < metrics.bodyMs then s.1 ++ [⟨"body", s.2, metrics.bodyMs⟩] else s.1)

inductive TimingReply where
  | notFound
  | unavailable
  | available (metrics : InspectionMetrics) (phases : List Phase)

def getSessionTiming (s : SessionStore) (id : Str) : Option TimingReply :=
  match s.exchanges.get? id with
  | none => some .notFound
  | some exchange =>
    match exchange.metrics with
    | none => some .unavailable
    | some metrics => (waterfall metrics).map (.available metrics)

/-! ### Totals -/

/-- What a session adds to the byte total of `aggregate_protocol_metrics`. -/
def addBytes (total : Nat) (ex : Exchange) : Option Nat :=
  match ex.metrics with
  | none => some total
  | some mx => (addU64 mx.requestSizeBytes mx.responseSizeBytes).bind (addU64 total)

def totalBytes (sessions : List Exchange) : Option Nat := sessions.foldlM addBytes 0

/-- The totals and averages of `build_metrics_payload`. -/
structure MetricsSums where
  totalRequestBytes : Nat
  totalResponseBytes : Nat
  avgLatencyMs : Nat
  avgRequestSizeBytes : Nat
  avgResponseSizeBytes : Nat

def metricsSums (sessions : List Exchange) : Option MetricsSums := do
  let raw := sessions.filterMap Exchange.metrics
  let inspectedRequests := raw.length
  let totalRequestBytes ← sumU64 (raw.map InspectionMetrics.requestSizeBytes)
  let totalResponseBytes ← sumU64 (raw.map InspectionMetrics.responseSizeBytes)
  let avgLatencyMs ←
    if 0 < inspectedRequests then (sumU64 (raw.map InspectionMetrics.latencyMs)).map (· / inspectedRequests) else some 0
  some
    { totalRequestBytes := totalRequestBytes
      totalResponseBytes := totalResponseBytes
      avgLatencyMs := avgLatencyMs
      avgRequestSizeBytes := if 0 < inspectedRequests then totalRequestBytes / inspectedRequests else 0
      avgResponseSizeBytes := if 0 < inspectedRequests then totalResponseBytes / inspectedRequests else 0 }

/-! ### Throttling -/

/-- How long `on_response` of the throttling sleeps, in milliseconds. -/
def throttleDelayMs (config : ThrottlingConfig) (ctx : ResponseContext) : Option Nat :=
  if config.enabled && decide (0 < config.bandwidthLimitKbps) && !ctx.body.isEmpty then do
    let bits ← mulU64 config.bandwidthLimitKbps.toNat 1024
    let bytesPerSec := bits / 8
    let scaled ← mulU64 ctx.body.length 1000
    some (if bytesPerSec = 0 then 0 else scaled / bytesPerSec)
  else some 0

/-! ### No result leaves its range -/

/-- When a connection was first seen, as its summary has it. -/
def firstSeenOf (now : Timestamp) (group : List Exchange) : Timestamp :=
  ((byStream group).map Exchange.timestamp).min?.getD now

/-- The sums and products fit, and the conversions keep the numbers. -/
structure NeverWraps (s : SessionStore) (config : ThrottlingConfig) (ctx : ResponseContext) (now : Timestamp) :
    Prop where
  timing : ∀ id, (getSessionTiming s id).isSome = true
  connections : ∀ cid, ∀ e ∈ groupOf s.getAllSessions cid,
    toI64 e.durationMs = e.durationMs ∧
      (interval (firstSeenOf now (groupOf s.getAllSessions cid)) e).2 =
        startOffsetMs (firstSeenOf now (groupOf s.getAllSessions cid)) e + e.durationMs
  protocolMetrics : (totalBytes s.getAllSessions).isSome = true
  metricsPayload : (metricsSums s.getAllSessions).isSome = true
  throttling : (throttleDelayMs config ctx).isSome = true
  latency : ∀ session, ctx.sessionId.bind s.exchanges.get? = some session →
    ∀ id response metrics,
      .recordResponseWithMetrics id response metrics ∈ (Inspection.onResponse ⟨s.exchanges.get?, now⟩ ctx).2 →
        (metrics.latencyMs : Int) = numMilliseconds (now - session.timestamp)

/-- A time which a timestamp can hold. -/
def InRange (time : Timestamp) : Prop := -262143 ≤ year time ∧ year time ≤ 262142

/-- The numbers are in the range of their types. -/
structure Admitted (s : SessionStore) (now : Timestamp) : Prop where
  metrics : ∀ e ∈ s.getAllSessions, ∀ m ∈ e.metrics, m.latencyMs < 2 ^ 64 ∧ m.requestSizeBytes < 2 ^ 64 ∧
    m.responseSizeBytes < 2 ^ 64 ∧ m.ttfbMs < 2 ^ 64 ∧ m.bodyMs < 2 ^ 64 ∧
    (∀ n ∈ m.dnsMs, n < 2 ^ 64) ∧ (∀ n ∈ m.tcpConnectMs, n < 2 ^ 64) ∧ ∀ n ∈ m.tlsMs, n < 2 ^ 64
  timestamps : ∀ e ∈ s.getAllSessions, InRange e.timestamp
  now : InRange now

/-- The numbers are small enough for the sums and products, and the clock has not stepped back a millisecond. -/
structure Fits (s : SessionStore) (config : ThrottlingConfig) (ctx : ResponseContext) (now : Timestamp) : Prop where
  setup : ∀ e ∈ s.getAllSessions, ∀ m ∈ e.metrics,
    m.dnsMs.getD 0 + m.tcpConnectMs.getD 0 + m.tlsMs.getD 0 < 2 ^ 64
  spans : ∀ e ∈ s.getAllSessions, ∀ e' ∈ s.getAllSessions, e.connectionId.isSome = true →
    e'.connectionId = e.connectionId → (e.timestamp - e'.timestamp) / 1000000 + (e.durationMs : Int) < 2 ^ 63
  bytes : ((s.getAllSessions.filterMap Exchange.metrics).map fun m => m.requestSizeBytes + m.responseSizeBytes).sum <
    2 ^ 64
  latencies : ((s.getAllSessions.filterMap Exchange.metrics).map InspectionMetrics.latencyMs).sum < 2 ^ 64
  bandwidth : config.enabled = true → 0 < config.bandwidthLimitKbps → ctx.body ≠ [] →
    config.bandwidthLimitKbps.toNat * 1024 < 2 ^ 64 ∧ ctx.body.length * 1000 < 2 ^ 64
  clock : ctx.responseBodyObserverPending = false → ctx.terminalRecordingPending = false →
    ∀ session, ctx.sessionId.bind s.exchanges.get? = some session → session.response = none →
      session.timestamp < now + 1000000

/-! ### The waterfall -/

section

variable {metrics : InspectionMetrics}

/-- The cursor goes on by the duration of a phase, if it is known. -/
theorem pushKnown_eq (phase : Str) (duration : Option Nat) {s : List Phase × Nat} (hs : s.2 < 2 ^ 64) :
    ∃ phases, pushKnown phase duration s =
      if s.2 + duration.getD 0 < 2 ^ 64 then some (phases, s.2 + duration.getD 0) else none := by
  cases duration with
  | none => exact ⟨s.1, by rw [Option.getD_none, Nat.add_zero, if_pos hs]; rfl⟩
  | some duration =>
    refine ⟨s.1 ++ [⟨phase, s.2, duration⟩], ?_⟩
    show (addU64 s.2 duration).map _ = _
    unfold addU64
    rw [Option.getD_some]
    split
    · rfl
    · rfl

/-- The cursor is at the time of the first byte after the wait, if it is not beyond it. -/
theorem isSome_waterfall (h : metrics.ttfbMs < 2 ^ 64) :
    (waterfall metrics).isSome = true ↔
      metrics.dnsMs.getD 0 + metrics.tcpConnectMs.getD 0 + metrics.tlsMs.getD 0 < 2 ^ 64 := by
  unfold waterfall
  obtain ⟨dns, hdns⟩ := @pushKnown_eq "dns" metrics.dnsMs ([], 0) (by decide)
  rw [hdns, Nat.zero_add]
  by_cases hdns : metrics.dnsMs.getD 0 < 2 ^ 64
  · rw [if_pos hdns]
    obtain ⟨tcp, htcp⟩ := @pushKnown_eq "tcp" metrics.tcpConnectMs (dns, metrics.dnsMs.getD 0) hdns
    simp only [Option.bind_eq_bind, Option.bind_some, htcp]
    by_cases htcp : metrics.dnsMs.getD 0 + metrics.tcpConnectMs.getD 0 < 2 ^ 64
    · rw [if_pos htcp]
      obtain ⟨tls, htls⟩ :=
        @pushKnown_eq "tls" metrics.tlsMs (tcp, metrics.dnsMs.getD 0 + metrics.tcpConnectMs.getD 0) htcp
      simp only [Option.bind_some, htls]
      by_cases htls : metrics.dnsMs.getD 0 + metrics.tcpConnectMs.getD 0 + metrics.tlsMs.getD 0 < 2 ^ 64
      · rw [if_pos htls]
        refine iff_of_true ?_ htls
        simp only [Option.bind_some]
        -- after a wait the cursor is the time of the first byte
        split
        · rename_i hwait
          unfold pushPhase
          rw [addU64_of_lt (by omega)]
          rfl
        · rfl
      · rw [if_neg htls]
        exact iff_of_false Bool.false_ne_true htls
    · rw [if_neg htcp]
      exact iff_of_false Bool.false_ne_true (by omega)
  · rw [if_neg hdns]
    exact iff_of_false Bool.false_ne_true (by omega)

end

/-! ### Connections -/

section

variable {now : Timestamp} {e : Exchange} {sessions group : List Exchange}

theorem toI64_eq_self_iff {n : Int} : toI64 n = n ↔ -2 ^ 63 ≤ n ∧ n < 2 ^ 63 := by
  constructor
  · intro h
    unfold toI64 at h
    rw [Int.bmod_def] at h
    split at h <;> omega
  · exact fun h => toI64_of_fits h.1 h.2

theorem isLeast_firstSeenOf (now : Timestamp) (he : e ∈ group) :
    IsLeast {t | ∃ e ∈ group, e.timestamp = t} (firstSeenOf now group) := by
  have hperm := byStream_perm group
  have hleast := isLeast_min? Exchange.timestamp (List.ne_nil_of_mem (hperm.mem_iff.2 he)) now
  have hsame : {t | ∃ e ∈ byStream group, e.timestamp = t} = {t | ∃ e ∈ group, e.timestamp = t} := by
    ext t
    simp only [Set.mem_ofPred_eq, hperm.mem_iff]
  rwa [hsame] at hleast

theorem end_exact_iff {offset : Int} (duration : Nat) (h : 0 ≤ offset) :
    (toI64 duration = duration ∧ toI64 (offset + toI64 duration) = offset + duration) ↔ offset + duration < 2 ^ 63 := by
  constructor
  · rintro ⟨hduration, hend⟩
    rw [hduration] at hend
    exact (toI64_eq_self_iff.1 hend).2
  · intro hlt
    have hduration : toI64 (duration : Int) = duration := toI64_of_fits (by omega) (by omega)
    refine ⟨hduration, ?_⟩
    rw [hduration]
    exact toI64_of_fits (by omega) hlt

/-- The end of an interval is exact if the duration and the end are in range. -/
theorem interval_exact_iff (he : e ∈ group) :
    (toI64 e.durationMs = e.durationMs ∧
      (interval (firstSeenOf now group) e).2 = startOffsetMs (firstSeenOf now group) e + e.durationMs) ↔
      (e.timestamp - firstSeenOf now group) / 1000000 + (e.durationMs : Int) < 2 ^ 63 := by
  have hle : firstSeenOf now group ≤ e.timestamp := (isLeast_firstSeenOf now he).2 ⟨e, he, rfl⟩
  have hnonneg : (0 : Int) ≤ e.timestamp - firstSeenOf now group := Int.sub_nonneg_of_le hle
  have hoffset : startOffsetMs (firstSeenOf now group) e = (e.timestamp - firstSeenOf now group) / 1000000 :=
    Int.tdiv_eq_ediv_of_nonneg hnonneg
  unfold interval
  rw [hoffset]
  exact end_exact_iff e.durationMs (Int.ediv_nonneg hnonneg (by decide))

theorem mem_groupOf {cid : Str} : e ∈ groupOf sessions cid ↔ e ∈ sessions ∧ e.connectionId = some cid := by
  unfold groupOf
  rw [List.mem_filter, decide_eq_true_eq]

/-- The earliest exchange of a connection makes the greatest offset. -/
theorem intervals_exact_iff (now : Timestamp) (sessions : List Exchange) :
    (∀ cid, ∀ e ∈ groupOf sessions cid, toI64 e.durationMs = e.durationMs ∧
      (interval (firstSeenOf now (groupOf sessions cid)) e).2 =
        startOffsetMs (firstSeenOf now (groupOf sessions cid)) e + e.durationMs) ↔
      ∀ e ∈ sessions, ∀ e' ∈ sessions, e.connectionId.isSome = true → e'.connectionId = e.connectionId →
        (e.timestamp - e'.timestamp) / 1000000 + (e.durationMs : Int) < 2 ^ 63 := by
  constructor
  · intro h e he e' he' hsome hsame
    obtain ⟨cid, hcid⟩ := Option.isSome_iff_exists.1 hsome
    have hmem : e ∈ groupOf sessions cid := mem_groupOf.2 ⟨he, hcid⟩
    have hmem' : e' ∈ groupOf sessions cid := mem_groupOf.2 ⟨he', hsame.trans hcid⟩
    have hlt := (interval_exact_iff hmem).1 (h cid e hmem)
    have hfirst : firstSeenOf now (groupOf sessions cid) ≤ e'.timestamp :=
      (isLeast_firstSeenOf now hmem').2 ⟨e', hmem', rfl⟩
    have hdiv : (e.timestamp - e'.timestamp) / 1000000 ≤
        (e.timestamp - firstSeenOf now (groupOf sessions cid)) / 1000000 :=
      Int.ediv_le_ediv (by decide) (Int.sub_le_sub_left hfirst _)
    exact lt_of_le_of_lt (Int.add_le_add_right hdiv _) hlt
  · intro h cid e hmem
    obtain ⟨⟨e', hmem', hfirst⟩, -⟩ := isLeast_firstSeenOf now hmem
    obtain ⟨he, hcid⟩ := mem_groupOf.1 hmem
    obtain ⟨he', hcid'⟩ := mem_groupOf.1 hmem'
    rw [interval_exact_iff hmem, ← hfirst]
    exact h e he e' he' (by rw [hcid]; rfl) (hcid'.trans hcid.symm)

end

/-! ### Totals -/

section

variable {sessions : List Exchange}

theorem sum_filterMap {α β : Type} (f : α → Option β) (size : β → Nat) (l : List α) :
    ((l.filterMap f).map size).sum = (l.map fun a => ((f a).map size).getD 0).sum := by
  induction l with
  | nil => rfl
  | cons a l ih =>
    cases h : f a with
    | none => simp [h, ih]
    | some b => simp [h, ih]

theorem isSome_totalBytes : (totalBytes sessions).isSome = true ↔
    ((sessions.filterMap Exchange.metrics).map fun m => m.requestSizeBytes + m.responseSizeBytes).sum < 2 ^ 64 := by
  have hstep : ∀ (total : Nat) (ex : Exchange), total < 2 ^ 64 → addBytes total ex =
      if total + (ex.metrics.map fun m => m.requestSizeBytes + m.responseSizeBytes).getD 0 < 2 ^ 64 then
        some (total + (ex.metrics.map fun m => m.requestSizeBytes + m.responseSizeBytes).getD 0) else none := by
    intro total ex htotal
    unfold addBytes
    cases hmetrics : ex.metrics with
    | none => rw [Option.map_none, Option.getD_none, Nat.add_zero, if_pos htotal]
    | some mx =>
      rw [Option.map_some, Option.getD_some]
      dsimp only
      by_cases hfits : mx.requestSizeBytes + mx.responseSizeBytes < 2 ^ 64
      · rw [addU64_of_lt hfits]
        rfl
      · rw [addU64_of_not_lt hfits, if_neg (by omega)]
        rfl
  unfold totalBytes
  rw [foldlM_addU64 addBytes _ hstep sessions 0 (by decide), Nat.zero_add, ← sum_filterMap]
  split <;> simp_all

theorem isSome_metricsSums : (metricsSums sessions).isSome = true ↔
    ((sessions.filterMap Exchange.metrics).map InspectionMetrics.requestSizeBytes).sum < 2 ^ 64 ∧
      ((sessions.filterMap Exchange.metrics).map InspectionMetrics.responseSizeBytes).sum < 2 ^ 64 ∧
      ((sessions.filterMap Exchange.metrics).map InspectionMetrics.latencyMs).sum < 2 ^ 64 := by
  unfold metricsSums
  generalize sessions.filterMap Exchange.metrics = raw
  simp only [sumU64_eq]
  by_cases hrequest : (raw.map InspectionMetrics.requestSizeBytes).sum < 2 ^ 64
  · by_cases hresponse : (raw.map InspectionMetrics.responseSizeBytes).sum < 2 ^ 64
    · rw [if_pos hrequest, if_pos hresponse]
      by_cases hlatency : (raw.map InspectionMetrics.latencyMs).sum < 2 ^ 64
      · rw [if_pos hlatency]
        refine iff_of_true ?_ ⟨hrequest, hresponse, hlatency⟩
        by_cases hraw : 0 < raw.length
        · simp [hraw]
        · simp [hraw]
      · have hraw : 0 < raw.length := by
          cases raw with
          | nil => exact absurd (by decide) hlatency
          | cons m raw => exact Nat.succ_pos _
        rw [if_neg hlatency]
        exact iff_of_false (by simp [hraw]) fun h => hlatency h.2.2
    · rw [if_neg hresponse, if_pos hrequest]
      exact iff_of_false (by simp) fun h => hresponse h.2.1
  · rw [if_neg hrequest]
    exact iff_of_false (by simp) fun h => hrequest h.1

end

/-! ### Throttling and latency -/

section

variable {s : SessionStore} {config : ThrottlingConfig} {ctx : ResponseContext} {now : Timestamp}

theorem isSome_throttleDelayMs : (throttleDelayMs config ctx).isSome = true ↔
    (config.enabled = true → 0 < config.bandwidthLimitKbps → ctx.body ≠ [] →
      config.bandwidthLimitKbps.toNat * 1024 < 2 ^ 64 ∧ ctx.body.length * 1000 < 2 ^ 64) := by
  unfold throttleDelayMs
  by_cases hactive : config.enabled = true ∧ 0 < config.bandwidthLimitKbps ∧ ctx.body ≠ []
  · obtain ⟨henabled, hlimit, hbody⟩ := hactive
    have htest : (config.enabled && decide (0 < config.bandwidthLimitKbps) && !ctx.body.isEmpty) = true := by
      simp [henabled, hlimit, hbody]
    rw [if_pos htest]
    simp only [mulU64]
    by_cases hbits : config.bandwidthLimitKbps.toNat * 1024 < 2 ^ 64
    · rw [if_pos hbits]
      by_cases hscaled : ctx.body.length * 1000 < 2 ^ 64
      · rw [if_pos hscaled]
        exact iff_of_true rfl fun _ _ _ => ⟨hbits, hscaled⟩
      · rw [if_neg hscaled]
        exact iff_of_false (by simp) fun h => hscaled (h henabled hlimit hbody).2
    · rw [if_neg hbits]
      exact iff_of_false (by simp) fun h => hbits (h henabled hlimit hbody).1
  · have htest : ¬ (config.enabled && decide (0 < config.bandwidthLimitKbps) && !ctx.body.isEmpty) = true := by
      intro htest
      simp only [Bool.and_eq_true, decide_eq_true_eq, Bool.not_eq_true', List.isEmpty_eq_false_iff] at htest
      exact hactive ⟨htest.1.1, htest.1.2, htest.2⟩
    rw [if_neg htest]
    exact iff_of_true rfl fun henabled hlimit hbody => absurd ⟨henabled, hlimit, hbody⟩ hactive

theorem numMilliseconds_of_nonpos {n : Int} (h : n ≤ 0) : numMilliseconds n = -((-n) / 1000000) := by
  unfold numMilliseconds
  rw [← Int.tdiv_eq_ediv_of_nonneg (Int.neg_nonneg_of_nonpos h), Int.neg_tdiv, Int.neg_neg]

/-- Less than a millisecond before is cut off to nothing. -/
theorem numMilliseconds_nonneg_iff {n : Int} : 0 ≤ numMilliseconds n ↔ -1000000 < n := by
  rcases Int.le_total 0 n with h | h
  · rw [numMilliseconds, Int.tdiv_eq_ediv_of_nonneg h]
    omega
  · rw [numMilliseconds_of_nonpos h]
    omega

theorem daysOf_inRange {time : Timestamp} (h : InRange time) : -95839632 ≤ daysOf time ∧ daysOf time < 95839632 := by
  obtain ⟨h0, h1⟩ := h
  have hle : spanOf daysBeforeYear 399 (daysOf time % 146097).toNat ≤ 399 := spanOf_le
  have hyear : year time = 400 * (daysOf time / 146097) + spanOf daysBeforeYear 399 (daysOf time % 146097).toNat := rfl
  rw [hyear] at h0 h1
  omega

theorem numMilliseconds_lt {a b : Timestamp} (ha : InRange a) (hb : InRange b) : numMilliseconds (a - b) < 2 ^ 64 := by
  obtain ⟨-, ha⟩ := daysOf_inRange ha
  obtain ⟨hb, -⟩ := daysOf_inRange hb
  unfold daysOf at ha hb
  rcases Int.le_total 0 (a - b) with h | h
  · rw [numMilliseconds, Int.tdiv_eq_ediv_of_nonneg h]
    omega
  · rw [numMilliseconds_of_nonpos h]
    omega

/-- The latency is exact if the request is not a millisecond in the future. -/
theorem latencyMs_exact_iff {now timestamp : Int} (hnow : InRange now) (htimestamp : InRange timestamp) :
    (ProxyEngine.latencyMs now timestamp : Int) = numMilliseconds (now - timestamp) ↔ timestamp < now + 1000000 := by
  have hlt := numMilliseconds_lt hnow htimestamp
  have hnonneg := @numMilliseconds_nonneg_iff (now - timestamp)
  have hlatency : ProxyEngine.latencyMs now timestamp = (numMilliseconds (now - timestamp) % 2 ^ 64).toNat := rfl
  rw [hlatency]
  constructor
  · intro h
    have hpos : -1000000 < now - timestamp := hnonneg.1 (by rw [← h]; exact Int.natCast_nonneg _)
    omega
  · intro h
    have hpos : 0 ≤ numMilliseconds (now - timestamp) := hnonneg.2 (by omega)
    rw [Int.emod_eq_of_lt hpos hlt, Int.toNat_of_nonneg hpos]

/-- A response is recorded unless it is left to another recorder, or the session has one. -/
theorem recorded_latency_iff {session : Exchange} (hfound : ctx.sessionId.bind s.exchanges.get? = some session)
    (P : Nat → Prop) :
    (∀ id response metrics, .recordResponseWithMetrics id response metrics ∈
      (Inspection.onResponse ⟨s.exchanges.get?, now⟩ ctx).2 → P metrics.latencyMs) ↔
      (ctx.responseBodyObserverPending = false → ctx.terminalRecordingPending = false → session.response = none →
        P (ProxyEngine.latencyMs now session.timestamp)) := by
  unfold Inspection.onResponse
  by_cases hpending : (ctx.responseBodyObserverPending || ctx.terminalRecordingPending) = true
  · rw [if_pos hpending]
    refine iff_of_true (fun id response metrics h => absurd h List.not_mem_nil) fun hobserver hterminal => ?_
    rw [hobserver, hterminal] at hpending
    exact absurd hpending (by decide)
  · rw [if_neg hpending]
    obtain ⟨hobserver, hterminal⟩ : ctx.responseBodyObserverPending = false ∧ ctx.terminalRecordingPending = false := by
      simpa using hpending
    dsimp only
    rw [hfound]
    dsimp only
    cases hresponse : session.response with
    | some response =>
      simp only [Option.isSome_some, if_true]
      exact iff_of_true (fun id response metrics h => absurd h List.not_mem_nil) fun _ _ h => absurd h (by simp)
    | none =>
      simp only [Option.isSome_none, Bool.false_eq_true, if_false]
      constructor
      · intro h _ _ _
        exact h _ _ _ List.mem_cons_self
      · intro h id response metrics hmem
        rcases List.mem_cons.1 hmem with heq | hmem
        · injection heq with hid hctx hmetrics
          rw [hmetrics]
          exact h hobserver hterminal trivial
        · split at hmem
          · exact absurd hmem List.not_mem_nil
          · exact absurd (List.mem_singleton.1 hmem) (by simp)

/-! ### Exactly when nothing wraps -/

theorem mem_getAllSessions {e : Exchange} : e ∈ s.getAllSessions ↔ ∃ id, s.exchanges.get? id = some e := by
  constructor
  · intro h
    obtain ⟨⟨id, e⟩, hmem, rfl⟩ := List.mem_map.1 h
    exact ⟨id, IndexMap.get?_of_mem hmem⟩
  · rintro ⟨id, h⟩
    exact List.mem_map.2 ⟨(id, e), IndexMap.mem_of_get? h, rfl⟩

theorem timing_iff (h : Admitted s now) : (∀ id, (getSessionTiming s id).isSome = true) ↔
    ∀ e ∈ s.getAllSessions, ∀ m ∈ e.metrics,
      m.dnsMs.getD 0 + m.tcpConnectMs.getD 0 + m.tlsMs.getD 0 < 2 ^ 64 := by
  constructor
  · intro htiming e he m hm
    obtain ⟨id, hid⟩ := mem_getAllSessions.1 he
    have hsome := htiming id
    obtain ⟨-, -, -, httfb, -⟩ := h.metrics e he m hm
    unfold getSessionTiming at hsome
    rw [hid] at hsome
    dsimp only at hsome
    rw [Option.mem_def.1 hm] at hsome
    dsimp only at hsome
    rw [Option.isSome_map] at hsome
    exact (isSome_waterfall httfb).1 hsome
  · intro hsetup id
    unfold getSessionTiming
    cases hid : s.exchanges.get? id with
    | none => rfl
    | some e =>
      have he : e ∈ s.getAllSessions := mem_getAllSessions.2 ⟨id, hid⟩
      dsimp only
      cases hm : e.metrics with
      | none => rfl
      | some m =>
        obtain ⟨-, -, -, httfb, -⟩ := h.metrics e he m hm
        dsimp only
        rw [Option.isSome_map]
        exact (isSome_waterfall httfb).2 (hsetup e he m hm)

/-- Nothing wraps exactly if the numbers are small enough and the clock has not stepped back. -/
theorem neverWraps_iff (h : Admitted s now) (config : ThrottlingConfig) (ctx : ResponseContext) :
    NeverWraps s config ctx now ↔ Fits s config ctx now := by
  have hlatency : ∀ session, ctx.sessionId.bind s.exchanges.get? = some session →
      ((∀ id response metrics, .recordResponseWithMetrics id response metrics ∈
        (Inspection.onResponse ⟨s.exchanges.get?, now⟩ ctx).2 →
          (metrics.latencyMs : Int) = numMilliseconds (now - session.timestamp)) ↔
        (ctx.responseBodyObserverPending = false → ctx.terminalRecordingPending = false → session.response = none →
          session.timestamp < now + 1000000)) := by
    intro session hfound
    obtain ⟨id, -, hid⟩ := Option.bind_eq_some_iff.1 hfound
    rw [recorded_latency_iff hfound fun n => (n : Int) = numMilliseconds (now - session.timestamp),
      latencyMs_exact_iff h.now (h.timestamps session (mem_getAllSessions.2 ⟨id, hid⟩))]
  have hbytes : ∀ raw : List InspectionMetrics, (raw.map fun m => m.requestSizeBytes + m.responseSizeBytes).sum =
      (raw.map InspectionMetrics.requestSizeBytes).sum + (raw.map InspectionMetrics.responseSizeBytes).sum := fun raw =>
    List.sum_map_add
  constructor
  · intro hwraps
    exact ⟨(timing_iff h).1 hwraps.timing, (intervals_exact_iff now _).1 hwraps.connections,
      isSome_totalBytes.1 hwraps.protocolMetrics, (isSome_metricsSums.1 hwraps.metricsPayload).2.2,
      isSome_throttleDelayMs.1 hwraps.throttling, fun hobserver hterminal session hfound hresponse =>
        (hlatency session hfound).1 (hwraps.latency session hfound) hobserver hterminal hresponse⟩
  · intro hfits
    have hsum := hfits.bytes
    rw [hbytes] at hsum
    exact ⟨(timing_iff h).2 hfits.setup, (intervals_exact_iff now _).2 hfits.spans, isSome_totalBytes.2 hfits.bytes,
      isSome_metricsSums.2 ⟨by omega, by omega, hfits.latencies⟩, isSome_throttleDelayMs.2 hfits.bandwidth,
      fun session hfound => (hlatency session hfound).2 fun hobserver hterminal hresponse =>
        hfits.clock hobserver hterminal session hfound hresponse⟩

end

private def connectedRequest : RequestContext := { RequestContext.default with connectionId := some "c" }

/-- Two sessions of a connection: the first takes some time to look up the name and to connect, and the second is not
answered yet. -/
def storeOf (dnsMs tcpConnectMs : Nat) : SessionStore :=
  { SessionStore.empty 10 1000 with
    exchanges := (IndexMap.empty.insert ("s" : Str)
      { SessionStore.recordedExchange 0 "s" connectedRequest .imported with
        response := some ResponseContext.default
        metrics := some
          { InspectionMetrics.ofStatus 200 120 10 20 60 5 none with
            dnsMs := some dnsMs, tcpConnectMs := some tcpConnectMs } }).insert "t"
      (SessionStore.recordedExchange 3000000 "t" connectedRequest .proxy) }

theorem mem_storeOf {dnsMs tcpConnectMs : Nat} {e : Exchange} (he : e ∈ (storeOf dnsMs tcpConnectMs).getAllSessions) :
    e = { SessionStore.recordedExchange 0 "s" connectedRequest .imported with
        response := some ResponseContext.default
        metrics := some
          { InspectionMetrics.ofStatus 200 120 10 20 60 5 none with
            dnsMs := some dnsMs, tcpConnectMs := some tcpConnectMs } } ∨
      e = SessionStore.recordedExchange 3000000 "t" connectedRequest .proxy := by
  rcases List.mem_cons.1 he with rfl | he
  · exact Or.inl rfl
  · exact Or.inr (List.mem_singleton.1 he)

theorem admitted_storeOf {dnsMs tcpConnectMs : Nat} (hdns : dnsMs < 2 ^ 64) (htcp : tcpConnectMs < 2 ^ 64) :
    Admitted (storeOf dnsMs tcpConnectMs) 7000000 := by
  refine ⟨fun e he m hm => ?_, fun e he => ?_, ⟨by decide +kernel, by decide +kernel⟩⟩
  · obtain rfl | rfl := mem_storeOf he
    · obtain rfl := Option.some.inj hm
      simp only [InspectionMetrics.ofStatus]
      refine ⟨by decide, by decide, by decide, by decide, by decide, fun n hn => ?_, fun n hn => ?_, fun n hn => ?_⟩
      · exact Option.some.inj hn ▸ hdns
      · exact Option.some.inj hn ▸ htcp
      · exact absurd hn (Option.not_mem_none n)
    · exact absurd hm (Option.not_mem_none m)
  · obtain rfl | rfl := mem_storeOf he
    · show InRange 0
      exact ⟨by decide +kernel, by decide +kernel⟩
    · show InRange 3000000
      exact ⟨by decide +kernel, by decide +kernel⟩

private def laterResponse : ResponseContext :=
  { ResponseContext.default with sessionId := some "t", status := 200, body := Str.toUtf8 "done" }

/-- Looking up a name for five milliseconds is no trouble, and four milliseconds later the second answer comes. -/
theorem neverWraps_storeOf : NeverWraps (storeOf 5 10) ⟨0, 1000, true⟩ laterResponse 7000000 := by
  refine (neverWraps_iff (admitted_storeOf (by decide) (by decide)) _ _).2
    ⟨fun e he m hm => ?_, fun e he e' he' _ _ => ?_, by decide, by decide, fun _ _ _ => by decide,
      fun _ _ session hsession _ => ?_⟩
  · obtain rfl | rfl := mem_storeOf he
    · obtain rfl := Option.some.inj hm
      decide
    · exact absurd hm (Option.not_mem_none m)
  · obtain rfl | rfl := mem_storeOf he <;> obtain rfl | rfl := mem_storeOf he' <;> decide
  · obtain rfl | rfl := mem_storeOf (mem_getAllSessions.2 ⟨"t", hsession⟩) <;> decide

/-- A file may say that the name was looked up for as long as can be, and then a connection was made. -/
theorem not_neverWraps : ¬ ∀ (s : SessionStore) (config : ThrottlingConfig) (ctx : ResponseContext) (now : Timestamp),
    Admitted s now → NeverWraps s config ctx now := by
  intro h
  have htiming := (h (storeOf (2 ^ 64 - 1) 1) ⟨0, 0, false⟩ ResponseContext.default 7000000
    (admitted_storeOf (by decide) (by decide))).timing "s"
  revert htiming
  decide

end Oproxy
