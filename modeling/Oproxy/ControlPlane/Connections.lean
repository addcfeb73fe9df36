import Oproxy.ControlPlane.SessionView
import Oproxy.Lib.Calendar
import Oproxy.Lib.Intervals

/-!
# Connections (`control_plane/sessions.rs`)

`aggregate_connections` gathers the exchanges of each connection, in the order of their streams, and sorts the summaries
by the text of the last activity.  Times in a summary are whole milliseconds since the connection was first seen, and so
are the intervals whose greatest overlap it counts.
-/

namespace IndexMap

variable {K V : Type} [DecidableEq K] {m : IndexMap K V} {k k' : K}

def removeKey (m : IndexMap K V) (k : K) : IndexMap K V where
  entries := m.entries.filter fun e => e.1 ≠ k
  nodup := m.nodup.sublist (List.filter_sublist.map _)

theorem get?_removeKey_of_ne (h : k' ≠ k) : (m.removeKey k).get? k' = m.get? k' := by
  cases hvalue : m.get? k' with
  | some v =>
    exact get?_of_mem (List.mem_filter.2 ⟨mem_of_get? hvalue, by simpa using h⟩)
  | none =>
    rw [get?_eq_none, ← Bool.not_eq_true, contains_iff] at hvalue ⊢
    exact fun hmem => hvalue ((List.filter_sublist.map Prod.fst).subset hmem)

end IndexMap

namespace Oproxy

open Calendar

structure ConnectionStream where
  id : Str
  streamId : Option Nat
  method : Str
  host : Str
  path : Str
  status : Nat
  ts : Str
  startOffsetMs : Int
  durationMs : Nat

structure ConnectionSummary where
  connectionId : Str
  downstreamProtocol : Option Str
  hosts : List Str
  exchangeCount : Nat
  streamCount : Nat
  firstSeen : Str
  lastSeen : Str
  spanMs : Int
  maxConcurrency : Nat
  streams : List ConnectionStream

/-! ### Arithmetic -/

/-- A number as an `i64`; what does not fit wraps around. -/
def toI64 (n : Int) : Int := n.bmod (2 ^ 64)

/-- `num_milliseconds` of the time between two timestamps, which is cut off towards zero. -/
def numMilliseconds (nanos : Int) : Int := nanos.tdiv 1000000

/-! ### One connection -/

def Exchange.lastActive (e : Exchange) : Timestamp := e.updatedAt.getD e.timestamp

def Exchange.durationMs (e : Exchange) : Nat := (e.metrics.map InspectionMetrics.latencyMs).getD 0

def startOffsetMs (firstSeen : Timestamp) (e : Exchange) : Int := numMilliseconds (e.timestamp - firstSeen)

def connectionStream (firstSeen : Timestamp) (e : Exchange) : ConnectionStream where
  id := e.id
  streamId := e.streamId
  method := e.request.method
  host := e.request.host
  path := ((Str.splitOnce '?' e.request.uri).map Prod.fst).getD e.request.uri
  status := ((e.metrics.map InspectionMetrics.statusCode).or (e.response.map ResponseContext.status)).getD 0
  ts := toRfc3339 e.timestamp
  startOffsetMs := startOffsetMs firstSeen e
  durationMs := e.durationMs

def interval (firstSeen : Timestamp) (e : Exchange) : Int × Int :=
  (startOffsetMs firstSeen e, toI64 (startOffsetMs firstSeen e + toI64 e.durationMs))

def peakConcurrency (intervals : List (Int × Int)) : Nat := (Intervals.peak intervals).toNat

/-- The hosts of the exchanges, each once, in order. -/
def hostsOf (members : List Exchange) : List Str :=
  members.foldl (fun hosts e =>
    if !e.request.host.isEmpty && !hosts.contains e.request.host then hosts ++ [e.request.host] else hosts) []

def byStream (group : List Exchange) : List Exchange := sortByKey (fun e => e.streamId.getD 0) group

/-- `now` is the time where there is no exchange. -/
def connectionSummary (now : Timestamp) (cid : Str) (group : List Exchange) : ConnectionSummary :=
  let members := byStream group
  let firstSeen := (members.map Exchange.timestamp).min?.getD now
  let lastSeen := (members.map Exchange.lastActive).max?.getD now
  let intervals := members.map (interval firstSeen)
  { connectionId := cid
    downstreamProtocol := members.findSome? Exchange.downstreamProtocol
    hosts := hostsOf members
    exchangeCount := members.length
    streamCount := (members.filterMap Exchange.streamId).eraseDups.length
    firstSeen := toRfc3339 firstSeen
    lastSeen := toRfc3339 lastSeen
    spanMs := max (numMilliseconds (lastSeen - firstSeen)) ((intervals.map Prod.snd).max?.getD 0)
    maxConcurrency := peakConcurrency intervals
    streams := members.map (connectionStream firstSeen) }

/-! ### All connections -/

/-- The connections in the order in which they come first, with their exchanges. -/
structure Groups where
  order : List Str
  groups : IndexMap Str (List Exchange)

def Groups.push (g : Groups) (e : Exchange) : Groups :=
  match e.connectionId with
  | none => g
  | some cid =>
    ⟨if g.order.contains cid then g.order else g.order ++ [cid],
      g.groups.insert cid ((g.groups.get? cid).getD [] ++ [e])⟩

def groupExchanges (sessions : List Exchange) : Groups := sessions.foldl Groups.push ⟨[], IndexMap.empty⟩

/-- Each group is taken out of the map when its summary is made. -/
def summaries (now : Timestamp) : List Str → IndexMap Str (List Exchange) → List ConnectionSummary
  | [], _ => []
  | cid :: rest, groups =>
    connectionSummary now cid ((groups.get? cid).getD []) :: summaries now rest (groups.removeKey cid)

/-- Most recently active first; the sort is stable. -/
def aggregateConnections (now : Timestamp) (sessions : List Exchange) : List ConnectionSummary :=
  let g := groupExchanges sessions
  (summaries now g.order g.groups).mergeSort fun a b => decide (b.lastSeen ≤ a.lastSeen)

/-! ### What the summaries say -/

/-- The exchanges of a connection. -/
def groupOf (sessions : List Exchange) (cid : Str) : List Exchange :=
  sessions.filter fun e => decide (e.connectionId = some cid)

/-- How many exchanges of a group are in flight at an instant, each for its latency from its start. -/
def inFlight (start : Timestamp → Exchange → Timestamp) (firstSeen : Timestamp) (group : List Exchange)
    (instant : Timestamp) : Nat :=
  group.countP fun e =>
    decide (start firstSeen e ≤ instant ∧ instant < start firstSeen e + 1000000 * (e.durationMs : Int))

/-- A summary says of the exchanges of one connection what they are. -/
structure Summarises (start : Timestamp → Exchange → Timestamp) (group : List Exchange) (s : ConnectionSummary) :
    Prop where
  exchangeCount : s.exchangeCount = group.length
  seen : ∃ firstSeen lastSeen,
    IsLeast {t | ∃ e ∈ group, e.timestamp = t} firstSeen ∧ s.firstSeen = toRfc3339 firstSeen ∧
      IsGreatest {t | ∃ e ∈ group, e.lastActive = t} lastSeen ∧ s.lastSeen = toRfc3339 lastSeen ∧
      (∃ members : List Exchange, members.Perm group ∧
        (members.Pairwise fun a b => a.streamId.getD 0 ≤ b.streamId.getD 0) ∧
        s.streams = members.map (connectionStream firstSeen)) ∧
      IsGreatest (Set.range (inFlight start firstSeen group)) s.maxConcurrency

/-- One summary for each connection, the exchanges with a connection split among them, and the last active first. -/
structure FaithfulSummaries (start : Timestamp → Exchange → Timestamp) (sessions : List Exchange)
    (summaries : List ConnectionSummary) : Prop where
  once : (summaries.map ConnectionSummary.connectionId).Nodup
  all : ∀ cid, cid ∈ summaries.map ConnectionSummary.connectionId ↔ ∃ e ∈ sessions, e.connectionId = some cid
  each : ∀ s ∈ summaries, Summarises start (groupOf sessions s.connectionId) s
  split : (summaries.flatMap fun s => groupOf sessions s.connectionId).Perm
    (sessions.filter fun e => e.connectionId.isSome)
  latestFirst : summaries.Pairwise fun a b => ∀ e ∈ groupOf sessions b.connectionId,
    ∃ e' ∈ groupOf sessions a.connectionId, e.lastActive ≤ e'.lastActive

/-- The times are in years with four digits, and the latencies are below `2 ^ 62`. -/
structure Exchange.Ordinary (e : Exchange) : Prop where
  timestamp : HasFourDigits (year e.timestamp)
  updatedAt : ∀ t ∈ e.updatedAt, HasFourDigits (year t)
  latency : e.durationMs < 2 ^ 62

/-- The start in whole milliseconds since the connection was first seen. -/
def wholeMsStart (firstSeen : Timestamp) (e : Exchange) : Timestamp :=
  firstSeen + 1000000 * ((e.timestamp - firstSeen) / 1000000)

/-! ### The summary of a connection -/

section

variable {now firstSeen : Timestamp} {e : Exchange} {group members : List Exchange}

theorem toI64_of_fits {n : Int} (h0 : -2 ^ 63 ≤ n) (h1 : n < 2 ^ 63) : toI64 n = n := by
  unfold toI64
  rw [Int.bmod_def]
  split <;> omega

theorem isLeast_min? (f : Exchange → Timestamp) (hne : group ≠ []) (now : Timestamp) :
    IsLeast {t | ∃ e ∈ group, f e = t} ((group.map f).min?.getD now) := by
  obtain ⟨least, hleast⟩ :=
    Option.isSome_iff_exists.1 (@List.isSome_min?_of_ne_nil Timestamp _ (group.map f) (by simpa using hne))
  obtain ⟨hmem, hle⟩ := List.min?_eq_some_iff.1 hleast
  rw [hleast]
  exact ⟨List.mem_map.1 hmem, fun t ⟨e, he, ht⟩ => hle t (List.mem_map.2 ⟨e, he, ht⟩)⟩

theorem isGreatest_max? (f : Exchange → Timestamp) (hne : group ≠ []) (now : Timestamp) :
    IsGreatest {t | ∃ e ∈ group, f e = t} ((group.map f).max?.getD now) := by
  obtain ⟨greatest, hgreatest⟩ :=
    Option.isSome_iff_exists.1 (@List.isSome_max?_of_ne_nil Timestamp _ (group.map f) (by simpa using hne))
  obtain ⟨hmem, hle⟩ := List.max?_eq_some_iff.1 hgreatest
  rw [hgreatest]
  exact ⟨List.mem_map.1 hmem, fun t ⟨e, he, ht⟩ => hle t (List.mem_map.2 ⟨e, he, ht⟩)⟩

/-- The interval of an exchange starts with its offset and is as long as its latency. -/
theorem interval_eq (h : e.Ordinary) (hfirst : HasFourDigits (year firstSeen)) (hle : firstSeen ≤ e.timestamp) :
    interval firstSeen e =
      ((e.timestamp - firstSeen) / 1000000, (e.timestamp - firstSeen) / 1000000 + (e.durationMs : Int)) := by
  have hnonneg : (0 : Int) ≤ e.timestamp - firstSeen := Int.sub_nonneg_of_le hle
  have hoffset : startOffsetMs firstSeen e = (e.timestamp - firstSeen) / 1000000 := Int.tdiv_eq_ediv_of_nonneg hnonneg
  obtain ⟨-, htime⟩ := daysOf_bounds h.timestamp
  obtain ⟨hday, -⟩ := daysOf_bounds hfirst
  have hlatency := h.latency
  unfold daysOf at htime hday
  have hduration : toI64 (e.durationMs : Int) = e.durationMs := toI64_of_fits (by omega) (by omega)
  have hend : toI64 ((e.timestamp - firstSeen) / 1000000 + (e.durationMs : Int)) =
      (e.timestamp - firstSeen) / 1000000 + (e.durationMs : Int) := toI64_of_fits (by omega) (by omega)
  unfold interval
  rw [hoffset, hduration, hend]

/-- An instant is in an interval exactly if its whole millisecond is. -/
theorem wholeMs_iff (first start instant duration : Int) :
    ((start - first) / 1000000 ≤ (instant - first) / 1000000 ∧
      (instant - first) / 1000000 < (start - first) / 1000000 + duration) ↔
      first + 1000000 * ((start - first) / 1000000) ≤ instant ∧
        instant < first + 1000000 * ((start - first) / 1000000) + 1000000 * duration := by
  constructor
  · rintro ⟨hstart, hend⟩
    omega
  · rintro ⟨hstart, hend⟩
    omega

/-- As many intervals hold a whole millisecond as exchanges are in flight within it. -/
theorem covering_interval (hgroup : ∀ e ∈ group, e.Ordinary ∧ firstSeen ≤ e.timestamp)
    (hfirst : HasFourDigits (year firstSeen)) (instant : Timestamp) :
    Intervals.covering (group.map (interval firstSeen)) ((instant - firstSeen) / 1000000) =
      inFlight wholeMsStart firstSeen group instant := by
  unfold Intervals.covering inFlight
  rw [List.countP_map]
  refine List.countP_congr fun e he => ?_
  obtain ⟨hordinary, hle⟩ := hgroup e he
  simp only [Function.comp_apply, interval_eq hordinary hfirst hle, decide_eq_true_eq]
  exact wholeMs_iff firstSeen e.timestamp instant e.durationMs

theorem isGreatest_peakConcurrency (hgroup : ∀ e ∈ group, e.Ordinary ∧ firstSeen ≤ e.timestamp)
    (hfirst : HasFourDigits (year firstSeen)) :
    IsGreatest (Set.range (inFlight wholeMsStart firstSeen group))
      (peakConcurrency (group.map (interval firstSeen))) := by
  obtain ⟨⟨ms, hms⟩, hupper⟩ := Intervals.isGreatest_peak (group.map (interval firstSeen))
  have hpeak : peakConcurrency (group.map (interval firstSeen)) =
      Intervals.covering (group.map (interval firstSeen)) ms := by
    unfold peakConcurrency
    rw [← hms]
    exact Int.toNat_natCast _
  rw [hpeak]
  constructor
  · refine ⟨firstSeen + 1000000 * ms, ?_⟩
    rw [← covering_interval hgroup hfirst, add_sub_cancel_left, Int.mul_ediv_cancel_left ms (by decide)]
  · rintro n ⟨instant, rfl⟩
    rw [← covering_interval hgroup hfirst]
    have hle := hupper ⟨(instant - firstSeen) / 1000000, rfl⟩
    rw [← hms] at hle
    exact Int.ofNat_le.1 hle

theorem byStream_perm (group : List Exchange) : (byStream group).Perm group := sortByKey_perm _ group

/-- The summary of a group. -/
theorem summarises_connectionSummary (now : Timestamp) (cid : Str) (hne : group ≠ []) (h : ∀ e ∈ group, e.Ordinary) :
    Summarises wholeMsStart group (connectionSummary now cid group) := by
  have hperm := byStream_perm group
  have hmembers : byStream group ≠ [] := fun hnil => hne (List.nil_perm.1 (hnil ▸ hperm))
  have hmem : ∀ (f : Exchange → Timestamp), {t | ∃ e ∈ byStream group, f e = t} = {t | ∃ e ∈ group, f e = t} := by
    intro f
    ext t
    simp only [Set.mem_ofPred_eq, hperm.mem_iff]
  have hleast := isLeast_min? Exchange.timestamp hmembers now
  have hgreatest := isGreatest_max? Exchange.lastActive hmembers now
  rw [hmem] at hleast hgreatest
  refine ⟨hperm.length_eq, _, _, hleast, rfl, hgreatest, rfl, ⟨byStream group, hperm, ?_, rfl⟩, ?_⟩
  · exact pairwise_sortByKey (fun e => e.streamId.getD 0) group
  · have hfirst : HasFourDigits (year (((byStream group).map Exchange.timestamp).min?.getD now)) := by
      obtain ⟨e, he, htime⟩ := hleast.1
      exact htime ▸ (h e he).timestamp
    have hflight : inFlight wholeMsStart (((byStream group).map Exchange.timestamp).min?.getD now) group =
        inFlight wholeMsStart (((byStream group).map Exchange.timestamp).min?.getD now) (byStream group) :=
      funext fun instant => (hperm.countP_eq _).symm
    rw [hflight]
    exact isGreatest_peakConcurrency (fun e he => ⟨h e (hperm.mem_iff.1 he), hleast.2 ⟨e, hperm.mem_iff.1 he, rfl⟩⟩)
      hfirst

end

/-! ### Grouping -/

section

variable {now : Timestamp} {e : Exchange} {g : Groups} {sessions : List Exchange} {cid : Str}

/-- The order has each connection of the exchanges once, and the map its exchanges. -/
structure Groups.Holds (g : Groups) (sessions : List Exchange) : Prop where
  nodup : g.order.Nodup
  mem : ∀ cid, cid ∈ g.order ↔ ∃ e ∈ sessions, e.connectionId = some cid
  group : ∀ cid, (g.groups.get? cid).getD [] = groupOf sessions cid

theorem groupOf_append_singleton (sessions : List Exchange) (e : Exchange) (cid : Str) :
    groupOf (sessions ++ [e]) cid = groupOf sessions cid ++ if e.connectionId = some cid then [e] else [] := by
  unfold groupOf
  rw [List.filter_append]
  by_cases h : e.connectionId = some cid
  · simp [h]
  · simp [h]

theorem Groups.Holds.push (h : g.Holds sessions) (e : Exchange) : (g.push e).Holds (sessions ++ [e]) := by
  unfold Groups.push
  cases hcid : e.connectionId with
  | none =>
    refine ⟨h.nodup, fun cid => ?_, fun cid => ?_⟩
    · rw [h.mem]
      simp [or_and_right, exists_or, hcid]
    · rw [groupOf_append_singleton, hcid, if_neg (Option.some_ne_none cid).symm, List.append_nil]
      exact h.group cid
  | some own =>
    have hmem : ∀ cid, (∃ a ∈ sessions ++ [e], a.connectionId = some cid) ↔ cid ∈ g.order ∨ own = cid := by
      intro cid
      rw [h.mem]
      simp [or_and_right, exists_or, hcid]
    have hgroup : ∀ cid, (((g.groups.insert own ((g.groups.get? own).getD [] ++ [e])).get? cid).getD []) =
        groupOf (sessions ++ [e]) cid := by
      intro cid
      rw [IndexMap.get?_insert, groupOf_append_singleton, hcid]
      by_cases hown : own = cid
      · subst hown
        rw [if_pos rfl, if_pos rfl, Option.getD_some, h.group]
      · rw [if_neg hown, if_neg fun hsome => hown (Option.some.inj hsome), List.append_nil]
        exact h.group cid
    by_cases hseen : own ∈ g.order
    · refine ⟨?_, fun cid => ?_, hgroup⟩
      · simpa [hseen] using h.nodup
      · rw [hmem]
        simp only [List.contains_iff_mem, hseen, if_true]
        exact ⟨Or.inl, fun hor => hor.elim id fun hown => hown ▸ hseen⟩
    · refine ⟨?_, fun cid => ?_, hgroup⟩
      · simp only [List.contains_iff_mem, hseen, if_false]
        exact List.nodup_append.2 ⟨h.nodup, List.nodup_singleton _, fun a ha b hb hab =>
          hseen (List.mem_singleton.1 hb ▸ hab ▸ ha)⟩
      · rw [hmem]
        simp only [List.contains_iff_mem, hseen, if_false, List.mem_append, List.mem_singleton]
        exact or_congr_right eq_comm

theorem holds_groupExchanges (sessions : List Exchange) : (groupExchanges sessions).Holds sessions := by
  induction sessions using List.reverseRecOn with
  | nil => exact ⟨List.nodup_nil, fun cid => by simp [groupExchanges], fun cid => rfl⟩
  | append_singleton sessions e ih =>
    unfold groupExchanges
    rw [List.foldl_append]
    exact ih.push e

theorem summaries_eq_map (now : Timestamp) {order : List Str} (hnodup : order.Nodup)
    (groups : IndexMap Str (List Exchange)) :
    summaries now order groups = order.map fun cid => connectionSummary now cid ((groups.get? cid).getD []) := by
  induction order generalizing groups with
  | nil => rfl
  | cons cid rest ih =>
    rw [List.nodup_cons] at hnodup
    rw [summaries, ih hnodup.2, List.map_cons]
    refine congrArg _ (List.map_congr_left fun other hother => ?_)
    have hne : other ≠ cid := fun heq => hnodup.1 (heq ▸ hother)
    rw [IndexMap.get?_removeKey_of_ne hne]

/-- Before they are sorted the summaries are those of the connections in order. -/
theorem summaries_groupExchanges (now : Timestamp) (sessions : List Exchange) :
    summaries now (groupExchanges sessions).order (groupExchanges sessions).groups =
      (groupExchanges sessions).order.map fun cid => connectionSummary now cid (groupOf sessions cid) := by
  have h := holds_groupExchanges sessions
  rw [summaries_eq_map now h.nodup]
  exact List.map_congr_left fun cid _ => congrArg _ (h.group cid)

/-- The elements with a key, gathered by their keys. -/
theorem flatMap_filter_perm {α κ : Type} [DecidableEq κ] (key : α → Option κ) {keys : List κ} (hnodup : keys.Nodup)
    {l : List α} (h : ∀ a ∈ l, ∃ k ∈ keys, key a = some k) :
    (keys.flatMap fun k => l.filter fun a => decide (key a = some k)).Perm l := by
  induction keys generalizing l with
  | nil =>
    cases l with
    | nil => exact List.Perm.refl _
    | cons a l =>
      obtain ⟨k, hk, -⟩ := h a List.mem_cons_self
      exact absurd hk List.not_mem_nil
  | cons k keys ih =>
    rw [List.nodup_cons] at hnodup
    have hrest := @ih hnodup.2 (l.filter fun a => !decide (key a = some k)) fun a ha => by
      obtain ⟨ha, hne⟩ := List.mem_filter.1 ha
      obtain ⟨k', hk', hkey⟩ := h a ha
      rcases List.mem_cons.1 hk' with rfl | hk'
      · simp [hkey] at hne
      · exact ⟨k', hk', hkey⟩
    have hsame : (keys.flatMap fun k' => (l.filter fun a => !decide (key a = some k)).filter fun a =>
        decide (key a = some k')) = keys.flatMap fun k' => l.filter fun a => decide (key a = some k') := by
      refine List.flatMap_congr fun k' hk' => ?_
      rw [List.filter_filter]
      refine List.filter_congr fun a _ => ?_
      by_cases hkey : key a = some k'
      · have hne : k' ≠ k := fun heq => hnodup.1 (heq ▸ hk')
        simp [hkey, hne]
      · simp [hkey]
    rw [hsame] at hrest
    rw [List.flatMap_cons]
    exact (hrest.append_left _).trans (List.filter_append_perm _ l)

/-- A summary is that of a connection of the exchanges. -/
theorem mem_aggregateConnections {s : ConnectionSummary} (h : s ∈ aggregateConnections now sessions) :
    ∃ cid, (∃ e ∈ sessions, e.connectionId = some cid) ∧ s = connectionSummary now cid (groupOf sessions cid) := by
  have hmem := (List.mergeSort_perm _ _).mem_iff.1 h
  rw [summaries_groupExchanges] at hmem
  obtain ⟨cid, hcid, rfl⟩ := List.mem_map.1 hmem
  exact ⟨cid, ((holds_groupExchanges sessions).mem cid).1 hcid, rfl⟩

theorem summarises_of_mem (hsessions : ∀ e ∈ sessions, e.Ordinary) {s : ConnectionSummary}
    (h : s ∈ aggregateConnections now sessions) : Summarises wholeMsStart (groupOf sessions s.connectionId) s := by
  obtain ⟨cid, ⟨e, he, hcid⟩, rfl⟩ := mem_aggregateConnections h
  refine summarises_connectionSummary now cid ?_ fun e he => hsessions e (List.mem_filter.1 he).1
  exact List.ne_nil_of_mem (List.mem_filter.2 ⟨he, decide_eq_true hcid⟩)

/-- The connections of the summaries, in some order. -/
theorem connectionIds_perm (now : Timestamp) (sessions : List Exchange) :
    ((aggregateConnections now sessions).map ConnectionSummary.connectionId).Perm (groupExchanges sessions).order := by
  unfold aggregateConnections
  refine ((List.mergeSort_perm _ _).map _).trans ?_
  rw [summaries_groupExchanges, List.map_map]
  exact List.Perm.of_eq (List.map_id _)

theorem lastActive_hasFourDigits (h : e.Ordinary) : HasFourDigits (year e.lastActive) := by
  unfold Exchange.lastActive
  cases hupdated : e.updatedAt with
  | none => exact h.timestamp
  | some t => exact h.updatedAt t hupdated

/-- The text of the last activity decides as the time does. -/
theorem lastActive_le_of_lastSeen {a b : ConnectionSummary} {ga gb : List Exchange} (ha : Summarises wholeMsStart ga a)
    (hb : Summarises wholeMsStart gb b) (hga : ∀ e ∈ ga, e.Ordinary) (hgb : ∀ e ∈ gb, e.Ordinary)
    (hle : b.lastSeen ≤ a.lastSeen) : ∀ e ∈ gb, ∃ e' ∈ ga, e.lastActive ≤ e'.lastActive := by
  obtain ⟨-, lastA, -, -, ⟨⟨e', he', rfl⟩, -⟩, htextA, -⟩ := ha.seen
  obtain ⟨-, lastB, -, -, ⟨⟨e'', he'', rfl⟩, hgreatest⟩, htextB, -⟩ := hb.seen
  rw [htextA, htextB] at hle
  have hlast : e''.lastActive ≤ e'.lastActive := (strictMonoOn_toRfc3339.le_iff_le
    (lastActive_hasFourDigits (hgb e'' he'')) (lastActive_hasFourDigits (hga e' he'))).1 hle
  exact fun e he => ⟨e', he', (hgreatest ⟨e, he, rfl⟩).trans hlast⟩

theorem pairwise_lastSeen (now : Timestamp) (sessions : List Exchange) :
    (aggregateConnections now sessions).Pairwise fun a b => b.lastSeen ≤ a.lastSeen := by
  have hsorted := @List.pairwise_mergeSort ConnectionSummary (fun a b => decide (b.lastSeen ≤ a.lastSeen))
    (fun a b c hab hbc => decide_eq_true ((of_decide_eq_true hbc).trans (of_decide_eq_true hab)))
    (fun a b => by simpa using le_total b.lastSeen a.lastSeen)
    (summaries now (groupExchanges sessions).order (groupExchanges sessions).groups)
  exact hsorted.imp fun h => of_decide_eq_true h

/-- The summaries of exchanges are faithful, with starts in whole milliseconds. -/
theorem aggregateConnections_faithful (now : Timestamp) (sessions : List Exchange) (h : ∀ e ∈ sessions, e.Ordinary) :
    FaithfulSummaries wholeMsStart sessions (aggregateConnections now sessions) := by
  have hgroups := holds_groupExchanges sessions
  have hids := connectionIds_perm now sessions
  have hordinary : ∀ cid, ∀ e ∈ groupOf sessions cid, e.Ordinary := fun cid e he => h e (List.mem_filter.1 he).1
  refine ⟨hids.nodup_iff.2 hgroups.nodup, fun cid => ?_, fun s hs => summarises_of_mem h hs, ?_, ?_⟩
  · rw [hids.mem_iff]
    exact hgroups.mem cid
  · have hflat : ((aggregateConnections now sessions).flatMap fun s => groupOf sessions s.connectionId) =
        (((aggregateConnections now sessions).map ConnectionSummary.connectionId).flatMap (groupOf sessions)) :=
      (List.flatMap_map _ _ _).symm
    rw [hflat]
    refine (hids.flatMap_right _).trans ?_
    have hsame : ∀ cid, groupOf sessions cid =
        (sessions.filter fun e => e.connectionId.isSome).filter fun e => decide (e.connectionId = some cid) := by
      intro cid
      unfold groupOf
      rw [List.filter_filter]
      refine List.filter_congr fun e _ => ?_
      by_cases hcid : e.connectionId = some cid
      · simp [hcid]
      · simp [hcid]
    rw [List.flatMap_congr fun cid _ => hsame cid]
    refine flatMap_filter_perm Exchange.connectionId hgroups.nodup fun e he => ?_
    obtain ⟨he, hsome⟩ := List.mem_filter.1 he
    obtain ⟨cid, hcid⟩ := Option.isSome_iff_exists.1 hsome
    exact ⟨cid, (hgroups.mem cid).2 ⟨e, he, hcid⟩, hcid⟩
  · refine (pairwise_lastSeen now sessions).imp_of_mem fun ha hb hle => ?_
    exact lastActive_le_of_lastSeen (summarises_of_mem h ha) (summarises_of_mem h hb) (hordinary _) (hordinary _) hle

end

/-- An exchange on the connection `c` which starts some nanoseconds after 1970. -/
def onConnection (id : Str) (start : Timestamp) (latencyMs : Nat) : Exchange :=
  { SessionStore.recordedExchange start id { RequestContext.default with connectionId := some "c" } .proxy with
    metrics := some (.ofStatus 200 latencyMs 0 0 0 0 none) }

/-- The second and the third are in flight together, for less than a millisecond. -/
def overlapping : List Exchange := [onConnection "a" 0 0, onConnection "b" 900000 1, onConnection "c" 1500000 1]

theorem ordinary_overlapping : ∀ e ∈ overlapping, e.Ordinary := by
  have hordinary : ∀ (id : Str) (start : Timestamp) (latencyMs : Nat), HasFourDigits (year start) → latencyMs < 2 ^ 62 →
      (onConnection id start latencyMs).Ordinary := fun id start latencyMs hstart hlatency =>
    ⟨hstart, fun t ht => absurd ht (Option.not_mem_none t), hlatency⟩
  intro e he
  simp only [overlapping, List.mem_cons, List.not_mem_nil, or_false] at he
  rcases he with rfl | rfl | rfl
  · exact hordinary _ _ _ (by decide +kernel) (by decide)
  · exact hordinary _ _ _ (by decide +kernel) (by decide)
  · exact hordinary _ _ _ (by decide +kernel) (by decide)

/-- Cut off to whole milliseconds, the second is over when the third starts. -/
theorem inFlight_overlapping (instant : Int) : inFlight wholeMsStart 0 overlapping instant ≤ 1 := by
  have ha : wholeMsStart 0 (onConnection "a" 0 0) = (0 : Int) := by decide
  have hb : wholeMsStart 0 (onConnection "b" 900000 1) = (0 : Int) := by decide
  have hc : wholeMsStart 0 (onConnection "c" 1500000 1) = (1000000 : Int) := by decide
  have hdistinct : ∀ x : Int, 0 + (if 1000000 ≤ x ∧ x < 1000000 + 1000000 * ((1 : Nat) : Int) then 1 else 0) +
      (if 0 ≤ x ∧ x < 0 + 1000000 * ((1 : Nat) : Int) then 1 else 0) +
        (if 0 ≤ x ∧ x < 0 + 1000000 * ((0 : Nat) : Int) then 1 else 0) ≤ 1 := by
    intro x
    split_ifs <;> omega
  unfold inFlight overlapping
  simp only [List.countP_cons, List.countP_nil, ha, hb, hc, decide_eq_true_eq]
  exact hdistinct instant

theorem overlapping_faithful : FaithfulSummaries wholeMsStart overlapping (aggregateConnections 0 overlapping) :=
  aggregateConnections_faithful 0 overlapping ordinary_overlapping

/-- With the starts to the nanosecond two are in flight, and one is counted. -/
theorem not_aggregateConnections_faithful : ¬ ∀ (now : Timestamp) (sessions : List Exchange),
    (∀ e ∈ sessions, e.Ordinary) →
      FaithfulSummaries (fun _ e => e.timestamp) sessions (aggregateConnections now sessions) := by
  intro h
  have hclaimed := h 0 overlapping ordinary_overlapping
  obtain ⟨s, hs, hcid⟩ := List.mem_map.1 ((hclaimed.all "c").2 ⟨_, List.mem_cons_self, rfl⟩)
  have hgroup : groupOf overlapping s.connectionId = overlapping := by
    rw [hcid]
    rfl
  have hwhole := summarises_of_mem ordinary_overlapping hs
  have hexact := hclaimed.each s hs
  rw [hgroup] at hwhole hexact
  obtain ⟨first, -, hfirst, -, -, -, -, ⟨instant, hinstant⟩, -⟩ := hwhole.seen
  obtain ⟨_, _, -, -, -, -, -, -, hupper⟩ := hexact.seen
  have hzero : first = 0 := by
    have hle : first ≤ (onConnection "a" 0 0).timestamp := hfirst.2 ⟨_, List.mem_cons_self, rfl⟩
    obtain ⟨⟨e, he, rfl⟩, -⟩ := hfirst
    simp only [overlapping, List.mem_cons, List.not_mem_nil, or_false] at he
    rcases he with rfl | rfl | rfl
    · rfl
    · exact absurd hle (by decide)
    · exact absurd hle (by decide)
  have htwo : 2 ≤ s.maxConcurrency := hupper ⟨1600000, rfl⟩
  rw [← hinstant, hzero] at htwo
  have hone := inFlight_overlapping instant
  omega

end Oproxy
