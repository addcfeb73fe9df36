import Mathlib
import Oproxy.ControlPlane.DnsTables
import Oproxy.ControlPlane.ProposedActions

/-!
# Preconditions (`control_plane/assistant_actions.rs`)

A proposed action names the values which it was made for, each by a hash of its canonical form.  Values with one
canonical form are equal, a table of DNS overrides up to the order of its hosts.
-/

namespace Oproxy

open Persisted Mutations

def FilterMode.json : FilterMode → Json
  | .disabled => .str "disabled"
  | .allowlist => .str "allowlist"
  | .denylist => .str "denylist"

namespace Assistant

/-! ### Hashes of values -/

/-- The entries of a `BTreeMap` which is collected from these members. -/
def sortedMembers (members : List (Str × Json)) : List (Str × Json) :=
  (members.foldl (fun m e => m.insert e.1 e.2) (IndexMap.empty : IndexMap Str Json)).entries.mergeSort fun a b =>
    decide (a.1 ≤ b.1)

mutual

def canonicalizeValue : Json → Json
  | .obj members => .obj (sortedMembers (canonicalizeMembers members))
  | .arr items => .arr (canonicalizeItems items)
  | value => value

private def canonicalizeItems : List Json → List Json
  | [] => []
  | item :: items => canonicalizeValue item :: canonicalizeItems items

private def canonicalizeMembers : List (Str × Json) → List (Str × Json)
  | [] => []
  | (key, value) :: members => (key, canonicalizeValue value) :: canonicalizeMembers members

end

/-- `digest` is the SHA-256 of the text of a value, in hexadecimal digits. -/
def stableValueHash (digest : Json → Str) (value : Json) : Str := digest (canonicalizeValue value)

def actionStatePrecondition (digest : Json → Str) (resource : Str) (value : Json) (message : Str) :
    AssistantActionPrecondition :=
  ⟨resource, stableValueHash digest value, message⟩

theorem canonicalizeValue_arr (items : List Json) :
    canonicalizeValue (.arr items) = .arr (items.map canonicalizeValue) := by
  have hitems : canonicalizeItems items = items.map canonicalizeValue := by
    induction items with
    | nil => simp only [canonicalizeItems, List.map_nil]
    | cons item items ih => rw [canonicalizeItems, List.map_cons, ih]
  rw [canonicalizeValue, hitems]

theorem canonicalizeValue_obj (members : List (Str × Json)) :
    canonicalizeValue (.obj members) = .obj (sortedMembers (members.map fun m => (m.1, canonicalizeValue m.2))) := by
  have hmembers : canonicalizeMembers members = members.map fun m => (m.1, canonicalizeValue m.2) := by
    induction members with
    | nil => simp only [canonicalizeMembers, List.map_nil]
    | cons m members ih => rw [canonicalizeMembers, List.map_cons, ih]
  rw [canonicalizeValue, hmembers]

theorem sortedMembers_perm (members : List (Str × Json)) :
    (sortedMembers members).Perm (members.foldl (fun m e => m.insert e.1 e.2) IndexMap.empty).entries :=
  List.mergeSort_perm _ _

/-- Of the members with one key the last is kept. -/
theorem filter_sortedMembers (members : List (Str × Json)) (key : Str) :
    ((sortedMembers members).filter fun m => m.1 = key).map Prod.snd =
      (((members.filter fun m => m.1 = key).map Prod.snd).getLast?).toList := by
  have hperm := ((sortedMembers_perm members).filter fun e => e.1 = key).map Prod.snd
  rw [IndexMap.filter_key, IndexMap.get?_insertAll, IndexMap.get?_empty, Option.or_none] at hperm
  cases hlast : ((members.filter fun m => m.1 = key).map Prod.snd).getLast? with
  | none =>
    rw [hlast] at hperm
    exact hperm.eq_nil
  | some value =>
    rw [hlast] at hperm
    exact List.perm_singleton.1 hperm

theorem get?_sortedMembers (members : List (Str × Json)) (key : Str) :
    Json.get? key (.obj (sortedMembers members)) = ((members.filter fun m => m.1 = key).map Prod.snd).getLast? := by
  have hfind : Json.get? key (.obj (sortedMembers members)) =
      (((sortedMembers members).filter fun e => e.1 = key).map Prod.snd).head? := by
    unfold Json.get?
    rw [List.head?_map, List.head?_filter]
  rw [hfind, filter_sortedMembers]
  cases ((members.filter fun m => m.1 = key).map Prod.snd).getLast? <;> rfl

/-- The members stand in the order of their keys, each key once. -/
theorem sorted_sortedMembers (members : List (Str × Json)) :
    (sortedMembers members).Pairwise fun m m' : Str × Json => m.1 ≤ m'.1 ∧ m.1 ≠ m'.1 := by
  have htrans : ∀ a b c : Str × Json, decide (a.1 ≤ b.1) = true → decide (b.1 ≤ c.1) = true →
      decide (a.1 ≤ c.1) = true :=
    fun _ _ _ hab hbc => decide_eq_true (le_trans (of_decide_eq_true hab) (of_decide_eq_true hbc))
  have htotal : ∀ a b : Str × Json, (decide (a.1 ≤ b.1) || decide (b.1 ≤ a.1)) = true := by
    intro a b
    rcases le_total a.1 b.1 with h | h
    · exact Bool.or_eq_true_iff.2 (Or.inl (decide_eq_true h))
    · exact Bool.or_eq_true_iff.2 (Or.inr (decide_eq_true h))
  have hle : (sortedMembers members).Pairwise fun m m' : Str × Json => decide (m.1 ≤ m'.1) = true :=
    List.pairwise_mergeSort htrans htotal _
  have hne : (sortedMembers members).Pairwise fun m m' : Str × Json => m.1 ≠ m'.1 := by
    have hnodup := ((sortedMembers_perm members).map Prod.fst).nodup_iff.2 (IndexMap.nodup _)
    exact List.pairwise_map.1 hnodup
  exact hle.imp₂ (fun _ _ hle hne => ⟨of_decide_eq_true hle, hne⟩) hne

theorem mem_sortedMembers (members : List (Str × Json)) (m : Str × Json) :
    m ∈ sortedMembers members ↔ ((members.filter fun m' => m'.1 = m.1).map Prod.snd).getLast? = some m.2 := by
  rw [← Option.mem_toList, ← filter_sortedMembers, List.mem_map]
  constructor
  · exact fun hm => ⟨m, List.mem_filter.2 ⟨hm, decide_eq_true rfl⟩, rfl⟩
  · rintro ⟨m', hm', hvalue⟩
    obtain ⟨hm', hkey⟩ := List.mem_filter.1 hm'
    rwa [← Prod.ext (of_decide_eq_true hkey) hvalue]

/-- Members which are the same as a map are the same when they are sorted. -/
theorem sortedMembers_congr {members members' : List (Str × Json)}
    (h : ∀ key, ((members.filter fun m => m.1 = key).map Prod.snd).getLast? =
      ((members'.filter fun m => m.1 = key).map Prod.snd).getLast?) :
    sortedMembers members = sortedMembers members' := by
  have hnodup : ∀ members : List (Str × Json), (sortedMembers members).Nodup := fun members =>
    (sorted_sortedMembers members).imp fun hne heq => hne.2 (congrArg Prod.fst heq)
  have hperm : (sortedMembers members).Perm (sortedMembers members') :=
    (List.perm_ext_iff_of_nodup (hnodup members) (hnodup members')).2 fun m => by
      rw [mem_sortedMembers, mem_sortedMembers, h]
  exact hperm.eq_of_pairwise (fun _ _ _ _ hxy hyx => absurd (le_antisymm hxy.1 hyx.1) hxy.2)
    (sorted_sortedMembers members) (sorted_sortedMembers members')

/-- A member of a canonical object is the canonical form of the member. -/
theorem get?_canonicalizeValue (members : List (Str × Json)) (key : Str) :
    Json.get? key (canonicalizeValue (.obj members)) =
      (((members.filter fun m => m.1 = key).map Prod.snd).getLast?).map canonicalizeValue := by
  rw [canonicalizeValue_obj, get?_sortedMembers, List.filter_map, ← List.getLast?_map, List.map_map, List.map_map]
  rfl

/-! ### What preconditions are about -/

/-- The resources which a precondition may name. -/
inductive Guarded where
  | captureFilter | dns | throttling | upstreamProxy
  deriving DecidableEq

namespace Guarded

def name : Guarded → Str
  | captureFilter => "capture_filter"
  | dns => "dns"
  | throttling => "throttling"
  | upstreamProxy => "upstream_proxy"

def resource : Guarded → Resource
  | captureFilter => .captureFilter
  | dns => .collection .dnsOverrides
  | throttling => .throttling
  | upstreamProxy => .upstreamProxy

/-- An override as `json!` makes it, with its members in the order of their keys. -/
def entryJson (entry : DnsEntry) : Json := .obj [("enabled", .bool entry.enabled), ("ip", .str entry.ip)]

/-- The members of a table as `json!` makes it. -/
def tableMembers (overrides : DnsOverrides) : List (Str × Json) :=
  sortedMembers (overrides.entries.map fun e => (e.1, entryJson e.2))

/-- A value as `json!` makes it. -/
def json : (g : Guarded) → g.resource.Value → Json
  | captureFilter, (config : CaptureFilterConfig) =>
    .obj [("hosts", .arr (config.hosts.map .str)), ("mode", FilterMode.json config.mode)]
  | dns, (overrides : DnsOverrides) => .obj (tableMembers overrides)
  | throttling, (config : ThrottlingConfig) =>
    .obj [("bandwidth_limit_kbps", .int config.bandwidthLimitKbps.toNat), ("enabled", .bool config.enabled),
      ("latency_ms", .int config.latencyMs.toNat)]
  | upstreamProxy, (url : Option Str) => .obj [("upstream_proxy", (url.map .str).getD .null)]

/-- Equal values; a table of DNS overrides has no order. -/
def Same : (g : Guarded) → g.resource.Value → g.resource.Value → Prop
  | captureFilter, a, b => a = b
  | dns, a, b => DnsOverride.SameTable a b
  | throttling, a, b => a = b
  | upstreamProxy, a, b => a = b

theorem Same.refl : (g : Guarded) → ∀ v, g.Same v v
  | captureFilter, _ | throttling, _ | upstreamProxy, _ => rfl
  | dns, _ => fun _ => rfl

theorem Same.trans : {g : Guarded} → ∀ {a b c}, g.Same a b → g.Same b c → g.Same a c
  | captureFilter, _, _, _, h, h' | throttling, _, _, _, h, h' | upstreamProxy, _, _, _, h, h' => Eq.trans h h'
  | dns, _, _, _, h, h' => fun host => (h host).trans (h' host)

@[simp] theorem canonicalizeValue_str (s : Str) : canonicalizeValue (.str s) = .str s := by
  simp only [canonicalizeValue]

@[simp] theorem canonicalizeValue_int (n : Int) : canonicalizeValue (.int n) = .int n := by
  simp only [canonicalizeValue]

@[simp] theorem canonicalizeValue_bool (b : Bool) : canonicalizeValue (.bool b) = .bool b := by
  simp only [canonicalizeValue]

@[simp] theorem canonicalizeValue_null : canonicalizeValue .null = .null := by
  simp only [canonicalizeValue]

theorem canonicalizeValue_strs (items : List Str) :
    canonicalizeValue (.arr (items.map .str)) = .arr (items.map .str) := by
  rw [canonicalizeValue_arr, List.map_map]
  exact congrArg Json.arr (List.map_congr_left fun item _ => canonicalizeValue_str item)

/-- The members of a table are those of its hosts, one for each. -/
theorem getLast?_entries {V : Type} (f : V → Json) (table : IndexMap Str V) (host : Str) :
    (((table.entries.map fun e => (e.1, f e.2)).filter fun m => m.1 = host).map Prod.snd).getLast? =
      (table.get? host).map f := by
  rw [List.filter_map, List.map_map]
  show (((table.entries.filter fun e => decide (e.1 = host)).map (f ∘ Prod.snd)).getLast?) = _
  rw [← List.map_map, IndexMap.filter_key]
  cases table.get? host <;> rfl

/-- A table has one member for each of its hosts. -/
theorem filter_tableMembers (table : DnsOverrides) (host : Str) :
    (tableMembers table).filter (fun m => m.1 = host) =
      ((table.get? host).map fun e => (host, entryJson e)).toList := by
  have hvalues := filter_sortedMembers (table.entries.map fun e => (e.1, entryJson e.2)) host
  rw [getLast?_entries] at hvalues
  have hkeys : ((tableMembers table).filter fun m => m.1 = host).map (fun m => (host, m.2)) =
      ((tableMembers table).filter fun m => m.1 = host).map id :=
    List.map_congr_left fun m hm => Prod.ext (of_decide_eq_true (List.mem_filter.1 hm).2).symm rfl
  have hpairs := congrArg (List.map fun value => (host, value)) hvalues
  rw [List.map_map] at hpairs
  rw [← List.map_id ((tableMembers table).filter _), ← hkeys]
  refine hpairs.trans ?_
  cases table.get? host <;> rfl

theorem mem_tableMembers {table : DnsOverrides} {m : Str × Json} (h : m ∈ tableMembers table) :
    ∃ entry, table.get? m.1 = some entry ∧ m.2 = entryJson entry := by
  have hlast := (mem_sortedMembers _ m).1 h
  rw [getLast?_entries] at hlast
  obtain ⟨entry, hentry, hvalue⟩ := Option.map_eq_some_iff.1 hlast
  exact ⟨entry, hentry, hvalue.symm⟩

theorem get?_canonical_overrides (overrides : DnsOverrides) (host : Str) :
    Json.get? host (canonicalizeValue (json .dns overrides)) =
      (overrides.get? host).map fun entry => canonicalizeValue (entryJson entry) := by
  unfold json
  dsimp only
  rw [get?_canonicalizeValue, filter_tableMembers]
  cases overrides.get? host <;> rfl

theorem entry_of_canonicalizeValue {a b : DnsEntry}
    (h : canonicalizeValue (entryJson a) = canonicalizeValue (entryJson b)) : a = b := by
  have hip := congrArg (Json.get? "ip") h
  have henabled := congrArg (Json.get? "enabled") h
  simp only [entryJson, get?_canonicalizeValue] at hip henabled
  change some (canonicalizeValue (.str a.ip)) = some (canonicalizeValue (.str b.ip)) at hip
  change some (canonicalizeValue (.bool a.enabled)) = some (canonicalizeValue (.bool b.enabled)) at henabled
  simp only [canonicalizeValue_str, canonicalizeValue_bool, Option.some.injEq, Json.str.injEq, Json.bool.injEq]
    at hip henabled
  obtain ⟨ip, enabled⟩ := a
  dsimp only at hip henabled
  rw [hip, henabled]

private theorem eq_of_captureFilter {a b : CaptureFilterConfig}
    (h : canonicalizeValue (json .captureFilter a) = canonicalizeValue (json .captureFilter b)) : a = b := by
  obtain ⟨mode, hosts⟩ := a
  obtain ⟨mode', hosts'⟩ := b
  have hmode := congrArg (Json.get? "mode") h
  have hhosts := congrArg (Json.get? "hosts") h
  simp only [json, get?_canonicalizeValue] at hmode hhosts
  change some (canonicalizeValue mode.json) = some (canonicalizeValue mode'.json) at hmode
  change some (canonicalizeValue (.arr (hosts.map .str))) = some (canonicalizeValue (.arr (hosts'.map .str))) at hhosts
  rw [canonicalizeValue_strs, canonicalizeValue_strs] at hhosts
  have hmodes : mode = mode' := by
    cases mode <;> cases mode' <;> first | rfl | (simp [FilterMode.json] at hmode)
  have hstr : Function.Injective Json.str := fun _ _ => Json.str.inj
  rw [hmodes, hstr.list_map (Json.arr.inj (Option.some.inj hhosts))]

private theorem eq_of_throttling {a b : ThrottlingConfig}
    (h : canonicalizeValue (json .throttling a) = canonicalizeValue (json .throttling b)) : a = b := by
  obtain ⟨latency, bandwidth, enabled⟩ := a
  obtain ⟨latency', bandwidth', enabled'⟩ := b
  have hlatency := congrArg (Json.get? "latency_ms") h
  have hbandwidth := congrArg (Json.get? "bandwidth_limit_kbps") h
  have henabled := congrArg (Json.get? "enabled") h
  simp only [json, get?_canonicalizeValue] at hlatency hbandwidth henabled
  change some (canonicalizeValue (.int latency.toNat)) = some (canonicalizeValue (.int latency'.toNat)) at hlatency
  change some (canonicalizeValue (.int bandwidth.toNat)) =
    some (canonicalizeValue (.int bandwidth'.toNat)) at hbandwidth
  change some (canonicalizeValue (.bool enabled)) = some (canonicalizeValue (.bool enabled')) at henabled
  simp only [canonicalizeValue_int, canonicalizeValue_bool, Option.some.injEq, Json.int.injEq, Json.bool.injEq,
    Int.natCast_inj, UInt64.toNat_inj] at hlatency hbandwidth henabled
  rw [hlatency, hbandwidth, henabled]

private theorem eq_of_upstreamProxy {a b : Option Str}
    (h : canonicalizeValue (json .upstreamProxy a) = canonicalizeValue (json .upstreamProxy b)) : a = b := by
  have hurl := congrArg (Json.get? "upstream_proxy") h
  simp only [json, get?_canonicalizeValue] at hurl
  change some (canonicalizeValue ((a.map Json.str).getD .null)) =
    some (canonicalizeValue ((b.map Json.str).getD .null)) at hurl
  cases a <;> cases b <;> simp at hurl
  · rfl
  · rw [hurl]

private theorem sameTable_of_dns {a b : DnsOverrides}
    (h : canonicalizeValue (json .dns a) = canonicalizeValue (json .dns b)) : DnsOverride.SameTable a b := by
  intro host
  have hhost := congrArg (Json.get? host) h
  rw [get?_canonical_overrides, get?_canonical_overrides] at hhost
  exact Option.map_injective (fun _ _ => entry_of_canonicalizeValue) hhost

private theorem json_of_sameTable {a b : DnsOverrides} (h : DnsOverride.SameTable a b) : json .dns a = json .dns b := by
  have hmembers : sortedMembers (a.entries.map fun e => (e.1, entryJson e.2)) =
      sortedMembers (b.entries.map fun e => (e.1, entryJson e.2)) :=
    sortedMembers_congr fun host => by rw [getLast?_entries, getLast?_entries, h host]
  exact congrArg Json.obj hmembers

/-- The order of the hosts makes no difference to a table as it is serialised. -/
theorem json_congr : {g : Guarded} → ∀ {a b : g.resource.Value}, g.Same a b → g.json a = g.json b
  | captureFilter, _, _, h => congrArg (json .captureFilter) h
  | dns, _, _, h => json_of_sameTable h
  | throttling, _, _, h => congrArg (json .throttling) h
  | upstreamProxy, _, _, h => congrArg (json .upstreamProxy) h

/-- Values with one canonical form are equal. -/
theorem same_of_canonicalizeValue : {g : Guarded} → ∀ {a b : g.resource.Value},
    canonicalizeValue (g.json a) = canonicalizeValue (g.json b) → g.Same a b
  | captureFilter, _, _, h => eq_of_captureFilter h
  | dns, _, _, h => sameTable_of_dns h
  | throttling, _, _, h => eq_of_throttling h
  | upstreamProxy, _, _, h => eq_of_upstreamProxy h

end Guarded

/-- The precondition of an action which was made for a value. -/
def madeFor (digest : Json → Str) (g : Guarded) (v : g.resource.Value) (message : Str) : AssistantActionPrecondition :=
  actionStatePrecondition digest g.name (g.json v) message

/-- Every value of a resource with the hash of this one has its canonical form. -/
def Resists (digest : Json → Str) (g : Guarded) (v : g.resource.Value) : Prop :=
  ∀ w, stableValueHash digest (g.json w) = stableValueHash digest (g.json v) →
    canonicalizeValue (g.json w) = canonicalizeValue (g.json v)

theorem Guarded.same_of_hash {digest : Json → Str} {g : Guarded} {v w : g.resource.Value} (h : Resists digest g v)
    (hhash : stableValueHash digest (g.json w) = stableValueHash digest (g.json v)) : g.Same w v :=
  same_of_canonicalizeValue (h w hhash)

end Assistant

end Oproxy
