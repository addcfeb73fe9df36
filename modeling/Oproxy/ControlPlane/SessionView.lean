import Mathlib.Data.List.Pairwise
import Oproxy.ControlPlane.SessionList

/-!
# The list of sessions is a view of the store

Two things make the list less than that.  The protocol of a session without one is the empty text, which comes before
all protocols and not after them; and the hosts of the focus are compared as they are with a host in lower case, so
that one with a capital letter in it focuses on nothing.
-/

namespace Oproxy

/-! ### What is asked of the list -/

def Exchange.capturedProtocol (session : Exchange) : Option Str := session.metrics.bind InspectionMetrics.protocol

/-- The order of protocols, the sessions without one at the end. -/
def ProtocolLe (a b : Exchange) : Prop :=
  match a.capturedProtocol, b.capturedProtocol with
  | _, none => True
  | none, some _ => False
  | some p, some q => p ≤ q

/-- The order of a sort key. -/
def KeyLe (key : Str) (a b : Exchange) : Prop :=
  if key = "idx" ∨ key = "ts" then a.timestamp ≤ b.timestamp
  else if key = "method" then a.request.method.toAsciiUppercase ≤ b.request.method.toAsciiUppercase
  else if key = "status" then responseStatus a ≤ responseStatus b
  else if key = "host" then a.request.host.toAsciiLowercase ≤ b.request.host.toAsciiLowercase
  else if key = "path" then sessionPath a ≤ sessionPath b
  else if key = "type" then sessionKind a ≤ sessionKind b
  else if key = "reqSize" then requestSize a ≤ requestSize b
  else if key = "total" then sessionLatency a ≤ sessionLatency b
  else if key = "protocol" then ProtocolLe a b
  else a.timestamp ≤ b.timestamp

def SessionSort.InOrder (sort : SessionSort) (a b : Exchange) : Prop :=
  match sort.dir with
  | .asc => KeyLe sort.key a b
  | .desc => KeyLe sort.key b a

/-- The filter with methods and hosts in lower case. -/
def SessionListFilter.foldCase (filter : SessionListFilter) : SessionListFilter :=
  { filter with
    methods := filter.methods.map fun methods => methods.map Str.toAsciiLowercase
    hostFocus := filter.hostFocus.map Str.toAsciiLowercase
    hostFilter := filter.hostFilter.map Str.toAsciiLowercase }

namespace SessionListOptions

def unpaged (options : SessionListOptions) : SessionListOptions := { options with limit := none, offset := none }

def page (options : SessionListOptions) (off lim : Nat) : SessionListOptions :=
  { options with limit := some lim, offset := some off }

end SessionListOptions

namespace SessionStore

section

variable (toLowercase : Str → Str) (compile : RegexEngine)

/-- Consecutive pages of some sizes. -/
def pages (s : SessionStore) (options : SessionListOptions) : Nat → List Nat → List Exchange
  | _, [] => []
  | off, lim :: sizes =>
    (s.listSessions toLowercase compile (options.page off lim)).sessions ++ pages s options (off + lim) sizes

/-- The list of sessions is a faithful view of the store. -/
structure FaithfulView (s : SessionStore) (options : SessionListOptions) : Prop where
  listed : ∃ sorted : List Exchange, sorted.Perm (s.passing toLowercase compile options) ∧
    sorted.Pairwise options.filter.sort.InOrder ∧
    (s.listSessions toLowercase compile options.unpaged).sessions =
      if options.includeBodies then sorted else sorted.map Exchange.bodyless
  paged : ∀ sizes : List Nat, (s.listSessions toLowercase compile options).filteredTotal ≤ sizes.sum →
    s.pages toLowercase compile options 0 sizes = (s.listSessions toLowercase compile options.unpaged).sessions
  methods : (s.listSessions toLowercase compile options).facets.methods.total id =
    (s.listSessions toLowercase compile options).filteredTotal
  statusBuckets : (s.listSessions toLowercase compile options).facets.statusBuckets.total id =
    (s.listSessions toLowercase compile options).filteredTotal
  hosts : (s.listSessions toLowercase compile options).facets.hosts.total id =
    (s.listSessions toLowercase compile options).filteredTotal
  caseBlind : ∀ filter' : SessionListFilter, filter'.foldCase = options.filter.foldCase →
    s.passing toLowercase compile { options with filter := filter' } = s.passing toLowercase compile options

end

end SessionStore

/-! ### The condition -/

/-- A session without a protocol comes with sessions without one, or with an empty one further in front. -/
structure ProtocolsLast (sessions : List Exchange) : Prop where
  alone : ∀ a ∈ sessions, ∀ b ∈ sessions, a.capturedProtocol = none → sessionProtocol b = []
  behind : sessions.Pairwise fun a b => a.capturedProtocol = none → b.capturedProtocol = none

/-- A session which is in focus in some case of the hosts is there for a host without letters. -/
def Focusable (session : Exchange) (hosts : List Str) : Prop :=
  focused session (hosts.map Str.toAsciiLowercase) = true →
    focused session (hosts.filter fun host => host.all fun c => !c.isAlpha) = true

/-! ### Sorting -/

section Sorting

variable {κ : Type} [LinearOrder κ] (key : Exchange → κ) (sessions : List Exchange)

theorem sortByKey_perm : (sortByKey key sessions).Perm sessions := List.mergeSort_perm sessions _

theorem pairwise_sortByKey : (sortByKey key sessions).Pairwise fun a b => key a ≤ key b := by
  have hsorted := @List.pairwise_mergeSort Exchange (fun a b => decide (key a ≤ key b))
    (fun a b c hab hbc => decide_eq_true ((of_decide_eq_true hab).trans (of_decide_eq_true hbc)))
    (fun a b => by simpa using le_total (key a) (key b)) sessions
  exact hsorted.imp fun h => of_decide_eq_true h

/-- Sessions which are in order stay where they are. -/
theorem sortByKey_of_pairwise (h : sessions.Pairwise fun a b => key a ≤ key b) : sortByKey key sessions = sessions :=
  List.mergeSort_of_pairwise (h.imp fun hab => decide_eq_true hab)

end Sorting

variable {sessions : List Exchange}

theorem sessionProtocol_eq (session : Exchange) : sessionProtocol session = session.capturedProtocol.getD [] := rfl

theorem protocolLe_of_some {a b : Exchange} (ha : a.capturedProtocol ≠ none)
    (h : sessionProtocol a ≤ sessionProtocol b) : ProtocolLe a b := by
  unfold ProtocolLe
  change a.capturedProtocol.getD [] ≤ b.capturedProtocol.getD [] at h
  rcases hb : b.capturedProtocol with - | q
  · trivial
  · rcases ha' : a.capturedProtocol with - | p
    · exact absurd ha' ha
    · rwa [ha', hb] at h

theorem not_protocolLe {a b : Exchange} (ha : a.capturedProtocol = none) (hb : b.capturedProtocol ≠ none) :
    ¬ ProtocolLe a b := by
  unfold ProtocolLe
  rcases hb' : b.capturedProtocol with - | q
  · exact absurd hb' hb
  · rw [ha]
    exact id

/-- Two sessions of a list which is ordered in two ways are so one way around or the other. -/
private theorem pairwise_or {R : Exchange → Exchange → Prop} (h : sessions.Pairwise R) {a b : Exchange}
    (ha : a ∈ sessions) (hb : b ∈ sessions) (hne : a ≠ b) : R a b ∨ R b a := by
  have hsymm : Std.Symm fun a b => R a b ∨ R b a := ⟨fun _ _ hab => hab.symm⟩
  have hor : sessions.Pairwise fun a b => R a b ∨ R b a := h.imp fun hab => Or.inl hab
  exact hor.forall ha hb hne

private theorem eq_nil_of_le_nil {s : Str} (h : s ≤ []) : s = [] := by
  cases s with
  | nil => rfl
  | cons c s => exact absurd h (not_le_of_gt (List.nil_lt_cons c s))

/-- A sort by the protocol has the sessions without one at the end exactly under the condition. -/
theorem pairwise_protocolLe_iff :
    (sortByKey sessionProtocol sessions).Pairwise ProtocolLe ↔ ProtocolsLast sessions := by
  have hsorted := pairwise_sortByKey sessionProtocol sessions
  have hmem : ∀ session, session ∈ sortByKey sessionProtocol sessions ↔ session ∈ sessions := fun session =>
    (sortByKey_perm sessionProtocol sessions).mem_iff
  -- where none has a protocol but perhaps an empty one, sorting changes nothing
  have hunsorted : ∀ a ∈ sessions, a.capturedProtocol = none →
      (∀ a ∈ sessions, ∀ b ∈ sessions, a.capturedProtocol = none → sessionProtocol b = []) →
      sortByKey sessionProtocol sessions = sessions := by
    intro a ha hnone halone
    refine sortByKey_of_pairwise _ _ (List.pairwise_of_forall_mem_list fun b hb c hc => ?_)
    rw [halone a ha b hb hnone, halone a ha c hc hnone]
  constructor
  · intro h
    have halone : ∀ a ∈ sessions, ∀ b ∈ sessions, a.capturedProtocol = none → sessionProtocol b = [] := by
      intro a ha b hb hnone
      by_cases hb' : b.capturedProtocol = none
      · rw [sessionProtocol_eq, hb']
        rfl
      · have hne : a ≠ b := fun heq => hb' (heq ▸ hnone)
        rcases pairwise_or (hsorted.and h) ((hmem a).2 ha) ((hmem b).2 hb) hne with ⟨-, hab⟩ | ⟨hba, -⟩
        · exact absurd hab (not_protocolLe hnone hb')
        · rw [sessionProtocol_eq a, hnone] at hba
          exact eq_nil_of_le_nil hba
    refine ⟨halone, ?_⟩
    by_cases hsome : ∃ a ∈ sessions, a.capturedProtocol = none
    · obtain ⟨a, ha, hnone⟩ := hsome
      rw [hunsorted a ha hnone halone] at h
      exact h.imp fun {b c} hbc hb => by_contra fun hc => not_protocolLe hb hc hbc
    · exact List.pairwise_of_forall_mem_list fun a ha b _ hnone => absurd ⟨a, ha, hnone⟩ hsome
  · rintro ⟨halone, hbehind⟩
    by_cases hsome : ∃ a ∈ sessions, a.capturedProtocol = none
    · obtain ⟨a, ha, hnone⟩ := hsome
      rw [hunsorted a ha hnone halone]
      refine hbehind.imp_of_mem fun {b c} hb hc hbc => ?_
      by_cases hb' : b.capturedProtocol = none
      · unfold ProtocolLe
        rw [hbc hb']
        trivial
      · refine protocolLe_of_some hb' ?_
        rw [halone a ha b hb hnone, halone a ha c hc hnone]
    · refine hsorted.imp_of_mem fun {a b} ha _ hab => protocolLe_of_some ?_ hab
      exact fun hnone => hsome ⟨a, (hmem a).1 ha, hnone⟩

theorem sortedByKey_protocol (sessions : List Exchange) :
    sortedByKey sessions "protocol" = sortByKey sessionProtocol sessions := by
  unfold sortedByKey
  rw [if_neg (by decide), if_neg (by decide), if_neg (by decide), if_neg (by decide), if_neg (by decide),
    if_neg (by decide), if_neg (by decide), if_neg (by decide), if_pos rfl]

/-- But for the protocol, the order of a key is that of the values it sorts by. -/
theorem exists_sortByKey (sessions : List Exchange) {key : Str} (hprotocol : key ≠ "protocol") :
    ∃ (κ : Type) (_ : LinearOrder κ) (value : Exchange → κ), sortedByKey sessions key = sortByKey value sessions ∧
      KeyLe key = fun a b => value a ≤ value b := by
  unfold sortedByKey KeyLe
  by_cases hidx : key = "idx" ∨ key = "ts"
  · simp only [if_pos hidx]
    exact ⟨_, _, _, rfl, rfl⟩
  by_cases hmethod : key = "method"
  · simp only [if_neg hidx, if_pos hmethod]
    exact ⟨_, _, _, rfl, rfl⟩
  by_cases hstatus : key = "status"
  · simp only [if_neg hidx, if_neg hmethod, if_pos hstatus]
    exact ⟨_, _, _, rfl, rfl⟩
  simp only [if_neg hidx, if_neg hmethod, if_neg hstatus]
  by_cases hhost : key = "host"
  · simp only [if_pos hhost]
    exact ⟨_, _, _, rfl, rfl⟩
  by_cases hpath : key = "path"
  · simp only [if_neg hhost, if_pos hpath]
    exact ⟨_, _, _, rfl, rfl⟩
  by_cases htype : key = "type"
  · simp only [if_neg hhost, if_neg hpath, if_pos htype]
    exact ⟨_, _, _, rfl, rfl⟩
  simp only [if_neg hhost, if_neg hpath, if_neg htype, if_neg hprotocol]
  by_cases hsize : key = "reqSize"
  · simp only [if_pos hsize]
    exact ⟨_, _, _, rfl, rfl⟩
  by_cases htotal : key = "total"
  · simp only [if_neg hsize, if_pos htotal]
    exact ⟨_, _, _, rfl, rfl⟩
  simp only [if_neg hsize, if_neg htotal]
  exact ⟨_, _, _, rfl, rfl⟩

theorem sortSessions_perm (sessions : List Exchange) (sort : SessionSort) :
    (sortSessions sessions sort).Perm sessions := by
  have hsorted : (sortedByKey sessions sort.key).Perm sessions := by
    by_cases hprotocol : sort.key = "protocol"
    · rw [hprotocol, sortedByKey_protocol]
      exact sortByKey_perm sessionProtocol sessions
    · obtain ⟨κ, _, value, hsorted, -⟩ := exists_sortByKey sessions hprotocol
      rw [hsorted]
      exact sortByKey_perm value sessions
  unfold sortSessions
  cases sort.dir with
  | asc => exact hsorted
  | desc => exact (List.reverse_perm _).trans hsorted

theorem keyLe_protocol (a b : Exchange) : KeyLe "protocol" a b ↔ ProtocolLe a b := by
  unfold KeyLe
  rw [if_neg (by decide), if_neg (by decide), if_neg (by decide), if_neg (by decide), if_neg (by decide),
    if_neg (by decide), if_neg (by decide), if_neg (by decide), if_pos rfl]

/-- Sorting orders the sessions by every key, but by the protocol under the condition only. -/
theorem pairwise_sortSessions_iff (sessions : List Exchange) (sort : SessionSort) :
    (sortSessions sessions sort).Pairwise sort.InOrder ↔ (sort.key = "protocol" → ProtocolsLast sessions) := by
  have hdir : (sortSessions sessions sort).Pairwise sort.InOrder ↔
      (sortedByKey sessions sort.key).Pairwise (KeyLe sort.key) := by
    unfold sortSessions SessionSort.InOrder
    cases sort.dir with
    | asc => exact Iff.rfl
    | desc => exact List.pairwise_reverse
  rw [hdir]
  by_cases hprotocol : sort.key = "protocol"
  · rw [forall_prop_of_true hprotocol, hprotocol, sortedByKey_protocol, ← pairwise_protocolLe_iff]
    have hle : KeyLe "protocol" = ProtocolLe := funext fun a => funext fun b => propext (keyLe_protocol a b)
    rw [hle]
  · refine iff_of_true ?_ fun h => absurd h hprotocol
    obtain ⟨κ, _, value, hsorted, hle⟩ := exists_sortByKey sessions hprotocol
    rw [hsorted, hle]
    exact pairwise_sortByKey value sessions

/-! ### Facets -/

theorem total_countOne (map : IndexMap Str Nat) (key : Str) : (countOne map key).total id = map.total id + 1 := by
  have hinsert := IndexMap.total_insert id map key ((map.get? key).getD 0 + 1)
  have hweight : map.weightAt id key = (map.get? key).getD 0 := by
    unfold IndexMap.weightAt
    rw [Option.map_id_fun, id_eq]
  rw [hweight, id_eq] at hinsert
  unfold countOne
  omega

theorem total_buildFacets (sessions : List Exchange) :
    (buildFacets sessions).methods.total id = sessions.length ∧
      (buildFacets sessions).statusBuckets.total id = sessions.length ∧
        (buildFacets sessions).hosts.total id = sessions.length := by
  have hempty : (IndexMap.empty : IndexMap Str Nat).total id = 0 := rfl
  unfold buildFacets
  induction sessions using List.reverseRecOn with
  | nil => exact ⟨hempty, hempty, hempty⟩
  | append_singleton sessions session ih =>
    obtain ⟨hmethods, hbuckets, hhosts⟩ := ih
    rw [List.foldl_append, List.foldl_cons, List.foldl_nil, List.length_append, List.length_singleton]
    dsimp only
    rw [total_countOne, total_countOne, total_countOne, hmethods, hbuckets, hhosts]
    exact ⟨rfl, rfl, rfl⟩

/-! ### Letter case -/

private theorem isAlpha_iff (c : Char) :
    c.isAlpha = true ↔ (65 ≤ c.toNat ∧ c.toNat ≤ 90) ∨ (97 ≤ c.toNat ∧ c.toNat ≤ 122) := by
  unfold Char.isAlpha Char.isUpper Char.isLower
  simp only [Bool.or_eq_true, Bool.and_eq_true, decide_eq_true_eq, ge_iff_le, UInt32.le_iff_toNat_le]
  exact Iff.rfl

private theorem toNat_toUpper (c : Char) :
    c.toUpper.toNat = if 97 ≤ c.toNat ∧ c.toNat ≤ 122 then c.toNat - 32 else c.toNat := by
  unfold Char.toUpper
  have ha : ('a' : Char).val.toNat = 97 := rfl
  have hz : ('z' : Char).val.toNat = 122 := rfl
  have hd : (('A' : Char).val - ('a' : Char).val).toNat = 2 ^ 32 - 32 := rfl
  simp only [UInt32.le_iff_toNat_le, ha, hz, Char.toNat_val]
  split
  · rename_i h
    show (c.val + _).toNat = c.val.toNat - 32
    rw [UInt32.toNat_add, hd]
    have hval : c.val.toNat = c.toNat := rfl
    omega
  · rfl

private theorem toNat_toLower (c : Char) :
    c.toLower.toNat = if 65 ≤ c.toNat ∧ c.toNat ≤ 90 then c.toNat + 32 else c.toNat := by
  unfold Char.toLower
  have hA : ('A' : Char).val.toNat = 65 := rfl
  have hZ : ('Z' : Char).val.toNat = 90 := rfl
  have hd : (('a' : Char).val - ('A' : Char).val).toNat = 32 := rfl
  simp only [ge_iff_le, UInt32.le_iff_toNat_le, hA, hZ, Char.toNat_val]
  split
  · rename_i h
    show (c.val + _).toNat = c.val.toNat + 32
    rw [UInt32.toNat_add, hd]
    have hval : c.val.toNat = c.toNat := rfl
    omega
  · rfl

/-- No letter is in upper case where one is in lower case. -/
private theorem isAlpha_of_toUpper_eq {c d : Char} (h : c.toUpper = d.toLower) : c.isAlpha = false := by
  rw [← Bool.not_eq_true, isAlpha_iff]
  have hnat := congrArg Char.toNat h
  rw [toNat_toUpper, toNat_toLower] at hnat
  split at hnat <;> split at hnat <;> omega

private theorem eq_of_toLower_eq {c d : Char} (hc : c.isAlpha = false) (h : d.toLower = c.toLower) : d = c := by
  rw [← Bool.not_eq_true, isAlpha_iff] at hc
  have hnat := congrArg Char.toNat h
  rw [toNat_toLower, toNat_toLower] at hnat
  apply Char.toNat_inj.1
  split at hnat <;> split at hnat <;> omega

private theorem toLower_toUpper (c : Char) : c.toUpper.toLower = c.toLower := by
  apply Char.toNat_inj.1
  rw [toNat_toLower, toNat_toLower, toNat_toUpper]
  split_ifs <;> omega

private theorem toAsciiLowercase_toAsciiUppercase (s : Str) :
    s.toAsciiUppercase.toAsciiLowercase = s.toAsciiLowercase := by
  unfold Str.toAsciiLowercase Str.toAsciiUppercase
  rw [List.map_map]
  exact List.map_congr_left fun c _ => toLower_toUpper c

private theorem toUpper_of_not_isAlpha {c : Char} (h : c.isAlpha = false) : c.toUpper = c := by
  rw [← Bool.not_eq_true, isAlpha_iff] at h
  apply Char.toNat_inj.1
  rw [toNat_toUpper, if_neg fun hlower => h (Or.inr hlower)]

private theorem eq_of_toAsciiLowercase_eq {a b : Str} (ha : ∀ c ∈ a, c.isAlpha = false)
    (h : b.toAsciiLowercase = a.toAsciiLowercase) : b = a := by
  induction a generalizing b with
  | nil => exact List.map_eq_nil_iff.1 h
  | cons c a ih =>
    rw [List.forall_mem_cons] at ha
    cases b with
    | nil => cases h
    | cons d b =>
      obtain ⟨hhead, htail⟩ := List.cons.inj h
      rw [eq_of_toLower_eq ha.1 hhead, ih ha.2 htail]

variable {session : Exchange} {hosts hosts' : List Str}

theorem focused_iff : focused session hosts = true ↔ ∃ host ∈ hosts, session.request.host.toAsciiLowercase = host ∨
    ('.' :: host) <:+ session.request.host.toAsciiLowercase := by
  unfold focused
  simp only [List.any_eq_true, Bool.or_eq_true, decide_eq_true_eq]

/-- A host of the focus is found in the host of the session letter by letter. -/
private theorem mem_of_focus {h host : Str} (hfocus : h = host ∨ ('.' :: host) <:+ h) {c : Char} (hc : c ∈ host) :
    c ∈ h := by
  rcases hfocus with rfl | hsuffix
  · exact hc
  · exact hsuffix.subset (List.mem_cons_of_mem _ hc)

/-- What is in focus stays there with the hosts in lower case. -/
theorem focused_map_toAsciiLowercase (h : focused session hosts = true) :
    focused session (hosts.map Str.toAsciiLowercase) = true := by
  obtain ⟨host, hmem, hfocus⟩ := focused_iff.1 h
  have hlower : host.toAsciiLowercase = host := by
    refine (List.map_congr_left fun c hc => ?_).trans (List.map_id host)
    obtain ⟨d, -, rfl⟩ := List.mem_map.1 (mem_of_focus hfocus hc)
    apply Char.toNat_inj.1
    rw [toNat_toLower, toNat_toLower, id_eq, toNat_toLower]
    split_ifs <;> omega
  exact focused_iff.2 ⟨host, List.mem_map.2 ⟨host, hmem, hlower⟩, hfocus⟩

/-- What is in focus with the hosts in upper case is so for a host without letters. -/
theorem focused_map_toAsciiUppercase (h : focused session (hosts.map Str.toAsciiUppercase) = true) :
    focused session (hosts.filter fun host => host.all fun c => !c.isAlpha) = true := by
  obtain ⟨upper, hupper, hfocus⟩ := focused_iff.1 h
  obtain ⟨host, hmem, rfl⟩ := List.mem_map.1 hupper
  have hletters : ∀ c ∈ host, c.isAlpha = false := by
    intro c hc
    obtain ⟨d, -, hd⟩ := List.mem_map.1 (mem_of_focus hfocus (List.mem_map_of_mem hc))
    exact isAlpha_of_toUpper_eq hd.symm
  have hsame : host.toAsciiUppercase = host :=
    (List.map_congr_left fun c hc => toUpper_of_not_isAlpha (hletters c hc)).trans (List.map_id host)
  rw [hsame] at hfocus
  refine focused_iff.2 ⟨host, List.mem_filter.2 ⟨hmem, ?_⟩, hfocus⟩
  rw [List.all_eq_true]
  intro c hc
  rw [hletters c hc]
  rfl

/-- A host without letters is the same in every case. -/
theorem focused_of_unlettered (hsame : hosts'.map Str.toAsciiLowercase = hosts.map Str.toAsciiLowercase)
    (h : focused session (hosts.filter fun host => host.all fun c => !c.isAlpha) = true) :
    focused session hosts' = true := by
  obtain ⟨host, hfilter, hfocus⟩ := focused_iff.1 h
  obtain ⟨hmem, hletters⟩ := List.mem_filter.1 hfilter
  rw [List.all_eq_true] at hletters
  have hlower : host.toAsciiLowercase ∈ hosts'.map Str.toAsciiLowercase := hsame ▸ List.mem_map_of_mem hmem
  obtain ⟨host', hmem', heq⟩ := List.mem_map.1 hlower
  obtain rfl := eq_of_toAsciiLowercase_eq (fun c hc => by simpa using hletters c hc) heq
  exact focused_iff.2 ⟨_, hmem', hfocus⟩

section

variable (toLowercase : Str → Str) (compile : RegexEngine) (session : Exchange) (filter : SessionListFilter)

/-- The focus is one condition among the others. -/
theorem matchesSessionFilter_eq : matchesSessionFilter toLowercase compile session filter =
    (matchesSessionFilter toLowercase compile session { filter with hostFocus := [] } &&
      (filter.hostFocus.isEmpty || focused session filter.hostFocus)) := by
  have hnot : (!filter.hostFocus.isEmpty && !focused session filter.hostFocus) =
      !(filter.hostFocus.isEmpty || focused session filter.hostFocus) := (Bool.not_or _ _).symm
  unfold matchesSessionFilter
  dsimp only
  rw [hnot]
  cases filter.hostFocus.isEmpty || focused session filter.hostFocus with
  | true =>
    rw [Bool.and_true]
    rfl
  | false =>
    rw [Bool.and_false, Bool.not_false, if_pos rfl]
    split_ifs <;> rfl

/-- The other conditions do not see the case of methods and of the host. -/
theorem matchesSessionFilter_foldCase :
    matchesSessionFilter toLowercase compile session { filter.foldCase with hostFocus := [] } =
      matchesSessionFilter toLowercase compile session { filter with hostFocus := [] } := by
  have hcase : ∀ s t : Str, s.eqIgnoreAsciiCase t.toAsciiLowercase = s.eqIgnoreAsciiCase t := by
    intro s t
    unfold Str.eqIgnoreAsciiCase
    rw [Str.toAsciiLowercase_idem]
  have hmethods : (filter.foldCase.methods.any fun methods =>
      !methods.any fun method => session.request.method.eqIgnoreAsciiCase method) =
        filter.methods.any fun methods =>
          !methods.any fun method => session.request.method.eqIgnoreAsciiCase method := by
    unfold SessionListFilter.foldCase
    cases filter.methods with
    | none => rfl
    | some methods =>
      simp only [Option.map_some, Option.any_some, List.any_map, Function.comp_def, hcase]
  have hhost : ((filter.foldCase.hostFilter.filter fun host => !host.isEmpty).any fun host =>
      !session.request.host.eqIgnoreAsciiCase host) =
        (filter.hostFilter.filter fun host => !host.isEmpty).any fun host =>
          !session.request.host.eqIgnoreAsciiCase host := by
    unfold SessionListFilter.foldCase
    rcases filter.hostFilter with - | (- | ⟨c, host⟩)
    · rfl
    · rfl
    · exact congrArg (fun b => !b) (hcase _ _)
  unfold matchesSessionFilter
  dsimp only
  rw [hmethods, hhost]
  rfl

variable {toLowercase compile session filter}

/-- Which sessions pass depends on the case of the filter through the focus only. -/
theorem matchesSessionFilter_congr {filter' : SessionListFilter} (hfold : filter'.foldCase = filter.foldCase) :
    matchesSessionFilter toLowercase compile session { filter' with hostFocus := [] } =
      matchesSessionFilter toLowercase compile session { filter with hostFocus := [] } := by
  rw [← matchesSessionFilter_foldCase, hfold, matchesSessionFilter_foldCase]

end

namespace SessionStore

variable {toLowercase : Str → Str} {compile : RegexEngine} {s : SessionStore} {options : SessionListOptions}

theorem mem_passing {session : Exchange} : session ∈ s.passing toLowercase compile options ↔
    (session ∈ s.getAllSessions ∧ matchesSince session options.since = true) ∧
      matchesSessionFilter toLowercase compile session options.filter = true := by
  unfold passing
  rw [List.mem_filter, List.mem_filter]

/-- The case of methods and hosts makes no difference exactly if no session is in focus by a host with letters. -/
theorem caseBlind_iff :
    (∀ filter' : SessionListFilter, filter'.foldCase = options.filter.foldCase →
      s.passing toLowercase compile { options with filter := filter' } = s.passing toLowercase compile options) ↔
      ∀ session ∈ s.getAllSessions, matchesSince session options.since = true →
        matchesSessionFilter toLowercase compile session { options.filter with hostFocus := [] } = true →
          Focusable session options.filter.hostFocus := by
  constructor
  · intro h session hmem hsince hothers hfocused
    have hne : options.filter.hostFocus ≠ [] := by
      intro hnil
      rw [hnil] at hfocused
      cases hfocused
    -- two filters which differ only in the case of the focused hosts
    let lower := { options.filter with hostFocus := options.filter.hostFocus.map Str.toAsciiLowercase }
    let upper := { options.filter with hostFocus := options.filter.hostFocus.map Str.toAsciiUppercase }
    have hlower : lower.foldCase = options.filter.foldCase := by
      simp [lower, SessionListFilter.foldCase, List.map_map, Function.comp_def]
    have hupper : upper.foldCase = options.filter.foldCase := by
      simp [upper, SessionListFilter.foldCase, List.map_map, Function.comp_def,
        toAsciiLowercase_toAsciiUppercase]
    have hpasses : session ∈ s.passing toLowercase compile { options with filter := lower } := by
      refine mem_passing.2 ⟨⟨hmem, hsince⟩, ?_⟩
      rw [matchesSessionFilter_eq, Bool.and_eq_true, Bool.or_eq_true]
      exact ⟨hothers, Or.inr hfocused⟩
    rw [h lower hlower, ← h upper hupper] at hpasses
    have hfilter := (mem_passing.1 hpasses).2
    rw [matchesSessionFilter_eq, Bool.and_eq_true, Bool.or_eq_true] at hfilter
    rcases hfilter.2 with hempty | hfocus
    · have hnil : options.filter.hostFocus.map Str.toAsciiUppercase = [] := List.isEmpty_iff.1 hempty
      exact absurd (List.map_eq_nil_iff.1 hnil) hne
    · exact focused_map_toAsciiUppercase hfocus
  · intro h filter' hfold
    have hhosts : filter'.hostFocus.map Str.toAsciiLowercase = options.filter.hostFocus.map Str.toAsciiLowercase :=
      congrArg SessionListFilter.hostFocus hfold
    have hempty : filter'.hostFocus.isEmpty = options.filter.hostFocus.isEmpty := by
      have hlength := congrArg List.isEmpty hhosts
      rwa [List.isEmpty_map, List.isEmpty_map] at hlength
    refine List.filter_congr fun session hsince => ?_
    obtain ⟨hmem, hsince⟩ := List.mem_filter.1 hsince
    dsimp only at hsince ⊢
    rw [matchesSessionFilter_eq, matchesSessionFilter_eq _ _ _ options.filter, matchesSessionFilter_congr hfold, hempty]
    cases hothers : matchesSessionFilter toLowercase compile session { options.filter with hostFocus := [] } with
    | false => rfl
    | true =>
      have hfocusable := h session hmem hsince hothers
      have hfocus : focused session filter'.hostFocus = focused session options.filter.hostFocus := by
        rw [Bool.eq_iff_iff]
        constructor
        · intro hfocused
          exact focused_of_unlettered rfl (hfocusable (hhosts ▸ focused_map_toAsciiLowercase hfocused))
        · intro hfocused
          exact focused_of_unlettered hhosts (hfocusable (focused_map_toAsciiLowercase hfocused))
      rw [hfocus]

/-! ### Pages -/

/-- What is left of a session in the list. -/
def shown (options : SessionListOptions) (sessions : List Exchange) : List Exchange :=
  if options.includeBodies then sessions else sessions.map Exchange.bodyless

theorem shown_append (options : SessionListOptions) (a b : List Exchange) :
    shown options (a ++ b) = shown options a ++ shown options b := by
  unfold shown
  split
  · rfl
  · exact List.map_append

theorem pages_eq (s : SessionStore) (options : SessionListOptions) (off : Nat) (sizes : List Nat) :
    s.pages toLowercase compile options off sizes = shown options
      (((sortSessions (s.passing toLowercase compile options) options.filter.sort).drop off).take sizes.sum) := by
  induction sizes generalizing off with
  | nil =>
    rw [List.sum_nil, List.take_zero]
    unfold shown
    split <;> rfl
  | cons lim sizes ih =>
    rw [List.sum_cons, List.take_add, List.drop_drop, shown_append, ← ih]
    rfl

/-- Pages which reach to the end are the whole list. -/
theorem pages_eq_unpaged {sizes : List Nat}
    (h : (s.listSessions toLowercase compile options).filteredTotal ≤ sizes.sum) :
    s.pages toLowercase compile options 0 sizes = (s.listSessions toLowercase compile options.unpaged).sessions := by
  have hlength : (sortSessions (s.passing toLowercase compile options) options.filter.sort).length ≤ sizes.sum := by
    rw [(sortSessions_perm _ _).length_eq]
    exact h
  rw [pages_eq, List.drop_zero, List.take_of_length_le hlength]
  rfl

/-! ### The list -/

/-- The list is ordered as it is asked for exactly under the condition on protocols, with or without the bodies. -/
theorem listed_iff :
    (∃ sorted : List Exchange, sorted.Perm (s.passing toLowercase compile options) ∧
      sorted.Pairwise options.filter.sort.InOrder ∧
      (s.listSessions toLowercase compile options.unpaged).sessions =
        if options.includeBodies then sorted else sorted.map Exchange.bodyless) ↔
      (options.filter.sort.key = "protocol" → ProtocolsLast (s.passing toLowercase compile options)) := by
  constructor
  · rintro ⟨sorted, -, hordered, hlisted⟩ hkey
    refine (pairwise_sortSessions_iff _ options.filter.sort).1 ?_ hkey
    -- the protocol is still there without the bodies
    have hbodyless : ∀ a b : Exchange, options.filter.sort.InOrder a.bodyless b.bodyless ↔
        options.filter.sort.InOrder a b := by
      intro a b
      unfold SessionSort.InOrder
      rw [hkey]
      cases options.filter.sort.dir with
      | asc => exact (keyLe_protocol _ _).trans (keyLe_protocol a b).symm
      | desc => exact (keyLe_protocol _ _).trans (keyLe_protocol b a).symm
    have hmapped : ∀ sessions : List Exchange, (shown options sessions).Pairwise options.filter.sort.InOrder ↔
        sessions.Pairwise options.filter.sort.InOrder := by
      intro sessions
      unfold shown
      split
      · exact Iff.rfl
      · rw [List.pairwise_map]
        simp only [hbodyless]
    have hsame : shown options (sortSessions (s.passing toLowercase compile options) options.filter.sort) =
        shown options sorted := hlisted
    rw [← hmapped, hsame, hmapped]
    exact hordered
  · intro h
    exact ⟨_, sortSessions_perm _ _, (pairwise_sortSessions_iff _ _).2 h, rfl⟩

/-- The list of sessions is a faithful view of the store exactly if the sessions without a protocol do not come with
others in a list by protocol, and no session is in focus by a host with letters. -/
theorem faithfulView_iff (toLowercase : Str → Str) (compile : RegexEngine) (s : SessionStore)
    (options : SessionListOptions) : s.FaithfulView toLowercase compile options ↔
      (options.filter.sort.key = "protocol" → ProtocolsLast (s.passing toLowercase compile options)) ∧
        ∀ session ∈ s.getAllSessions, matchesSince session options.since = true →
          matchesSessionFilter toLowercase compile session { options.filter with hostFocus := [] } = true →
            Focusable session options.filter.hostFocus := by
  rw [← listed_iff, ← caseBlind_iff]
  constructor
  · intro h
    exact ⟨h.listed, h.caseBlind⟩
  · rintro ⟨hlisted, hcase⟩
    obtain ⟨hmethods, hbuckets, hhosts⟩ := total_buildFacets (s.passing toLowercase compile options)
    exact ⟨hlisted, fun sizes h => pages_eq_unpaged h, hmethods, hbuckets, hhosts, hcase⟩

/-- One session has its answer over HTTP/2, the other none yet. -/
private def unanswered : List TimedOp :=
  [⟨fun _ => 0, .recordRequest "a" RequestContext.default .proxy⟩,
    ⟨fun _ => 1, .recordRequest "b" RequestContext.default .proxy⟩,
    ⟨fun _ => 2, .recordResponseWithMetrics "b" ResponseContext.default
      (InspectionMetrics.ofStatus 200 1 0 0 1 0 (some "HTTP/2"))⟩]

/-- `?sort_key=protocol&sort_dir=asc`. -/
private def byProtocol : SessionQuery :=
  { since := none, limit := none, offset := none, q := none, regex := none, methods := none, statusBuckets := none
    hostFocus := none, hostFilter := none, host := none, sortKey := some "protocol", sortDir := some "asc"
    workspaceView := none, includeBodies := none }

/-- The session without a protocol comes first. -/
theorem not_faithfulView : ¬ ∀ (toLowercase : Str → Str) (compile : RegexEngine) (s : SessionStore)
    (options : SessionListOptions), s.FaithfulView toLowercase compile options := by
  intro h
  let s := Machine.run step (empty 10 1000) unanswered
  let options := byProtocol.options (fun _ => none) {}
  have hlast : ProtocolsLast (s.passing id (fun _ => none) options) :=
    listed_iff.1 (h id (fun _ => none) s options).listed rfl
  have hprotocols : (s.passing id (fun _ => none) options).map Exchange.capturedProtocol =
      [none, some "HTTP/2".toList] := by
    decide +kernel
  obtain ⟨a, ha, hnone⟩ : ∃ a ∈ s.passing id (fun _ => none) options, a.capturedProtocol = none :=
    List.mem_map.1 (hprotocols ▸ List.mem_cons_self)
  obtain ⟨b, hb, hsome⟩ : ∃ b ∈ s.passing id (fun _ => none) options, b.capturedProtocol = some "HTTP/2".toList :=
    List.mem_map.1 (hprotocols ▸ List.mem_cons_of_mem _ List.mem_cons_self)
  have hempty := hlast.alone a ha b hb hnone
  rw [sessionProtocol_eq, hsome] at hempty
  cases hempty

end SessionStore

end Oproxy
