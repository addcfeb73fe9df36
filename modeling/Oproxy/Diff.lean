import Oproxy.Middleware.HeaderMap

/-!
# Header diffs (`diff.rs`)

The headers of two recorded messages are compared entry by entry: each entry of the second with the first value which
the first has under its name, and each name of the first with those of the second.
-/

namespace Oproxy

structure HeaderChange where
  name : Str
  oldValue : Str
  newValue : Str
  deriving DecidableEq

structure HeaderDiff where
  added : List Str
  removed : List Str
  changed : List HeaderChange
  deriving DecidableEq

namespace Diff

def headerLine (e : Str × Str) : Str := e.1 ++ (": " : Str) ++ e.2

def diffHeaders (a b : HeaderMap) : HeaderDiff where
  added := b.entries.filterMap fun e =>
    match a.get e.1 with
    | none => some (headerLine e)
    | some _ => none
  removed := a.entries.filterMap fun e => if b.containsKey e.1 then none else some (headerLine e)
  changed := b.entries.filterMap fun e =>
    match a.get e.1 with
    | some old => if old ≠ e.2 then some ⟨e.1, old, e.2⟩ else none
    | none => none

def noDiff : HeaderDiff := ⟨[], [], []⟩

/-! ### What is reported -/

variable {a b : HeaderMap}

/-- The values of an entry's name. -/
theorem mem_getAll_of_entry {h : HeaderMap} {e : Str × Str} (he : e ∈ h.entries) : e.2 ∈ h.getAll e.1 := by
  rw [HeaderMap.mem_getAll, h.lower e he]
  exact he

theorem exists_entry {h : HeaderMap} {name : Str} (hne : h.getAll name ≠ []) :
    ∃ e ∈ h.entries, e.1 = name.toAsciiLowercase := by
  obtain ⟨value, hvalue⟩ := List.exists_mem_of_ne_nil _ hne
  exact ⟨_, HeaderMap.mem_getAll.1 hvalue, rfl⟩

/-- A value is looked up under any spelling of its name. -/
theorem getAll_toAsciiLowercase (h : HeaderMap) (name : Str) : h.getAll name.toAsciiLowercase = h.getAll name := by
  unfold HeaderMap.getAll
  rw [Str.toAsciiLowercase_idem]

theorem mem_changed {c : HeaderChange} : c ∈ (diffHeaders a b).changed ↔
    (c.name, c.newValue) ∈ b.entries ∧ a.get c.name = some c.oldValue ∧ c.oldValue ≠ c.newValue := by
  obtain ⟨name, old, new⟩ := c
  unfold diffHeaders
  rw [List.mem_filterMap]
  constructor
  · rintro ⟨e, he, hchange⟩
    cases hget : a.get e.1 with
    | none =>
      rw [hget] at hchange
      cases hchange
    | some value =>
      rw [hget] at hchange
      dsimp only at hchange
      split at hchange
      · rename_i hne
        cases hchange
        exact ⟨he, hget, hne⟩
      · cases hchange
  · rintro ⟨he, hget, hne⟩
    refine ⟨(name, new), he, ?_⟩
    dsimp only at hget hne ⊢
    rw [hget]
    dsimp only
    rw [if_pos hne]

/-- Nothing is reported where both maps have the same names, and the second has under each only the first value of
the first map. -/
theorem diffHeaders_eq_noDiff : diffHeaders a b = noDiff ↔
    ∀ name, (a.getAll name = [] ↔ b.getAll name = []) ∧
      ∀ value ∈ b.getAll name, (a.getAll name).head? = some value := by
  have hparts : diffHeaders a b = noDiff ↔ (diffHeaders a b).added = [] ∧ (diffHeaders a b).removed = [] ∧
      (diffHeaders a b).changed = [] := by
    unfold diffHeaders noDiff
    simp only [HeaderDiff.mk.injEq]
  have hadded : (diffHeaders a b).added = [] ↔ ∀ e ∈ b.entries, a.getAll e.1 ≠ [] := by
    unfold diffHeaders
    rw [List.filterMap_eq_nil_iff]
    refine forall₂_congr fun e _ => ?_
    rw [Ne, ← HeaderMap.get_eq_none]
    cases a.get e.1 <;> simp
  have hremoved : (diffHeaders a b).removed = [] ↔ ∀ e ∈ a.entries, b.getAll e.1 ≠ [] := by
    unfold diffHeaders
    rw [List.filterMap_eq_nil_iff]
    refine forall₂_congr fun e _ => ?_
    rw [← HeaderMap.containsKey_iff_getAll]
    cases b.containsKey e.1 <;> simp
  rw [hparts, hadded, hremoved]
  constructor
  · rintro ⟨hin, hout, hchanged⟩ name
    refine ⟨⟨fun hnil => ?_, fun hnil => ?_⟩, fun value hvalue => ?_⟩
    · by_contra hne
      obtain ⟨e, he, hname⟩ := exists_entry hne
      refine hin e he ?_
      rw [hname, getAll_toAsciiLowercase, hnil]
    · by_contra hne
      obtain ⟨e, he, hname⟩ := exists_entry hne
      refine hout e he ?_
      rw [hname, getAll_toAsciiLowercase, hnil]
    · have hentry := HeaderMap.mem_getAll.1 hvalue
      have hne := hin _ hentry
      rw [getAll_toAsciiLowercase] at hne
      obtain ⟨old, hold⟩ := Option.ne_none_iff_exists'.1 (mt HeaderMap.get_eq_none.1 hne)
      rw [← HeaderMap.get_eq_head?, hold]
      -- another value would be a change, and reported
      by_contra hdiffer
      have hmem : (⟨name.toAsciiLowercase, old, value⟩ : HeaderChange) ∈ (diffHeaders a b).changed := by
        refine mem_changed.2 ⟨hentry, ?_, fun heq => hdiffer (congrArg some heq)⟩
        rw [HeaderMap.get_eq_head?, getAll_toAsciiLowercase, ← HeaderMap.get_eq_head?, hold]
      rw [hchanged] at hmem
      cases hmem
  · intro h
    refine ⟨fun e he hnil => ?_, fun e he hnil => ?_, ?_⟩
    · have hmem := mem_getAll_of_entry he
      rw [(h e.1).1.1 hnil] at hmem
      cases hmem
    · have hmem := mem_getAll_of_entry he
      rw [(h e.1).1.2 hnil] at hmem
      cases hmem
    · rw [List.eq_nil_iff_forall_not_mem]
      intro c hc
      obtain ⟨hentry, hget, hne⟩ := mem_changed.1 hc
      have hfirst := (h c.name).2 _ (mem_getAll_of_entry hentry)
      rw [← HeaderMap.get_eq_head?, hget] at hfirst
      exact hne (Option.some_inj.1 hfirst)

/-! ### When it is a diff -/

/-- Both maps have the same values under every name, as often. -/
def SameValues (a b : HeaderMap) : Prop := ∀ name, (a.getAll name).Perm (b.getAll name)

/-- The old value is lost, and the new one comes in. -/
def RealChange (a b : HeaderMap) (c : HeaderChange) : Prop :=
  (b.getAll c.name).count c.oldValue < (a.getAll c.name).count c.oldValue ∧
    (a.getAll c.name).count c.newValue < (b.getAll c.name).count c.newValue

/-- The diff is empty exactly where the maps have the same values, and it reports real changes only. -/
def TrueDiff (a b : HeaderMap) : Prop :=
  (diffHeaders a b = noDiff ↔ SameValues a b) ∧ ∀ c ∈ (diffHeaders a b).changed, RealChange a b c

/-- Where the second map has another value than the first one of the first map, the one is lost and the other comes
in. -/
def ValuesReplaced (a b : HeaderMap) : Prop :=
  ∀ name old, (a.getAll name).head? = some old → ∀ value ∈ b.getAll name, value ≠ old →
    (b.getAll name).count old < (a.getAll name).count old ∧ (a.getAll name).count value < (b.getAll name).count value

/-- Where the second map has only the first values of the first map, and these under every name, the first map has no
others, and these as often. -/
def FirstValuesTell (a b : HeaderMap) : Prop :=
  (∀ name, (a.getAll name = [] ↔ b.getAll name = []) ∧ ∀ value ∈ b.getAll name, (a.getAll name).head? = some value) →
    ∀ name, (a.getAll name).length = (b.getAll name).length ∧
      ∀ value ∈ a.getAll name, (a.getAll name).head? = some value

theorem SameValues.first_of_replaced (hsame : SameValues a b) (h : ValuesReplaced a b) (name : Str) :
    (a.getAll name = [] ↔ b.getAll name = []) ∧ ∀ value ∈ b.getAll name, (a.getAll name).head? = some value := by
  have hperm := hsame name
  refine ⟨⟨fun hnil => ?_, fun hnil => ?_⟩, fun value hvalue => ?_⟩
  · rw [hnil] at hperm
    exact hperm.nil_eq.symm
  · rw [hnil] at hperm
    exact hperm.eq_nil
  · cases hhead : (a.getAll name).head? with
    | none =>
      rw [List.head?_eq_none_iff] at hhead
      rw [hhead] at hperm
      rw [← hperm.nil_eq] at hvalue
      cases hvalue
    | some old =>
      by_contra hne
      have hlost := (h name old hhead value hvalue fun heq => hne (congrArg some heq.symm)).1
      rw [hperm.count_eq] at hlost
      exact Nat.lt_irrefl _ hlost

theorem perm_of_constant {l l' : List Str} (hlength : l.length = l'.length)
    (h : ∀ value ∈ l, l.head? = some value) (h' : ∀ value ∈ l', l.head? = some value) : l.Perm l' := by
  cases l with
  | nil => rw [List.eq_nil_of_length_eq_zero hlength.symm]
  | cons first rest =>
    have hl : first :: rest = List.replicate (first :: rest).length first :=
      List.eq_replicate_of_mem fun value hvalue => (Option.some_inj.1 (h value hvalue)).symm
    have hl' : l' = List.replicate l'.length first :=
      List.eq_replicate_of_mem fun value hvalue => (Option.some_inj.1 (h' value hvalue)).symm
    rw [hl', ← hlength, ← hl]

theorem trueDiff_iff_replaced (a b : HeaderMap) : TrueDiff a b ↔ ValuesReplaced a b ∧ FirstValuesTell a b := by
  unfold TrueDiff
  rw [diffHeaders_eq_noDiff]
  have hreal : (∀ c ∈ (diffHeaders a b).changed, RealChange a b c) ↔ ValuesReplaced a b := by
    constructor
    · intro h name old hold value hvalue hne
      have hchange :=
        h ⟨name.toAsciiLowercase, old, value⟩ (mem_changed.2 ⟨HeaderMap.mem_getAll.1 hvalue, ?_, hne.symm⟩)
      · unfold RealChange at hchange
        dsimp only at hchange
        rwa [getAll_toAsciiLowercase, getAll_toAsciiLowercase] at hchange
      · rw [HeaderMap.get_eq_head?, getAll_toAsciiLowercase, hold]
    · intro h c hc
      obtain ⟨hentry, hget, hne⟩ := mem_changed.1 hc
      rw [HeaderMap.get_eq_head?] at hget
      exact h c.name c.oldValue hget c.newValue (mem_getAll_of_entry hentry) hne.symm
  rw [hreal, and_comm]
  refine and_congr_right fun hreplaced => ?_
  constructor
  · intro hiff hfirst name
    have hperm := hiff.1 hfirst name
    refine ⟨hperm.length_eq, fun value hvalue => ?_⟩
    exact (hfirst name).2 value (hperm.mem_iff.1 hvalue)
  · intro htell
    refine ⟨fun hfirst name => ?_, fun hsame name => hsame.first_of_replaced hreplaced name⟩
    obtain ⟨hlength, hall⟩ := htell hfirst name
    exact perm_of_constant hlength hall (hfirst name).2

/-- No name has two values. -/
def SingleValued (h : HeaderMap) : Prop := ∀ name, (h.getAll name).length ≤ 1

theorem SingleValued.eq_singleton {h : HeaderMap} (hsingle : SingleValued h) {name value : Str}
    (hvalue : value ∈ h.getAll name) : h.getAll name = [value] := by
  have hlength := hsingle name
  have hpos := List.length_pos_of_mem hvalue
  obtain ⟨only, honly⟩ := List.length_eq_one_iff.1 (Nat.le_antisymm hlength hpos)
  rw [honly] at hvalue ⊢
  rw [List.mem_singleton.1 hvalue]

theorem trueDiff_of_singleValued (ha : SingleValued a) (hb : SingleValued b) : TrueDiff a b := by
  refine (trueDiff_iff_replaced a b).2 ⟨fun name old hold value hvalue hne => ?_, fun hfirst name => ?_⟩
  · rw [ha.eq_singleton (List.mem_of_head? hold), hb.eq_singleton hvalue]
    have hlost : List.count old [value] = 0 := List.count_eq_zero.2 (by simpa using hne.symm)
    have hnew : List.count value [old] = 0 := List.count_eq_zero.2 (by simpa using hne)
    rw [hlost, hnew, List.count_singleton_self, List.count_singleton_self]
    exact ⟨Nat.one_pos, Nat.one_pos⟩
  · obtain ⟨hnames, hvalues⟩ := hfirst name
    by_cases hnil : a.getAll name = []
    · rw [hnil, hnames.1 hnil]
      exact ⟨rfl, List.forall_mem_nil _⟩
    · obtain ⟨value, hvalue⟩ := List.exists_mem_of_ne_nil _ (mt hnames.2 hnil)
      have hold := List.mem_of_head? (hvalues value hvalue)
      rw [ha.eq_singleton hold, hb.eq_singleton hvalue]
      exact ⟨rfl, fun value' hvalue' => by rw [List.mem_singleton.1 hvalue']; rfl⟩

/-- The exact condition on two maps, which all maps meet that have one value under each of their names. -/
theorem trueDiff_iff (a b : HeaderMap) :
    (TrueDiff a b ↔ ValuesReplaced a b ∧ FirstValuesTell a b) ∧
      (SingleValued a ∧ SingleValued b → TrueDiff a b) :=
  ⟨trueDiff_iff_replaced a b, fun h => trueDiff_of_singleValued h.1 h.2⟩

/-- Two cookies, compared with themselves. -/
def twoCookies : HeaderMap := HeaderMap.fromIter [("set-cookie", "a=1"), ("set-cookie", "b=2")]

/-- The second of two cookies is reported as a change of the first. -/
theorem not_trueDiff : ¬ ∀ a b, TrueDiff a b := by
  intro h
  have hempty := (h twoCookies twoCookies).1.2 fun _ => List.Perm.refl _
  exact absurd hempty (by decide +kernel)

end Diff

end Oproxy
