import Oproxy.Middleware.Query

/-!
# What editing a query leaves alone (`middleware/mod.rs`)

A query is read into pairs and written anew.  A pair `k=` without a value comes back as `k`, and one without a name too
comes back as nothing; all others come back as they were.
-/

namespace Oproxy

namespace Query

/-- The pairs of a URI's query, as they stand there. -/
def rawPairs (uri : Str) : List Str := (Str.split '&' (splitPathQuery uri).2).filter fun p => !p.isEmpty

def pairOf (raw : Str) : Str × Str := (Str.splitOnce '=' raw).getD (raw, [])

/-- The pairs but for the first with a name. -/
def others (name : Str) (raws : List Str) : List Str := raws.eraseP fun raw => (pairOf raw).1 = name

/-- The first value of a name. -/
def lookup (name : Str) (uri : Str) : Option Str :=
  ((parseQuery (splitPathQuery uri).2).find? fun p => p.1 = name).map Prod.snd

/-- A pair with an equals sign and no value behind it. -/
def EmptyValued (raw : Str) : Prop := ∃ key, raw = key ++ ['='] ∧ '=' ∉ key

/-! ### Printing what was read -/

def printed (p : Str × Str) : Str := if p.2.isEmpty then p.1 else p.1 ++ '=' :: p.2

/-- A name and a value as a query can have them. -/
structure Printable (p : Str × Str) : Prop where
  key_amp : '&' ∉ p.1
  key_eq : '=' ∉ p.1
  value_amp : '&' ∉ p.2

theorem pairOf_printed {p : Str × Str} (hp : Printable p) : pairOf (printed p) = p := by
  obtain ⟨key, value⟩ := p
  unfold printed pairOf
  dsimp only
  cases value with
  | nil =>
    have hkey : Str.splitOnce '=' key = none := Str.splitOnce_eq_none.2 hp.key_eq
    simp [hkey]
  | cons c value =>
    have hsplit := Str.splitOnce_append hp.key_eq (c :: value)
    simp [hsplit]

/-- Printing loses the equals sign of an empty value, and nothing else. -/
theorem printed_pairOf (raw : Str) :
    printed (pairOf raw) = raw ∨ EmptyValued raw ∧ raw = printed (pairOf raw) ++ ['='] := by
  unfold pairOf printed
  cases hsplit : Str.splitOnce '=' raw with
  | none => exact Or.inl rfl
  | some p =>
    obtain ⟨key, value⟩ := p
    obtain ⟨hraw, hkey⟩ := Str.splitOnce_eq_some.1 hsplit
    rw [Option.getD_some]
    dsimp only
    cases value with
    | nil => exact Or.inr ⟨⟨key, hraw, hkey⟩, hraw⟩
    | cons c value => exact Or.inl hraw.symm

theorem printed_pairOf_eq_iff {raw : Str} : printed (pairOf raw) = raw ↔ ¬EmptyValued raw := by
  constructor
  · rintro heq ⟨key, rfl, hkey⟩
    have hsplit := Str.splitOnce_append hkey []
    simp [pairOf, printed, hsplit] at heq
  · intro h
    exact (printed_pairOf raw).resolve_right fun hempty => h hempty.1

theorem length_printed_pairOf_le (raw : Str) : (printed (pairOf raw)).length ≤ raw.length := by
  rcases printed_pairOf raw with heq | ⟨-, heq⟩
  · rw [heq]
  · have hlength := congrArg List.length heq
    rw [List.length_append] at hlength
    omega

theorem eq_of_length_printed {raw : Str} (h : (printed (pairOf raw)).length = raw.length) :
    printed (pairOf raw) = raw := by
  rcases printed_pairOf raw with heq | ⟨-, heq⟩
  · exact heq
  · have hlength := congrArg List.length heq
    rw [List.length_append, List.length_singleton] at hlength
    omega

/-- The text of a pair that is there at all; its parts can be printed. -/
theorem printable_of_mem {uri raw : Str} (h : raw ∈ rawPairs uri) : Printable (pairOf raw) := by
  have hamp : '&' ∉ raw := Str.not_mem_of_mem_split (List.mem_of_mem_filter h)
  unfold pairOf
  cases hsplit : Str.splitOnce '=' raw with
  | none => exact ⟨hamp, Str.splitOnce_eq_none.1 hsplit, List.not_mem_nil⟩
  | some p =>
    obtain ⟨hraw, hkey⟩ := Str.splitOnce_eq_some.1 hsplit
    rw [hraw, List.mem_append, List.mem_cons, not_or, not_or] at hamp
    exact ⟨hamp.1, hkey, hamp.2.2⟩

theorem parseQuery_eq (uri : Str) : parseQuery (splitPathQuery uri).2 = (rawPairs uri).map pairOf := by
  unfold parseQuery rawPairs
  split
  · rename_i hempty
    rw [List.isEmpty_iff.1 hempty]
    rfl
  · rfl

theorem path_of_splitPathQuery (uri : Str) : '?' ∉ (splitPathQuery uri).1 := by
  unfold splitPathQuery
  cases hsplit : Str.splitOnce '?' uri with
  | none => exact Str.splitOnce_eq_none.1 hsplit
  | some p => exact (Str.splitOnce_eq_some.1 hsplit).2

/-- What is read of a URI with some pairs. -/
theorem splitPathQuery_withPairs {path : Str} (hpath : '?' ∉ path) (pairs : List (Str × Str)) :
    splitPathQuery (withPairs path pairs) = (path, buildQuery pairs) := by
  unfold withPairs splitPathQuery
  split
  · rename_i hempty
    rw [Str.splitOnce_eq_none.2 hpath, Option.getD_none, List.isEmpty_iff.1 hempty]
  · rw [Str.splitOnce_append hpath, Option.getD_some]

theorem rawPairs_withPairs {path : Str} (hpath : '?' ∉ path) {pairs : List (Str × Str)}
    (hpairs : ∀ p ∈ pairs, Printable p) :
    rawPairs (withPairs path pairs) = (pairs.map printed).filter fun raw => !raw.isEmpty := by
  unfold rawPairs
  rw [splitPathQuery_withPairs hpath]
  have hbuild : buildQuery pairs = List.intercalate ['&'] (pairs.map printed) := rfl
  cases pairs with
  | nil => rfl
  | cons p rest =>
    have hamp : ∀ raw ∈ (p :: rest).map printed, '&' ∉ raw := by
      intro raw hraw
      obtain ⟨q, hq, rfl⟩ := List.mem_map.1 hraw
      obtain ⟨hkey, -, hvalue⟩ := hpairs q hq
      unfold printed
      split
      · exact hkey
      · simp [hkey, hvalue]
    rw [hbuild]
    unfold Str.split
    rw [List.splitOn_intercalate _ hamp (by simp)]

/-! ### Reading what was printed -/

def shown (raw : Str) : Bool := !raw.isEmpty

theorem map_pairOf_printed {pairs : List (Str × Str)} (hpairs : ∀ p ∈ pairs, Printable p) :
    ((pairs.map printed).filter shown).map pairOf = pairs.filter fun p => shown (printed p) := by
  rw [List.filter_map, List.map_map]
  have hid : ∀ p ∈ pairs.filter (shown ∘ printed), (pairOf ∘ printed) p = p :=
    fun p hp => pairOf_printed (hpairs p (List.mem_of_mem_filter hp))
  rw [List.map_congr_left hid, List.map_id']
  rfl

theorem sum_length_shown (raws : List Str) :
    ((raws.filter shown).map List.length).sum = (raws.map List.length).sum := by
  induction raws with
  | nil => rfl
  | cons raw raws ih =>
    cases raw with
    | nil => simpa [shown] using ih
    | cons c raw => simpa [shown] using ih

theorem eq_of_sum_length {raws : List Str}
    (h : (raws.map fun raw => (printed (pairOf raw)).length).sum = (raws.map List.length).sum) :
    ∀ raw ∈ raws, printed (pairOf raw) = raw := by
  have hle : ∀ raws : List Str,
      (raws.map fun raw => (printed (pairOf raw)).length).sum ≤ (raws.map List.length).sum := by
    intro raws
    induction raws with
    | nil => exact Nat.le_refl _
    | cons raw raws ih =>
      have hraw := length_printed_pairOf_le raw
      simp only [List.map_cons, List.sum_cons]
      omega
  induction raws with
  | nil => simp
  | cons raw raws ih =>
    have hraw := length_printed_pairOf_le raw
    have hraws := hle raws
    simp only [List.map_cons, List.sum_cons] at h
    rw [List.forall_mem_cons]
    exact ⟨eq_of_length_printed (by omega), ih (by omega)⟩

/-- Pairs come back as they were where none has an empty value. -/
theorem shown_printed_eq_iff {raws : List Str} (hshown : ∀ raw ∈ raws, shown raw = true) :
    (raws.map fun raw => printed (pairOf raw)).filter shown = raws ↔ ∀ raw ∈ raws, ¬EmptyValued raw := by
  simp only [← printed_pairOf_eq_iff]
  constructor
  · intro heq
    refine eq_of_sum_length ?_
    have hsum := sum_length_shown (raws.map fun raw => printed (pairOf raw))
    rw [heq, List.map_map] at hsum
    exact hsum.symm
  · intro h
    have hmap : raws.map (fun raw => printed (pairOf raw)) = raws := by
      rw [List.map_congr_left h, List.map_id']
    rw [hmap, List.filter_eq_self]
    exact hshown

/-! ### Writing one pair -/

section

variable {name value : Str}

theorem printable_setPair (hname : '&' ∉ name ∧ '=' ∉ name) (hvalue : '&' ∉ value) {pairs : List (Str × Str)}
    (hpairs : ∀ p ∈ pairs, Printable p) : ∀ p ∈ setPair name value pairs, Printable p := by
  induction pairs with
  | nil =>
    intro p hp
    rw [setPair, List.mem_singleton] at hp
    rw [hp]
    exact ⟨hname.1, hname.2, hvalue⟩
  | cons q pairs ih =>
    obtain ⟨hq, hpairs⟩ := List.forall_mem_cons.1 hpairs
    unfold setPair
    split
    · exact List.forall_mem_cons.2 ⟨⟨hq.key_amp, hq.key_eq, hvalue⟩, hpairs⟩
    · exact List.forall_mem_cons.2 ⟨hq, ih hpairs⟩

theorem setPair_setPair (pairs : List (Str × Str)) :
    setPair name value (setPair name value pairs) = setPair name value pairs := by
  induction pairs with
  | nil => simp [setPair]
  | cons p pairs ih =>
    by_cases hp : p.1 = name
    · simp [setPair, hp]
    · simp [setPair, hp, ih]

theorem find?_setPair (hwritten : shown (printed (name, value)) = true) (pairs : List (Str × Str)) :
    ((setPair name value pairs).filter fun p => shown (printed p)).find? (fun p => p.1 = name) =
      some (name, value) := by
  induction pairs with
  | nil => simp [setPair, hwritten]
  | cons p pairs ih =>
    by_cases hp : p.1 = name
    · simp [setPair, hp, hwritten]
    · unfold setPair
      rw [if_neg hp, List.filter_cons]
      split
      · rw [List.find?_cons, decide_eq_false hp]
        exact ih
      · exact ih

theorem mem_setPair {raws : List Str} {p : Str × Str} (h : p ∈ setPair name value (raws.map pairOf)) :
    p = (name, value) ∨ ∃ raw ∈ others name raws, p = pairOf raw := by
  induction raws with
  | nil => exact Or.inl (List.mem_singleton.1 h)
  | cons raw raws ih =>
    unfold others
    rw [List.map_cons] at h
    unfold setPair at h
    by_cases hraw : (pairOf raw).1 = name
    · rw [if_pos hraw, List.mem_cons, List.mem_map] at h
      rw [List.eraseP_cons_of_pos (by simpa using hraw)]
      rcases h with rfl | ⟨raw', hraw', rfl⟩
      · exact Or.inl (by rw [hraw])
      · exact Or.inr ⟨raw', hraw', rfl⟩
    · rw [if_neg hraw, List.mem_cons] at h
      rw [List.eraseP_cons_of_neg (by simpa using hraw)]
      rcases h with rfl | h
      · exact Or.inr ⟨raw, List.mem_cons_self, rfl⟩
      · exact (ih h).imp_right fun ⟨raw', hmem, heq⟩ => ⟨raw', List.mem_cons_of_mem _ hmem, heq⟩

/-- Beside the pair which is written stand the others, printed anew. -/
theorem others_setPair (hwritten : shown (printed (name, value)) = true) (hprintable : Printable (name, value))
    {raws : List Str} (hraws : ∀ raw ∈ raws, Printable (pairOf raw)) :
    others name (((setPair name value (raws.map pairOf)).map printed).filter shown) =
      ((others name raws).map fun raw => printed (pairOf raw)).filter shown := by
  have hkey : (pairOf (printed (name, value))).1 = name := by rw [pairOf_printed hprintable]
  induction raws with
  | nil => simp [setPair, hwritten, others, hkey]
  | cons raw raws ih =>
    obtain ⟨hraw, hraws⟩ := List.forall_mem_cons.1 hraws
    have ih := ih hraws
    unfold others at ih ⊢
    rw [List.map_cons]
    unfold setPair
    by_cases hname : (pairOf raw).1 = name
    · rw [if_pos hname, hname, List.map_cons, List.filter_cons_of_pos hwritten,
        List.eraseP_cons_of_pos (by simpa using hkey), List.eraseP_cons_of_pos (by simpa using hname), List.map_map]
      rfl
    · rw [if_neg hname, List.eraseP_cons_of_neg (by simpa using hname), List.map_cons, List.map_cons]
      by_cases hshown : shown (printed (pairOf raw)) = true
      · have hother : (pairOf (printed (pairOf raw))).1 ≠ name := by
          rw [pairOf_printed hraw]
          exact hname
        rw [List.filter_cons_of_pos hshown, List.filter_cons_of_pos hshown,
          List.eraseP_cons_of_neg (by simpa using hother), ih]
      · rw [List.filter_cons_of_neg hshown, List.filter_cons_of_neg hshown, ih]

end

/-! ### What the two edits do -/

/-- A text which is taken as a name or a value. -/
def Clean (s : Str) : Prop := '&' ∉ s ∧ '=' ∉ s ∧ '?' ∉ s ∧ '#' ∉ s

/-- Setting a parameter writes it, and leaves the path and all other pairs alone. -/
structure SetsOnly (uri name value : Str) : Prop where
  path : (splitPathQuery (setQueryParam uri name value)).1 = (splitPathQuery uri).1
  written : lookup name (setQueryParam uri name value) = some value
  others : others name (rawPairs (setQueryParam uri name value)) = others name (rawPairs uri)
  again : setQueryParam (setQueryParam uri name value) name value = setQueryParam uri name value

/-- Removing a parameter removes all its pairs, and leaves the path and the other pairs alone. -/
structure RemovesOnly (uri name : Str) : Prop where
  path : (splitPathQuery (removeQueryParam uri name)).1 = (splitPathQuery uri).1
  removed : ∀ raw ∈ rawPairs (removeQueryParam uri name), (pairOf raw).1 ≠ name
  others : rawPairs (removeQueryParam uri name) = (rawPairs uri).filter fun raw => (pairOf raw).1 ≠ name
  again : removeQueryParam (removeQueryParam uri name) name = removeQueryParam uri name

section

variable (uri name value : Str)

theorem setQueryParam_eq : setQueryParam uri name value =
    withPairs (splitPathQuery uri).1 (setPair name value ((rawPairs uri).map pairOf)) := by
  unfold setQueryParam
  rw [← parseQuery_eq]

theorem removeQueryParam_eq : removeQueryParam uri name =
    withPairs (splitPathQuery uri).1 (((rawPairs uri).filter fun raw => (pairOf raw).1 ≠ name).map pairOf) := by
  unfold removeQueryParam
  dsimp only
  rw [parseQuery_eq, List.filter_map]
  rfl

end

variable {uri name value : Str}

theorem shown_of_mem {raw : Str} (h : raw ∈ rawPairs uri) : shown raw = true := (List.mem_filter.1 h).2

theorem mem_of_mem_others {raws : List Str} {raw : Str} (h : raw ∈ others name raws) : raw ∈ raws :=
  List.mem_of_mem_eraseP h

theorem setsOnly_iff (hname : Clean name) (hvalue : Clean value) : SetsOnly uri name value ↔
    (name ≠ [] ∨ value ≠ []) ∧ ∀ raw ∈ others name (rawPairs uri), ¬EmptyValued raw := by
  have hprintable : ∀ p ∈ setPair name value ((rawPairs uri).map pairOf), Printable p := by
    refine printable_setPair ⟨hname.1, hname.2.1⟩ hvalue.1 fun p hp => ?_
    obtain ⟨raw, hraw, rfl⟩ := List.mem_map.1 hp
    exact printable_of_mem hraw
  have hpath := path_of_splitPathQuery uri
  have hraws : rawPairs (setQueryParam uri name value) =
      ((setPair name value ((rawPairs uri).map pairOf)).map printed).filter shown := by
    rw [setQueryParam_eq]
    exact rawPairs_withPairs hpath hprintable
  have hlookup : lookup name (setQueryParam uri name value) =
      (((setPair name value ((rawPairs uri).map pairOf)).filter fun p => shown (printed p)).find?
        fun p => p.1 = name).map Prod.snd := by
    unfold lookup
    rw [parseQuery_eq, hraws, map_pairOf_printed hprintable]
  by_cases hwritten : shown (printed (name, value)) = true
  · -- the pair is written, so only the others can be lost, by having no value
    have hnonempty : name ≠ [] ∨ value ≠ [] := by
      by_contra hnot
      push Not at hnot
      rw [hnot.1, hnot.2] at hwritten
      cases hwritten
    have hothers : others name (rawPairs (setQueryParam uri name value)) = others name (rawPairs uri) ↔
        ∀ raw ∈ others name (rawPairs uri), ¬EmptyValued raw := by
      rw [hraws, others_setPair hwritten ⟨hname.1, hname.2.1, hvalue.1⟩ fun raw => printable_of_mem]
      exact shown_printed_eq_iff fun raw hraw => shown_of_mem (mem_of_mem_others hraw)
    rw [← hothers]
    refine ⟨fun h => ⟨hnonempty, h.others⟩, fun h => ⟨?_, ?_, h.2, ?_⟩⟩
    · rw [setQueryParam_eq, splitPathQuery_withPairs hpath]
    · rw [hlookup, find?_setPair hwritten]
      rfl
    · -- every pair is shown, so that all are read again
      have hshown : (setPair name value ((rawPairs uri).map pairOf)).filter (fun p => shown (printed p)) =
          setPair name value ((rawPairs uri).map pairOf) := by
        rw [List.filter_eq_self]
        intro p hp
        rcases mem_setPair hp with rfl | ⟨raw, hraw, rfl⟩
        · exact hwritten
        · rw [printed_pairOf_eq_iff.2 (hothers.1 h.2 raw hraw)]
          exact shown_of_mem (mem_of_mem_others hraw)
      rw [setQueryParam_eq (setQueryParam uri name value), hraws, map_pairOf_printed hprintable, hshown,
        setPair_setPair, setQueryParam_eq uri, splitPathQuery_withPairs hpath]
  · -- an empty name with an empty value is not written at all
    have hempty : name = [] ∧ value = [] := by
      unfold shown printed at hwritten
      cases value with
      | nil => simpa using hwritten
      | cons c value => simp at hwritten
    constructor
    · intro h
      obtain ⟨rfl, rfl⟩ := hempty
      have hsome := hlookup.symm.trans h.written
      obtain ⟨p, hfind, hp⟩ := Option.map_eq_some_iff.1 hsome
      have hkey := List.find?_some hfind
      rw [decide_eq_true_iff] at hkey
      have hshown := (List.mem_filter.1 (List.mem_of_find?_eq_some hfind)).2
      obtain ⟨key, v⟩ := p
      obtain rfl : key = [] := hkey
      obtain rfl : v = [] := hp
      cases hshown
    · rintro ⟨hnonempty, -⟩
      exact absurd hempty (fun h => hnonempty.elim (fun hne => hne h.1) fun hne => hne h.2)

theorem removesOnly_of (h : ∀ raw ∈ rawPairs uri, (pairOf raw).1 ≠ name → ¬EmptyValued raw) :
    RemovesOnly uri name := by
  have hpath := path_of_splitPathQuery uri
  have hkept : ∀ raw ∈ (rawPairs uri).filter fun raw => (pairOf raw).1 ≠ name, ¬EmptyValued raw := by
    intro raw hraw
    obtain ⟨hmem, hkey⟩ := List.mem_filter.1 hraw
    exact h raw hmem (of_decide_eq_true hkey)
  have hprintable : ∀ p ∈ ((rawPairs uri).filter fun raw => (pairOf raw).1 ≠ name).map pairOf, Printable p := by
    intro p hp
    obtain ⟨raw, hraw, rfl⟩ := List.mem_map.1 hp
    exact printable_of_mem (List.mem_of_mem_filter hraw)
  have hraws : rawPairs (removeQueryParam uri name) = (rawPairs uri).filter fun raw => (pairOf raw).1 ≠ name := by
    rw [removeQueryParam_eq]
    refine (rawPairs_withPairs hpath hprintable).trans ?_
    rw [List.map_map]
    exact (shown_printed_eq_iff fun raw hraw => shown_of_mem (List.mem_of_mem_filter hraw)).2 hkept
  refine ⟨?_, fun raw hraw => ?_, hraws, ?_⟩
  · rw [removeQueryParam_eq, splitPathQuery_withPairs hpath]
  · rw [hraws] at hraw
    exact of_decide_eq_true (List.mem_filter.1 hraw).2
  · rw [removeQueryParam_eq (removeQueryParam uri name), hraws, List.filter_filter]
    simp only [Bool.and_self]
    rw [removeQueryParam_eq uri, splitPathQuery_withPairs hpath]

theorem mem_others_of_key {raws : List Str} {raw : Str} (hmem : raw ∈ raws) (hkey : (pairOf raw).1 ≠ name) :
    raw ∈ others name raws := (List.mem_eraseP_of_neg (by simpa using hkey)).2 hmem

/-- The exact condition on a URI and a parameter. -/
theorem edits_only_iff (uri : Str) {name value : Str} (hname : Clean name) (hvalue : Clean value) :
    SetsOnly uri name value ∧ RemovesOnly uri name ↔
      (name ≠ [] ∨ value ≠ []) ∧ ∀ raw ∈ others name (rawPairs uri), ¬EmptyValued raw := by
  rw [setsOnly_iff hname hvalue]
  refine and_iff_left_of_imp fun h => removesOnly_of fun raw hraw hkey => ?_
  exact h.2 raw (mem_others_of_key hraw hkey)

/-- A pair without a value beside those which are edited. -/
theorem edits_only_flag : Clean "b" ∧ SetsOnly "/p?a=1&flag&b=2" "b" "9" ∧ RemovesOnly "/p?a=1&flag&b=2" "b" := by
  have hclean : ∀ s : Str, s = "b" ∨ s = "9" → Clean s := by
    rintro s (rfl | rfl) <;> exact ⟨by decide, by decide, by decide, by decide⟩
  refine ⟨hclean _ (Or.inl rfl), (edits_only_iff "/p?a=1&flag&b=2" (hclean "b" (Or.inl rfl))
    (hclean "9" (Or.inr rfl))).2 ⟨Or.inl (by decide), ?_⟩⟩
  have hothers : others "b" (rawPairs "/p?a=1&flag&b=2") = [("a=1" : Str), "flag"] := by decide +kernel
  rw [hothers]
  intro raw hraw hempty
  have hprinted := mt printed_pairOf_eq_iff.1 (not_not_intro hempty)
  simp only [List.mem_cons, List.not_mem_nil, or_false] at hraw
  rcases hraw with rfl | rfl
  · exact hprinted (by decide +kernel)
  · exact hprinted (by decide +kernel)

/-- An empty value beside the parameter loses its equals sign. -/
theorem not_edits_only : ¬ ∀ uri name value, Clean name → Clean value →
    SetsOnly uri name value ∧ RemovesOnly uri name := by
  intro h
  have hothers := (h "/p?flag=&b=2" "b" "9" ⟨by decide, by decide, by decide, by decide⟩
    ⟨by decide, by decide, by decide, by decide⟩).1.others
  exact absurd hothers (by decide +kernel)

end Query

end Oproxy
