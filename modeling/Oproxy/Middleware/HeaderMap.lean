import Oproxy.Lib.IndexMap
import Oproxy.Lib.Text

/-!
# Header maps (`middleware/mod.rs`)

`HeaderMap` is the ordered multimap of header fields which the middleware and the engine work on.  Names are
lower-cased on the way in, so that a map holds lower-case names only; look-ups ignore ASCII case.
-/

namespace Oproxy

structure HeaderMap where
  entries : List (Str × Str)
  lower : ∀ e ∈ entries, e.1.toAsciiLowercase = e.1
  deriving DecidableEq

namespace HeaderMap

def new : HeaderMap := ⟨[], by simp⟩

/-- First value for `key`, if any. -/
def get (h : HeaderMap) (key : Str) : Option Str :=
  (h.entries.find? fun e => e.1.eqIgnoreAsciiCase key).map Prod.snd

/-- All values for `key`, in insertion order. -/
def getAll (h : HeaderMap) (key : Str) : List Str :=
  (h.entries.filter fun e => e.1 == key.toAsciiLowercase).map Prod.snd

/-- Append a value for `key` without disturbing existing entries. -/
def append (h : HeaderMap) (key value : Str) : HeaderMap where
  entries := h.entries ++ [(key.toAsciiLowercase, value)]
  lower := by
    intro e he
    rcases List.mem_append.1 he with he | he
    · exact h.lower e he
    · simp only [List.mem_singleton] at he
      subst he
      exact Str.toAsciiLowercase_idem key

/-- Retain only the entries for which `f name value` returns true. -/
def retain (h : HeaderMap) (f : Str → Str → Bool) : HeaderMap where
  entries := h.entries.filter fun e => f e.1 e.2
  lower := fun e he => h.lower e (List.mem_of_mem_filter he)

/-- Remove all entries for `key`. -/
def remove (h : HeaderMap) (key : Str) : HeaderMap := h.retain fun n _ => !n.eqIgnoreAsciiCase key

/-- Replace every existing value for `key` with a single `value`. -/
def insert (h : HeaderMap) (key value : Str) : HeaderMap := (h.remove key.toAsciiLowercase).append key value

def containsKey (h : HeaderMap) (key : Str) : Bool := h.entries.any fun e => e.1.eqIgnoreAsciiCase key

def fromIter (es : List (Str × Str)) : HeaderMap := es.foldl (fun h e => h.append e.1 e.2) new

/-- `HashMap::from`: the last value of a field wins. -/
def toMap (h : HeaderMap) : IndexMap Str Str := h.entries.foldl (fun m e => m.insert e.1 e.2) IndexMap.empty

/-- `HeaderMap::from`. -/
def ofMap (m : IndexMap Str Str) : HeaderMap := fromIter m.entries

theorem mem_getAll {h : HeaderMap} {key value : Str} :
    value ∈ h.getAll key ↔ (key.toAsciiLowercase, value) ∈ h.entries := by
  unfold getAll
  rw [List.mem_map]
  constructor
  · rintro ⟨e, he, rfl⟩
    obtain ⟨hmem, hname⟩ := List.mem_filter.1 he
    rw [← beq_iff_eq.1 hname]
    exact hmem
  · intro hmem
    exact ⟨_, List.mem_filter.2 ⟨hmem, by simp⟩, rfl⟩

@[simp] theorem getAll_new (key : Str) : new.getAll key = [] := rfl

theorem getAll_append (h : HeaderMap) (name value key : Str) :
    (h.append name value).getAll key =
      h.getAll key ++ if name.toAsciiLowercase = key.toAsciiLowercase then [value] else [] := by
  unfold getAll append
  rw [List.filter_append, List.map_append]
  by_cases hname : name.toAsciiLowercase = key.toAsciiLowercase <;> simp [hname]

theorem getAll_retain (h : HeaderMap) (f : Str → Str → Bool) (key : Str) :
    (h.retain f).getAll key = (h.getAll key).filter (f key.toAsciiLowercase) := by
  unfold getAll retain
  rw [List.filter_filter, List.filter_map, List.filter_filter]
  congr 1
  apply List.filter_congr
  intro e _
  by_cases hname : e.1 = key.toAsciiLowercase
  · simp [hname]
  · have hbeq : (e.1 == key.toAsciiLowercase) = false := by simpa using hname
    rw [hbeq, Bool.false_and, Bool.and_false]

theorem getAll_remove (h : HeaderMap) (name key : Str) :
    (h.remove name).getAll key = if name.toAsciiLowercase = key.toAsciiLowercase then [] else h.getAll key := by
  unfold remove
  by_cases hname : name.toAsciiLowercase = key.toAsciiLowercase
  · rw [if_pos hname, getAll_retain, List.filter_eq_nil_iff]
    intro _ _
    simp [Str.eqIgnoreAsciiCase, hname]
  · rw [if_neg hname, getAll_retain, List.filter_eq_self]
    intro _ _
    simp [Str.eqIgnoreAsciiCase, Ne.symm hname]

/-- A map which is built from fields has them in their order. -/
theorem entries_fromIter (es : List (Str × Str)) :
    (fromIter es).entries = es.map fun e => (e.1.toAsciiLowercase, e.2) := by
  have hfold : ∀ (es : List (Str × Str)) (h : HeaderMap),
      (es.foldl (fun h e => h.append e.1 e.2) h).entries =
        h.entries ++ es.map fun e => (e.1.toAsciiLowercase, e.2) := by
    intro es
    induction es with
    | nil => simp
    | cons e es ih =>
      intro h
      rw [List.foldl_cons, ih]
      simp [append]
  exact hfold es new

theorem ext_entries {h h' : HeaderMap} (heq : h.entries = h'.entries) : h = h' := by
  cases h
  cases h'
  cases heq
  rfl

/-- The fields of a map are those it was built from. -/
theorem mem_fromIter {es : List (Str × Str)} {e : Str × Str} (he : e ∈ (fromIter es).entries) :
    ∃ f ∈ es, e = (f.1.toAsciiLowercase, f.2) := by
  have hfold : ∀ (es : List (Str × Str)) (h : HeaderMap), e ∈ (es.foldl (fun h e => h.append e.1 e.2) h).entries →
      e ∈ h.entries ∨ ∃ f ∈ es, e = (f.1.toAsciiLowercase, f.2) := by
    intro es
    induction es with
    | nil => exact fun h he => Or.inl he
    | cons f es ih =>
      intro h he
      rcases ih _ he with hmem | ⟨f', hf', heq⟩
      · rcases List.mem_append.1 hmem with hmem | hmem
        · exact Or.inl hmem
        · exact Or.inr ⟨f, List.mem_cons_self, List.mem_singleton.1 hmem⟩
      · exact Or.inr ⟨f', List.mem_cons_of_mem _ hf', heq⟩
  exact (hfold es new he).resolve_left List.not_mem_nil

theorem getAll_fromIter (es : List (Str × Str)) (key : Str) :
    (fromIter es).getAll key =
      (es.filter fun e => e.1.toAsciiLowercase = key.toAsciiLowercase).map Prod.snd := by
  have hfold : ∀ (es : List (Str × Str)) (h : HeaderMap), (es.foldl (fun h e => h.append e.1 e.2) h).getAll key =
      h.getAll key ++ (es.filter fun e => e.1.toAsciiLowercase = key.toAsciiLowercase).map Prod.snd := by
    intro es
    induction es with
    | nil => intro h; simp
    | cons e es ih =>
      intro h
      rw [List.foldl_cons, ih, getAll_append]
      by_cases hname : e.1.toAsciiLowercase = key.toAsciiLowercase <;> simp [hname]
  exact hfold es new

/-- A map with one value a field has no field but those it came from. -/
theorem mem_toMap {h : HeaderMap} {e : Str × Str} (he : e ∈ h.toMap.entries) : e ∈ h.entries :=
  (IndexMap.mem_insertAll he).resolve_left List.not_mem_nil

/-- A field has its first value. -/
theorem get_eq_head? (h : HeaderMap) (key : Str) : h.get key = (h.getAll key).head? := by
  have hlist : ∀ l : List (Str × Str), (∀ e ∈ l, e.1.toAsciiLowercase = e.1) →
      (l.find? fun e => e.1.eqIgnoreAsciiCase key).map Prod.snd =
        ((l.filter fun e => e.1 == key.toAsciiLowercase).map Prod.snd).head? := by
    intro l hlower
    induction l with
    | nil => rfl
    | cons e l ih =>
      have hname : e.1.eqIgnoreAsciiCase key = (e.1 == key.toAsciiLowercase) := by
        unfold Str.eqIgnoreAsciiCase
        rw [hlower e List.mem_cons_self]
      have hrest := ih fun e' he' => hlower e' (List.mem_cons_of_mem _ he')
      rw [List.find?_cons, List.filter_cons, hname]
      cases he : e.1 == key.toAsciiLowercase with
      | true => simp
      | false => simpa using hrest
  exact hlist h.entries h.lower

theorem get_eq_none {h : HeaderMap} {key : Str} : h.get key = none ↔ h.getAll key = [] := by
  rw [get_eq_head?, List.head?_eq_none_iff]

theorem containsKey_iff_getAll (h : HeaderMap) (key : Str) : h.containsKey key = true ↔ h.getAll key ≠ [] := by
  have hget : h.containsKey key = (h.get key).isSome := by
    unfold containsKey get
    rw [Option.isSome_map, Bool.eq_iff_iff, List.find?_isSome, List.any_eq_true]
  rw [hget, Option.isSome_iff_ne_none, Ne, get_eq_none]

/-- In a map with one value a field has its last one. -/
theorem getAll_ofMap_toMap (h : HeaderMap) (key : Str) :
    (ofMap h.toMap).getAll key = (h.getAll key).getLast?.toList := by
  have hlower : ∀ e ∈ h.toMap.entries, e.1.toAsciiLowercase = e.1 := fun e he => h.lower e (mem_toMap he)
  have hget : h.toMap.get? key.toAsciiLowercase = (h.getAll key).getLast? := by
    unfold toMap
    rw [IndexMap.get?_insertAll, IndexMap.get?_empty, Option.or_none]
    unfold getAll
    congr 2
    apply List.filter_congr
    intro e _
    exact (Bool.beq_eq_decide_eq e.1 key.toAsciiLowercase).symm
  unfold ofMap
  rw [getAll_fromIter, ← hget, ← IndexMap.filter_key]
  have hfilter : (h.toMap.entries.filter fun e => e.1.toAsciiLowercase = key.toAsciiLowercase) =
      h.toMap.entries.filter fun e => e.1 = key.toAsciiLowercase := by
    apply List.filter_congr
    intro e he
    rw [hlower e he]
  rw [hfilter]

private theorem getLast?_toList_eq_iff {α : Type} (values : List α) :
    values.getLast?.toList = values ↔ values.length ≤ 1 := by
  cases values with
  | nil => simp
  | cons a rest =>
    cases rest with
    | nil => simp
    | cons b rest =>
      constructor
      · intro h
        have hone : ((a :: b :: rest).getLast?.toList).length ≤ 1 := by
          cases (a :: b :: rest).getLast? <;> simp
        rwa [h] at hone
      · intro h
        simp at h

/-- The fields come back from a map exactly where each has one value. -/
theorem getAll_ofMap_toMap_eq_iff (h : HeaderMap) :
    (∀ name, (ofMap h.toMap).getAll name = h.getAll name) ↔ ∀ name, (h.getAll name).length ≤ 1 := by
  apply forall_congr'
  intro name
  rw [getAll_ofMap_toMap]
  exact getLast?_toList_eq_iff _

theorem mem_removeAll {names : List String} {h : HeaderMap} {e : Str × Str}
    (he : e ∈ (names.foldl (fun h name => h.remove name.toList) h).entries) : e ∈ h.entries := by
  induction names generalizing h with
  | nil => exact he
  | cons name names ih => exact List.mem_of_mem_filter (ih he)

/-- Removing several fields leaves the others. -/
theorem getAll_removeAll (names : List String) (h : HeaderMap) {key : Str}
    (hkey : key.toAsciiLowercase = key) (hnames : ∀ name ∈ names, Str.toAsciiLowercase name.toList = name.toList) :
    (names.foldl (fun h name => h.remove name.toList) h).getAll key =
      if key ∈ names.map String.toList then [] else h.getAll key := by
  induction names generalizing h with
  | nil => simp
  | cons name names ih =>
    have hname : Str.toAsciiLowercase name.toList = name.toList := hnames name List.mem_cons_self
    rw [List.foldl_cons, ih (h.remove name.toList) fun n hn => hnames n (List.mem_cons_of_mem _ hn), getAll_remove,
      hname, hkey]
    by_cases heq : name.toList = key
    · simp [heq]
    · simp [heq, Ne.symm heq]

theorem getAll_insert (h : HeaderMap) (name value key : Str) :
    (h.insert name value).getAll key =
      if name.toAsciiLowercase = key.toAsciiLowercase then [value] else h.getAll key := by
  unfold insert
  rw [getAll_append, getAll_remove]
  by_cases hname : name.toAsciiLowercase = key.toAsciiLowercase <;> simp [hname]

end HeaderMap

def headerValue (headers : HeaderMap) (name : Str) : Option Str := headers.get name

def setHeader (headers : HeaderMap) (name value : Str) : HeaderMap := headers.insert name value

/-- Join `value` to the first value of the field. -/
def appendHeader (headers : HeaderMap) (name value : Str) : HeaderMap :=
  let joined := match headers.get name with
    | some existing => if existing.isEmpty then value else existing ++ (", " : Str) ++ value
    | none => value
  headers.insert name joined

def removeHeader (headers : HeaderMap) (name : Str) : HeaderMap := headers.remove name

end Oproxy
