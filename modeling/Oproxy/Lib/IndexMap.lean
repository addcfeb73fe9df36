import Mathlib.Data.List.Nodup
import Mathlib.Algebra.BigOperators.Group.List.Basic
import Mathlib.Algebra.GroupWithZero.Nat

/-!
# Insertion-ordered maps

A finite map which remembers the order in which its keys were first inserted: writing to a present key keeps the
key's position, a new key goes to the end, and the oldest entry can be removed from the front.  For a weight of
the values, `IndexMap.total` is the sum over the map, and every operation comes with the equation that says how it
changes the total.
-/

/-- A map with ordered entries and distinct keys. -/
structure IndexMap (K V : Type) where
  entries : List (K × V)
  nodup : (entries.map Prod.fst).Nodup

namespace IndexMap

variable {K V σ : Type}

def empty : IndexMap K V := ⟨[], List.nodup_nil⟩

def len (m : IndexMap K V) : Nat := m.entries.length

def keys (m : IndexMap K V) : List K := m.entries.map Prod.fst

def values (m : IndexMap K V) : List V := m.entries.map Prod.snd

/-- The sum of the weights of the values. -/
def total (w : V → Nat) (m : IndexMap K V) : Nat := (m.values.map w).sum

private theorem total_eq (w : V → Nat) (m : IndexMap K V) : m.total w = (m.entries.map fun e => w e.2).sum := by
  simp [total, values, List.map_map, Function.comp_def]

private theorem map_keys (g : K × V → V) (l : List (K × V)) :
    (l.map fun e => (e.1, g e)).map Prod.fst = l.map Prod.fst := by
  simp [List.map_map, Function.comp_def]

/-! ### Access by key -/

section Keyed

variable [DecidableEq K]

private def find (k : K) : List (K × V) → Option V
  | [] => none
  | (k', v) :: rest => if k' = k then some v else find k rest

def get? (m : IndexMap K V) (k : K) : Option V := find k m.entries

@[simp] theorem get?_empty (k : K) : (empty : IndexMap K V).get? k = none := rfl

def contains (m : IndexMap K V) (k : K) : Bool := (m.get? k).isSome

/-- The weight of the value at `k`; `0` when the key is absent. -/
def weightAt (w : V → Nat) (m : IndexMap K V) (k : K) : Nat := ((m.get? k).map w).getD 0

private def put (k : K) (v : V) : List (K × V) → List (K × V)
  | [] => [(k, v)]
  | (k', v') :: rest => if k' = k then (k, v) :: rest else (k', v') :: put k v rest

private theorem find_eq_none {k : K} {l : List (K × V)} : find k l = none ↔ k ∉ l.map Prod.fst := by
  induction l with
  | nil => simp [find]
  | cons e l ih =>
    obtain ⟨k', v⟩ := e
    by_cases h : k' = k
    · simp [find, h]
    · simp [find, h, ih, Ne.symm h]

private theorem put_keys (k : K) (v : V) (l : List (K × V)) :
    (put k v l).map Prod.fst = if k ∈ l.map Prod.fst then l.map Prod.fst else l.map Prod.fst ++ [k] := by
  induction l with
  | nil => simp [put]
  | cons e l ih =>
    obtain ⟨k', v'⟩ := e
    by_cases h : k' = k
    · simp [put, h]
    · simp only [put, h, if_false, List.map_cons, ih, List.mem_cons, Ne.symm h, false_or]
      split <;> rfl

private theorem put_nodup {k : K} {v : V} {l : List (K × V)} (h : (l.map Prod.fst).Nodup) :
    ((put k v l).map Prod.fst).Nodup := by
  rw [put_keys]
  split
  · exact h
  · rename_i hk
    exact List.nodup_append.2 ⟨h, by simp, by rintro a ha b hb rfl; simp at hb; exact hk (hb ▸ ha)⟩

/-- Write `v` at `k`: in place when the key is present, at the end otherwise. -/
def insert (m : IndexMap K V) (k : K) (v : V) : IndexMap K V := ⟨put k v m.entries, put_nodup m.nodup⟩

/-- Apply `f` to the value at `k`, if there is one. -/
def modify (m : IndexMap K V) (k : K) (f : V → V) : IndexMap K V where
  entries := m.entries.map fun e => (e.1, if e.1 = k then f e.2 else e.2)
  nodup := by rw [map_keys fun e => if e.1 = k then f e.2 else e.2]; exact m.nodup

theorem contains_iff {m : IndexMap K V} {k : K} : m.contains k = true ↔ k ∈ m.keys := by
  have := find_eq_none (k := k) (l := m.entries)
  unfold contains get? keys
  cases h : find k m.entries with
  | none => simpa using this.1 h
  | some v =>
    rw [h] at this
    simp only [reduceCtorEq, false_iff, not_not] at this
    simpa using this

theorem get?_eq_none {m : IndexMap K V} {k : K} : m.get? k = none ↔ m.contains k = false := by
  simp [contains]

private theorem mem_of_find {k : K} {v : V} {l : List (K × V)} (h : find k l = some v) : (k, v) ∈ l := by
  induction l with
  | nil => cases h
  | cons e l ih =>
    unfold find at h
    by_cases hk : e.1 = k
    · rw [if_pos hk] at h
      cases h
      rw [← hk]
      exact List.mem_cons_self
    · rw [if_neg hk] at h
      exact List.mem_cons_of_mem _ (ih h)

theorem mem_of_get? {m : IndexMap K V} {k : K} {v : V} (h : m.get? k = some v) : (k, v) ∈ m.entries := mem_of_find h

private theorem mem_put {k : K} {v : V} {l : List (K × V)} {e : K × V} (h : e ∈ put k v l) : e = (k, v) ∨ e ∈ l := by
  induction l with
  | nil => exact Or.inl (List.mem_singleton.1 h)
  | cons e' l ih =>
    unfold put at h
    by_cases hk : e'.1 = k
    · rw [if_pos hk, List.mem_cons] at h
      exact h.imp id (List.mem_cons_of_mem _)
    · rw [if_neg hk, List.mem_cons] at h
      rcases h with rfl | h
      · exact Or.inr List.mem_cons_self
      · exact (ih h).imp id (List.mem_cons_of_mem _)

/-- A write adds nothing but what is written. -/
theorem mem_insert {m : IndexMap K V} {k : K} {v : V} {e : K × V} (h : e ∈ (m.insert k v).entries) :
    e = (k, v) ∨ e ∈ m.entries := mem_put h

/-- Nothing but what is written comes into a map which is written entry by entry. -/
theorem mem_insertAll {es : List (K × V)} {m : IndexMap K V} {e : K × V}
    (h : e ∈ (es.foldl (fun m e => m.insert e.1 e.2) m).entries) : e ∈ m.entries ∨ e ∈ es := by
  induction es generalizing m with
  | nil => exact Or.inl h
  | cons e' es ih =>
    rcases ih h with h | h
    · rcases mem_insert h with h | h
      · rw [h]
        exact Or.inr List.mem_cons_self
      · exact Or.inl h
    · exact Or.inr (List.mem_cons_of_mem _ h)

private theorem find_put (k k' : K) (v : V) (l : List (K × V)) :
    find k' (put k v l) = if k = k' then some v else find k' l := by
  induction l with
  | nil => simp [put, find]
  | cons e l ih =>
    obtain ⟨key, value⟩ := e
    by_cases hk : key = k
    · subst hk
      by_cases hk' : key = k' <;> simp [put, find, hk']
    · by_cases hk' : key = k'
      · subst hk'
        simp [put, find, hk, Ne.symm hk]
      · simp [put, find, hk, hk', ih]

/-- What is written at a key is read there. -/
theorem get?_insert (m : IndexMap K V) (k k' : K) (v : V) :
    (m.insert k v).get? k' = if k = k' then some v else m.get? k' := find_put k k' v m.entries

/-- Of what is written entry by entry, the last value of a key is read. -/
theorem get?_insertAll (es : List (K × V)) (m : IndexMap K V) (k : K) :
    (es.foldl (fun m e => m.insert e.1 e.2) m).get? k =
      (((es.filter fun e => e.1 = k).map Prod.snd).getLast?).or (m.get? k) := by
  induction es generalizing m with
  | nil => rfl
  | cons e es ih =>
    rw [List.foldl_cons, ih, get?_insert]
    by_cases hk : e.1 = k
    · cases hrest : (es.filter fun e => e.1 = k).map Prod.snd with
      | nil => simp [hk, hrest]
      | cons v rest =>
        obtain ⟨w, hw⟩ : ∃ w, (v :: rest).getLast? = some w := by
          rw [List.getLast?_eq_some_getLast (List.cons_ne_nil v rest)]
          exact ⟨_, rfl⟩
        simp [hk, hrest, hw]
    · simp [hk]

/-- A key has one entry at most. -/
theorem filter_key (m : IndexMap K V) (k : K) :
    (m.entries.filter fun e => e.1 = k).map Prod.snd = (m.get? k).toList := by
  have hlist : ∀ l : List (K × V), (l.map Prod.fst).Nodup →
      (l.filter fun e => e.1 = k).map Prod.snd = (find k l).toList := by
    intro l hnodup
    induction l with
    | nil => rfl
    | cons e l ih =>
      obtain ⟨key, value⟩ := e
      rw [List.map_cons, List.nodup_cons] at hnodup
      by_cases hk : key = k
      · have hnone : l.filter (fun e => e.1 = k) = [] := by
          rw [List.filter_eq_nil_iff]
          intro e he hkey
          have hkey : e.1 = k := by simpa using hkey
          exact hnodup.1 (List.mem_map.2 ⟨e, he, by rw [hkey, hk]⟩)
        simp [find, hk, hnone]
      · simp [find, hk, ih hnodup.2]
  exact hlist m.entries m.nodup

theorem get?_of_mem {m : IndexMap K V} {k : K} {v : V} (h : (k, v) ∈ m.entries) : m.get? k = some v := by
  have hvalue : v ∈ (m.entries.filter fun e => e.1 = k).map Prod.snd :=
    List.mem_map.2 ⟨(k, v), List.mem_filter.2 ⟨h, by simp⟩, rfl⟩
  rw [filter_key, Option.mem_toList] at hvalue
  exact hvalue

private theorem put_of_find {k : K} {v : V} {l : List (K × V)} (h : find k l = some v) : put k v l = l := by
  induction l with
  | nil => cases h
  | cons e l ih =>
    unfold find at h
    unfold put
    split
    · rename_i hk
      rw [if_pos hk] at h
      cases h
      rw [← hk]
    · rename_i hk
      rw [if_neg hk] at h
      rw [ih h]

/-- Writing what is there changes nothing. -/
theorem insert_of_get? {m : IndexMap K V} {k : K} {v : V} (h : m.get? k = some v) : m.insert k v = m := by
  obtain ⟨entries, nodup⟩ := m
  have hput : put k v entries = entries := put_of_find h
  unfold insert
  simp only [hput]

theorem insertAll_of_mem {es : List (K × V)} {m : IndexMap K V} (h : ∀ e ∈ es, e ∈ m.entries) :
    es.foldl (fun m e => m.insert e.1 e.2) m = m := by
  induction es with
  | nil => rfl
  | cons e es ih =>
    rw [List.forall_mem_cons] at h
    rw [List.foldl_cons, insert_of_get? (get?_of_mem h.1)]
    exact ih h.2

theorem len_insert (m : IndexMap K V) (k : K) (v : V) :
    (m.insert k v).len = if m.contains k then m.len else m.len + 1 := by
  have h := congrArg List.length (put_keys k v m.entries)
  rw [List.length_map] at h
  simp only [len, insert, h, contains_iff, keys]
  split <;> simp

theorem len_modify (m : IndexMap K V) (k : K) (f : V → V) : (m.modify k f).len = m.len := by
  simp [len, modify]

private theorem find_map (g : K → V → V) (k : K) (l : List (K × V)) :
    find k (l.map fun e => (e.1, g e.1 e.2)) = (find k l).map (g k) := by
  induction l with
  | nil => rfl
  | cons e l ih =>
    obtain ⟨key, value⟩ := e
    by_cases hk : key = k
    · simp [find, hk]
    · simp [find, hk, ih]

/-- A change at one key is read there, and nowhere else. -/
theorem get?_modify (m : IndexMap K V) (k k' : K) (f : V → V) :
    (m.modify k f).get? k' = (m.get? k').map fun v => if k' = k then f v else v :=
  find_map (fun key v => if key = k then f v else v) k' m.entries

private theorem put_sum (w : V → Nat) (k : K) (v : V) (l : List (K × V)) :
    ((put k v l).map fun e => w e.2).sum + ((find k l).map w).getD 0 = (l.map fun e => w e.2).sum + w v := by
  induction l with
  | nil => simp [put, find]
  | cons e l ih =>
    obtain ⟨k', v'⟩ := e
    by_cases h : k' = k
    · simp [put, find, h]; omega
    · simp only [put, find, h, if_false, List.map_cons, List.sum_cons]; omega

/-- Writing a value replaces the weight that was at the key. -/
theorem total_insert (w : V → Nat) (m : IndexMap K V) (k : K) (v : V) :
    (m.insert k v).total w + m.weightAt w k = m.total w + w v := by
  rw [total_eq, total_eq]
  exact put_sum w k v m.entries

private theorem modify_sum_of_not_mem (w : V → Nat) (f : V → V) {k : K} {l : List (K × V)}
    (h : k ∉ l.map Prod.fst) :
    (l.map fun e => w (if e.1 = k then f e.2 else e.2)).sum = (l.map fun e => w e.2).sum := by
  congr 1
  refine List.map_congr_left fun e he => ?_
  rw [if_neg]
  rintro rfl
  exact h (List.mem_map_of_mem he)

private theorem modify_sum (w : V → Nat) (f : V → V) {k : K} {v : V} {l : List (K × V)}
    (hl : (l.map Prod.fst).Nodup) (h : find k l = some v) :
    (l.map fun e => w (if e.1 = k then f e.2 else e.2)).sum + w v = (l.map fun e => w e.2).sum + w (f v) := by
  induction l with
  | nil => simp [find] at h
  | cons e l ih =>
    obtain ⟨k', v'⟩ := e
    rw [List.map_cons, List.nodup_cons] at hl
    by_cases hk : k' = k
    · subst hk
      simp only [find, if_true, Option.some.injEq] at h
      subst h
      simp only [List.map_cons, List.sum_cons, if_true]
      rw [modify_sum_of_not_mem w f hl.1]; omega
    · simp only [find, hk, if_false] at h
      have := ih hl.2 h
      simp only [List.map_cons, List.sum_cons, hk, if_false]; omega

/-- Changing the value at a present key exchanges its weight. -/
theorem total_modify (w : V → Nat) {m : IndexMap K V} {k : K} {v : V} (f : V → V) (h : m.get? k = some v) :
    (m.modify k f).total w + w v = m.total w + w (f v) := by
  rw [total_eq, total_eq]
  simpa [modify, List.map_map, Function.comp_def] using modify_sum w f m.nodup h

/-- A change which keeps every weight keeps the total. -/
theorem total_modify_of_eq (w : V → Nat) (m : IndexMap K V) (k : K) {f : V → V} (h : ∀ v, w (f v) = w v) :
    (m.modify k f).total w = m.total w := by
  rw [total_eq, total_eq]
  simp only [modify, List.map_map]
  congr 1
  refine List.map_congr_left fun e _ => ?_
  simp only [Function.comp]
  split
  · exact h e.2
  · rfl

end Keyed

/-! ### The oldest entry -/

/-- Remove the entry inserted first. -/
def shiftRemoveFirst (m : IndexMap K V) : Option (K × V) × IndexMap K V :=
  match m with
  | ⟨[], h⟩ => (none, ⟨[], h⟩)
  | ⟨e :: rest, h⟩ => (some e, ⟨rest, (List.nodup_cons.1 h).2⟩)

theorem shiftRemoveFirst_of_pos {m : IndexMap K V} (h : 0 < m.len) :
    ∃ e, m.shiftRemoveFirst.1 = some e ∧ m.shiftRemoveFirst.2.len + 1 = m.len ∧
      (∀ w : V → Nat, m.shiftRemoveFirst.2.total w + w e.2 = m.total w) ∧
      m.keys = e.1 :: m.shiftRemoveFirst.2.keys := by
  match m with
  | ⟨[], _⟩ => simp [len] at h
  | ⟨e :: rest, _⟩ =>
    exact ⟨e, rfl, by simp [shiftRemoveFirst, len], fun w => by simp [shiftRemoveFirst, total, values]; omega, rfl⟩

/-- What is left when the oldest entry is removed was there before. -/
theorem get?_of_shiftRemoveFirst [DecidableEq K] {m : IndexMap K V} {k : K} {v : V}
    (h : m.shiftRemoveFirst.2.get? k = some v) : m.get? k = some v := by
  match m with
  | ⟨[], _⟩ => exact h
  | ⟨(key, value) :: rest, hnodup⟩ =>
    have hrest : find k rest = some v := h
    have hne : key ≠ k := by
      rintro rfl
      exact (List.nodup_cons.1 hnodup).1 (List.mem_map.2 ⟨(key, v), mem_of_find hrest, rfl⟩)
    show find k ((key, value) :: rest) = some v
    rw [find, if_neg hne]
    exact hrest

theorem shiftRemoveFirst_of_empty {m : IndexMap K V} (h : m.len = 0) : m.shiftRemoveFirst = (none, m) := by
  match m with
  | ⟨[], _⟩ => rfl
  | ⟨e :: rest, _⟩ => simp [len] at h

theorem len_pos_of_shiftRemoveFirst {m : IndexMap K V} {e : K × V} (h : m.shiftRemoveFirst.1 = some e) :
    0 < m.len := by
  by_contra hlen
  rw [shiftRemoveFirst_of_empty (by omega)] at h
  cases h

/-! ### A loop over the values -/

/-- Walk the values in order with a state, as a loop over mutable references to the values does. -/
def mapAccum (f : σ → V → V × σ) : σ → List (K × V) → List (K × V) × σ
  | s, [] => ([], s)
  | s, (k, v) :: rest => ((k, (f s v).1) :: (mapAccum f (f s v).2 rest).1, (mapAccum f (f s v).2 rest).2)

private theorem mapAccum_keys (f : σ → V → V × σ) (s : σ) (l : List (K × V)) :
    (mapAccum f s l).1.map Prod.fst = l.map Prod.fst := by
  induction l generalizing s with
  | nil => rfl
  | cons e l ih => simp [mapAccum, ih]

def valuesMut (f : σ → V → V × σ) (s : σ) (m : IndexMap K V) : IndexMap K V × σ :=
  (⟨(mapAccum f s m.entries).1, by rw [mapAccum_keys]; exact m.nodup⟩, (mapAccum f s m.entries).2)

theorem keys_valuesMut (f : σ → V → V × σ) (s : σ) (m : IndexMap K V) : (m.valuesMut f s).1.keys = m.keys :=
  mapAccum_keys f s m.entries

theorem len_valuesMut (f : σ → V → V × σ) (s : σ) (m : IndexMap K V) : (m.valuesMut f s).1.len = m.len := by
  have := congrArg List.length (keys_valuesMut f s m)
  simpa [keys, len] using this

/-- The loop rule.  `P s d t` speaks of the loop's state `s`, of the weight `d` of the values already passed and of
the weight `t` of the values still to come. -/
theorem valuesMut_induction (w : V → Nat) (P : σ → Nat → Nat → Prop) {f : σ → V → V × σ}
    (turn : ∀ s v d t, P s d (w v + t) → P (f s v).2 (d + w (f s v).1) t) {s : σ} {m : IndexMap K V}
    (h : P s 0 (m.total w)) : P (m.valuesMut f s).2 ((m.valuesMut f s).1.total w) 0 := by
  have key : ∀ (l : List (K × V)) (s : σ) (d : Nat), P s d (l.map fun e => w e.2).sum →
      P (mapAccum f s l).2 (d + ((mapAccum f s l).1.map fun e => w e.2).sum) 0 := by
    intro l
    induction l with
    | nil => intro s d h; exact h
    | cons e l ih =>
      intro s d h
      rw [List.map_cons, List.sum_cons] at h
      have := ih (f s e.2).2 (d + w (f s e.2).1) (turn s e.2 d _ h)
      simp only [mapAccum, List.map_cons, List.sum_cons]
      rwa [← Nat.add_assoc]
  have h0 := key m.entries s 0 (by rwa [← total_eq])
  rw [Nat.zero_add] at h0
  rw [total_eq]
  exact h0

/-! What the loop does to the value of one key depends on its state when it gets there. -/

section KeyedLoop

variable [DecidableEq K]

/-- The state with which a loop gets to a key. -/
private def reach (f : σ → V → V × σ) (k : K) : σ → List (K × V) → σ
  | s, [] => s
  | s, (k', v) :: rest => if k' = k then s else reach f k (f s v).2 rest

def stateAt (f : σ → V → V × σ) (s : σ) (m : IndexMap K V) (k : K) : σ := reach f k s m.entries

private def sumBefore (w : V → Nat) (k : K) : List (K × V) → Nat
  | [] => 0
  | (k', v) :: rest => if k' = k then 0 else w v + sumBefore w k rest

/-- The weight of the values in front of a key. -/
def totalBefore (w : V → Nat) (m : IndexMap K V) (k : K) : Nat := sumBefore w k m.entries

theorem get?_valuesMut (f : σ → V → V × σ) (s : σ) (m : IndexMap K V) (k : K) :
    (m.valuesMut f s).1.get? k = (m.get? k).map fun v => (f (m.stateAt f s k) v).1 := by
  have key : ∀ (l : List (K × V)) (s : σ),
      find k (mapAccum f s l).1 = (find k l).map fun v => (f (reach f k s l) v).1 := by
    intro l
    induction l with
    | nil => intro s; rfl
    | cons e l ih =>
      intro s
      obtain ⟨key, value⟩ := e
      by_cases hk : key = k
      · simp [mapAccum, find, reach, hk]
      · simp [mapAccum, find, reach, hk, ih]
  exact key m.entries s

/-- The loop rule for the state with which a loop gets to a key. -/
theorem stateAt_induction (w : V → Nat) (P : σ → Nat → Prop) {f : σ → V → V × σ}
    (turn : ∀ s v d, P s d → P (f s v).2 (d + w v)) {s : σ} (h : P s 0) (m : IndexMap K V) (k : K) :
    P (m.stateAt f s k) (m.totalBefore w k) := by
  have key : ∀ (l : List (K × V)) (s : σ) (d : Nat), P s d → P (reach f k s l) (d + sumBefore w k l) := by
    intro l
    induction l with
    | nil => intro s d h; exact h
    | cons e l ih =>
      intro s d h
      obtain ⟨key, value⟩ := e
      unfold reach sumBefore
      split
      · exact h
      · have hrest := ih (f s value).2 (d + w value) (turn s value d h)
        rwa [← Nat.add_assoc]
  have h0 := key m.entries s 0 h
  rwa [Nat.zero_add] at h0

end KeyedLoop

end IndexMap
