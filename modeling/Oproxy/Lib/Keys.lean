import Mathlib.Data.List.Nodup
import Mathlib.Data.List.Perm.Basic

/-!
# Lists of keys under edits

A list of things which are found by their keys is as good as the list of these keys.  The keys are added to, changed,
taken out and put into another order; they stay different from each other, and the ones a change is about stay where
they are, exactly under a condition on the edit (`Edit.sound_iff`).
-/

namespace Keys

variable {K : Type} [DecidableEq K]

/-- What happens to a list of keys. -/
inductive Edit (K : Type) where
  | push (key : K)
  /-- The first thing with a key is given another one. -/
  | rename (old new : K)
  | drop (key : K)
  | reorder (order : List K)

/-- Give the first key which is `old` another one. -/
def renamed (old new : K) (keys : List K) : List K := keys.replace old new

/-- The keys in an order, and behind them those which the order does not name. -/
def reordered (order keys : List K) : List K := order.filter (· ∈ keys) ++ keys.filter (· ∉ order)

/-- The keys after an edit; none where it is refused. -/
def Edit.apply : Edit K → List K → Option (List K)
  | .push key, keys => some (keys ++ [key])
  | .rename old new, keys => if old ∈ keys then some (renamed old new keys) else none
  | .drop key, keys => if key ∈ keys then some (keys.filter (· ≠ key)) else none
  | .reorder order, keys => some (reordered order keys)

/-- All keys are allowed, and no two of them are the same. -/
structure Valid (P : K → Prop) (keys : List K) : Prop where
  allowed : ∀ key ∈ keys, P key
  nodup : keys.Nodup

/-- What is expected of an accepted edit. -/
structure Edit.Sound (P : K → Prop) (keys after : List K) (e : Edit K) : Prop where
  valid : Valid P after
  /-- Of a change one thing with the key is left, and the keys are the same as before. -/
  renamed : ∀ old new, e = .rename old new → (after.countP fun key => key = old) = 1 ∧ ∀ key, key ∈ after ↔ key ∈ keys
  reordered : ∀ order, e = .reorder order → after.Perm keys

/-- The condition under which an edit does what is expected of it. -/
def Edit.Keeps (P : K → Prop) (keys : List K) : Edit K → Prop
  | .push key => P key ∧ key ∉ keys
  | .rename old new => old ∈ keys → new = old
  | .drop _ => True
  | .reorder order => (order.filter (· ∈ keys)).Nodup

theorem renamed_cons (old new key : K) (keys : List K) :
    renamed old new (key :: keys) = if key = old then new :: keys else key :: renamed old new keys := by
  unfold renamed
  rw [List.replace_cons]
  by_cases heq : key = old
  · rw [if_pos heq, heq, beq_self_eq_true]
  · rw [if_neg heq, beq_eq_false_iff_ne.2 (Ne.symm heq)]

theorem renamed_self (keys : List K) (key : K) : renamed key key keys = keys := by
  induction keys with
  | nil => rfl
  | cons k keys ih =>
    rw [renamed_cons]
    split
    · rename_i heq
      rw [heq]
    · rw [ih]

theorem not_mem_renamed {keys : List K} (h : keys.Nodup) {old new : K} (hne : new ≠ old) :
    old ∉ renamed old new keys := by
  induction keys with
  | nil => exact List.not_mem_nil
  | cons k keys ih =>
    rw [List.nodup_cons] at h
    rw [renamed_cons]
    split
    · rename_i heq
      rw [heq] at h
      simp [h.1, hne.symm]
    · rename_i hold
      simp [Ne.symm hold, ih h.2]

theorem mem_reordered {order keys : List K} {key : K} : key ∈ reordered order keys ↔ key ∈ keys := by
  unfold reordered
  simp only [List.mem_append, List.mem_filter, decide_eq_true_eq]
  constructor
  · rintro (h | h)
    · exact h.2
    · exact h.1
  · intro h
    by_cases hkey : key ∈ order
    · exact Or.inl ⟨hkey, h⟩
    · exact Or.inr ⟨h, hkey⟩

theorem nodup_reordered_iff {order keys : List K} (h : keys.Nodup) :
    (reordered order keys).Nodup ↔ (order.filter (· ∈ keys)).Nodup := by
  unfold reordered
  rw [List.nodup_append]
  constructor
  · intro hall
    exact hall.1
  · intro hknown
    refine ⟨hknown, h.filter _, ?_⟩
    rintro a ha b hb rfl
    simp only [List.mem_filter, decide_eq_true_eq] at ha hb
    exact hb.2 ha.1

theorem perm_reordered_iff {order keys : List K} (h : keys.Nodup) :
    (reordered order keys).Perm keys ↔ (order.filter (· ∈ keys)).Nodup := by
  constructor
  · intro hperm
    exact (nodup_reordered_iff h).1 (hperm.nodup_iff.2 h)
  · intro hknown
    exact (List.perm_ext_iff_of_nodup ((nodup_reordered_iff h).2 hknown) h).2 fun _ => mem_reordered

/-! ### The exact condition, one edit at a time -/

variable {P : K → Prop} {keys after : List K}

private theorem sound_push (h : Valid P keys) (key : K) :
    (Edit.push key).Sound P keys (keys ++ [key]) ↔ P key ∧ key ∉ keys := by
  constructor
  · intro hsound
    refine ⟨hsound.valid.allowed key (by simp), fun hmem => ?_⟩
    have hnodup := hsound.valid.nodup
    rw [List.nodup_append] at hnodup
    exact hnodup.2.2 key hmem key (by simp) rfl
  · rintro ⟨hallowed, hnew⟩
    refine ⟨⟨fun k hk => ?_, ?_⟩, (fun old new heq => by cases heq), (fun order heq => by cases heq)⟩
    · rcases List.mem_append.1 hk with hk | hk
      · exact h.allowed k hk
      · rw [List.mem_singleton.1 hk]
        exact hallowed
    · rw [List.nodup_append]
      refine ⟨h.nodup, List.nodup_singleton key, ?_⟩
      rintro a ha b hb rfl
      rw [List.mem_singleton.1 hb] at ha
      exact hnew ha

private theorem sound_rename (h : Valid P keys) {old new : K} (hold : old ∈ keys) :
    (Edit.rename old new).Sound P keys (renamed old new keys) ↔ (old ∈ keys → new = old) := by
  rw [forall_prop_of_true hold]
  constructor
  · intro hsound
    by_contra hne
    have hzero : ((renamed old new keys).countP fun key => key = old) = 0 := by
      rw [List.countP_eq_zero]
      intro key hkey heq
      rw [of_decide_eq_true heq] at hkey
      exact not_mem_renamed h.nodup hne hkey
    rw [(hsound.renamed old new rfl).1] at hzero
    cases hzero
  · rintro rfl
    rw [renamed_self]
    refine ⟨h, ?_, (fun order heq => by cases heq)⟩
    rintro old' new' heq
    cases heq
    exact ⟨List.count_eq_one_of_mem h.nodup hold, fun _ => Iff.rfl⟩

private theorem sound_drop (h : Valid P keys) (key : K) : (Edit.drop key).Sound P keys (keys.filter (· ≠ key)) := by
  refine ⟨⟨fun k hk => h.allowed k (List.mem_of_mem_filter hk), h.nodup.filter _⟩, ?_, ?_⟩
  · intro old new heq
    cases heq
  · intro order heq
    cases heq

private theorem sound_reorder (h : Valid P keys) (order : List K) :
    (Edit.reorder order).Sound P keys (reordered order keys) ↔ (order.filter (· ∈ keys)).Nodup := by
  constructor
  · intro hsound
    exact (perm_reordered_iff h.nodup).1 (hsound.reordered order rfl)
  · intro hknown
    refine ⟨⟨fun k hk => h.allowed k (mem_reordered.1 hk), (nodup_reordered_iff h.nodup).2 hknown⟩, ?_, ?_⟩
    · intro old new heq
      cases heq
    · intro order' heq
      cases heq
      exact (perm_reordered_iff h.nodup).2 hknown

/-- An accepted edit of a valid list does what is expected of it exactly where it keeps the keys. -/
theorem Edit.sound_iff (h : Valid P keys) {e : Edit K} (happly : e.apply keys = some after) :
    e.Sound P keys after ↔ e.Keeps P keys := by
  unfold Edit.apply at happly
  unfold Edit.Keeps
  cases e with
  | push key =>
    cases happly
    exact sound_push h key
  | rename old new =>
    dsimp only at happly
    split at happly
    · rename_i hold
      cases happly
      exact sound_rename h hold
    · cases happly
  | drop key =>
    dsimp only at happly
    split at happly
    · cases happly
      exact iff_of_true (sound_drop h key) trivial
    · cases happly
  | reorder order =>
    cases happly
    exact sound_reorder h order

/-- A refused edit has nothing to keep. -/
theorem Edit.keeps_of_refused {e : Edit K} (happly : e.apply keys = none) : e.Keeps P keys := by
  unfold Edit.apply at happly
  unfold Edit.Keeps
  cases e with
  | push key => cases happly
  | rename old new =>
    dsimp only at happly ⊢
    intro hold
    rw [if_pos hold] at happly
    cases happly
  | drop key => trivial
  | reorder order => cases happly

/-! ### Things with keys -/

section

variable {T : Type} (key : T → K)

/-- The things in the order of some keys, and behind them those which the keys do not name. -/
def reorderedBy (order : List K) (items : List T) : List T :=
  (order.filterMap fun k => items.find? fun x => key x = k) ++ items.filter fun x => key x ∉ order

theorem map_found (order : List K) (items : List T) :
    (order.filterMap fun k => items.find? fun x => key x = k).map key = order.filter (· ∈ items.map key) := by
  induction order with
  | nil => rfl
  | cons k order ih =>
    rw [List.filterMap_cons, List.filter_cons]
    cases hfind : items.find? fun x => key x = k with
    | none =>
      have hunknown : k ∉ items.map key := by
        intro hmem
        obtain ⟨x, hx, hkey⟩ := List.mem_map.1 hmem
        exact absurd (decide_eq_true hkey) (List.find?_eq_none.1 hfind x hx)
      rw [if_neg (by simpa using hunknown)]
      exact ih
    | some x =>
      have hkey : key x = k := of_decide_eq_true (List.find?_some (p := fun x => decide (key x = k)) hfind)
      have hknown : k ∈ items.map key := List.mem_map.2 ⟨x, List.mem_of_find?_eq_some hfind, hkey⟩
      rw [if_pos (by simpa using hknown), List.map_cons, hkey, ih]

theorem map_reorderedBy (order : List K) (items : List T) :
    (reorderedBy key order items).map key = reordered order (items.map key) := by
  unfold reorderedBy reordered
  rw [List.map_append, map_found, List.filter_map]
  rfl

theorem mem_of_mem_reorderedBy {order : List K} {items : List T} {x : T} (h : x ∈ reorderedBy key order items) :
    x ∈ items := by
  rcases List.mem_append.1 h with h | h
  · obtain ⟨k, -, hfind⟩ := List.mem_filterMap.1 h
    exact List.mem_of_find?_eq_some hfind
  · exact List.mem_of_mem_filter h

/-- Where all keys are different, the things are in another order exactly where their keys are. -/
theorem reorderedBy_perm_iff {order : List K} {items : List T} (h : (items.map key).Nodup) :
    (reorderedBy key order items).Perm items ↔ (reordered order (items.map key)).Perm (items.map key) := by
  rw [← map_reorderedBy]
  constructor
  · intro hperm
    exact hperm.map key
  · intro hperm
    have hnodup : ((reorderedBy key order items).map key).Nodup := hperm.nodup_iff.2 h
    refine (List.perm_ext_iff_of_nodup hnodup.of_map h.of_map).2 fun x => ⟨mem_of_mem_reorderedBy key, fun hx => ?_⟩
    -- the thing with the key of `x` is `x`
    obtain ⟨y, hy, hkey⟩ := List.mem_map.1 (hperm.mem_iff.2 (List.mem_map_of_mem hx))
    rw [← List.inj_on_of_nodup_map h (mem_of_mem_reorderedBy key hy) hx hkey]
    exact hy

end

end Keys
