import Oproxy.Lib.Json
import Oproxy.Lib.Run
import Oproxy.Middleware.HeaderMap

/-!
# Header maps over their operations (`middleware/mod.rs`)

All header maps come about by appending, so that `get` and `remove`, which ignore the case of letters, and `get_all`,
which does not, agree on what a name is.
-/

namespace Oproxy

namespace HeaderMap

/-! ### The operations -/

/-- `retain` with a closure which may have a state: the answer to its call of each number. -/
def retainCalls (h : HeaderMap) (f : Nat → Str → Str → Bool) : HeaderMap where
  entries := (h.entries.zipIdx.filter fun p => f p.2 p.1.1 p.1.2).map Prod.fst
  lower := by
    intro e he
    obtain ⟨p, hp, rfl⟩ := List.mem_map.1 he
    exact h.lower p.1 (List.fst_mem_of_mem_zipIdx (List.mem_of_mem_filter hp))

/-- `Extend::extend`. -/
def extend (h : HeaderMap) (fields : List (Str × Str)) : HeaderMap := fields.foldl (fun h e => h.append e.1 e.2) h

/-- `HashMap::<String, String>::deserialize`. -/
def stringMap (value : Json) : Option (IndexMap Str Str) :=
  match value with
  | .obj members =>
    (members.mapM fun m : Str × Json => m.2.asStr.map fun s => (m.1, s)).map fun es =>
      es.foldl (fun map e => map.insert e.1 e.2) IndexMap.empty
  | _ => none

end HeaderMap

/-- What is done to a map.  Where a `HashMap` is read, `order` is the order in which it yields its entries. -/
inductive HeaderOp where
  | append (key value : Str)
  | insert (key value : Str)
  | remove (key : Str)
  | retain (f : Nat → Str → Str → Bool)
  | extend (fields : List (Str × Str))
  | fromIter (fields : List (Str × Str))
  | ofMap (map : IndexMap Str Str)
  | deserialize (value : Json) (order : IndexMap Str Str → IndexMap Str Str)

namespace HeaderOp

/-- The map after an operation; a value which is no map of texts makes no new one. -/
def apply (h : HeaderMap) : HeaderOp → HeaderMap
  | append key value => h.append key value
  | insert key value => h.insert key value
  | remove key => h.remove key
  | retain f => h.retainCalls f
  | extend fields => h.extend fields
  | fromIter fields => HeaderMap.fromIter fields
  | ofMap map => HeaderMap.ofMap map
  | deserialize value order => ((HeaderMap.stringMap value).map fun map => HeaderMap.ofMap (order map)).getD h

/-- The key which an operation is on. -/
def key : HeaderOp → Option Str
  | append key _ | insert key _ | remove key => some key
  | _ => none

end HeaderOp

namespace HeaderMap

/-! ### What a multimap is -/

/-- An ordered multimap which ignores the case of letters. -/
structure IsMultimap (h : HeaderMap) : Prop where
  lowercase : ∀ e ∈ h.entries, ∀ c ∈ e.1, c.isUpper = false
  all : ∀ key, h.getAll key = (h.entries.filter fun e => e.1.eqIgnoreAsciiCase key).map Prod.snd
  first : ∀ key spelling : Str, spelling.eqIgnoreAsciiCase key = true → h.get spelling = (h.getAll key).head?
  contains : ∀ key, h.containsKey key = true ↔ h.getAll key ≠ []

/-- The entries with other keys are kept in their order. -/
def KeepsOthers (key : Str) (h h' : HeaderMap) : Prop :=
  (h'.entries.filter fun e => !e.1.eqIgnoreAsciiCase key) = h.entries.filter fun e => !e.1.eqIgnoreAsciiCase key

/-! ### Look-ups -/

private theorem isUpper_of_toLower {c : Char} (h : c.toLower = c) : c.isUpper = false := by
  by_contra hupper
  unfold Char.isUpper at hupper
  rw [Bool.not_eq_false, decide_eq_true_eq] at hupper
  have hZ : ('Z' : Char).val.toNat = 90 := rfl
  have hd : (('a' : Char).val - ('A' : Char).val).toNat = 32 := rfl
  have hle := UInt32.le_iff_toNat_le.1 hupper.2
  have hval := congrArg (fun c : Char => c.val.toNat) h
  unfold Char.toLower at hval
  rw [dif_pos hupper] at hval
  dsimp only at hval
  rw [UInt32.toNat_add, hd] at hval
  omega

theorem isUpper_of_mem (h : HeaderMap) : ∀ e ∈ h.entries, ∀ c ∈ e.1, c.isUpper = false := by
  intro e he c hc
  have hlower := h.lower e he
  unfold Str.toAsciiLowercase at hlower
  have hself : e.1.map Char.toLower = e.1.map id := by rw [hlower, List.map_id]
  exact isUpper_of_toLower (List.map_inj_left.1 hself c hc)

/-- The literal comparison of `get_all` is one which ignores the case of letters. -/
theorem getAll_eq (h : HeaderMap) (key : Str) :
    h.getAll key = (h.entries.filter fun e => e.1.eqIgnoreAsciiCase key).map Prod.snd := by
  unfold getAll
  refine congrArg (List.map Prod.snd) (List.filter_congr fun e he => ?_)
  unfold Str.eqIgnoreAsciiCase
  rw [h.lower e he]

theorem getAll_congr (h : HeaderMap) {key spelling : Str} (hkey : spelling.eqIgnoreAsciiCase key = true) :
    h.getAll spelling = h.getAll key := by
  rw [Str.eqIgnoreAsciiCase_iff] at hkey
  unfold getAll
  rw [hkey]

theorem isMultimap (h : HeaderMap) : h.IsMultimap where
  lowercase := h.isUpper_of_mem
  all := h.getAll_eq
  first := fun key spelling hkey => by rw [get_eq_head?, h.getAll_congr hkey]
  contains := h.containsKey_iff_getAll

/-! ### The other keys -/

theorem keepsOthers_append (h : HeaderMap) (key value : Str) : KeepsOthers key h (h.append key value) := by
  have hself : key.toAsciiLowercase.eqIgnoreAsciiCase key = true := by
    rw [Str.eqIgnoreAsciiCase_iff, Str.toAsciiLowercase_idem]
  unfold KeepsOthers append
  rw [List.filter_append, List.filter_cons, hself, Bool.not_true, if_neg Bool.false_ne_true, List.filter_nil,
    List.append_nil]

theorem keepsOthers_remove (h : HeaderMap) {key spelling : Str}
    (hkey : spelling.toAsciiLowercase = key.toAsciiLowercase) :
    KeepsOthers key h (h.remove spelling) := by
  unfold KeepsOthers remove retain
  rw [List.filter_filter]
  refine List.filter_congr fun e _ => ?_
  unfold Str.eqIgnoreAsciiCase
  rw [hkey, Bool.and_self]

theorem keepsOthers_insert (h : HeaderMap) (key value : Str) : KeepsOthers key h (h.insert key value) := by
  have hremove := h.keepsOthers_remove (Str.toAsciiLowercase_idem key)
  have happend := (h.remove key.toAsciiLowercase).keepsOthers_append key value
  exact happend.trans hremove

theorem HeaderOp.keepsOthers (h : HeaderMap) {op : HeaderOp} {key : Str} (hop : op.key = some key) :
    KeepsOthers key h (op.apply h) := by
  cases op with
  | append key' value =>
    cases hop
    exact h.keepsOthers_append key value
  | insert key' value =>
    cases hop
    exact h.keepsOthers_insert key value
  | remove key' =>
    cases hop
    exact h.keepsOthers_remove rfl
  | retain _ | extend _ | fromIter _ | ofMap _ | deserialize _ _ => cases hop

/-- Header maps are ordered multimaps after any operations; an insertion leaves one value for its key, and what is done
to one key leaves the others alone. -/
theorem multimap_run (ops : List HeaderOp) :
    (Machine.run HeaderOp.apply new ops).IsMultimap ∧
      (∀ key value spelling : Str, spelling.eqIgnoreAsciiCase key = true →
        ((Machine.run HeaderOp.apply new ops).insert key value).getAll spelling = [value]) ∧
      ∀ (op : HeaderOp) (key : Str), op.key = some key →
        KeepsOthers key (Machine.run HeaderOp.apply new ops) (op.apply (Machine.run HeaderOp.apply new ops)) := by
  refine ⟨isMultimap _, fun key value spelling hkey => ?_, fun op key hop => HeaderOp.keepsOthers _ hop⟩
  rw [getAll_insert, if_pos (Str.eqIgnoreAsciiCase_iff.1 hkey).symm]

end HeaderMap

end Oproxy
