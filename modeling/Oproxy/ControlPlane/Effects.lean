import Mathlib.Logic.Function.Basic
import Oproxy.ControlPlane.Mutations

/-!
# Effects of requests (the handlers of `control_plane`)

What a request does while files can be saved, and when two requests do the same: two changes of an item, or two
deletions, of one collection.
-/

namespace Oproxy

open Persisted

namespace Persisted

/-! ### Two edits of one collection -/

section

variable {T : Type} [CollectionItem T]

/-- The first item with an id. -/
def itemWith (id : Str) (items : List T) : Option T := items.find? fun item => CollectionItem.id item = id

theorem itemWith_cons (id : Str) (item : T) (items : List T) :
    itemWith id (item :: items) = if CollectionItem.id item = id then some item else itemWith id items := by
  unfold itemWith
  rw [List.find?_cons]
  by_cases hid : CollectionItem.id item = id
  · rw [if_pos hid, decide_eq_true hid]
  · rw [if_neg hid, decide_eq_false hid]

theorem changeFirst_cons (id : Str) (change : T → T) (item : T) (items : List T) :
    changeFirst id change (item :: items) =
      if CollectionItem.id item = id then change item :: items else item :: changeFirst id change items := rfl

theorem changeFirst_eq_self_iff {id : Str} {change : T → T} {items : List T} :
    changeFirst id change items = items ↔ ∀ old ∈ itemWith id items, change old = old := by
  induction items with
  | nil => exact iff_of_true rfl fun old hold => by cases hold
  | cons item items ih =>
    rw [changeFirst_cons, itemWith_cons]
    by_cases hid : CollectionItem.id item = id
    · rw [if_pos hid, if_pos hid]
      simp
    · rw [if_neg hid, if_neg hid, List.cons_inj_right, ih]

/-- Two changes of items do the same to what is there. -/
def SameChange (id id' : Str) (change change' : T → T) (items : List T) : Prop :=
  if id = id' then ∀ old ∈ itemWith id' items, change old = change' old
  else (∀ old ∈ itemWith id items, change old = old) ∧ ∀ old ∈ itemWith id' items, change' old = old

theorem changeFirst_eq_iff {id id' : Str} {change change' : T → T} {items : List T} :
    changeFirst id change items = changeFirst id' change' items ↔ SameChange id id' change change' items := by
  unfold SameChange
  by_cases hsame : id = id'
  · subst hsame
    rw [if_pos rfl]
    induction items with
    | nil => exact iff_of_true rfl fun old hold => by cases hold
    | cons item items ih =>
      rw [changeFirst_cons, changeFirst_cons, itemWith_cons]
      by_cases hid : CollectionItem.id item = id
      · rw [if_pos hid, if_pos hid, if_pos hid]
        simp
      · rw [if_neg hid, if_neg hid, if_neg hid, List.cons_inj_right, ih]
  · rw [if_neg hsame]
    induction items with
    | nil => exact iff_of_true rfl ⟨(fun old hold => by cases hold), (fun old hold => by cases hold)⟩
    | cons item items ih =>
      rw [changeFirst_cons, changeFirst_cons, itemWith_cons, itemWith_cons]
      by_cases hid : CollectionItem.id item = id
      · have hid' : CollectionItem.id item ≠ id' := by
          rw [hid]
          exact hsame
        rw [if_pos hid, if_pos hid, if_neg hid', if_neg hid', List.cons.injEq, eq_comm (a := items),
          changeFirst_eq_self_iff]
        simp
      · rw [if_neg hid, if_neg hid]
        by_cases hid' : CollectionItem.id item = id'
        · rw [if_pos hid', if_pos hid', List.cons.injEq, changeFirst_eq_self_iff]
          simp [and_comm, eq_comm]
        · rw [if_neg hid', if_neg hid', List.cons_inj_right, ih]

theorem updateItem_eq_none {id : Str} {change : T → T} {items : List T} :
    updateItem id change items = none ↔ id ∉ idsOf items := by
  unfold updateItem
  rw [← any_id_iff]
  split <;> simp_all

theorem updateItem_of_mem {id : Str} {items : List T} (h : id ∈ idsOf items) (change : T → T) :
    updateItem id change items = some (changeFirst id change items) := by
  unfold updateItem
  rw [if_pos ((any_id_iff id items).2 h)]

theorem itemWith_eq_none {id : Str} {items : List T} : itemWith id items = none ↔ id ∉ idsOf items := by
  rw [← any_id_iff]
  unfold itemWith
  simp

/-- A change at an id which may be none does the same as another at an id. -/
def SameUpdate (target : Option Str) (id : Str) (change : Str → T → T) (change' : T → T) (items : List T) : Prop :=
  match target with
  | none => id ∉ idsOf items
  | some id' => (id' ∈ idsOf items ↔ id ∈ idsOf items) ∧ SameChange id' id (change id') change' items

theorem bind_updateItem_eq_iff {target : Option Str} {id : Str} {change : Str → T → T} {change' : T → T}
    {items : List T} :
    (target.bind fun id' => updateItem id' (change id') items) = updateItem id change' items ↔
      SameUpdate target id change change' items := by
  unfold SameUpdate
  cases target with
  | none => exact eq_comm.trans updateItem_eq_none
  | some id' =>
    rw [Option.bind_some]
    dsimp only
    by_cases hmem' : id' ∈ idsOf items
    · by_cases hmem : id ∈ idsOf items
      · rw [updateItem_of_mem hmem, updateItem_of_mem hmem', Option.some_inj, changeFirst_eq_iff]
        simp [hmem, hmem']
      · rw [updateItem_of_mem hmem', updateItem_eq_none.2 hmem]
        simp [hmem, hmem']
    · rw [updateItem_eq_none.2 hmem']
      by_cases hmem : id ∈ idsOf items
      · rw [updateItem_of_mem hmem]
        simp [hmem, hmem']
      · rw [updateItem_eq_none.2 hmem]
        unfold SameChange
        rw [itemWith_eq_none.2 hmem, itemWith_eq_none.2 hmem']
        simp [hmem, hmem']

end

/-- A deletion at an id which may be none does the same as another at an id; `held` are the ids that are there. -/
def SameDeletion (target : Option Str) (id : Str) (held : Str → Prop) : Prop :=
  target = some id ∨ ¬held id ∧ ∀ id' ∈ target, ¬held id'

theorem bind_deletion_eq_iff {V : Type} (delete : Str → Option V) {held : Str → Prop}
    (hnone : ∀ id, delete id = none ↔ ¬held id) (hsame : ∀ id id', delete id = delete id' → held id → id = id')
    {target : Option Str} {id : Str} : target.bind delete = delete id ↔ SameDeletion target id held := by
  unfold SameDeletion
  cases target with
  | none => simp [eq_comm, hnone]
  | some id' =>
    rw [Option.bind_some, Option.some_inj]
    constructor
    · intro heq
      by_cases hheld : held id'
      · exact Or.inl (hsame id' id heq hheld)
      · refine Or.inr ⟨?_, fun id'' hid'' => ?_⟩
        · rw [← hnone, ← heq, hnone]
          exact hheld
        · cases hid''
          exact hheld
    · rintro (rfl | ⟨hheld, hheld'⟩)
      · rfl
      · rw [(hnone id).2 hheld, (hnone id').2 (hheld' id' rfl)]

section

variable {T : Type} [CollectionItem T]

theorem mem_idsOf_withoutItem {id id' : Str} {items : List T} :
    id' ∈ idsOf (withoutItem id items) ↔ id' ∈ idsOf items ∧ id' ≠ id := by
  rw [ids_withoutItem]
  simp

/-- A deletion tells the id, where there is such an item. -/
theorem eq_of_withoutItem_eq {id id' : Str} {items : List T} (h : withoutItem id items = withoutItem id' items)
    (hmem : id ∈ idsOf items) : id = id' := by
  by_contra hne
  have hkept : id ∈ idsOf (withoutItem id' items) := mem_idsOf_withoutItem.2 ⟨hmem, hne⟩
  rw [← h, mem_idsOf_withoutItem] at hkept
  exact hkept.2 rfl

theorem withoutItem_of_not_mem {id : Str} {items : List T} (h : id ∉ idsOf items) : withoutItem id items = items := by
  unfold withoutItem
  rw [List.filter_eq_self]
  intro item hitem
  have hne : CollectionItem.id item ≠ id := by
    rintro rfl
    exact h (List.mem_map_of_mem hitem)
  exact decide_eq_true hne

theorem deleteItem_eq {id : Str} {items : List T} :
    deleteItem id items = if id ∈ idsOf items then some (withoutItem id items) else none := by
  unfold deleteItem
  dsimp only
  by_cases hmem : id ∈ idsOf items
  · have hne : (withoutItem id items).length ≠ items.length := by
      intro heq
      unfold withoutItem at heq
      rw [List.length_filter_eq_length_iff] at heq
      obtain ⟨item, hitem, rfl⟩ := List.mem_map.1 hmem
      exact absurd rfl (of_decide_eq_true (heq item hitem))
    rw [if_pos hmem, if_neg hne]
  · rw [if_neg hmem, withoutItem_of_not_mem hmem, if_pos rfl]

theorem bind_deleteItem_eq_iff {target : Option Str} {id : Str} {items : List T} :
    (target.bind fun id' => deleteItem id' items) = deleteItem id items ↔
      SameDeletion target id (· ∈ idsOf items) := by
  refine bind_deletion_eq_iff (fun id => deleteItem id items) (fun id => ?_) fun id id' heq hmem => ?_
  · rw [deleteItem_eq]
    simp
  · rw [deleteItem_eq, deleteItem_eq, if_pos hmem] at heq
    split at heq
    · exact eq_of_withoutItem_eq (Option.some_inj.1 heq) hmem
    · cases heq

/-- A deletion which is never refused does the same as another. -/
theorem bind_withoutItem_eq_iff {target : Option Str} {id : Str} {items : List T} :
    (target.bind fun id' => some (withoutItem id' items)) = some (withoutItem id items) ↔
      target.isSome ∧ SameDeletion target id (· ∈ idsOf items) := by
  unfold SameDeletion
  cases target with
  | none => simp
  | some id' =>
    rw [Option.bind_some, Option.some_inj, Option.some_inj]
    constructor
    · intro heq
      refine ⟨rfl, ?_⟩
      by_cases hmem' : id' ∈ idsOf items
      · exact Or.inl (eq_of_withoutItem_eq heq hmem')
      · by_cases hmem : id ∈ idsOf items
        · exact Or.inl (eq_of_withoutItem_eq heq.symm hmem).symm
        · refine Or.inr ⟨hmem, fun id'' hid'' => ?_⟩
          cases hid''
          exact hmem'
    · rintro ⟨-, rfl | ⟨hmem, hmem'⟩⟩
      · rfl
      · rw [withoutItem_of_not_mem hmem, withoutItem_of_not_mem (hmem' id' rfl)]

end

theorem contains_of_removeOverride {host : Str} {overrides after : DnsOverrides}
    (h : removeOverride host overrides = some after) (host' : Str) :
    after.contains host' = true ↔ overrides.contains host' = true ∧ host' ≠ host := by
  unfold removeOverride at h
  split at h
  · cases h
    have hentries : overrides.entries.foldl (fun m e => if e.1 = host then m else m.insert e.1 e.2) IndexMap.empty =
        (overrides.entries.filter fun e => e.1 ≠ host).foldl (fun m e => m.insert e.1 e.2)
          (IndexMap.empty : DnsOverrides) := by
      rw [List.foldl_filter]
      refine congrFun (congrFun (congrArg List.foldl (funext fun m => funext fun e => ?_)) _) _
      by_cases he : e.1 = host
      · simp [he]
      · simp [he]
    rw [hentries, IndexMap.contains, IndexMap.get?_insertAll, IndexMap.get?_empty, Option.or_none,
      IndexMap.contains_iff, IndexMap.keys, Option.isSome_iff_ne_none, Ne, List.getLast?_eq_none_iff,
      List.map_eq_nil_iff, List.filter_eq_nil_iff]
    simp only [List.mem_filter, List.mem_map]
    push Not
    constructor
    · rintro ⟨e, ⟨he, hne⟩, hkey⟩
      have hkey := of_decide_eq_true hkey
      have hne := of_decide_eq_true hne
      exact ⟨⟨e, he, hkey⟩, hkey ▸ hne⟩
    · rintro ⟨⟨e, he, rfl⟩, hne⟩
      exact ⟨e, ⟨he, decide_eq_true hne⟩, decide_eq_true rfl⟩
  · cases h

theorem bind_removeOverride_eq_iff {target : Option Str} {id : Str} {overrides : DnsOverrides} :
    (target.bind fun id' => removeOverride id' overrides) = removeOverride id overrides ↔
      SameDeletion target id (overrides.contains · = true) := by
  refine bind_deletion_eq_iff (fun id => removeOverride id overrides) (fun id => ?_) fun id id' heq hheld => ?_
  · unfold removeOverride
    simp
  · by_contra hne
    have hafter : removeOverride id overrides = some _ := if_pos hheld
    have hkept := (contains_of_removeOverride (heq.symm.trans hafter) id).2 ⟨hheld, hne⟩
    exact ((contains_of_removeOverride hafter id).1 hkept).2 rfl

end Persisted

namespace Mutations

variable {E F : Type} {memory : Memory}

/-! ### Effects -/

/-- What a request does while files can be saved. -/
inductive Effect where
  | refused
  | nothing
  | change (r : Resource) (value : r.Value) (fixtures : List (Str × Bytes))

namespace Effect

/-- The change to a value, where there is one. -/
def ofValue (r : Resource) (fixtures : List (Str × Bytes)) : Option r.Value → Effect
  | none => refused
  | some value => change r value fixtures

def applied (memory : Memory) : Effect → Memory
  | change r value _ => Function.update memory r value
  | _ => memory

def writes : Effect → List Write
  | change r value fixtures => (fixtures.map fun f => .fixture f.1 f.2) ++ [.resource r value]
  | _ => []

theorem ofValue_ne_nothing (r : Resource) (fixtures : List (Str × Bytes)) (value : Option r.Value) :
    ofValue r fixtures value ≠ nothing := by
  cases value <;> exact Effect.noConfusion

theorem ofValue_inj {r : Resource} {fixtures : List (Str × Bytes)} {value value' : Option r.Value} :
    ofValue r fixtures value = ofValue r fixtures value' ↔ value = value' := by
  cases value <;> cases value' <;> simp [ofValue]

/-- With other fixtures it is the same where nothing is changed. -/
theorem ofValue_eq_of_ne {r : Resource} {fixtures fixtures' : List (Str × Bytes)} (h : fixtures ≠ fixtures')
    {value value' : Option r.Value} :
    ofValue r fixtures value = ofValue r fixtures' value' ↔ value = none ∧ value' = none := by
  cases value <;> cases value' <;> simp [ofValue, h]

/-- What is written tells the effect. -/
theorem eq_of_writes {e e' : Effect} (he : e ≠ refused) (he' : e' ≠ refused) (h : e.writes = e'.writes) : e = e' := by
  cases e with
  | refused => exact absurd rfl he
  | nothing =>
    cases e' with
    | refused => exact absurd rfl he'
    | nothing => rfl
    | change r' value' fixtures' => simp [writes] at h
  | change r value fixtures =>
    cases e' with
    | refused => exact absurd rfl he'
    | nothing => simp [writes] at h
    | change r' value' fixtures' =>
      obtain ⟨hfixtures, hvalue⟩ := List.append_inj' h rfl
      have hinjective : Function.Injective fun f : Str × Bytes => Write.fixture f.1 f.2 := by
        rintro ⟨path, contents⟩ ⟨path', contents'⟩ heq
        cases heq
        rfl
      cases hvalue
      rw [hinjective.list_map hfixtures]

end Effect

def Call.effect (memory : Memory) : Call E → Effect
  | refused _ => .refused
  | other => .nothing
  | mutates r m => .ofValue r m.fixtures (m.edit (memory r)).toOption

theorem effect_editCollection (name : CollectionName) (notFound : E) (request : name.collection.Request) :
    (editCollection name notFound request).effect memory =
      .ofValue (.collection name) [] ((name.collection.handler request).edit (memory (.collection name))) := by
  unfold editCollection Call.effect
  dsimp only
  cases (name.collection.handler request).edit (memory (.collection name)) <;> rfl

/-! ### Answers -/

variable {storageError : Str → E} {storageError' : Str → F} {saveError : Option Str}

theorem isOk_run (call : Call E) : (call.run storageError saveError memory).answer.isOk = true ↔
    call.effect memory = .nothing ∨ saveError = none ∧ call.effect memory ≠ .refused := by
  cases call with
  | refused e => simp [Call.run, Call.effect, Except.isOk, Except.toBool]
  | other => simp [Call.run, Call.effect, Except.isOk, Except.toBool]
  | mutates r m =>
    unfold Call.run Call.effect
    dsimp only
    cases m.edit (memory r) with
    | error e => simp [Except.toOption, Effect.ofValue, Except.isOk, Except.toBool]
    | ok value =>
      cases saveError with
      | none => simp [Except.toOption, Effect.ofValue, Except.isOk, Except.toBool]
      | some e => cases m.order <;> simp [Except.toOption, Effect.ofValue, Except.isOk, Except.toBool]

theorem run_of_saved {call : Call E} (h : call.effect memory ≠ .refused) :
    (call.run storageError none memory).memory = (call.effect memory).applied memory ∧
      (call.run storageError none memory).writes = (call.effect memory).writes := by
  cases call with
  | refused e => exact absurd rfl h
  | other => exact ⟨rfl, rfl⟩
  | mutates r m =>
    unfold Call.run Call.effect at *
    dsimp only at *
    cases hedit : m.edit (memory r) with
    | error e =>
      rw [hedit] at h
      exact absurd rfl h
    | ok value => exact ⟨rfl, rfl⟩

/-- Both succeed, and leave the same in memory and in files, or neither does. -/
def SameOutcome (reply : Reply E) (reply' : Reply F) : Prop :=
  (reply.answer.isOk = true ↔ reply'.answer.isOk = true) ∧
    (reply.answer.isOk = true → reply.memory = reply'.memory ∧ reply.writes = reply'.writes)

/-- Two requests about resources come to the same where they have the same effect, or cannot be saved. -/
theorem sameOutcome_iff {call : Call E} {call' : Call F} (h : call.effect memory ≠ .nothing)
    (h' : call'.effect memory ≠ .nothing) :
    SameOutcome (call.run storageError saveError memory) (call'.run storageError' saveError memory) ↔
      (saveError = none → call.effect memory = call'.effect memory) := by
  unfold SameOutcome
  rw [isOk_run, isOk_run]
  cases saveError with
  | some e => simp [h, h']
  | none =>
    simp only [h, h', false_or, true_and, true_imp_iff]
    constructor
    · rintro ⟨hok, hsame⟩
      by_cases hrefused : call.effect memory = .refused
      · by_contra hne
        rw [hrefused] at hne
        exact hok.2 (Ne.symm hne) hrefused
      · have hwrites := (hsame hrefused).2
        rw [(run_of_saved hrefused).2, (run_of_saved (hok.1 hrefused)).2] at hwrites
        exact Effect.eq_of_writes hrefused (hok.1 hrefused) hwrites
    · intro heq
      refine ⟨by rw [heq], fun hrefused => ?_⟩
      have hrun := @run_of_saved E memory storageError call hrefused
      have hrun' := @run_of_saved F memory storageError' call' (heq ▸ hrefused)
      rw [hrun.1, hrun.2, hrun'.1, hrun'.2, heq]
      exact ⟨rfl, rfl⟩

end Mutations

end Oproxy
