import Oproxy.ControlPlane.AssistantActions

/-!
# Repaired payloads (`control_plane/assistant_payload_repair.rs`)

A payload is repaired and completed when an action is proposed and again when the action is carried out.  The second
time nothing is left to do.
-/

namespace Oproxy

/-! ### Repair -/

namespace AssistantPayload

/-- Nothing is done to a value because of the key that it stands under. -/
def Kept (key : Str) (value : Json) : Prop :=
  (isArrayField key = true → singletonItems value = none) ∧
    (isNumericField key = true → numericStringAsJsonNumber value = none) ∧
      (isBooleanField key = true → booleanStringAsJsonBool value = none)

/-- What becomes of a value under a key, where `repaired` is the value as it is repaired by itself. -/
inductive Repair (key : Str) (repaired : Json) : Json → Json → Prop
  | kept {value : Json} (h : Kept key value) : Repair key repaired value repaired
  | wrapped {members : List (Str × Json)} (h : isArrayField key = true) :
    Repair key repaired (.obj members) (.arr [repaired])
  | listed {s : Str} {items : List Str} (h : isArrayField key = true) :
    Repair key repaired (.str s) (.arr (items.map .str))
  | number {s : Str} {n : Int} (h : isNumericField key = true) : Repair key repaired (.str s) (.int n)
  | boolean {s : Str} {b : Bool} (h : isBooleanField key = true) : Repair key repaired (.str s) (.bool b)

theorem ite_some {α : Type} {p : Prop} [Decidable p] {o : Option α} {a : α} (h : (if p then o else none) = some a) :
    p ∧ o = some a := by
  split at h
  · exact ⟨‹p›, h⟩
  · cases h

theorem ite_none {α : Type} {p : Prop} [Decidable p] {o : Option α} (h : (if p then o else none) = none) :
    p → o = none := by
  intro hp
  rw [if_pos hp] at h
  exact h

theorem eq_str_of_number {value number : Json} (h : numericStringAsJsonNumber value = some number) :
    ∃ s n, value = .str s ∧ number = .int n := by
  cases value with
  | str s =>
    unfold numericStringAsJsonNumber at h
    dsimp only at h
    split at h
    · cases h
    · obtain ⟨n, -, rfl⟩ := Option.map_eq_some_iff.1 h
      exact ⟨s, n, rfl, rfl⟩
  | null | bool _ | int _ | float _ | arr _ | obj _ => cases h

theorem eq_str_of_boolean {value boolean : Json} (h : booleanStringAsJsonBool value = some boolean) :
    ∃ s b, value = .str s ∧ boolean = .bool b := by
  cases value with
  | str s =>
    unfold booleanStringAsJsonBool at h
    dsimp only at h
    split at h
    · exact ⟨s, true, rfl, (Option.some.inj h).symm⟩
    · split at h
      · exact ⟨s, false, rfl, (Option.some.inj h).symm⟩
      · cases h
  | null | bool _ | int _ | float _ | arr _ | obj _ => cases h

theorem repair_repairMember (key : Str) (value repaired : Json) :
    Repair key repaired value (repairMember key value repaired) := by
  unfold repairMember
  split
  · rename_i items hitems
    obtain ⟨harray, hitems⟩ := ite_some hitems
    cases value with
    | obj members => exact .wrapped harray
    | str s =>
      unfold singletonItems at hitems
      dsimp only at hitems
      split at hitems
      · cases hitems
      · cases hitems
        exact .listed harray
    | null | bool _ | int _ | float _ | arr _ => cases hitems
  · rename_i harray
    split
    · rename_i number hnumber
      obtain ⟨hnumeric, hnumber⟩ := ite_some hnumber
      obtain ⟨s, n, rfl, rfl⟩ := eq_str_of_number hnumber
      exact .number hnumeric
    · rename_i hnumeric
      split
      · rename_i boolean hboolean
        obtain ⟨hfield, hboolean⟩ := ite_some hboolean
        obtain ⟨s, b, rfl, rfl⟩ := eq_str_of_boolean hboolean
        exact .boolean hfield
      · rename_i hboolean
        exact .kept ⟨ite_none harray, ite_none hnumeric, ite_none hboolean⟩

theorem repairMember_of_kept {key : Str} {value : Json} (h : Kept key value) (repaired : Json) :
    repairMember key value repaired = repaired := by
  obtain ⟨harray, hnumeric, hboolean⟩ := h
  unfold repairMember
  rw [ite_eq_right_iff.2 harray, ite_eq_right_iff.2 hnumeric, ite_eq_right_iff.2 hboolean]

/-- Whether the key may make a difference. -/
def isReplaceable : Json → Bool
  | .obj _ | .str _ => true
  | _ => false

theorem kept_of_not_isReplaceable {key : Str} {value : Json} (h : isReplaceable value = false) : Kept key value := by
  cases value with
  | obj _ | str _ => cases h
  | null | bool _ | int _ | float _ | arr _ => exact ⟨fun _ => rfl, fun _ => rfl, fun _ => rfl⟩

theorem kept_repair {key : Str} {value : Json} (h : Kept key value) : Kept key (repairAssistantPayload value) := by
  cases value with
  | obj members =>
    rw [repairAssistantPayload_obj]
    exact ⟨fun harray => absurd (h.1 harray) (Option.some_ne_none _), fun _ => rfl, fun _ => rfl⟩
  | arr items =>
    rw [repairAssistantPayload_arr]
    exact kept_of_not_isReplaceable rfl
  | null | bool _ | int _ | float _ | str _ => simpa only [repairAssistantPayload] using h

/-- A repaired member is left alone. -/
theorem repairedMember_repairedMember (key : Str) {value : Json}
    (h : repairAssistantPayload (repairAssistantPayload value) = repairAssistantPayload value) :
    repairedMember (repairedMember (key, value)) = repairedMember (key, value) := by
  refine Prod.ext rfl ?_
  show repairMember key (repairMember key value (repairAssistantPayload value))
      (repairAssistantPayload (repairMember key value (repairAssistantPayload value))) =
    repairMember key value (repairAssistantPayload value)
  have hrepair := repair_repairMember key value (repairAssistantPayload value)
  generalize repairMember key value (repairAssistantPayload value) = result at hrepair ⊢
  cases hrepair with
  | kept hkept => rw [repairMember_of_kept (kept_repair hkept), h]
  | wrapped =>
    rw [repairMember_of_kept (kept_of_not_isReplaceable rfl), repairAssistantPayload_arr, List.map_cons, h]
    rfl
  | listed =>
    rw [repairMember_of_kept (kept_of_not_isReplaceable rfl), repairAssistantPayload_arr, List.map_map]
    refine congrArg Json.arr (List.map_congr_left fun item _ => ?_)
    simp only [Function.comp_apply, repairAssistantPayload]
  | number | boolean =>
    rw [repairMember_of_kept (kept_of_not_isReplaceable rfl)]
    simp only [repairAssistantPayload]

/-- The second repair has nothing to do. -/
theorem repair_repair : ∀ value : Json,
    repairAssistantPayload (repairAssistantPayload value) = repairAssistantPayload value
  | .obj members => by
    rw [repairAssistantPayload_obj, repairAssistantPayload_obj, List.map_map]
    exact congrArg Json.obj (List.map_congr_left fun m _ => repairedMember_repairedMember m.1 (repair_repair m.2))
  | .arr items => by
    rw [repairAssistantPayload_arr, repairAssistantPayload_arr, List.map_map]
    exact congrArg Json.arr (List.map_congr_left fun item _ => repair_repair item)
  | .null | .bool _ | .int _ | .float _ | .str _ => by simp only [repairAssistantPayload]
termination_by value => sizeOf value
decreasing_by
  · have hm : sizeOf m < sizeOf members := List.sizeOf_lt_of_mem ‹_›
    have hvalue : sizeOf m.2 < sizeOf m := by
      obtain ⟨key, value⟩ := m
      simp only [Prod.mk.sizeOf_spec]
      omega
    simp only [Json.obj.sizeOf_spec]
    omega
  · have hitem : sizeOf item < sizeOf items := List.sizeOf_lt_of_mem ‹_›
    simp only [Json.arr.sizeOf_spec]
    omega

end AssistantPayload

/-! ### Completed payloads -/

namespace Assistant

open AssistantPayload

variable {key : Str} {value : Json} {members : List (Str × Json)}

theorem containsKey_insertMember (key : Str) (value : Json) (members : List (Str × Json)) (other : Str) :
    containsKey (insertMember key value members) other = (decide (key = other) || containsKey members other) := by
  unfold containsKey
  induction members with
  | nil => rfl
  | cons m members ih =>
    rw [insertMember]
    split
    · rfl
    · rw [List.any_cons, ih, List.any_cons, Bool.or_left_comm]

theorem map_insertMember (h : repairedMember (key, value) = (key, value)) :
    (insertMember key value members).map repairedMember = insertMember key value (members.map repairedMember) := by
  induction members with
  | nil => rw [insertMember, List.map_cons, h, List.map_nil, insertMember]
  | cons m members ih =>
    rw [insertMember, List.map_cons, insertMember]
    have hkey : (repairedMember m).1 = m.1 := rfl
    rw [hkey]
    split
    · rw [List.map_cons, h, List.map_cons]
    · rw [List.map_cons, ih]

/-- A repaired object is left alone. -/
def Repaired (members : List (Str × Json)) : Prop := members.map repairedMember = members

theorem Repaired.insertMember (h : Repaired members) (hvalue : repairedMember (key, value) = (key, value)) :
    Repaired (insertMember key value members) := by
  unfold Repaired
  rw [map_insertMember hvalue, h]

/-- What a payload for an item is completed to. -/
def completed (id summary : Str) (members : List (Str × Json)) : List (Str × Json) :=
  ensureLocation (ensureRuleName summary
    (ensureObjectField "enabled" (.bool true) (ensureObjectField "id" (.str id) members)))

/-- A payload to which nothing is added. -/
structure Complete (members : List (Str × Json)) : Prop where
  id : containsKey members "id" = true
  enabled : containsKey members "enabled" = true
  name : (containsKey members "name" || isBreakpointPayload members) = true
  location : (containsKey members "location" || containsKey members "url" || containsKey members "code") = true

theorem completed_of_complete (h : Complete members) (id summary : Str) : completed id summary members = members := by
  have hid : ensureObjectField "id" (.str id) members = members := if_pos h.id
  have henabled : ensureObjectField "enabled" (.bool true) members = members := if_pos h.enabled
  have hname : ensureRuleName summary members = members := if_pos h.name
  unfold completed
  rw [hid, henabled, hname]
  exact if_pos h.location

/-- The members of one object are under keys of another as well. -/
def KeysIn (members others : List (Str × Json)) : Prop :=
  ∀ key, containsKey members key = true → containsKey others key = true

theorem keysIn_insertMember (key : Str) (value : Json) (members : List (Str × Json)) :
    KeysIn members (insertMember key value members) := by
  intro other h
  rw [containsKey_insertMember, h, Bool.or_true]

theorem containsKey_self (key : Str) (value : Json) (members : List (Str × Json)) :
    containsKey (insertMember key value members) key = true := by
  rw [containsKey_insertMember, decide_eq_true rfl, Bool.true_or]

theorem keysIn_ensureObjectField (key : Str) (value : Json) (members : List (Str × Json)) :
    KeysIn members (ensureObjectField key value members) := by
  unfold ensureObjectField
  split
  · exact fun _ h => h
  · exact keysIn_insertMember _ _ _

theorem keysIn_ensureRuleName (summary : Str) (members : List (Str × Json)) :
    KeysIn members (ensureRuleName summary members) := by
  unfold ensureRuleName
  split
  · exact fun _ h => h
  · exact keysIn_insertMember _ _ _

theorem keysIn_ensureLocation (members : List (Str × Json)) : KeysIn members (ensureLocation members) := by
  unfold ensureLocation
  split
  · exact fun _ h => h
  · exact keysIn_insertMember _ _ _

theorem containsKey_ensureObjectField (key : Str) (value : Json) (members : List (Str × Json)) :
    containsKey (ensureObjectField key value members) key = true := by
  unfold ensureObjectField
  split
  · assumption
  · exact containsKey_self _ _ _

theorem named_ensureRuleName (summary : Str) (members : List (Str × Json)) :
    (containsKey (ensureRuleName summary members) "name" || isBreakpointPayload (ensureRuleName summary members)) =
      true := by
  unfold ensureRuleName
  split
  · assumption
  · rw [containsKey_self, Bool.true_or]

theorem complete_completed (id summary : Str) (members : List (Str × Json)) :
    Complete (completed id summary members) := by
  have hlocation := keysIn_ensureLocation (ensureRuleName summary
    (ensureObjectField "enabled" (.bool true) (ensureObjectField "id" (.str id) members)))
  have hname := keysIn_ensureRuleName summary
    (ensureObjectField "enabled" (.bool true) (ensureObjectField "id" (.str id) members))
  refine ⟨?_, ?_, ?_, ?_⟩
  · exact hlocation _ (hname _ (keysIn_ensureObjectField _ _ _ _ (containsKey_ensureObjectField _ _ _)))
  · exact hlocation _ (hname _ (containsKey_ensureObjectField _ _ _))
  · rcases Bool.or_eq_true_iff.1 (named_ensureRuleName summary
      (ensureObjectField "enabled" (.bool true) (ensureObjectField "id" (.str id) members))) with h | h
    · exact Bool.or_eq_true_iff.2 (Or.inl (hlocation _ h))
    · exact Bool.or_eq_true_iff.2 (Or.inr (hlocation _ h))
  · unfold completed ensureLocation
    split
    · assumption
    · rw [containsKey_self, Bool.true_or, Bool.true_or]

theorem Repaired.ensureObjectField (h : Repaired members) (hvalue : repairedMember (key, value) = (key, value)) :
    Repaired (ensureObjectField key value members) := by
  unfold Assistant.ensureObjectField
  split
  · exact h
  · exact h.insertMember hvalue

theorem repaired_completed (h : Repaired members) (id summary : Str) : Repaired (completed id summary members) := by
  have henabled : Repaired (ensureObjectField "enabled" (.bool true) (ensureObjectField "id" (.str id) members)) :=
    (h.ensureObjectField rfl).ensureObjectField rfl
  have hname : Repaired (ensureRuleName summary
      (ensureObjectField "enabled" (.bool true) (ensureObjectField "id" (.str id) members))) := by
    unfold ensureRuleName
    split
    · exact henabled
    · exact henabled.insertMember rfl
  unfold completed ensureLocation
  split
  · exact hname
  · exact hname.insertMember rfl

/-- The members of a payload as they are sent to be carried out. -/
def normalMembers (method endpoint summary : Str) (members : List (Str × Json)) : List (Str × Json) :=
  match defaultItemId method endpoint with
  | some id => completed id summary (members.map repairedMember)
  | none => members.map repairedMember

theorem normalizeActionPayload_obj {method : Str} (hmethod : method ≠ "DELETE") (endpoint summary : Str)
    (members : List (Str × Json)) :
    normalizeActionPayload method endpoint (.obj members) summary =
      .ok (.obj (normalMembers method endpoint summary members)) := by
  have hcase : ¬(method = "DELETE" ∨ (Json.obj members).isNull = true) := by
    rintro (h | h)
    · exact hmethod h
    · cases h
  unfold normalizeActionPayload normalMembers
  rw [if_neg hcase, repairAssistantPayload_obj]
  dsimp only
  cases defaultItemId method endpoint <;> rfl

theorem normalMembers_idem (method endpoint summary : Str) (members : List (Str × Json)) :
    normalMembers method endpoint summary (normalMembers method endpoint summary members) =
      normalMembers method endpoint summary members := by
  have hrepaired : Repaired (members.map repairedMember) := by
    have h := repair_repair (.obj members)
    rw [repairAssistantPayload_obj, repairAssistantPayload_obj] at h
    exact Json.obj.inj h
  unfold normalMembers
  cases defaultItemId method endpoint with
  | none => exact hrepaired
  | some id =>
    dsimp only
    have hcompleted := repaired_completed hrepaired id summary
    unfold Repaired at hcompleted
    rw [hcompleted]
    exact completed_of_complete (complete_completed id summary _) id summary

/-- What a payload is normalised to stays as it is. -/
theorem normalizeActionPayload_idem {method endpoint summary : Str} {payload normal : Json}
    (h : normalizeActionPayload method endpoint payload summary = .ok normal) :
    normalizeActionPayload method endpoint normal summary = .ok normal := by
  by_cases hcase : method = "DELETE" ∨ payload.isNull = true
  · unfold normalizeActionPayload at h
    rw [if_pos hcase] at h
    cases h
    exact if_pos hcase
  · obtain ⟨hmethod, hnull⟩ := not_or.1 hcase
    cases payload with
    | obj members =>
      rw [normalizeActionPayload_obj hmethod] at h
      cases h
      rw [normalizeActionPayload_obj hmethod, normalMembers_idem]
    | null => exact absurd rfl hnull
    | arr items =>
      unfold normalizeActionPayload at h
      rw [if_neg hcase, repairAssistantPayload_arr] at h
      cases h
    | bool _ | int _ | float _ | str _ =>
      unfold normalizeActionPayload at h
      rw [if_neg hcase] at h
      simp only [repairAssistantPayload] at h
      cases h

end Assistant

end Oproxy
