import Oproxy.Middleware.HeaderMap

/-!
# Appending to a header (`middleware/mod.rs`)

`append_header` joins a value to the first one of a field and writes the field anew.  What the field had beside its
first value is lost by that, unless it is part of the joined value; so is an empty first value.
-/

namespace Oproxy

namespace AppendHeader

def separator : Str := ", "

/-- A text is an element of a value which others are joined to, before it or behind it. -/
def Element (element value : Str) : Prop :=
  ∃ before after, value = before ++ element ++ after ∧ (before = [] ∨ separator <:+ before) ∧
    (after = [] ∨ separator <+: after)

theorem element_self (value : Str) : Element value value := ⟨[], [], by simp, Or.inl rfl, Or.inl rfl⟩

theorem element_first (first value : Str) : Element first (first ++ separator ++ value) :=
  ⟨[], separator ++ value, by simp, Or.inl rfl, Or.inr (List.prefix_append _ _)⟩

/-- Every value from before is there under its name, alone or joined; the new one is the last of its name; and the
other fields are as they were. -/
def LosesNothing (headers : HeaderMap) (name value : Str) : Prop :=
  (∀ key, ∀ old ∈ headers.getAll key, ∃ new ∈ (appendHeader headers name value).getAll key, Element old new) ∧
    (∃ last, ((appendHeader headers name value).getAll name).getLast? = some last ∧
      (last = value ∨ separator ++ value <:+ last)) ∧
    ((appendHeader headers name value).entries.filter fun e => e.1 ≠ name.toAsciiLowercase) =
      headers.entries.filter fun e => e.1 ≠ name.toAsciiLowercase

/-- The further values of the field are elements of the first one joined with the new one, which is the new one alone
where the first is empty. -/
def FurtherValuesKept (headers : HeaderMap) (name value : Str) : Prop :=
  match headers.getAll name with
  | [] => True
  | first :: rest =>
    if first = [] then ∀ old ∈ first :: rest, Element old value
    else ∀ old ∈ rest, Element old (first ++ separator ++ value)

/-- The value which is written. -/
def joined (headers : HeaderMap) (name value : Str) : Str :=
  match headers.getAll name with
  | [] => value
  | first :: _ => if first = [] then value else first ++ separator ++ value

theorem appendHeader_eq (headers : HeaderMap) (name value : Str) :
    appendHeader headers name value = headers.insert name (joined headers name value) := by
  unfold appendHeader joined separator
  rw [HeaderMap.get_eq_head?]
  cases headers.getAll name with
  | nil => rfl
  | cons first rest => cases first <;> rfl

theorem joined_ends (headers : HeaderMap) (name value : Str) :
    joined headers name value = value ∨ separator ++ value <:+ joined headers name value := by
  unfold joined
  split
  · exact Or.inl rfl
  · split
    · exact Or.inl rfl
    · rw [List.append_assoc]
      exact Or.inr (List.suffix_append _ _)

theorem entries_insert_filter (headers : HeaderMap) (name value : Str) :
    ((headers.insert name value).entries.filter fun e => e.1 ≠ name.toAsciiLowercase) =
      headers.entries.filter fun e => e.1 ≠ name.toAsciiLowercase := by
  unfold HeaderMap.insert HeaderMap.append HeaderMap.remove HeaderMap.retain
  dsimp only
  rw [List.filter_append, List.filter_filter]
  have hlast : [(name.toAsciiLowercase, value)].filter (fun e => e.1 ≠ name.toAsciiLowercase) = [] := by simp
  rw [hlast, List.append_nil]
  refine List.filter_congr fun e he => ?_
  by_cases hname : e.1 = name.toAsciiLowercase
  · simp [hname]
  · simp [Str.eqIgnoreAsciiCase, headers.lower e he, hname]

/-- The exact condition on a map and what is appended. -/
theorem losesNothing_iff (headers : HeaderMap) (name value : Str) :
    LosesNothing headers name value ↔ FurtherValuesKept headers name value := by
  have hname : (headers.insert name (joined headers name value)).getAll name = [joined headers name value] := by
    rw [HeaderMap.getAll_insert, if_pos rfl]
  -- the other fields stay, and the new value is the last one
  have hkept : LosesNothing headers name value ↔
      ∀ old ∈ headers.getAll name, Element old (joined headers name value) := by
    unfold LosesNothing
    rw [appendHeader_eq, hname, entries_insert_filter]
    constructor
    · rintro ⟨hkept, -, -⟩ old hold
      obtain ⟨new, hnew, helement⟩ := hkept name old hold
      rw [hname, List.mem_singleton] at hnew
      rwa [hnew] at helement
    · intro hall
      refine ⟨fun key old hold => ?_, ⟨_, rfl, joined_ends headers name value⟩, rfl⟩
      rw [HeaderMap.getAll_insert]
      by_cases hkey : name.toAsciiLowercase = key.toAsciiLowercase
      · have hsame : headers.getAll key = headers.getAll name := by
          unfold HeaderMap.getAll
          rw [hkey]
        rw [if_pos hkey]
        exact ⟨_, List.mem_singleton_self _, hall old (hsame ▸ hold)⟩
      · rw [if_neg hkey]
        exact ⟨old, hold, element_self old⟩
  rw [hkept]
  unfold FurtherValuesKept joined
  cases headers.getAll name with
  | nil => simp
  | cons first rest =>
    dsimp only
    split
    · rfl
    · rw [List.forall_mem_cons]
      exact and_iff_right (element_first first value)

/-- A second cookie is lost when a third is appended. -/
theorem not_losesNothing : ¬ ∀ headers name value, LosesNothing headers name value := by
  intro h
  have hkept := (h (HeaderMap.fromIter [("set-cookie", "a"), ("set-cookie", "b")]) "set-cookie" "c").1 "set-cookie" "b"
    (by decide +kernel)
  obtain ⟨new, hnew, before, after, heq, -, -⟩ := hkept
  have hvalue : (appendHeader (HeaderMap.fromIter [("set-cookie", "a"), ("set-cookie", "b")]) "set-cookie" "c").getAll
      "set-cookie" = [("a, c" : Str)] := by decide +kernel
  rw [hvalue, List.mem_singleton] at hnew
  have hmem : 'b' ∈ new := by
    rw [heq]
    simp
  rw [hnew] at hmem
  exact absurd hmem (by decide)

end AppendHeader

end Oproxy
