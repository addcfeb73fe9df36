import Oproxy.Har.Redaction

/-!
# What a body hides (`redaction.rs`)

Redaction hides everything under a sensitive key, at whatever depth.  Of this, the scalars which have a sensitive key
themselves are looked for in the response; those which stray under other keys below are not.
-/

namespace Oproxy

namespace Redaction

/-- The text of a scalar. -/
def leafText : Json → Str
  | .str s => s
  | .int n => Json.ofInt n
  | .float lexeme => lexeme
  | .bool b => if b then "true" else "false"
  | .null => "null"
  | .arr _ => []
  | .obj _ => []

mutual

/-- The scalars with a sensitive key above them; `hidden` says whether the value has one. -/
def hiddenJson (hidden : Bool) : Json → List Str
  | .obj members => hiddenMembers hidden members
  | .arr items => hiddenItems hidden items
  | leaf => if hidden then [leafText leaf] else []

def hiddenItems (hidden : Bool) : List Json → List Str
  | [] => []
  | item :: items => hiddenJson hidden item ++ hiddenItems hidden items

def hiddenMembers (hidden : Bool) : List (Str × Json) → List Str
  | [] => []
  | (key, child) :: members => hiddenJson (hidden || isSensitiveKey key) child ++ hiddenMembers hidden members

end

mutual

/-- The scalars without a sensitive key above them. -/
def shownJson : Json → List Str
  | .obj members => shownMembers members
  | .arr items => shownItems items
  | leaf => [leafText leaf]

def shownItems : List Json → List Str
  | [] => []
  | item :: items => shownJson item ++ shownItems items

def shownMembers : List (Str × Json) → List Str
  | [] => []
  | (key, child) :: members => (if isSensitiveKey key then [] else shownJson child) ++ shownMembers members

end

mutual

/-- The hidden scalars whose own key is not sensitive, and the hidden nulls. -/
def strayJson (hidden : Bool) (key : Str) : Json → List Str
  | .obj members => strayMembers hidden members
  | .arr items => strayItems hidden key items
  | .null => if hidden then [leafText .null] else []
  | leaf => if hidden && !isSensitiveKey key then [leafText leaf] else []

def strayItems (hidden : Bool) (key : Str) : List Json → List Str
  | [] => []
  | item :: items => strayJson hidden key item ++ strayItems hidden key items

def strayMembers (hidden : Bool) : List (Str × Json) → List Str
  | [] => []
  | (key, child) :: members => strayJson (hidden || isSensitiveKey key) key child ++ strayMembers hidden members

end

/-! ### What redaction leaves of a value -/

mutual

/-- Redaction shows what has no sensitive key above it. -/
theorem shownJson_redact (value : Json) : shownJson (redactJsonValue value) = shownJson value := by
  cases value with
  | obj members => exact shownMembers_redact members
  | arr items => exact shownItems_redact items
  | null => rfl
  | bool b => rfl
  | int n => rfl
  | float lexeme => rfl
  | str s => rfl

theorem shownItems_redact (items : List Json) : shownItems (redactItems items) = shownItems items := by
  cases items with
  | nil => rfl
  | cons item items => rw [redactItems, shownItems, shownItems, shownJson_redact item, shownItems_redact items]

theorem shownMembers_redact (members : List (Str × Json)) :
    shownMembers (redactMembers members) = shownMembers members := by
  cases members with
  | nil => rfl
  | cons member members =>
    obtain ⟨key, child⟩ := member
    rw [redactMembers, shownMembers, shownMembers, shownMembers_redact members]
    by_cases hkey : isSensitiveKey key = true
    · rw [if_pos hkey, if_pos hkey]
    · rw [if_neg hkey, if_neg hkey, if_neg hkey, shownJson_redact child]

end

mutual

/-- And it hides the rest: under sensitive keys stands the mark. -/
theorem hiddenJson_redact (value : Json) : ∀ text ∈ hiddenJson false (redactJsonValue value), text = redacted := by
  cases value with
  | obj members => exact hiddenMembers_redact members
  | arr items => exact hiddenItems_redact items
  | null => exact fun text h => absurd h List.not_mem_nil
  | bool b => exact fun text h => absurd h List.not_mem_nil
  | int n => exact fun text h => absurd h List.not_mem_nil
  | float lexeme => exact fun text h => absurd h List.not_mem_nil
  | str s => exact fun text h => absurd h List.not_mem_nil

theorem hiddenItems_redact (items : List Json) : ∀ text ∈ hiddenItems false (redactItems items), text = redacted := by
  cases items with
  | nil => exact fun text h => absurd h List.not_mem_nil
  | cons item items =>
    intro text h
    rw [redactItems, hiddenItems, List.mem_append] at h
    exact h.elim (hiddenJson_redact item text) (hiddenItems_redact items text)

theorem hiddenMembers_redact (members : List (Str × Json)) :
    ∀ text ∈ hiddenMembers false (redactMembers members), text = redacted := by
  cases members with
  | nil => exact fun text h => absurd h List.not_mem_nil
  | cons member members =>
    obtain ⟨key, child⟩ := member
    intro text h
    rw [redactMembers, hiddenMembers, List.mem_append, Bool.false_or] at h
    refine h.elim (fun hchild => ?_) (hiddenMembers_redact members text)
    by_cases hkey : isSensitiveKey key = true
    · rw [if_pos hkey, hkey] at hchild
      exact List.mem_singleton.1 hchild
    · rw [if_neg hkey, Bool.eq_false_iff.2 hkey] at hchild
      exact hiddenJson_redact child text hchild

end

/-! ### Hidden is stray or carried -/

private theorem mem_hiddenLeaf {text leaf : Str} {hidden : Bool} {key : Str}
    (h : isSensitiveKey key = true → hidden = true) :
    text ∈ (if hidden then [leaf] else []) ↔
      text ∈ (if hidden && !isSensitiveKey key then [leaf] else []) ∨
        text ∈ (if isSensitiveKey key then [leaf] else []) := by
  by_cases hkey : isSensitiveKey key = true
  · rw [h hkey, hkey]
    simp
  · rw [Bool.eq_false_iff.2 hkey]
    cases hidden <;> simp

mutual

/-- A hidden scalar is one which the request carries under a sensitive key of its own, or a stray one. -/
theorem mem_hiddenJson {text : Str} {hidden : Bool} {key : Str} (h : isSensitiveKey key = true → hidden = true)
    (value : Json) :
    text ∈ hiddenJson hidden value ↔ text ∈ strayJson hidden key value ∨ text ∈ carriedJsonValues key value := by
  cases value with
  | obj members => exact mem_hiddenMembers members
  | arr items => exact mem_hiddenItems h items
  | null => exact (or_iff_left List.not_mem_nil).symm
  | bool b => exact mem_hiddenLeaf h
  | int n => exact mem_hiddenLeaf h
  | float lexeme => exact mem_hiddenLeaf h
  | str s => exact mem_hiddenLeaf h

theorem mem_hiddenItems {text : Str} {hidden : Bool} {key : Str} (h : isSensitiveKey key = true → hidden = true)
    (items : List Json) :
    text ∈ hiddenItems hidden items ↔ text ∈ strayItems hidden key items ∨ text ∈ carriedItems key items := by
  cases items with
  | nil => exact (or_self_iff (a := text ∈ ([] : List Str))).symm
  | cons item items =>
    rw [hiddenItems, strayItems, carriedItems, List.mem_append, List.mem_append, List.mem_append,
      mem_hiddenJson h item, mem_hiddenItems h items, or_or_or_comm]

theorem mem_hiddenMembers {text : Str} {hidden : Bool} (members : List (Str × Json)) :
    text ∈ hiddenMembers hidden members ↔ text ∈ strayMembers hidden members ∨ text ∈ carriedMembers members := by
  cases members with
  | nil => exact (or_self_iff (a := text ∈ ([] : List Str))).symm
  | cons member members =>
    obtain ⟨key, child⟩ := member
    have hkey : isSensitiveKey key = true → (hidden || isSensitiveKey key) = true := by
      intro hkey
      rw [hkey, Bool.or_true]
    rw [hiddenMembers, strayMembers, carriedMembers, List.mem_append, List.mem_append, List.mem_append,
      mem_hiddenJson hkey child, mem_hiddenMembers members, or_or_or_comm]

end

/-! ### The values of a body -/

section

variable (parseJson : Str → Option Json) (headers : HeaderMap) (body : Str)

/-- What redaction hides of a body because of the keys. -/
def hiddenBodyValues : List Str :=
  if body.trim.isEmpty then []
  else
    match parseJson body with
    | some value => hiddenJson false value
    | none => carriedFieldValues (separator body) body

/-- The hidden scalars which have no sensitive key of their own; all fields of a form have one. -/
def strayBodyValues : List Str :=
  if body.trim.isEmpty then []
  else
    match parseJson body with
    | some value => strayJson false [] value
    | none => []

/-- What is hidden in the body and has at least four bytes is looked for in the response. -/
def HiddenAreCollected : Prop :=
  ∀ text ∈ hiddenBodyValues parseJson body, 4 ≤ text.trim.utf8Len →
    text.trim ∈ sensitiveValues parseJson headers body

/-- The hidden scalars are not the mark, and those without a sensitive key of their own are also there with one, or in a
header with a sensitive name. -/
def StraysAreCarried : Prop :=
  (∀ text ∈ hiddenBodyValues parseJson body, text.trim ≠ redacted) ∧
    ∀ text ∈ strayBodyValues parseJson body, 4 ≤ text.trim.utf8Len →
      ∃ carried ∈ carriedHeaderValues headers ++ carriedBodyValues parseJson body, carried.trim = text.trim

theorem mem_hiddenBodyValues {text : Str} : text ∈ hiddenBodyValues parseJson body ↔
    text ∈ strayBodyValues parseJson body ∨ text ∈ carriedBodyValues parseJson body := by
  unfold hiddenBodyValues strayBodyValues carriedBodyValues
  split
  · exact (or_self_iff (a := text ∈ ([] : List Str))).symm
  · cases parseJson body with
    | none => exact (or_iff_right List.not_mem_nil).symm
    | some value =>
      refine mem_hiddenJson (fun hkey => ?_) value
      exact absurd hkey (by decide +kernel)

/-- The exact condition on a request. -/
theorem hiddenAreCollected_iff :
    HiddenAreCollected parseJson headers body ↔ StraysAreCarried parseJson headers body := by
  have hmark : 4 ≤ Str.utf8Len redacted := by decide +kernel
  constructor
  · intro h
    have hcollected : ∀ text ∈ hiddenBodyValues parseJson body, 4 ≤ text.trim.utf8Len →
        Collected parseJson headers body text.trim := fun text hmem hlong => mem_sensitiveValues.1 (h text hmem hlong)
    refine ⟨fun text hmem heq => ?_, fun text hmem hlong => ?_⟩
    · have hliteral := (hcollected text hmem (heq ▸ hmark)).1
      rw [heq] at hliteral
      exact absurd hliteral (by decide +kernel)
    · exact (hcollected text ((mem_hiddenBodyValues parseJson body).2 (Or.inl hmem)) hlong).2
  · rintro ⟨hnomark, hstray⟩ text hmem hlong
    have hliteral : shouldRedactLiteral text.trim = true := by
      unfold shouldRedactLiteral
      rw [Bool.and_eq_true, decide_eq_true_iff, decide_eq_true_iff]
      exact ⟨hlong, hnomark text hmem⟩
    refine mem_sensitiveValues.2 ⟨hliteral, ?_⟩
    rcases (mem_hiddenBodyValues parseJson body).1 hmem with hstrays | hcarried
    · exact hstray text hstrays hlong
    · exact ⟨text, List.mem_append_right _ hcarried, rfl⟩

end

/-- A password with a name of its own, which the request hides and the response may echo. -/
theorem not_hiddenAreCollected : ¬ ∀ parseJson headers body, HiddenAreCollected parseJson headers body := by
  intro h
  have hcollected := h (fun _ => some (.obj [("password", .obj [("value", .str "hunter22")])])) HeaderMap.new
    "\x7b\"password\":\x7b\"value\":\"hunter22\"\x7d\x7d" "hunter22" (by decide +kernel) (by decide +kernel)
  exact absurd hcollected (by decide +kernel)

end Redaction

end Oproxy
