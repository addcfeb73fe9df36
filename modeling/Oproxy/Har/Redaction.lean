import Mathlib.Data.Char
import Mathlib.Data.List.Lex
import Oproxy.Lib.Template
import Oproxy.Middleware.HeaderMap

/-!
# Redaction (`redaction.rs`)

What an exchange carries under sensitive names, and the texts in which such values are replaced by a mark.  A body is
read as JSON where it can be, and otherwise as form fields which `&` or the ends of the lines separate; `parseJson` is
the reader of JSON texts.
-/

namespace Oproxy

namespace Redaction

def redacted : Str := "[redacted]"

def isSensitiveKey (key : Str) : Bool :=
  let key := key.trim.toAsciiLowercase.map fun c => if c = '-' then '_' else c
  (["authorization", "cookie", "set_cookie", "x_api_key", "api_key", "access_token", "refresh_token", "password",
    "secret", "token"].map String.toList).contains key || Str.contains "password" key || Str.contains "secret" key ||
    ("_token" : Str).isSuffixOf key || Str.contains "api_key" key

def redactHeaders (headers : HeaderMap) : HeaderMap :=
  HeaderMap.fromIter (headers.entries.map fun e => (e.1, if isSensitiveKey e.1 then redacted else e.2))

/-! ### Sensitive values -/

def shouldRedactLiteral (value : Str) : Bool := 4 ≤ value.utf8Len && value ≠ redacted

def pushSensitiveValue (value : Str) : List Str := if shouldRedactLiteral value.trim then [value.trim] else []

mutual

def collectSensitiveJsonValues (key : Str) : Json → List Str
  | .obj members => collectMembers members
  | .arr items => collectItems key items
  | .str s => if isSensitiveKey key then pushSensitiveValue s else []
  | .int n => if isSensitiveKey key then pushSensitiveValue (Json.ofInt n) else []
  | .float lexeme => if isSensitiveKey key then pushSensitiveValue lexeme else []
  | .bool b => if isSensitiveKey key then pushSensitiveValue (if b then "true" else "false") else []
  | .null => []

def collectItems (key : Str) : List Json → List Str
  | [] => []
  | item :: items => collectSensitiveJsonValues key item ++ collectItems key items

def collectMembers : List (Str × Json) → List Str
  | [] => []
  | (childKey, child) :: members => collectSensitiveJsonValues childKey child ++ collectMembers members

end

/-- The character which separates the fields of a form-like text. -/
def separator (body : Str) : Char := if '&' ∈ body then '&' else '\n'

def collectSensitiveUrlencodedLikeValues (body : Str) : List Str :=
  (Str.split (separator body) body).flatMap fun part =>
    match Str.splitOnce '=' part with
    | some (key, value) => if isSensitiveKey key then pushSensitiveValue value else []
    | none => []

def collectSensitiveBodyValues (parseJson : Str → Option Json) (body : Str) : List Str :=
  if body.trim.isEmpty then []
  else
    match parseJson body with
    | some value => collectSensitiveJsonValues [] value
    | none => collectSensitiveUrlencodedLikeValues body

/-- Drop the elements which are equal to the one before. -/
def dedup : List Str → List Str
  | [] => []
  | [a] => [a]
  | a :: b :: rest => if a = b then dedup (b :: rest) else a :: dedup (b :: rest)

def sensitiveValues (parseJson : Str → Option Json) (headers : HeaderMap) (body : Str) : List Str :=
  let values := headers.entries.flatMap (fun e => if isSensitiveKey e.1 then pushSensitiveValue e.2 else []) ++
    collectSensitiveBodyValues parseJson body
  dedup (values.mergeSort fun a b => a ≤ b)

def redactKnownValues (text : Str) (values : List Str) : Str :=
  values.foldl (fun acc value => if shouldRedactLiteral value then Str.replace value redacted acc else acc) text

/-! ### Redacted bodies -/

mutual

def redactJsonValue : Json → Json
  | .obj members => .obj (redactMembers members)
  | .arr items => .arr (redactItems items)
  | .null => .null
  | .bool b => .bool b
  | .int n => .int n
  | .float lexeme => .float lexeme
  | .str s => .str s

def redactItems : List Json → List Json
  | [] => []
  | item :: items => redactJsonValue item :: redactItems items

def redactMembers : List (Str × Json) → List (Str × Json)
  | [] => []
  | (key, child) :: members =>
    (key, if isSensitiveKey key then .str redacted else redactJsonValue child) :: redactMembers members

end

def redactPart (part : Str) : Str :=
  match Str.splitOnce '=' part with
  | some (key, value) => if isSensitiveKey key then key ++ '=' :: redacted else key ++ '=' :: value
  | none => part

def redactUrlencodedLike (body : Str) : Str :=
  [separator body].intercalate ((Str.split (separator body) body).map redactPart)

def redactBodyText (parseJson : Str → Option Json) (body : Str) : Str :=
  if body.trim.isEmpty then body
  else
    match parseJson body with
    | some value => (redactJsonValue value).pretty 0
    | none => redactUrlencodedLike body

/-! ### The values which are collected -/

private theorem mem_dedup {a : Str} {l : List Str} : a ∈ dedup l ↔ a ∈ l := by
  induction l with
  | nil => rfl
  | cons b l ih =>
    cases l with
    | nil => rfl
    | cons c rest =>
      unfold dedup
      split
      · rename_i heq
        rw [ih, heq]
        simp
      · rw [List.mem_cons, ih, @List.mem_cons _ b (c :: rest) a]

/-- In a sorted list equal elements are neighbours. -/
private theorem nodup_dedup {l : List Str} (h : l.Pairwise (· ≤ ·)) : (dedup l).Nodup := by
  induction l with
  | nil => exact List.nodup_nil
  | cons a l ih =>
    cases l with
    | nil => exact List.nodup_singleton a
    | cons b rest =>
      obtain ⟨hhead, htail⟩ := List.pairwise_cons.1 h
      unfold dedup
      split
      · exact ih htail
      · rename_i hne
        refine List.nodup_cons.2 ⟨fun hmem => ?_, ih htail⟩
        rw [mem_dedup] at hmem
        have hab : a ≤ b := hhead b List.mem_cons_self
        have hba : b ≤ a := by
          rcases List.mem_cons.1 hmem with rfl | hmem
          · exact le_refl a
          · exact (List.pairwise_cons.1 htail).1 a hmem
        exact hne (le_antisymm hab hba)

private theorem sublist_dedup (l : List Str) : (dedup l).Sublist l := by
  induction l with
  | nil => exact .slnil
  | cons a l ih =>
    cases l with
    | nil => exact List.Sublist.refl _
    | cons b rest =>
      unfold dedup
      split
      · exact ih.cons a
      · exact ih.cons_cons a

/-- The values are replaced in their order, each of them once. -/
theorem sorted_sensitiveValues (parseJson : Str → Option Json) (headers : HeaderMap) (body : Str) :
    (sensitiveValues parseJson headers body).Pairwise (· < ·) := by
  have hsorted : ∀ values : List Str, (values.mergeSort fun a b => a ≤ b).Pairwise (· ≤ ·) := by
    intro values
    have hpairwise := @List.pairwise_mergeSort Str (fun a b => decide (a ≤ b))
      (fun a b c hab hbc => decide_eq_true (le_trans (of_decide_eq_true hab) (of_decide_eq_true hbc)))
      (fun a b => by simpa using le_total a b) values
    exact hpairwise.imp fun hab => of_decide_eq_true hab
  unfold sensitiveValues
  dsimp only
  generalize headers.entries.flatMap _ ++ _ = values
  have hle := (hsorted values).sublist (sublist_dedup _)
  exact (hle.and (nodup_dedup (hsorted values))).imp fun hab => lt_of_le_of_ne hab.1 hab.2

theorem nodup_sensitiveValues (parseJson : Str → Option Json) (headers : HeaderMap) (body : Str) :
    (sensitiveValues parseJson headers body).Nodup := (sorted_sensitiveValues parseJson headers body).imp ne_of_lt

/-! ### The values which a request carries -/

/-- The values of the headers with sensitive names. -/
def carriedHeaderValues (headers : HeaderMap) : List Str :=
  (headers.entries.filter fun e => isSensitiveKey e.1).map Prod.snd

mutual

/-- The scalars of a JSON value whose key is sensitive, the elements of an array having the key of the array. -/
def carriedJsonValues (key : Str) : Json → List Str
  | .obj members => carriedMembers members
  | .arr items => carriedItems key items
  | .str s => if isSensitiveKey key then [s] else []
  | .int n => if isSensitiveKey key then [Json.ofInt n] else []
  | .float lexeme => if isSensitiveKey key then [lexeme] else []
  | .bool b => if isSensitiveKey key then [if b then "true" else "false"] else []
  | .null => []

def carriedItems (key : Str) : List Json → List Str
  | [] => []
  | item :: items => carriedJsonValues key item ++ carriedItems key items

def carriedMembers : List (Str × Json) → List Str
  | [] => []
  | (childKey, child) :: members => carriedJsonValues childKey child ++ carriedMembers members

end

/-- A part which is a field with a sensitive name. -/
def sensitiveField (part : Str) : Option (Str × Str) :=
  (Str.splitOnce '=' part).filter fun field => isSensitiveKey field.1

/-- The values of the fields with sensitive names, where `sep` stands between two fields. -/
def carriedFieldValues (sep : Char) (text : Str) : List Str :=
  (Str.split sep text).filterMap fun part => (sensitiveField part).map Prod.snd

def carriedBodyValues (parseJson : Str → Option Json) (body : Str) : List Str :=
  if body.trim.isEmpty then []
  else
    match parseJson body with
    | some value => carriedJsonValues [] value
    | none => carriedFieldValues (separator body) body

/-- A value which the request carries, as it is looked for in the response: without the white space around it, with at
least four bytes, and not the mark. -/
def Collected (parseJson : Str → Option Json) (headers : HeaderMap) (body value : Str) : Prop :=
  shouldRedactLiteral value = true ∧
    ∃ carried ∈ carriedHeaderValues headers ++ carriedBodyValues parseJson body, carried.trim = value

private theorem mem_pushSensitiveValue {v value : Str} :
    v ∈ pushSensitiveValue value ↔ shouldRedactLiteral v = true ∧ value.trim = v := by
  unfold pushSensitiveValue
  split
  · rename_i h
    rw [List.mem_singleton]
    constructor
    · rintro rfl
      exact ⟨h, rfl⟩
    · exact fun hv => hv.2.symm
  · rename_i h
    exact ⟨fun hv => absurd hv List.not_mem_nil, fun hv => absurd (hv.2 ▸ hv.1) h⟩

private theorem pushSensitiveValue_ite (p : Prop) [Decidable p] (value : Str) :
    (if p then pushSensitiveValue value else []) = (if p then [value] else []).flatMap pushSensitiveValue := by
  split
  · exact (List.flatMap_singleton pushSensitiveValue value).symm
  · rfl

mutual

private theorem collectSensitiveJsonValues_eq (key : Str) (value : Json) :
    collectSensitiveJsonValues key value = (carriedJsonValues key value).flatMap pushSensitiveValue := by
  cases value with
  | obj members => exact collectMembers_eq members
  | arr items => exact collectItems_eq key items
  | null => rfl
  | str s => exact pushSensitiveValue_ite (isSensitiveKey key = true) _
  | int n => exact pushSensitiveValue_ite (isSensitiveKey key = true) _
  | float lexeme => exact pushSensitiveValue_ite (isSensitiveKey key = true) _
  | bool b => exact pushSensitiveValue_ite (isSensitiveKey key = true) _

private theorem collectItems_eq (key : Str) (items : List Json) :
    collectItems key items = (carriedItems key items).flatMap pushSensitiveValue := by
  cases items with
  | nil => rfl
  | cons item items =>
    rw [collectItems, carriedItems, List.flatMap_append, collectSensitiveJsonValues_eq key item,
      collectItems_eq key items]

private theorem collectMembers_eq (members : List (Str × Json)) :
    collectMembers members = (carriedMembers members).flatMap pushSensitiveValue := by
  cases members with
  | nil => rfl
  | cons member members =>
    obtain ⟨childKey, child⟩ := member
    rw [collectMembers, carriedMembers, List.flatMap_append, collectSensitiveJsonValues_eq childKey child,
      collectMembers_eq members]

end

private theorem collectSensitiveUrlencodedLikeValues_eq (body : Str) :
    collectSensitiveUrlencodedLikeValues body =
      (carriedFieldValues (separator body) body).flatMap pushSensitiveValue := by
  unfold collectSensitiveUrlencodedLikeValues carriedFieldValues
  induction Str.split (separator body) body with
  | nil => rfl
  | cons part parts ih =>
    rw [List.flatMap_cons, ih, List.filterMap_cons]
    unfold sensitiveField
    cases hsplit : Str.splitOnce '=' part with
    | none => rfl
    | some field =>
      obtain ⟨key, value⟩ := field
      by_cases hkey : isSensitiveKey key = true <;> simp [hkey, Option.filter]

private theorem collectSensitiveBodyValues_eq (parseJson : Str → Option Json) (body : Str) :
    collectSensitiveBodyValues parseJson body = (carriedBodyValues parseJson body).flatMap pushSensitiveValue := by
  unfold collectSensitiveBodyValues carriedBodyValues
  split
  · rfl
  · cases parseJson body with
    | some value => exact collectSensitiveJsonValues_eq [] value
    | none => exact collectSensitiveUrlencodedLikeValues_eq body

theorem mem_sensitiveValues {parseJson : Str → Option Json} {headers : HeaderMap} {body v : Str} :
    v ∈ sensitiveValues parseJson headers body ↔ Collected parseJson headers body v := by
  have hheaders : headers.entries.flatMap (fun e => if isSensitiveKey e.1 then pushSensitiveValue e.2 else []) =
      (carriedHeaderValues headers).flatMap pushSensitiveValue := by
    unfold carriedHeaderValues
    induction headers.entries with
    | nil => rfl
    | cons e entries ih => by_cases hkey : isSensitiveKey e.1 = true <;> simp [hkey, ih]
  unfold sensitiveValues Collected
  rw [mem_dedup, List.mem_mergeSort, hheaders, collectSensitiveBodyValues_eq, ← List.flatMap_append, List.mem_flatMap]
  constructor
  · rintro ⟨carried, hmem, hpush⟩
    obtain ⟨hliteral, htrim⟩ := mem_pushSensitiveValue.1 hpush
    exact ⟨hliteral, carried, hmem, htrim⟩
  · rintro ⟨hliteral, carried, hmem, htrim⟩
    exact ⟨carried, hmem, mem_pushSensitiveValue.2 ⟨hliteral, htrim⟩⟩

/-- Values which are long enough are all replaced. -/
theorem redactKnownValues_eq {values : List Str} (h : ∀ v ∈ values, shouldRedactLiteral v = true) (text : Str) :
    redactKnownValues text values = values.foldl (fun s v => Str.replace v redacted s) text := by
  unfold redactKnownValues
  induction values generalizing text with
  | nil => rfl
  | cons v values ih =>
    obtain ⟨hv, hvalues⟩ := List.forall_mem_cons.1 h
    rw [List.foldl_cons, List.foldl_cons, if_pos hv]
    exact ih hvalues _

/-- The values before one of them are those which are less. -/
theorem mem_done_iff {parseJson : Str → Option Json} {headers : HeaderMap} {body v : Str} {done left : List Str}
    (heq : sensitiveValues parseJson headers body = done ++ v :: left) (w : Str) :
    w ∈ done ↔ Collected parseJson headers body w ∧ w < v := by
  have hsorted := sorted_sensitiveValues parseJson headers body
  have hmem := @mem_sensitiveValues parseJson headers body w
  rw [heq] at hsorted hmem
  obtain ⟨-, hrest, hcross⟩ := List.pairwise_append.1 hsorted
  rw [← hmem, List.mem_append, List.mem_cons]
  constructor
  · exact fun hw => ⟨Or.inl hw, hcross w hw v List.mem_cons_self⟩
  · rintro ⟨hw | rfl | hw, hlt⟩
    · exact hw
    · exact absurd hlt (lt_irrefl w)
    · exact absurd hlt (lt_asymm ((List.pairwise_cons.1 hrest).1 w hw))

theorem Collected.ne_nil {parseJson : Str → Option Json} {headers : HeaderMap} {body v : Str}
    (h : Collected parseJson headers body v) : v ≠ [] := by
  rintro rfl
  have hnil : shouldRedactLiteral [] = false := by decide
  exact Bool.false_ne_true (hnil.symm.trans h.1)

end Redaction

end Oproxy
