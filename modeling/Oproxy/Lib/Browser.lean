import Oproxy.Lib.Json

/-!
# What a browser does with a page and a reference

The value of an attribute in a page, the text that a form submits for it, and the origin that a reference leads to.  A
reference with a scheme goes to a parser, which is a parameter.
-/

namespace Browser

/-! ### Attributes -/

/-- The character references which stand for a character with a meaning in HTML, without the ampersand. -/
def references : List (Str × Char) :=
  [("amp;", '&'), ("lt;", '<'), ("gt;", '>'), ("quot;", Json.quoteMark), ("#x27;", '\'')]

/-- The text with its references read; the first characters are skipped. -/
def readReferences : Nat → Str → Str
  | _, [] => []
  | skip + 1, _ :: s => readReferences skip s
  | 0, c :: s =>
    match if c = '&' then references.find? fun r => Str.startsWith s r.1 else none with
    | some (name, d) => d :: readReferences name.length s
    | none => c :: readReferences 0 s

/-- What a page has for a line break is one character, and it has no null character. -/
def preprocess (s : Str) : Str :=
  (Str.replace ['\r', '\n'] ['\n'] s).map fun c =>
    if c = '\r' then '\n' else if c = Char.ofNat 0 then Char.ofNat 0xfffd else c

/-- The value of the attribute behind the text `mark`. -/
def attributeBehind (mark page : Str) : Option Str :=
  (Str.splitOnceStr mark page).map fun p => readReferences 0 (preprocess (p.2.takeWhile (· ≠ Json.quoteMark)))

/-! ### Forms -/

/-- The bytes which a form submits as they are. -/
def isFormByte (b : UInt8) : Bool :=
  let c := Char.ofNat b.toNat
  b.toNat < 128 && (c.isAlphanum || c == '*' || c == '-' || c == '.' || c == '_')

def formByte (b : UInt8) : Str :=
  if b = 0x20 then ['+']
  else if isFormByte b then [Char.ofNat b.toNat]
  else ['%', (Nat.digitChar (b.toNat / 16)).toUpper, (Nat.digitChar (b.toNat % 16)).toUpper]

/-- A value as a form submits it, with both characters of each line break. -/
def formValue (value : Str) : Str :=
  (Str.toUtf8 (value.flatMap fun c => if c = '\n' then ['\r', '\n'] else [c])).flatMap formByte

/-- The fields of a form as the body of a request. -/
def formBody (fields : List (Str × Str)) : Str :=
  List.intercalate ['&'] (fields.map fun field => formValue field.1 ++ '=' :: formValue field.2)

/-- A value without line breaks is submitted byte by byte. -/
theorem formValue_eq {value : Str} (h : '\n' ∉ value) : formValue value = value.toUtf8.flatMap formByte := by
  have hsame : (value.flatMap fun c => if c = '\n' then ['\r', '\n'] else [c]) = value.flatMap fun c => [c] := by
    apply List.flatMap_congr
    intro c hc
    rw [if_neg]
    rintro rfl
    exact h hc
  unfold formValue
  rw [hsame, List.flatMap_singleton']

/-- A text without control characters is the same in a page. -/
theorem preprocess_eq {s : Str} (hreturn : '\r' ∉ s) (hnull : Char.ofNat 0 ∉ s) : preprocess s = s := by
  have hnone : Str.replace ['\r', '\n'] ['\n'] s = s := by
    induction s with
    | nil => rfl
    | cons c s ih =>
      rw [List.mem_cons, not_or] at hreturn hnull
      rw [Str.replace_cons, ih hreturn.2 hnull.2]
      by_contra hstart
      obtain ⟨r, hr⟩ := Str.startsWith_iff.1 ((Bool.not_eq_false _).mp hstart)
      exact hreturn.1 (List.cons.inj hr).1.symm
  unfold preprocess
  rw [hnone]
  calc s.map _ = s.map id := List.map_congr_left fun c hc => by
        have hc₁ : c ≠ '\r' := fun h => hreturn (h ▸ hc)
        have hc₂ : c ≠ Char.ofNat 0 := fun h => hnull (h ▸ hc)
        rw [if_neg hc₁, if_neg hc₂]
        rfl
    _ = s := List.map_id s

/-! ### Origins -/

structure Origin where
  scheme : Str
  host : Str
  port : Nat
  deriving DecidableEq

/-- In a URL with the scheme of a web site a backslash counts as a slash. -/
def isSlash (c : Char) : Bool := c == '/' || c == '\\'

def isTabOrNewline (c : Char) : Bool := c == '\t' || c == '\n' || c == '\r'

def isControlOrSpace (c : Char) : Bool := c.val.toNat ≤ 0x20

/-- A reference without the control characters and spaces around it, and without tabs and newlines. -/
def cleanReference (s : Str) : Str :=
  ((s.dropWhile isControlOrSpace).rdropWhile isControlOrSpace).filter fun c => !isTabOrNewline c

def isSchemeChar (c : Char) : Bool := c.isAlphanum || c == '+' || c == '-' || c == '.'

def hasScheme : Str → Bool
  | [] => false
  | c :: rest => c.isAlpha && (rest.dropWhile isSchemeChar).head? == some ':'

/-- What follows the slashes, if the reference starts with two of them. -/
def authorityReference (text : Str) : Option Str :=
  match text with
  | a :: b :: rest => if isSlash a && isSlash b then some (rest.dropWhile isSlash) else none
  | _ => none

/-- The origin that a reference leads to from a page of the web site `base`; `parse` reads the references with a
scheme. -/
def resolveOrigin (parse : Str → Option Origin) (base : Origin) (reference : Str) : Option Origin :=
  let text := cleanReference reference
  if hasScheme text then parse text
  else
    match authorityReference text with
    | some authority => parse (base.scheme ++ ("://" : Str) ++ authority)
    | none => some base

private theorem rdropWhile_append_cons {p : Char → Bool} {c : Char} (hc : p c = false) (a b : Str) :
    (a ++ c :: b).rdropWhile p = a ++ c :: b.rdropWhile p := by
  induction b using List.reverseRecOn with
  | nil => simp [hc]
  | append_singleton b x ih =>
    rw [← List.cons_append, ← List.append_assoc, List.rdropWhile_concat, List.rdropWhile_concat, ih]
    split
    · rfl
    · simp

theorem isControlOrSpace_of_isSlash {c : Char} (h : isSlash c = true) : isControlOrSpace c = false := by
  unfold isSlash at h
  rw [Bool.or_eq_true, beq_iff_eq, beq_iff_eq] at h
  rcases h with rfl | rfl <;> decide

theorem cleanReference_slash (rest : Str) :
    cleanReference ('/' :: rest) = '/' :: (rest.rdropWhile isControlOrSpace).filter fun c => !isTabOrNewline c := by
  have hslash : ('/' :: rest).rdropWhile isControlOrSpace = '/' :: rest.rdropWhile isControlOrSpace :=
    rdropWhile_append_cons (by decide) [] rest
  unfold cleanReference
  rw [List.dropWhile_cons_of_neg (by decide), hslash, List.filter_cons_of_pos (by decide)]

/-- A reference with a slash in front leads away at most if another slash follows, which tabs may separate from it. -/
theorem authorityReference_slash_eq_none_iff (rest : Str) :
    authorityReference (cleanReference ('/' :: rest)) = none ↔
      ∀ c, rest.find? (fun c => !isTabOrNewline c) = some c → isSlash c = false := by
  have hunfold : ∀ text, authorityReference ('/' :: text) = none ↔ ∀ c ∈ text.head?, isSlash c = false := by
    intro text
    cases text with
    | nil => simp [authorityReference]
    | cons c text => simp [authorityReference, isSlash]
  rw [cleanReference_slash, hunfold, List.head?_filter]
  constructor
  · intro h c hc
    by_contra hslash
    rw [Bool.not_eq_false] at hslash
    obtain ⟨htab, as, bs, rfl, has⟩ := List.find?_eq_some_iff_append.1 hc
    refine absurd (h c ?_) (by rw [hslash]; decide)
    rw [rdropWhile_append_cons (isControlOrSpace_of_isSlash hslash), Option.mem_def, List.find?_eq_some_iff_append]
    exact ⟨htab, as, _, rfl, has⟩
  · intro h c hc
    obtain ⟨htab, as, bs, heq, has⟩ := List.find?_eq_some_iff_append.1 hc
    obtain ⟨tail, htail⟩ := List.rdropWhile_prefix isControlOrSpace rest
    refine h c (List.find?_eq_some_iff_append.2 ⟨htab, as, bs ++ tail, ?_, has⟩)
    rw [← htail, heq, List.append_assoc, List.cons_append]

theorem resolveOrigin_slash (parse : Str → Option Origin) (base : Origin) (rest : Str) :
    resolveOrigin parse base ('/' :: rest) =
      match authorityReference (cleanReference ('/' :: rest)) with
      | some authority => parse (base.scheme ++ ("://" : Str) ++ authority)
      | none => some base := by
  have hnone : hasScheme (cleanReference ('/' :: rest)) = false := by
    rw [cleanReference_slash]
    rfl
  unfold resolveOrigin
  dsimp only
  rw [hnone]
  rfl

end Browser
