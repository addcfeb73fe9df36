import Oproxy.Lib.Text

/-!
# HTTP messages as the wire library hands them over

Request targets split into scheme, authority and path with query, and header fields whose values are byte strings.
Field names are in lower case.
-/

namespace Http

/-- A request target: `scheme` and `authority` are both present in absolute form, `authority` alone is present in
authority form.  `rawPathAndQuery` is the raw text, empty where the target has none. -/
structure Uri where
  scheme : Option Str
  authority : Option Str
  rawPathAndQuery : Str
  absolute : scheme.isSome = true → authority.isSome = true := by decide
  scheme_chars : ':' ∉ scheme.getD [] := by decide
  authority_chars : ∀ c ∈ authority.getD [], c ≠ '/' ∧ c ≠ '?' ∧ c ≠ '#' := by decide
  path_start : rawPathAndQuery = [] ∨ (rawPathAndQuery = ['*'] ∧ scheme.isNone = true) ∨
    rawPathAndQuery.head? = some '/' ∨ rawPathAndQuery.head? = some '?' := by decide

namespace Uri

/-- The target `/`. -/
def root : Uri := { scheme := none, authority := none, rawPathAndQuery := "/" }

/-- The absolute target of a host, with the path `/`. -/
def http (authority : Str) (h : ∀ c ∈ authority, c ≠ '/' ∧ c ≠ '?' ∧ c ≠ '#') : Uri where
  scheme := some "http"
  authority := some authority
  rawPathAndQuery := "/"
  absolute := fun _ => rfl
  authority_chars := h

def path (uri : Uri) : Str :=
  if uri.rawPathAndQuery.isEmpty && uri.scheme.isNone then []
  else
    match ((Str.splitOnce '?' uri.rawPathAndQuery).map Prod.fst).getD uri.rawPathAndQuery with
    | [] => "/"
    | path => path

def query (uri : Uri) : Option Str := (Str.splitOnce '?' uri.rawPathAndQuery).map Prod.snd

/-- The path with its query; a target in authority form has none. -/
def pathAndQuery (uri : Uri) : Option Str :=
  if uri.scheme.isSome || uri.authority.isNone then
    some (if uri.rawPathAndQuery.isEmpty then "/" else uri.rawPathAndQuery)
  else none

/-- The text of the target. -/
def display (uri : Uri) : Str :=
  ((uri.scheme.map fun s => s ++ ("://" : Str)).getD []) ++ uri.authority.getD [] ++ uri.path ++
    (uri.query.map fun q => '?' :: q).getD []

/-- The host of the authority: what stands behind user information, up to the port.  An address in brackets keeps
them. -/
def host (uri : Uri) : Option Str :=
  uri.authority.map fun authority =>
    let hostPort := ((Str.rsplitOnce '@' authority).map Prod.snd).getD authority
    match hostPort with
    | '[' :: _ => hostPort.takeWhile (fun c => c ≠ ']') ++ ("]" : Str)
    | _ => hostPort.takeWhile fun c => c ≠ ':'

/-- The port of the authority, where it has one which is a number. -/
def portU16 (uri : Uri) : Option Nat :=
  uri.authority.bind fun authority =>
    (Str.rsplitOnce ':' authority).bind fun parts => Str.parseUnsigned 65535 parts.2

/-- The path of an absolute target is never empty. -/
theorem path_head {uri : Uri} (h : uri.scheme.isSome = true) : ∃ rest, uri.path = '/' :: rest := by
  have hscheme : uri.scheme.isNone = false := by simpa [Option.isSome_iff_ne_none] using h
  unfold path
  rw [hscheme, Bool.and_false]
  simp only [Bool.false_eq_true, if_false]
  rcases uri.path_start with hraw | ⟨-, hnone⟩ | hraw | hraw
  · rw [hraw]
    exact ⟨[], rfl⟩
  · rw [hscheme] at hnone
    cases hnone
  · obtain ⟨rest, hrest⟩ := List.head?_eq_some_iff.1 hraw
    rw [hrest]
    cases hs : Str.splitOnce '?' ('/' :: rest) with
    | none => exact ⟨rest, rfl⟩
    | some p =>
      obtain ⟨a, b⟩ := p
      obtain ⟨heq, -⟩ := Str.splitOnce_eq_some.1 hs
      cases a with
      | nil => cases heq
      | cons c a =>
        cases heq
        exact ⟨a, rfl⟩
  · obtain ⟨rest, hrest⟩ := List.head?_eq_some_iff.1 hraw
    rw [hrest]
    exact ⟨[], by simp [Str.splitOnce]⟩

end Uri

inductive Version where
  | http09 | http10 | http11 | http2 | http3
  deriving DecidableEq

/-- The characters of a token: method names and field names. -/
def isTokenChar (c : Char) : Bool := c.isAlphanum || ("!#$%&'*+-.^_|~" : Str).contains c || c == Char.ofNat 96

def isToken (s : Str) : Bool := !s.isEmpty && s.all isTokenChar

theorem isToken_get : isToken "GET" = true := by decide

theorem isToken_post : isToken "POST" = true := by decide

private theorem isWhitespace_of_alphanum {c : Char} (h : c.isAlphanum = true) : Str.isWhitespace c = false := by
  have hA : ('A' : Char).val.toNat = 65 := rfl
  have hZ : ('Z' : Char).val.toNat = 90 := rfl
  have ha : ('a' : Char).val.toNat = 97 := rfl
  have hz : ('z' : Char).val.toNat = 122 := rfl
  have h0 : ('0' : Char).val.toNat = 48 := rfl
  have h9 : ('9' : Char).val.toNat = 57 := rfl
  unfold Char.isAlphanum Char.isAlpha Char.isUpper Char.isLower Char.isDigit at h
  simp only [Bool.or_eq_true, Bool.and_eq_true, decide_eq_true_eq, ge_iff_le, UInt32.le_iff_toNat_le] at h
  unfold Str.isWhitespace Char.toNat
  simp only [Bool.or_eq_false_iff, Bool.and_eq_false_iff, decide_eq_false_iff_not, beq_eq_false_iff_ne]
  omega

private theorem isWhitespace_of_tokenChar {c : Char} (h : isTokenChar c = true) : Str.isWhitespace c = false := by
  unfold isTokenChar at h
  rw [Bool.or_eq_true, Bool.or_eq_true] at h
  rcases h with (h | h) | h
  · exact isWhitespace_of_alphanum h
  · have hall : ∀ d ∈ ("!#$%&'*+-.^_|~" : Str), Str.isWhitespace d = false := by decide
    exact hall c (List.contains_iff_mem.1 h)
  · rw [beq_iff_eq.1 h]
    decide

/-- A token has no white space around it. -/
theorem trim_of_token {s : Str} (h : isToken s = true) : s.trim = s := by
  unfold isToken at h
  rw [Bool.and_eq_true, List.all_eq_true] at h
  apply Str.trim_eq_self
  · intro c hc
    exact isWhitespace_of_tokenChar (h.2 c (List.mem_of_mem_head? hc))
  · intro c hc
    exact isWhitespace_of_tokenChar (h.2 c (List.mem_of_getLast? hc))

/-- `StatusCode::from_u16`. -/
def statusCode (n : Nat) : Option Nat := if 100 ≤ n ∧ n < 1000 then some n else none

/-- A name as fields have it: a token in lower case. -/
def IsFieldName (s : Str) : Prop := isToken s = true ∧ s.toAsciiLowercase = s

abbrev HeaderValue := Bytes

def isVisibleAscii (b : UInt8) : Bool := (32 ≤ b.toNat && b.toNat < 127) || b.toNat == 9

/-- The value as text; a value with a byte outside visible ASCII and tab has none. -/
def HeaderValue.toStr (v : HeaderValue) : Option Str :=
  if v.all isVisibleAscii then some (v.map fun b => Char.ofNat b.toNat) else none

/-- Header fields in the order of iteration: all the values of one name follow each other. -/
abbrev Headers := List (Str × HeaderValue)

/-- The first value of a field. -/
def Headers.get (h : Headers) (name : Str) : Option HeaderValue := (h.find? fun e => e.1 == name).map Prod.snd

/-- The bytes a field value may have. -/
def isFieldByte (b : UInt8) : Bool := (32 ≤ b.toNat && b.toNat ≠ 127) || b.toNat == 9

/-- The bytes of a text, where they may stand in a field. -/
def HeaderValue.ofStr (s : Str) : Option HeaderValue := if s.toUtf8.all isFieldByte then some s.toUtf8 else none

/-- A header name as the wire library keeps it: a token in lower case. -/
def HeaderName.ofStr (s : Str) : Option Str := if isToken s then some s.toAsciiLowercase else none

namespace Headers

/-- Names are tokens in lower case, and values have field bytes only. -/
def WellFormed (h : Headers) : Prop :=
  ∀ e ∈ h, isToken e.1 = true ∧ e.1.toAsciiLowercase = e.1 ∧ e.2.all isFieldByte = true

instance (h : Headers) : Decidable (WellFormed h) := by unfold WellFormed; infer_instance

theorem wellFormed_nil : WellFormed [] := List.forall_mem_nil _

/-- Add a value to a field: after the values the field has, or at the end. -/
def append (name : Str) (value : HeaderValue) : Headers → Headers
  | [] => [(name, value)]
  | e :: h => if e.1 = name ∧ h.all (fun e' => e'.1 ≠ name) then e :: (name, value) :: h else e :: append name value h

/-- The text of the first value of a field. -/
def getStr (h : Headers) (name : Str) : Option Str := (h.get name).bind HeaderValue.toStr

/-- All values of a field, in order. -/
def getAll (h : Headers) (name : Str) : List HeaderValue := (h.filter fun e => e.1 = name).map Prod.snd

theorem getAll_cons (e : Str × HeaderValue) (h : Headers) (name : Str) :
    getAll (e :: h) name = if e.1 = name then e.2 :: getAll h name else getAll h name := by
  unfold getAll
  by_cases hname : e.1 = name
  · simp [hname]
  · simp [hname]

theorem getAll_eq_nil {h : Headers} {name : Str} (hnone : ∀ e ∈ h, e.1 ≠ name) : getAll h name = [] := by
  unfold getAll
  rw [List.map_eq_nil_iff, List.filter_eq_nil_iff]
  intro e he
  simpa using hnone e he

/-- A value that is added comes after the values the field has, and no other field changes. -/
theorem getAll_append (h : Headers) (name : Str) (value : HeaderValue) (n : Str) :
    getAll (append name value h) n = if name = n then getAll h n ++ [value] else getAll h n := by
  induction h with
  | nil =>
    unfold append
    rw [getAll_cons]
    by_cases hn : name = n <;> simp [hn, getAll]
  | cons e h ih =>
    unfold append
    by_cases hlast : e.1 = name ∧ h.all (fun e' => e'.1 ≠ name) = true
    · rw [if_pos hlast]
      obtain ⟨rfl, hnone⟩ := hlast
      have hrest : getAll h e.1 = [] := getAll_eq_nil (by simpa using hnone)
      by_cases hn : e.1 = n
      · subst hn
        simp [getAll_cons, hrest]
      · simp [getAll_cons, hn]
    · rw [if_neg hlast, getAll_cons, getAll_cons, ih]
      by_cases he : e.1 = n <;> by_cases hn : name = n <;> simp [he, hn]

/-- Add fields one after the other. -/
def ofList (fields : List (Str × HeaderValue)) : Headers := fields.foldl (fun h e => append e.1 e.2 h) []

private theorem getAll_foldl_append (fields : List (Str × HeaderValue)) (h : Headers) (n : Str) :
    getAll (fields.foldl (fun h e => append e.1 e.2 h) h) n = getAll h n ++ getAll fields n := by
  induction fields generalizing h with
  | nil => simp [getAll]
  | cons e fields ih =>
    rw [List.foldl_cons, ih, getAll_append, getAll_cons]
    by_cases hn : e.1 = n <;> simp [hn]

/-- Grouping the fields by name keeps the values of each name and their order. -/
theorem getAll_ofList (fields : List (Str × HeaderValue)) (n : Str) : getAll (ofList fields) n = getAll fields n := by
  unfold ofList
  rw [getAll_foldl_append]
  rfl

theorem mem_getAll {h : Headers} {n : Str} {v : HeaderValue} : v ∈ getAll h n ↔ (n, v) ∈ h := by
  unfold getAll
  rw [List.mem_map]
  constructor
  · rintro ⟨e, he, rfl⟩
    obtain ⟨hmem, hname⟩ := List.mem_filter.1 he
    rw [← of_decide_eq_true hname]
    exact hmem
  · intro hmem
    exact ⟨_, List.mem_filter.2 ⟨hmem, by simp⟩, rfl⟩

theorem mem_ofList {fields : List (Str × HeaderValue)} {e : Str × HeaderValue} : e ∈ ofList fields ↔ e ∈ fields := by
  rw [← mem_getAll (h := ofList fields) (n := e.1) (v := e.2), getAll_ofList, mem_getAll]

end Headers

/-! ### Values as text -/

/-- The text of a value, empty where it has none. -/
def HeaderValue.textOrEmpty (v : HeaderValue) : Str := v.toStr.getD []

private theorem utf8EncodeChar_visible {b : UInt8} (h : isVisibleAscii b = true) :
    String.utf8EncodeChar (Char.ofNat b.toNat) = [b] := by
  have hlt : b.toNat < 127 := by
    unfold isVisibleAscii at h
    simp only [Bool.or_eq_true, Bool.and_eq_true, decide_eq_true_eq, beq_iff_eq] at h
    omega
  have hval : (Char.ofNat b.toNat).val.toNat = b.toNat := by
    have hvalid : b.toNat.isValidChar := Or.inl (by omega)
    unfold Char.ofNat
    rw [dif_pos hvalid]
    rfl
  unfold String.utf8EncodeChar
  dsimp only
  rw [hval, if_pos (by omega)]
  simp

/-- Visible ASCII comes back from text as it was. -/
theorem HeaderValue.toUtf8_textOrEmpty (v : HeaderValue) :
    v.textOrEmpty.toUtf8 = if v.all isVisibleAscii then v else [] := by
  unfold textOrEmpty toStr
  by_cases hv : v.all isVisibleAscii = true
  · rw [if_pos hv, if_pos hv, Option.getD_some]
    unfold Str.toUtf8
    rw [List.flatMap_map]
    rw [List.all_eq_true] at hv
    induction v with
    | nil => rfl
    | cons b v ih =>
      rw [List.flatMap_cons, utf8EncodeChar_visible (hv b List.mem_cons_self),
        ih fun c hc => hv c (List.mem_cons_of_mem _ hc)]
      rfl
  · rw [if_neg hv, if_neg hv]
    rfl

theorem isFieldByte_of_visible {b : UInt8} (h : isVisibleAscii b = true) : isFieldByte b = true := by
  unfold isVisibleAscii at h
  unfold isFieldByte
  simp only [Bool.or_eq_true, Bool.and_eq_true, decide_eq_true_eq, beq_iff_eq] at h ⊢
  omega

private theorem utf8EncodeChar_ascii {c : Char} (h : c.val.toNat < 128) :
    String.utf8EncodeChar c = [UInt8.ofNat c.val.toNat] ∧ (UInt8.ofNat c.val.toNat).toNat = c.val.toNat := by
  constructor
  · unfold String.utf8EncodeChar
    dsimp only
    rw [if_pos (by omega)]
  · exact UInt8.toNat_ofNat_of_lt (by show _ < 256; omega)

private theorem digit_val {c : Char} (h : Str.isAsciiDigit c = true) : 48 ≤ c.val.toNat ∧ c.val.toNat ≤ 57 := by
  have h0 : ('0' : Char).val.toNat = 48 := rfl
  have h9 : ('9' : Char).val.toNat = 57 := rfl
  unfold Str.isAsciiDigit at h
  simp only [Char.isDigit, Bool.and_eq_true, decide_eq_true_eq, ge_iff_le, UInt32.le_iff_toNat_le] at h
  omega

private theorem isFieldByte_of_digit {c : Char} (h : Str.isAsciiDigit c = true) :
    (String.utf8EncodeChar c).all isFieldByte = true := by
  have hval := digit_val h
  obtain ⟨hencode, hbyte⟩ := @utf8EncodeChar_ascii c (by omega)
  rw [hencode]
  simp only [List.all_cons, List.all_nil, Bool.and_true, isFieldByte, hbyte, Bool.or_eq_true, Bool.and_eq_true,
    decide_eq_true_eq, beq_iff_eq]
  omega

/-- The bytes of a character outside ASCII are above those of ASCII. -/
private theorem high_of_mem_utf8EncodeChar {c : Char} (h : 128 ≤ c.val.toNat) :
    ∀ b ∈ String.utf8EncodeChar c, 128 ≤ b.toNat := by
  unfold String.utf8EncodeChar
  dsimp only
  rw [if_neg (by omega)]
  split
  · simp only [List.forall_mem_cons, UInt8.toNat_ofNat']
    exact ⟨by omega, by omega, by simp⟩
  · split
    · simp only [List.forall_mem_cons, UInt8.toNat_ofNat']
      exact ⟨by omega, by omega, by omega, by simp⟩
    · simp only [List.forall_mem_cons, UInt8.toNat_ofNat']
      exact ⟨by omega, by omega, by omega, by omega, by simp⟩

/-- The characters whose bytes are visible ASCII or tab. -/
def isVisibleChar (c : Char) : Bool := (32 ≤ c.val.toNat && c.val.toNat < 127) || c.val.toNat == 9

/-- The characters whose bytes may stand in a field. -/
def isFieldChar (c : Char) : Bool := (32 ≤ c.val.toNat && c.val.toNat ≠ 127) || c.val.toNat == 9

theorem all_isVisibleAscii_utf8EncodeChar (c : Char) :
    (String.utf8EncodeChar c).all isVisibleAscii = isVisibleChar c := by
  by_cases hascii : c.val.toNat < 128
  · obtain ⟨hencode, hbyte⟩ := utf8EncodeChar_ascii hascii
    rw [hencode, List.all_cons, List.all_nil, Bool.and_true, isVisibleAscii, hbyte]
    rfl
  · have hhigh := @high_of_mem_utf8EncodeChar c (by omega)
    have hinvisible : isVisibleChar c = false := by
      unfold isVisibleChar
      simp only [Bool.or_eq_false_iff, Bool.and_eq_false_iff, decide_eq_false_iff_not, beq_eq_false_iff_ne]
      omega
    rw [hinvisible, List.all_eq_false]
    obtain ⟨b, hb⟩ := List.exists_mem_of_ne_nil _ (String.utf8EncodeChar_ne_nil (c := c))
    refine ⟨b, hb, ?_⟩
    have hlarge := hhigh b hb
    unfold isVisibleAscii
    simp only [Bool.or_eq_true, Bool.and_eq_true, decide_eq_true_eq, beq_iff_eq]
    omega

theorem all_isFieldByte_utf8EncodeChar (c : Char) : (String.utf8EncodeChar c).all isFieldByte = isFieldChar c := by
  by_cases hascii : c.val.toNat < 128
  · obtain ⟨hencode, hbyte⟩ := utf8EncodeChar_ascii hascii
    rw [hencode, List.all_cons, List.all_nil, Bool.and_true, isFieldByte, hbyte]
    rfl
  · have hhigh := @high_of_mem_utf8EncodeChar c (by omega)
    have hfield : isFieldChar c = true := by
      unfold isFieldChar
      simp only [Bool.or_eq_true, Bool.and_eq_true, decide_eq_true_eq, beq_iff_eq]
      omega
    rw [hfield, List.all_eq_true]
    intro b hb
    have hlarge := hhigh b hb
    unfold isFieldByte
    simp only [Bool.or_eq_true, Bool.and_eq_true, decide_eq_true_eq, beq_iff_eq]
    omega

theorem all_toUtf8 {p : UInt8 → Bool} {q : Char → Bool} (h : ∀ c, (String.utf8EncodeChar c).all p = q c) (s : Str) :
    s.toUtf8.all p = s.all q := by
  unfold Str.toUtf8
  rw [List.all_flatMap, funext h]

/-- A text comes back from its bytes if all of it is visible ASCII; otherwise the value has no text. -/
theorem HeaderValue.toStr_toUtf8 (s : Str) :
    HeaderValue.toStr s.toUtf8 = if s.all isVisibleChar then some s else none := by
  unfold HeaderValue.toStr
  rw [all_toUtf8 all_isVisibleAscii_utf8EncodeChar]
  by_cases hvisible : s.all isVisibleChar = true
  · rw [if_pos hvisible, if_pos hvisible]
    rw [List.all_eq_true] at hvisible
    have hascii : ∀ c ∈ s, c.val.toNat < 128 := by
      intro c hc
      have hc := hvisible c hc
      unfold isVisibleChar at hc
      simp only [Bool.or_eq_true, Bool.and_eq_true, decide_eq_true_eq, beq_iff_eq] at hc
      omega
    have hbytes : s.toUtf8 = s.map fun c => UInt8.ofNat c.val.toNat := by
      unfold Str.toUtf8
      rw [List.map_eq_flatMap]
      apply List.flatMap_congr
      exact fun c hc => (utf8EncodeChar_ascii (hascii c hc)).1
    rw [hbytes, List.map_map]
    congr 1
    calc s.map _ = s.map id := List.map_congr_left fun c hc => by
          show Char.ofNat (UInt8.ofNat c.val.toNat).toNat = c
          rw [(utf8EncodeChar_ascii (hascii c hc)).2]
          exact Char.ofNat_toNat c
      _ = s := List.map_id s
  · rw [if_neg hvisible, if_neg hvisible]

theorem HeaderValue.ofStr_eq (s : Str) :
    HeaderValue.ofStr s = if s.all isFieldChar then some s.toUtf8 else none := by
  unfold HeaderValue.ofStr
  rw [all_toUtf8 all_isFieldByte_utf8EncodeChar]

/-- A text of digits comes back from its bytes. -/
theorem HeaderValue.toStr_toUtf8_of_digits {s : Str} (h : s.all Str.isAsciiDigit = true) :
    HeaderValue.toStr s.toUtf8 = some s := by
  rw [toStr_toUtf8, if_pos]
  rw [List.all_eq_true] at h ⊢
  intro c hc
  have hval := digit_val (h c hc)
  unfold isVisibleChar
  simp only [Bool.or_eq_true, Bool.and_eq_true, decide_eq_true_eq, beq_iff_eq]
  omega

/-- A number may stand in a field. -/
theorem fieldBytes_ofNat (n : Nat) : (Str.toUtf8 (Str.ofNat n)).all isFieldByte = true := by
  unfold Str.toUtf8
  rw [List.all_flatMap, List.all_eq_true]
  exact fun c hc => isFieldByte_of_digit (Str.isAsciiDigit_of_mem_ofNat hc)

theorem HeaderValue.textOrEmpty_fieldBytes (v : HeaderValue) : v.textOrEmpty.toUtf8.all isFieldByte = true := by
  rw [toUtf8_textOrEmpty]
  by_cases hv : v.all isVisibleAscii = true
  · rw [if_pos hv]
    rw [List.all_eq_true] at hv ⊢
    exact fun b hb => isFieldByte_of_visible (hv b hb)
  · rw [if_neg hv]
    rfl

end Http
