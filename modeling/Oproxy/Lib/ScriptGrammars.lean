import Oproxy.Lib.Literals

/-!
# The literals of JavaScript and Python

The escapes of both languages, in double quotes: of JavaScript as strict code has them, of Python as a text has them.  A
literal whose value is no text, as it has one half of a surrogate pair, is not read.  A JSON text of a string is a
literal of JavaScript (`read_escaped`).
-/

namespace LiteralGrammar

open Json (quoteMark)

/-! ### Numbers -/

def hexDigit (c : Char) : Option Nat :=
  if '0' ≤ c ∧ c ≤ '9' then some (c.toNat - '0'.toNat)
  else if 'a' ≤ c ∧ c ≤ 'f' then some (c.toNat - 'a'.toNat + 10)
  else if 'A' ≤ c ∧ c ≤ 'F' then some (c.toNat - 'A'.toNat + 10)
  else none

/-- Exactly `n` digits behind the number which is read so far. -/
def hexDigits : Nat → Nat → Str → Option (Nat × Str)
  | 0, value, s => some (value, s)
  | _ + 1, _, [] => none
  | n + 1, value, c :: s =>
    match hexDigit c with
    | none => none
    | some digit => hexDigits n (16 * value + digit) s

/-- Digits, at least one, up to the closing brace. -/
def bracedDigits (s : Str) : Option (Nat × Str) :=
  let digits := s.takeWhile fun c => (hexDigit c).isSome
  match s.dropWhile fun c => (hexDigit c).isSome with
  | '\x7d' :: rest => if digits.isEmpty then none else (hexDigits digits.length 0 digits).map fun r => (r.1, rest)
  | _ => none

def isOctalDigit (c : Char) : Bool := '0' ≤ c && c ≤ '7'

/-- At most `n` digits behind the number which is read so far. -/
def octalDigits : Nat → Nat → Str → Nat × Str
  | n + 1, value, c :: s =>
    if isOctalDigit c then octalDigits n (8 * value + (c.toNat - '0'.toNat)) s else (value, c :: s)
  | _, value, s => (value, s)

/-- The text of one character, which has a number. -/
def numbered (r : Nat × Str) : Option (Str × Str) :=
  if r.1.isValidChar then some ([Char.ofNat r.1], r.2) else none

/-- The letters for control characters which both languages have. -/
def control (c : Char) : Option Char :=
  if c = 'b' then some (Char.ofNat 8)
  else if c = 't' then some '\t'
  else if c = 'n' then some '\n'
  else if c = 'v' then some (Char.ofNat 11)
  else if c = 'f' then some (Char.ofNat 12)
  else if c = 'r' then some '\r'
  else none

/-- What is behind a line end whose first character is a carriage return. -/
def afterReturn : Str → Str
  | '\n' :: s => s
  | s => s

/-! ### JavaScript -/

/-- The number behind `\u`. -/
def unicodeNumber : Str → Option (Nat × Str)
  | '\x7b' :: s => bracedDigits s
  | s => hexDigits 4 0 s

/-- What `\u` stands for: two halves of a surrogate pair are one character. -/
def unicodeEscape (s : Str) : Option (Str × Str) :=
  match unicodeNumber s with
  | none => none
  | some (high, '\\' :: 'u' :: s) =>
    if 0xD800 ≤ high ∧ high < 0xDC00 then
      match unicodeNumber s with
      | none => none
      | some (low, rest) =>
        if 0xDC00 ≤ low ∧ low < 0xE000 then numbered (0x10000 + (high - 0xD800) * 0x400 + (low - 0xDC00), rest)
          else none
    else numbered (high, '\\' :: 'u' :: s)
  | some r => numbered r

def javascriptEscape (c : Char) (s : Str) : Option (Str × Str) :=
  match control c with
  | some value => some ([value], s)
  | none =>
    if c = '\n' ∨ c = Char.ofNat 0x2028 ∨ c = Char.ofNat 0x2029 then some ([], s)
    else if c = '\r' then some ([], afterReturn s)
    else if c = '0' ∧ s.head?.any Char.isDigit = false then some ([Char.ofNat 0], s)
    else if c.isDigit then none
    else if c = 'x' then (hexDigits 2 0 s).bind numbered
    else if c = 'u' then unicodeEscape s
    else some ([c], s)

/-! ### Python -/

/-- A character by its name; the argument is the table of the names. -/
def namedEscape (charNamed : Str → Option Char) : Str → Option (Str × Str)
  | '\x7b' :: s =>
    let name := s.takeWhile fun c => c ≠ '\x7d' && c ≠ quoteMark
    match s.dropWhile fun c => c ≠ '\x7d' && c ≠ quoteMark with
    | '\x7d' :: rest => (charNamed name).map fun c => ([c], rest)
    | _ => none
  | _ => none

def pythonEscape (charNamed : Str → Option Char) (c : Char) (s : Str) : Option (Str × Str) :=
  match control c with
  | some value => some ([value], s)
  | none =>
    if c = '\n' then some ([], s)
    else if c = '\r' then some ([], afterReturn s)
    else if c = '\\' ∨ c = '\'' ∨ c = quoteMark then some ([c], s)
    else if c = 'a' then some ([Char.ofNat 7], s)
    else if isOctalDigit c then numbered (octalDigits 2 (c.toNat - '0'.toNat) s)
    else if c = 'x' then (hexDigits 2 0 s).bind numbered
    else if c = 'u' then (hexDigits 4 0 s).bind numbered
    else if c = 'U' then (hexDigits 8 0 s).bind numbered
    else if c = 'N' then namedEscape charNamed s
    else none

/-- The characters before which a backslash stands for itself. -/
def pythonKept (c : Char) : Bool :=
  !(c = '\n' || c = '\r' || c = '\\' || c = '\'' || c = quoteMark || c = 'a' || c = 'x' || c = 'u' || c = 'U' ||
    c = 'N' || c.toNat = 0 || isOctalDigit c || (control c).isSome)

/-! ### What an escape takes -/

/-- A part of a literal after a backslash: what it takes has no quote, and it is not longer than what it takes. -/
def Takes (s : Str) (r : Str × Str) : Prop :=
  ∃ e, s = e ++ r.2 ∧ quoteMark ∉ e ∧ r.1.length ≤ 1 + e.length

theorem takes_none {value s : Str} (h : value.length ≤ 1) : Takes s (value, s) :=
  ⟨[], rfl, List.not_mem_nil, by simpa using h⟩

theorem hexDigit_quoteMark : hexDigit quoteMark = none := by decide

theorem hexDigits_spec {n value : Nat} {s : Str} {r : Nat × Str} (h : hexDigits n value s = some r) :
    ∃ e, s = e ++ r.2 ∧ quoteMark ∉ e ∧ e.length = n := by
  fun_induction hexDigits n value s with
  | case1 value s =>
    cases h
    exact ⟨[], rfl, List.not_mem_nil, rfl⟩
  | case2 => cases h
  | case3 => cases h
  | case4 n value c s digit hdigit ih =>
    obtain ⟨e, rfl, hmem, rfl⟩ := ih h
    refine ⟨c :: e, rfl, ?_, rfl⟩
    rw [List.mem_cons, not_or]
    refine ⟨?_, hmem⟩
    rintro rfl
    rw [hexDigit_quoteMark] at hdigit
    cases hdigit

theorem bracedDigits_spec {s : Str} {r : Nat × Str} (h : bracedDigits s = some r) :
    ∃ e, s = e ++ r.2 ∧ quoteMark ∉ e := by
  unfold bracedDigits at h
  split at h
  · rename_i rest hdrop
    dsimp only at h
    split at h
    · cases h
    · obtain ⟨number, -, rfl⟩ := Option.map_eq_some_iff.1 h
      refine ⟨s.takeWhile (fun c => (hexDigit c).isSome) ++ ['\x7d'], ?_, ?_⟩
      · rw [List.append_assoc, List.singleton_append, ← hdrop, List.takeWhile_append_dropWhile]
      · rw [List.mem_append, List.mem_singleton, not_or]
        refine ⟨fun hmem => ?_, by decide⟩
        have hdigit := List.mem_takeWhile_imp hmem
        rw [hexDigit_quoteMark] at hdigit
        cases hdigit
  · cases h

theorem unicodeNumber_spec {s : Str} {r : Nat × Str} (h : unicodeNumber s = some r) :
    ∃ e, s = e ++ r.2 ∧ quoteMark ∉ e := by
  unfold unicodeNumber at h
  split at h
  · obtain ⟨e, rfl, hmem⟩ := bracedDigits_spec h
    refine ⟨'\x7b' :: e, rfl, ?_⟩
    rw [List.mem_cons, not_or]
    exact ⟨by decide, hmem⟩
  · obtain ⟨e, rfl, hmem, -⟩ := hexDigits_spec h
    exact ⟨e, rfl, hmem⟩

theorem octalDigits_spec (n value : Nat) (s : Str) :
    ∃ e, s = e ++ (octalDigits n value s).2 ∧ quoteMark ∉ e := by
  fun_induction octalDigits n value s with
  | case1 n value c s hdigit ih =>
    obtain ⟨e, heq, hmem⟩ := ih
    refine ⟨c :: e, by rw [List.cons_append, ← heq], ?_⟩
    rw [List.mem_cons, not_or]
    refine ⟨?_, hmem⟩
    rintro rfl
    revert hdigit
    decide
  | case2 => exact ⟨[], rfl, List.not_mem_nil⟩
  | case3 => exact ⟨[], rfl, List.not_mem_nil⟩

theorem numbered_spec {s e : Str} {number : Nat × Str} {r : Str × Str} (h : numbered number = some r)
    (heq : s = e ++ number.2) (hmem : quoteMark ∉ e) : Takes s r := by
  unfold numbered at h
  split at h
  · cases h
    exact ⟨e, heq, hmem, Nat.le_add_right 1 _⟩
  · cases h

theorem hexEscape_spec {n : Nat} {s : Str} {r : Str × Str} (h : (hexDigits n 0 s).bind numbered = some r) :
    Takes s r := by
  obtain ⟨number, hdigits, hnumbered⟩ := Option.bind_eq_some_iff.1 h
  obtain ⟨e, heq, hmem, -⟩ := hexDigits_spec hdigits
  exact numbered_spec hnumbered heq hmem

theorem afterReturn_spec (s : Str) : Takes s ([], afterReturn s) := by
  unfold afterReturn
  split
  · exact ⟨['\n'], rfl, by decide, Nat.zero_le _⟩
  · exact takes_none (Nat.zero_le _)

theorem unicodeEscape_spec {s : Str} {r : Str × Str} (h : unicodeEscape s = some r) : Takes s r := by
  unfold unicodeEscape at h
  split at h
  · cases h
  · rename_i high t hhigh
    obtain ⟨e, rfl, hmem⟩ := unicodeNumber_spec hhigh
    split at h
    · split at h
      · cases h
      · rename_i low rest hlow
        obtain ⟨e', rfl, hmem'⟩ := unicodeNumber_spec hlow
        split at h
        · have heq : e ++ '\\' :: 'u' :: (e' ++ rest) = (e ++ '\\' :: 'u' :: e') ++ rest := by simp
          refine numbered_spec h heq ?_
          simp only [List.mem_append, List.mem_cons, not_or]
          exact ⟨hmem, by decide, by decide, hmem'⟩
        · cases h
    · exact numbered_spec h rfl hmem
  · rename_i hnumber
    obtain ⟨e, heq, hmem⟩ := unicodeNumber_spec hnumber
    exact numbered_spec h heq hmem

theorem namedEscape_spec {charNamed : Str → Option Char} {s : Str} {r : Str × Str}
    (h : namedEscape charNamed s = some r) : Takes s r := by
  unfold namedEscape at h
  split at h
  · rename_i s
    simp only at h
    split at h
    · rename_i rest hdrop
      obtain ⟨c, -, rfl⟩ := Option.map_eq_some_iff.1 h
      refine ⟨'\x7b' :: (s.takeWhile (fun c => c ≠ '\x7d' && c ≠ quoteMark) ++ ['\x7d']), ?_, ?_, by simp⟩
      · rw [List.cons_append, List.append_assoc, List.singleton_append, ← hdrop, List.takeWhile_append_dropWhile]
      · rw [List.mem_cons, List.mem_append, List.mem_singleton, not_or, not_or]
        refine ⟨by decide, fun hmem => ?_, by decide⟩
        have hname := List.mem_takeWhile_imp hmem
        simp at hname
    · cases h
  · cases h

theorem javascriptEscape_spec {c : Char} {s : Str} {r : Str × Str} (h : javascriptEscape c s = some r) :
    Takes s r := by
  unfold javascriptEscape at h
  split at h
  · cases h
    exact takes_none Nat.le.refl
  · split_ifs at h
    · cases h
      exact takes_none (Nat.zero_le _)
    · cases h
      exact afterReturn_spec s
    · cases h
      exact takes_none Nat.le.refl
    · exact hexEscape_spec h
    · exact unicodeEscape_spec h
    · cases h
      exact takes_none Nat.le.refl

theorem pythonEscape_spec {charNamed : Str → Option Char} {c : Char} {s : Str} {r : Str × Str}
    (h : pythonEscape charNamed c s = some r) : Takes s r := by
  unfold pythonEscape at h
  split at h
  · cases h
    exact takes_none Nat.le.refl
  · by_cases hnewline : c = '\n'
    · rw [if_pos hnewline] at h
      cases h
      exact takes_none (Nat.zero_le _)
    rw [if_neg hnewline] at h
    by_cases hreturn : c = '\r'
    · rw [if_pos hreturn] at h
      cases h
      exact afterReturn_spec s
    rw [if_neg hreturn] at h
    by_cases hitself : c = '\\' ∨ c = '\'' ∨ c = quoteMark
    · rw [if_pos hitself] at h
      cases h
      exact takes_none Nat.le.refl
    rw [if_neg hitself] at h
    by_cases hbell : c = 'a'
    · rw [if_pos hbell] at h
      cases h
      exact takes_none Nat.le.refl
    rw [if_neg hbell] at h
    by_cases hoctal : isOctalDigit c = true
    · rw [if_pos hoctal] at h
      obtain ⟨e, heq, hmem⟩ := octalDigits_spec 2 (c.toNat - '0'.toNat) s
      exact numbered_spec h heq hmem
    rw [if_neg hoctal] at h
    by_cases hx : c = 'x'
    · rw [if_pos hx] at h
      exact hexEscape_spec h
    rw [if_neg hx] at h
    by_cases hu : c = 'u'
    · rw [if_pos hu] at h
      exact hexEscape_spec h
    rw [if_neg hu] at h
    by_cases hlong : c = 'U'
    · rw [if_pos hlong] at h
      exact hexEscape_spec h
    rw [if_neg hlong] at h
    by_cases hnamed : c = 'N'
    · rw [if_pos hnamed] at h
      exact namedEscape_spec h
    · rw [if_neg hnamed] at h
      cases h

/-! ### The grammars -/

def isLineEnd (c : Char) : Bool := c = '\n' || c = '\r'

def javascript : LiteralGrammar where
  opens _ := true
  begins c := c = quoteMark || c = '\'' || c = Char.ofNat 96 || c = '/'
  forbidden := isLineEnd
  kept _ := false
  escape := javascriptEscape
  newline_forbidden := by decide
  backslash_allowed := by decide
  quote_not_kept := rfl
  escape_quote _ := rfl
  opens_spec _ _ := rfl
  escape_spec _ _ _ _ h := javascriptEscape_spec h

def python (charNamed : Str → Option Char) : LiteralGrammar where
  opens s := !Str.startsWith s [quoteMark, quoteMark]
  begins c := c = quoteMark || c = '\'' || c = '#'
  forbidden c := isLineEnd c || c.toNat = 0
  kept := pythonKept
  escape := pythonEscape charNamed
  newline_forbidden := by decide
  backslash_allowed := by decide
  quote_not_kept := by decide
  escape_quote _ := rfl
  opens_spec _ h := by rw [h]; rfl
  escape_spec _ _ _ _ h := pythonEscape_spec h

/-- A character which stands for itself in both languages. -/
def isPlainChar (c : Char) : Bool := !(c = quoteMark || c = '\\' || isLineEnd c || c.toNat = 0)

theorem plain_both {charNamed : Str → Option Char} {x : Str} :
    (javascript.plain x = true ∧ (python charNamed).plain x = true) ↔ ∀ c ∈ x, isPlainChar c = true := by
  have hall : '\\' ∉ x → ((javascript.plain x = true ∧ (python charNamed).plain x = true) ↔
      ∀ c ∈ x, isPlainChar c = true) := by
    intro hmem
    rw [plain_of_not_mem hmem, plain_of_not_mem hmem, List.all_eq_true, List.all_eq_true, ← forall_and]
    refine forall_congr' fun c => ?_
    rw [← forall_and]
    refine forall_congr' fun hc => ?_
    have hbackslash : c ≠ '\\' := fun h => hmem (h ▸ hc)
    simp only [javascript, python, isPlainChar, hbackslash]
    cases isLineEnd c <;> simp
  constructor
  · exact fun h => (hall (not_mem_of_plain (fun _ => rfl) h.1)).1 h
  · intro h
    refine (hall fun hmem => ?_).2 h
    have hplain := h _ hmem
    revert hplain
    decide

/-! ### JSON strings in JavaScript -/

theorem hexDigit_digitChar {n : Nat} (h : n < 16) : hexDigit (Nat.digitChar n) = some n := by
  revert n
  decide

/-- The escape of a control character by its number. -/
theorem unicodeEscape_control {c : Char} (h : c.toNat < 32) (s : Str) :
    unicodeEscape ('0' :: '0' :: Nat.digitChar (c.toNat / 16) :: Nat.digitChar (c.toNat % 16) :: s) =
      some ([c], s) := by
  have hnumber : unicodeNumber ('0' :: '0' :: Nat.digitChar (c.toNat / 16) :: Nat.digitChar (c.toNat % 16) :: s) =
      some (c.toNat, s) := by
    have hzero : hexDigit '0' = some 0 := by decide
    have hhigh := hexDigit_digitChar (show c.toNat / 16 < 16 by omega)
    have hlow := hexDigit_digitChar (show c.toNat % 16 < 16 by omega)
    have hsum : 16 * (c.toNat / 16) + c.toNat % 16 = c.toNat := Nat.div_add_mod _ _
    simp [unicodeNumber, hexDigits, hzero, hhigh, hlow, hsum]
  have hvalue : numbered (c.toNat, s) = some ([c], s) := by
    have hvalid : c.toNat.isValidChar := c.valid
    rw [numbered, if_pos hvalid, Char.ofNat_toNat]
  have hlow : ¬ (0xD800 ≤ c.toNat ∧ c.toNat < 0xDC00) := by omega
  unfold unicodeEscape
  rw [hnumber]
  split
  · rename_i h'
    cases h'
  · rename_i h'
    cases h'
    rw [if_neg hlow, hvalue]
  · rename_i h'
    cases h'
    exact hvalue

theorem read_javascript_escape {c d : Char} {s rest : Str} (h : javascriptEscape d s = some ([c], rest)) :
    javascript.read ('\\' :: d :: s) = (javascript.read rest).map fun r => (c :: r.1, r.2) := by
  have hbackslash : javascript.backslash (d :: s) = some ([c], rest) := h
  exact read_backslash hbackslash

theorem read_escaped_char (c : Char) (s : Str) :
    javascript.read (Json.escaped c ++ s) = (javascript.read s).map fun r => (c :: r.1, r.2) := by
  unfold Json.escaped
  split_ifs with h1 h2 h3 h4 h5 h6 h7 h8
  · subst h1
    exact read_javascript_escape rfl
  · subst h2
    exact read_javascript_escape rfl
  · subst h3
    exact read_javascript_escape rfl
  · subst h4
    exact read_javascript_escape rfl
  · subst h5
    exact read_javascript_escape rfl
  · have hc : c = Char.ofNat 8 := by rw [← h6, Char.ofNat_toNat]
    subst hc
    exact read_javascript_escape rfl
  · have hc : c = Char.ofNat 12 := by rw [← h7, Char.ofNat_toNat]
    subst hc
    exact read_javascript_escape rfl
  · exact read_javascript_escape (unicodeEscape_control h8 s)
  · have hforbidden : javascript.forbidden c = false := by simp [javascript, isLineEnd, h3, h4]
    exact read_char h1 hforbidden h2 s

/-- A JSON text of a string is a literal of JavaScript with that value. -/
theorem read_escaped (value rest : Str) :
    javascript.read (value.flatMap Json.escaped ++ quoteMark :: rest) = some (value, rest) := by
  induction value with
  | nil => exact read_quote rest
  | cons c value ih =>
    rw [List.flatMap_cons, List.append_assoc, read_escaped_char, ih]
    rfl

end LiteralGrammar
