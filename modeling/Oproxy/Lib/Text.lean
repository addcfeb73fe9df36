import Mathlib.Algebra.GroupWithZero.Nat
import Mathlib.Data.List.Basic
import Mathlib.Data.List.DropRight

/-!
# Text

A string is the list of its Unicode scalar values, and a byte string a list of bytes.  The operations are the ones
a systems language has on its strings: ASCII case, lengths in UTF-8 bytes, splitting at the first or last
occurrence of a character or of a substring, trimming, and reading unsigned numbers.
-/

abbrev Str := List Char

instance : Coe String Str := ⟨String.toList⟩

abbrev Bytes := List UInt8

instance : LawfulBEq Str := inferInstanceAs (LawfulBEq (List Char))

/-- A statement about the characters of a text is decided by a walk over the text, not over all characters. -/
instance (priority := high) decidableForallMem (p : Char → Prop) [DecidablePred p] (s : Str) :
    Decidable (∀ c ∈ s, p c) := List.decidableBAll p s

namespace Str

/-- The length in UTF-8 bytes. -/
def utf8Len (s : Str) : Nat := (s.map Char.utf8Size).sum

/-- The UTF-8 encoding. -/
def toUtf8 (s : Str) : Bytes := s.flatMap String.utf8EncodeChar

def toAsciiLowercase (s : Str) : Str := s.map Char.toLower

def toAsciiUppercase (s : Str) : Str := s.map Char.toUpper

def eqIgnoreAsciiCase (s t : Str) : Bool := s.toAsciiLowercase == t.toAsciiLowercase

/-- Only the letters from `A` to `Z` have another lower case, which is a letter from `a` to `z`. -/
theorem toLower_cases (c : Char) :
    c.toLower = c ∨ 65 ≤ c.toNat ∧ c.toNat ≤ 90 ∧ c.toLower.toNat = c.toNat + 32 := by
  unfold Char.toLower
  split
  · rename_i h
    have hA : ('A' : Char).val.toNat = 65 := rfl
    have hZ : ('Z' : Char).val.toNat = 90 := rfl
    have hd : (('a' : Char).val - ('A' : Char).val).toNat = 32 := rfl
    simp only [ge_iff_le, UInt32.le_iff_toNat_le, hA, hZ] at h
    refine Or.inr ⟨h.1, h.2, ?_⟩
    show (c.val + _).toNat = c.val.toNat + 32
    rw [UInt32.toNat_add, hd]
    omega
  · exact Or.inl rfl

private theorem toLower_toLower (c : Char) : c.toLower.toLower = c.toLower := by
  rcases toLower_cases c with h | ⟨hge, hle, h⟩
  · rw [h, h]
  · rcases toLower_cases c.toLower with h' | ⟨hge', hle', -⟩
    · exact h'
    · omega

@[simp] theorem toAsciiLowercase_idem (s : Str) : s.toAsciiLowercase.toAsciiLowercase = s.toAsciiLowercase := by
  simp only [toAsciiLowercase, List.map_map, Function.comp_def, toLower_toLower]

theorem eqIgnoreAsciiCase_iff {s t : Str} :
    s.eqIgnoreAsciiCase t = true ↔ s.toAsciiLowercase = t.toAsciiLowercase := by
  simp [eqIgnoreAsciiCase]

/-! ### Splitting -/

/-- The rest of `s` after `pat`, when `s` starts with `pat`. -/
def stripPrefix : Str → Str → Option Str
  | [], s => some s
  | p :: pat, c :: s => if p = c then stripPrefix pat s else none
  | _ :: _, [] => none

/-- The parts before and after the first `sep`. -/
def splitOnce (sep : Char) : Str → Option (Str × Str)
  | [] => none
  | c :: s => if c = sep then some ([], s) else (splitOnce sep s).map fun p => (c :: p.1, p.2)

/-- The parts before and after the last `sep`. -/
def rsplitOnce (sep : Char) : Str → Option (Str × Str)
  | [] => none
  | c :: s =>
    match rsplitOnce sep s with
    | some p => some (c :: p.1, p.2)
    | none => if c = sep then some ([], s) else none

/-- The parts before and after the first occurrence of the text `pat`. -/
def splitOnceStr (pat : Str) : Str → Option (Str × Str)
  | [] => if pat.isEmpty then some ([], []) else none
  | c :: s =>
    match stripPrefix pat (c :: s) with
    | some rest => some ([], rest)
    | none => (splitOnceStr pat s).map fun p => (c :: p.1, p.2)

/-- The text without the copies of `c` at its end. -/
def trimEndMatches (c : Char) (s : Str) : Str := s.rdropWhile (· == c)

/-- The parts between the occurrences of `sep`. -/
def split (sep : Char) (s : Str) : List Str := s.splitOn sep

def startsWith (s pat : Str) : Bool := (stripPrefix pat s).isSome

/-- Whether `pat` occurs in the text. -/
def contains (pat : Str) : Str → Bool
  | [] => pat.isEmpty
  | c :: s => startsWith (c :: s) pat || contains pat s

private def replaceFrom (pat new : Str) : Nat → Str → Str
  | _, [] => []
  | skip + 1, _ :: s => replaceFrom pat new skip s
  | 0, c :: s =>
    if startsWith (c :: s) pat then new ++ replaceFrom pat new (pat.length - 1) s else c :: replaceFrom pat new 0 s

/-- Replace every occurrence of the non-empty text `pat`, from the left. -/
def replace (pat new s : Str) : Str := replaceFrom pat new 0 s

theorem stripPrefix_eq_some {pat s r : Str} : stripPrefix pat s = some r ↔ s = pat ++ r := by
  induction pat generalizing s with
  | nil => simp [stripPrefix]
  | cons p pat ih =>
    cases s with
    | nil => simp [stripPrefix]
    | cons c s =>
      by_cases h : p = c
      · subst h; simp [stripPrefix, ih]
      · simp [stripPrefix, h, Ne.symm h]

theorem startsWith_iff {s pat : Str} : s.startsWith pat = true ↔ ∃ r, s = pat ++ r := by
  unfold startsWith
  rw [Option.isSome_iff_exists]
  simp only [stripPrefix_eq_some]

/-- A text is split at the first place where the pattern can start. -/
theorem splitOnceStr_append {p : Char} {a : Str} (h : p ∉ a) (pat r : Str) :
    splitOnceStr (p :: pat) (a ++ (p :: pat) ++ r) = some (a, r) := by
  induction a with
  | nil =>
    have : stripPrefix (p :: pat) (p :: (pat ++ r)) = some r := stripPrefix_eq_some.2 rfl
    simp only [List.nil_append, List.cons_append, splitOnceStr, this]
  | cons c a ih =>
    rw [List.mem_cons, not_or] at h
    have : stripPrefix (p :: pat) (c :: (a ++ (p :: pat) ++ r)) = none := by
      simp only [stripPrefix, if_neg h.1]
    show (match stripPrefix (p :: pat) (c :: (a ++ (p :: pat) ++ r)) with
      | some rest => some ([], rest)
      | none => (splitOnceStr (p :: pat) (a ++ (p :: pat) ++ r)).map fun q : Str × Str => (c :: q.1, q.2)) = _
    rw [this, ih h.2]
    rfl

theorem trimEndMatches_of_last {c : Char} {s : Str} (h : s.getLast? ≠ some c) : s.trimEndMatches c = s := by
  unfold trimEndMatches
  rw [List.rdropWhile_eq_self_iff]
  intro hne hc
  rw [List.getLast?_eq_getLast_of_ne_nil hne] at h
  exact h (congrArg some (by simpa using hc))

theorem splitOnce_eq_none {sep : Char} {s : Str} : splitOnce sep s = none ↔ sep ∉ s := by
  induction s with
  | nil => simp [splitOnce]
  | cons c s ih =>
    by_cases h : c = sep
    · simp [splitOnce, h]
    · simp [splitOnce, h, ih, Ne.symm h]

theorem splitOnce_append {sep : Char} {a : Str} (h : sep ∉ a) (b : Str) :
    splitOnce sep (a ++ sep :: b) = some (a, b) := by
  induction a with
  | nil => simp [splitOnce]
  | cons c a ih =>
    rw [List.mem_cons, not_or] at h
    simp [splitOnce, Ne.symm h.1, ih h.2]

theorem splitOnce_eq_some {sep : Char} {s a b : Str} :
    splitOnce sep s = some (a, b) ↔ s = a ++ sep :: b ∧ sep ∉ a := by
  constructor
  · intro h
    induction s generalizing a with
    | nil => cases h
    | cons c s ih =>
      by_cases hc : c = sep
      · simp only [splitOnce, hc, if_true, Option.some.injEq, Prod.mk.injEq] at h
        obtain ⟨rfl, rfl⟩ := h
        simp [hc]
      · simp only [splitOnce, hc, if_false, Option.map_eq_some_iff, Prod.exists, Prod.mk.injEq] at h
        obtain ⟨a', b', h', rfl, rfl⟩ := h
        obtain ⟨rfl, hmem⟩ := ih h'
        simp [hmem, Ne.symm hc]
  · rintro ⟨rfl, h⟩
    exact splitOnce_append h b

theorem rsplitOnce_eq_none {sep : Char} {s : Str} : rsplitOnce sep s = none ↔ sep ∉ s := by
  induction s with
  | nil => simp [rsplitOnce]
  | cons c s ih =>
    unfold rsplitOnce
    cases h : rsplitOnce sep s with
    | some p =>
      have : sep ∈ s := by
        by_contra hmem
        rw [ih.2 hmem] at h
        cases h
      simp [this]
    | none =>
      by_cases hc : c = sep
      · simp [hc]
      · simp [hc, ih.1 h, Ne.symm hc]

theorem rsplitOnce_append {sep : Char} {b : Str} (h : sep ∉ b) (a : Str) :
    rsplitOnce sep (a ++ sep :: b) = some (a, b) := by
  induction a with
  | nil => simp [rsplitOnce, rsplitOnce_eq_none.2 h]
  | cons c a ih => simp [rsplitOnce, ih]

/-- The part before the first separator, which is the whole text where there is none. -/
theorem fst_splitOnce (sep : Char) (s : Str) : ((splitOnce sep s).map Prod.fst).getD s = s.takeWhile (· ≠ sep) := by
  induction s with
  | nil => rfl
  | cons c s ih =>
    by_cases hc : c = sep
    · simp [splitOnce, hc]
    · have hne : (decide (c ≠ sep)) = true := by simpa using hc
      rw [List.takeWhile_cons, hne, ← ih, splitOnce, if_neg hc]
      cases splitOnce sep s <;> rfl

/-- The first part of a split is the part before the first separator. -/
theorem headD_split (sep : Char) (s : Str) : (split sep s).headD [] = s.takeWhile (· ≠ sep) := by
  induction s with
  | nil => rfl
  | cons c s ih =>
    unfold split at ih ⊢
    rw [List.splitOn_cons_eq_if_modifyHead]
    by_cases hc : c = sep
    · simp [hc]
    · have hbeq : (c == sep) = false := by simpa using hc
      rw [hbeq]
      cases hsplit : s.splitOn sep with
      | nil => exact absurd hsplit (List.splitOn_ne_nil _ _)
      | cons first rest =>
        rw [hsplit] at ih
        simpa [hc] using ih

/-! ### Replacing -/

/-- The parts of a split have no separator. -/
theorem not_mem_of_mem_split {sep : Char} {s part : Str} (h : part ∈ split sep s) : sep ∉ part := by
  unfold split at h
  induction s generalizing part with
  | nil =>
    rw [List.splitOn_nil, List.mem_singleton] at h
    rw [h]
    exact List.not_mem_nil
  | cons c s ih =>
    rw [List.splitOn_cons_eq_if_modifyHead] at h
    by_cases hc : c = sep
    · rw [if_pos (beq_iff_eq.2 hc), List.mem_cons] at h
      rcases h with rfl | h
      · exact List.not_mem_nil
      · exact ih h
    · rw [if_neg (by simpa using hc)] at h
      cases hsplit : s.splitOn sep with
      | nil => exact absurd hsplit (List.splitOn_ne_nil _ _)
      | cons first rest =>
        rw [hsplit] at h ih
        rw [List.modifyHead_cons, List.mem_cons] at h
        rcases h with rfl | h
        · rw [List.mem_cons, not_or]
          exact ⟨Ne.symm hc, ih List.mem_cons_self⟩
        · exact ih (List.mem_cons_of_mem _ h)

@[simp] theorem replace_nil (pat new : Str) : replace pat new [] = [] := by
  simp [replace, replaceFrom]

/-- A character with which no occurrence starts stays. -/
theorem replace_cons {pat new s : Str} {c : Char} (h : startsWith (c :: s) pat = false) :
    replace pat new (c :: s) = c :: replace pat new s := by
  simp [replace, replaceFrom, h]

private theorem replaceFrom_drop (pat new : Str) (a s : Str) :
    replaceFrom pat new a.length (a ++ s) = replaceFrom pat new 0 s := by
  induction a with
  | nil => rfl
  | cons c a ih => exact ih

/-- An occurrence is replaced as a whole. -/
theorem replace_append_self {pat : Str} (hpat : pat ≠ []) (new s : Str) :
    replace pat new (pat ++ s) = new ++ replace pat new s := by
  cases pat with
  | nil => exact absurd rfl hpat
  | cons p pat =>
    have hstart : startsWith (p :: (pat ++ s)) (p :: pat) = true := startsWith_iff.2 ⟨s, rfl⟩
    show replaceFrom (p :: pat) new 0 (p :: (pat ++ s)) = _
    rw [replaceFrom, if_pos hstart]
    show new ++ replaceFrom (p :: pat) new pat.length (pat ++ s) = _
    rw [replaceFrom_drop]
    rfl

/-- A text in which no occurrence starts stays. -/
theorem replace_append {pat new a s : Str} (h : ∀ b, b ≠ [] → b <:+ a → startsWith (b ++ s) pat = false) :
    replace pat new (a ++ s) = a ++ replace pat new s := by
  induction a with
  | nil => rfl
  | cons c a ih =>
    have hrest := ih fun b hne hsuffix => h b hne (hsuffix.trans (List.suffix_cons c a))
    have hstart : startsWith (c :: (a ++ s)) pat = false := h (c :: a) (by simp) List.suffix_rfl
    show replace pat new (c :: (a ++ s)) = c :: (a ++ replace pat new s)
    rw [replace_cons hstart, hrest]

/-! ### White space -/

/-- The characters with the Unicode property `White_Space`. -/
def isWhitespace (c : Char) : Bool :=
  let n := c.toNat
  (9 ≤ n && n ≤ 13) || n == 32 || n == 0x85 || n == 0xa0 || n == 0x1680 || (0x2000 ≤ n && n ≤ 0x200a) ||
    n == 0x2028 || n == 0x2029 || n == 0x202f || n == 0x205f || n == 0x3000

def trim (s : Str) : Str := (s.dropWhile isWhitespace).rdropWhile isWhitespace

/-- A text that neither starts nor ends with white space is its own trimming. -/
theorem trim_eq_self {s : Str} (hhead : ∀ c ∈ s.head?, isWhitespace c = false)
    (hlast : ∀ c ∈ s.getLast?, isWhitespace c = false) : s.trim = s := by
  unfold trim
  have h1 : s.dropWhile isWhitespace = s := by
    cases s with
    | nil => rfl
    | cons c s => rw [List.dropWhile_cons_of_neg]; simp [hhead c (by simp)]
  rw [h1, List.rdropWhile_eq_self_iff]
  intro hne
  have := hlast (s.getLast hne) (by simp [List.getLast?_eq_getLast_of_ne_nil hne])
  simp [this]

theorem trim_sublist (s : Str) : s.trim.Sublist s :=
  (List.rdropWhile_prefix isWhitespace _).sublist.trans (List.dropWhile_sublist isWhitespace)

theorem isWhitespace_of_head_trim {s : Str} {c : Char} (hc : c ∈ s.trim.head?) : isWhitespace c = false := by
  obtain ⟨rest, hrest⟩ := List.rdropWhile_prefix isWhitespace (s.dropWhile isWhitespace)
  have h : (s.dropWhile isWhitespace).head? = some c := by
    have hc' : (List.rdropWhile isWhitespace (s.dropWhile isWhitespace)).head? = some c := hc
    rw [← hrest, List.head?_append, hc', Option.some_or]
  have := List.head?_dropWhile_not isWhitespace s
  rw [h] at this
  simpa using this

theorem isWhitespace_of_getLast_trim {s : Str} {c : Char} (hc : c ∈ s.trim.getLast?) : isWhitespace c = false := by
  have hne : s.trim ≠ [] := by rintro h; simp [h] at hc
  have hlast : ¬ isWhitespace (s.trim.getLast hne) = true := List.rdropWhile_last_not isWhitespace _ hne
  rw [List.getLast?_eq_getLast_of_ne_nil hne] at hc
  obtain rfl := Option.some.inj hc
  simpa using hlast

@[simp] theorem trim_trim (s : Str) : s.trim.trim = s.trim :=
  trim_eq_self (fun _ => isWhitespace_of_head_trim) (fun _ => isWhitespace_of_getLast_trim)

/-- A predicate which does not see the case of a letter. -/
theorem dropWhile_toAsciiLowercase {p : Char → Bool} (hp : ∀ c, p c.toLower = p c) (s : Str) :
    s.toAsciiLowercase.dropWhile p = Str.toAsciiLowercase (s.dropWhile p) := by
  have hcomp : p ∘ Char.toLower = p := funext hp
  unfold toAsciiLowercase
  rw [List.dropWhile_map, hcomp]

theorem takeWhile_toAsciiLowercase {p : Char → Bool} (hp : ∀ c, p c.toLower = p c) (s : Str) :
    s.toAsciiLowercase.takeWhile p = Str.toAsciiLowercase (s.takeWhile p) := by
  have hcomp : p ∘ Char.toLower = p := funext hp
  unfold toAsciiLowercase
  rw [List.takeWhile_map, hcomp]

theorem isWhitespace_toLower (c : Char) : isWhitespace c.toLower = isWhitespace c := by
  rcases toLower_cases c with h | ⟨hge, hle, h⟩
  · rw [h]
  · have hno : ∀ d : Char, 65 ≤ d.toNat → d.toNat ≤ 122 → isWhitespace d = false := by
      intro d hd hd'
      unfold isWhitespace
      simp only [Bool.or_eq_false_iff, Bool.and_eq_false_imp, beq_eq_false_iff_ne, decide_eq_true_eq,
        decide_eq_false_iff_not]
      omega
    rw [hno c hge (by omega), hno c.toLower (by omega) (by omega)]

theorem trim_toAsciiLowercase (s : Str) : s.toAsciiLowercase.trim = s.trim.toAsciiLowercase := by
  unfold trim
  rw [dropWhile_toAsciiLowercase isWhitespace_toLower, List.rdropWhile, List.rdropWhile]
  unfold toAsciiLowercase
  rw [← List.map_reverse]
  have hdrop := dropWhile_toAsciiLowercase isWhitespace_toLower (s.dropWhile isWhitespace).reverse
  unfold toAsciiLowercase at hdrop
  rw [hdrop, List.map_reverse]

/-! ### Numbers -/

/-- The decimal text of a number. -/
def ofNat (n : Nat) : Str := Nat.toDigits 10 n

def isAsciiDigit (c : Char) : Bool := c.isDigit

/-- The characters of texts which are joined. -/
theorem mem_intercalate {sep : Str} {parts : List Str} {c : Char} :
    c ∈ List.intercalate sep parts ↔ (c ∈ sep ∧ 2 ≤ parts.length) ∨ ∃ part ∈ parts, c ∈ part := by
  induction parts with
  | nil => simp
  | cons part parts ih =>
    cases parts with
    | nil => simp
    | cons next parts =>
      rw [List.intercalate_cons_cons, List.mem_append, List.mem_append, ih]
      simp only [List.length_cons, List.exists_mem_cons_iff]
      grind

/-- Read an unsigned decimal number which is at most `bound`; a leading `+` is allowed. -/
def parseUnsigned (bound : Nat) (s : Str) : Option Nat :=
  let digits := match s with
    | '+' :: rest => rest
    | _ => s
  if digits.isEmpty || !digits.all isAsciiDigit then none
  else
    let n := Nat.ofDigitChars 10 digits 0
    if n ≤ bound then some n else none

theorem ofNat_ne_nil (n : Nat) : ofNat n ≠ [] := Nat.toDigits_ne_nil

theorem isAsciiDigit_of_mem_ofNat {n : Nat} {c : Char} (h : c ∈ ofNat n) : isAsciiDigit c = true :=
  Nat.isDigit_of_mem_toDigits (by decide) (by decide) h

theorem parseUnsigned_ofNat {n bound : Nat} (h : n ≤ bound) : parseUnsigned bound (ofNat n) = some n := by
  have hdigits : (match ofNat n with | '+' :: rest => rest | _ => ofNat n) = ofNat n := by
    split
    · rename_i rest heq
      have := isAsciiDigit_of_mem_ofNat (n := n) (c := '+') (by simp [heq])
      exact absurd this (by decide)
    · rfl
  have hall : (ofNat n).all isAsciiDigit = true := List.all_eq_true.2 fun c hc => isAsciiDigit_of_mem_ofNat hc
  have hne : (ofNat n).isEmpty = false := by simpa using ofNat_ne_nil n
  unfold parseUnsigned
  simp only [hdigits, hall, hne, Bool.not_true, Bool.or_false, Bool.false_eq_true, if_false]
  rw [show Nat.ofDigitChars 10 (ofNat n) 0 = n from Nat.ofDigitChars_ten_toDigits, if_pos h]

end Str
