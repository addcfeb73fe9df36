import Oproxy.Lib.Text

/-!
# Base64

The standard alphabet with padding.  Decoding is strict: the text is made of whole groups, only the last one is padded,
and the bits which the padding stands for are zero.
-/

namespace Base64

def alphabet : Str := "ABCDEFGHIJKLMNOPQRSTUVWXYZabcdefghijklmnopqrstuvwxyz0123456789+/"

def encodeDigit (n : Nat) : Char := alphabet.getD n 'A'

def decodeDigit (c : Char) : Option Nat := alphabet.idxOf? c

def encode : Bytes → Str
  | [] => []
  | [a] => [encodeDigit (a.toNat / 4), encodeDigit (a.toNat % 4 * 16), '=', '=']
  | [a, b] =>
    [encodeDigit (a.toNat / 4), encodeDigit (a.toNat % 4 * 16 + b.toNat / 16), encodeDigit (b.toNat % 16 * 4), '=']
  | a :: b :: c :: rest =>
    encodeDigit (a.toNat / 4) :: encodeDigit (a.toNat % 4 * 16 + b.toNat / 16) ::
      encodeDigit (b.toNat % 16 * 4 + c.toNat / 64) :: encodeDigit (c.toNat % 64) :: encode rest

/-- A last group of two digits. -/
def decodeTwo (a b : Char) : Option Bytes :=
  (decodeDigit a).bind fun x => (decodeDigit b).bind fun y =>
    if y % 16 = 0 then some [UInt8.ofNat (x * 4 + y / 16)] else none

/-- A last group of three digits. -/
def decodeThree (a b c : Char) : Option Bytes :=
  (decodeDigit a).bind fun x => (decodeDigit b).bind fun y => (decodeDigit c).bind fun z =>
    if z % 4 = 0 then some [UInt8.ofNat (x * 4 + y / 16), UInt8.ofNat (y % 16 * 16 + z / 4)] else none

def decodeFour (a b c d : Char) : Option Bytes :=
  (decodeDigit a).bind fun x => (decodeDigit b).bind fun y => (decodeDigit c).bind fun z => (decodeDigit d).map fun w =>
    [UInt8.ofNat (x * 4 + y / 16), UInt8.ofNat (y % 16 * 16 + z / 4), UInt8.ofNat (z % 4 * 64 + w)]

def decode : Str → Option Bytes
  | [] => some []
  | a :: b :: c :: d :: rest =>
    if d = '=' then
      if !rest.isEmpty then none else if c = '=' then decodeTwo a b else decodeThree a b c
    else (decodeFour a b c d).bind fun group => (decode rest).map fun bytes => group ++ bytes
  | _ => none

theorem decodeDigit_encodeDigit {n : Nat} (h : n < 64) : decodeDigit (encodeDigit n) = some n := by
  have hall : ∀ n : Fin 64, decodeDigit (encodeDigit n) = some n.val := by decide +kernel
  exact hall ⟨n, h⟩

/-- The padding is no digit. -/
theorem decodeDigit_pad : decodeDigit '=' = none := by decide +kernel

theorem encodeDigit_ne_pad {n : Nat} (h : n < 64) : encodeDigit n ≠ '=' := by
  intro hpad
  have hdigit := decodeDigit_encodeDigit h
  rw [hpad, decodeDigit_pad] at hdigit
  cases hdigit

private theorem ofNat_eq {b : UInt8} {n : Nat} (h : n % 256 = b.toNat) : UInt8.ofNat n = b := by
  apply UInt8.toNat_inj.1
  rw [UInt8.toNat_ofNat']
  exact h

/-- What is encoded is decoded again. -/
theorem decode_encode (bytes : Bytes) : decode (encode bytes) = some bytes := by
  induction bytes using encode.induct with
  | case1 => rfl
  | case2 a =>
    have ha := a.toNat_lt
    have hfirst : UInt8.ofNat (a.toNat / 4 * 4 + a.toNat % 4 * 16 / 16) = a := ofNat_eq (by omega)
    have hzero : a.toNat % 4 * 16 % 16 = 0 := by omega
    simp only [encode, decode, decodeTwo, List.isEmpty_nil, Bool.not_true, Bool.false_eq_true, if_false, if_true,
      decodeDigit_encodeDigit (show a.toNat / 4 < 64 by omega),
      decodeDigit_encodeDigit (show a.toNat % 4 * 16 < 64 by omega), Option.bind_some, hzero, hfirst]
  | case3 a b =>
    have ha := a.toNat_lt
    have hb := b.toNat_lt
    have hfirst : UInt8.ofNat (a.toNat / 4 * 4 + (a.toNat % 4 * 16 + b.toNat / 16) / 16) = a := ofNat_eq (by omega)
    have hsecond : UInt8.ofNat ((a.toNat % 4 * 16 + b.toNat / 16) % 16 * 16 + b.toNat % 16 * 4 / 4) = b :=
      ofNat_eq (by omega)
    have hzero : b.toNat % 16 * 4 % 4 = 0 := by omega
    have hpad : encodeDigit (b.toNat % 16 * 4) ≠ '=' := encodeDigit_ne_pad (by omega)
    simp only [encode, decode, decodeThree, List.isEmpty_nil, Bool.not_true, Bool.false_eq_true, if_false, if_true,
      hpad, decodeDigit_encodeDigit (show a.toNat / 4 < 64 by omega),
      decodeDigit_encodeDigit (show a.toNat % 4 * 16 + b.toNat / 16 < 64 by omega),
      decodeDigit_encodeDigit (show b.toNat % 16 * 4 < 64 by omega), Option.bind_some, hzero, hfirst, hsecond]
  | case4 a b c rest ih =>
    have ha := a.toNat_lt
    have hb := b.toNat_lt
    have hc := c.toNat_lt
    have hfirst : UInt8.ofNat (a.toNat / 4 * 4 + (a.toNat % 4 * 16 + b.toNat / 16) / 16) = a := ofNat_eq (by omega)
    have hsecond : UInt8.ofNat ((a.toNat % 4 * 16 + b.toNat / 16) % 16 * 16 + (b.toNat % 16 * 4 + c.toNat / 64) / 4) =
        b := ofNat_eq (by omega)
    have hthird : UInt8.ofNat ((b.toNat % 16 * 4 + c.toNat / 64) % 4 * 64 + c.toNat % 64) = c := ofNat_eq (by omega)
    have hpad : encodeDigit (c.toNat % 64) ≠ '=' := encodeDigit_ne_pad (by omega)
    simp only [encode, decode, decodeFour, if_neg hpad, ih,
      decodeDigit_encodeDigit (show a.toNat / 4 < 64 by omega),
      decodeDigit_encodeDigit (show a.toNat % 4 * 16 + b.toNat / 16 < 64 by omega),
      decodeDigit_encodeDigit (show b.toNat % 16 * 4 + c.toNat / 64 < 64 by omega),
      decodeDigit_encodeDigit (show c.toNat % 64 < 64 by omega), Option.bind_some, Option.map_some, hfirst, hsecond,
      hthird]
    rfl

/-- Padding and stray bits are checked. -/
example : encode [102, 111, 111, 98] = "Zm9vYg==" ∧ decode "Zm9vYg==" = some [102, 111, 111, 98] ∧
    decode "Zm9vYh==" = none ∧ decode "Zm9vYg" = none ∧ decode "Zg==Zg==" = none := by decide +kernel

/-- What is encoded gets longer, unless it is empty. -/
theorem length_lt_encode {bytes : Bytes} (h : bytes ≠ []) : bytes.length < (encode bytes).length := by
  induction bytes using encode.induct with
  | case1 => exact absurd rfl h
  | case2 a => simp [encode]
  | case3 a b => simp [encode]
  | case4 a b c rest ih =>
    unfold encode
    by_cases hrest : rest = []
    · subst hrest
      simp [encode]
    · have hlonger := ih hrest
      simp only [List.length_cons]
      omega

private theorem length_of_decodeTwo {a b : Char} {bytes : Bytes} (h : decodeTwo a b = some bytes) :
    bytes.length = 1 := by
  unfold decodeTwo at h
  obtain ⟨x, -, h⟩ := Option.bind_eq_some_iff.1 h
  obtain ⟨y, -, h⟩ := Option.bind_eq_some_iff.1 h
  split at h
  · cases h
    rfl
  · cases h

private theorem length_of_decodeThree {a b c : Char} {bytes : Bytes} (h : decodeThree a b c = some bytes) :
    bytes.length = 2 := by
  unfold decodeThree at h
  obtain ⟨x, -, h⟩ := Option.bind_eq_some_iff.1 h
  obtain ⟨y, -, h⟩ := Option.bind_eq_some_iff.1 h
  obtain ⟨z, -, h⟩ := Option.bind_eq_some_iff.1 h
  split at h
  · cases h
    rfl
  · cases h

private theorem length_of_decodeFour {a b c d : Char} {bytes : Bytes} (h : decodeFour a b c d = some bytes) :
    bytes.length = 3 := by
  unfold decodeFour at h
  obtain ⟨x, -, h⟩ := Option.bind_eq_some_iff.1 h
  obtain ⟨y, -, h⟩ := Option.bind_eq_some_iff.1 h
  obtain ⟨z, -, h⟩ := Option.bind_eq_some_iff.1 h
  obtain ⟨w, -, h⟩ := Option.map_eq_some_iff.1 h
  rw [← h]
  rfl

/-- A text is longer than what it decodes to, unless it is empty. -/
theorem length_lt_of_decode {text : Str} {bytes : Bytes} (h : decode text = some bytes) (hne : text ≠ []) :
    bytes.length < text.length := by
  induction text using decode.induct generalizing bytes with
  | case1 => exact absurd rfl hne
  | case2 a b c rest hrest => simp [decode, hrest] at h
  | case3 a b rest hrest =>
    have htwo : decodeTwo a b = some bytes := by simpa [decode, hrest] using h
    have hlength := length_of_decodeTwo htwo
    simp only [List.length_cons]
    omega
  | case4 a b c rest hrest hc =>
    have hthree : decodeThree a b c = some bytes := by simpa [decode, hrest, hc] using h
    have hlength := length_of_decodeThree hthree
    simp only [List.length_cons]
    omega
  | case5 a b c d rest hd ih =>
    have hfour : ((decodeFour a b c d).bind fun group => (decode rest).map fun bytes => group ++ bytes) =
        some bytes := by simpa [decode, hd] using h
    obtain ⟨group, hgroup, hmap⟩ := Option.bind_eq_some_iff.1 hfour
    obtain ⟨bytes', hrest, rfl⟩ := Option.map_eq_some_iff.1 hmap
    have hlength := length_of_decodeFour hgroup
    have hle : bytes'.length ≤ rest.length := by
      by_cases hnil : rest = []
      · subst hnil
        cases hrest
        simp
      · exact Nat.le_of_lt (ih hrest hnil)
    simp only [List.length_append, List.length_cons]
    omega
  | case6 text hnil hcons =>
    unfold decode at h
    split at h
    · exact absurd rfl hnil
    · exact absurd rfl (hcons _ _ _ _ _)
    · cases h

end Base64
