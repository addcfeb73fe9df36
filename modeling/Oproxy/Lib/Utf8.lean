import Oproxy.Lib.Text

/-!
# UTF-8

Decoding of byte strings in which each maximal part that is no beginning of a character is replaced by `U+FFFD`.
-/

namespace Utf8

def replacement : Char := Char.ofNat 0xfffd

def isContinuation (b : UInt8) : Bool := 0x80 ≤ b.toNat && b.toNat ≤ 0xbf

/-- The range of the second byte after the first byte of a sequence of three or four bytes. -/
def secondRange (b : UInt8) : Nat × Nat :=
  if b.toNat = 0xe0 then (0xa0, 0xbf)
  else if b.toNat = 0xed then (0x80, 0x9f)
  else if b.toNat = 0xf0 then (0x90, 0xbf)
  else if b.toNat = 0xf4 then (0x80, 0x8f)
  else (0x80, 0xbf)

private def sixBits (b : UInt8) : Nat := b.toNat % 64

/-- The first character of a byte string that starts with `b`, and the bytes after it. -/
def decodeFirst (b : UInt8) (rest : Bytes) : Char × Bytes :=
  let n := b.toNat
  if n < 0x80 then (Char.ofNat n, rest)
  else if n < 0xc2 then (replacement, rest)
  else if n < 0xe0 then
    match rest with
    | b1 :: rest1 =>
      if isContinuation b1 then (Char.ofNat ((n % 32) * 64 + sixBits b1), rest1) else (replacement, rest)
    | [] => (replacement, rest)
  else if n < 0xf5 then
    match rest with
    | b1 :: rest1 =>
      if (secondRange b).1 ≤ b1.toNat ∧ b1.toNat ≤ (secondRange b).2 then
        match rest1 with
        | b2 :: rest2 =>
          if isContinuation b2 then
            if n < 0xf0 then (Char.ofNat ((n % 16) * 4096 + sixBits b1 * 64 + sixBits b2), rest2)
            else
              match rest2 with
              | b3 :: rest3 =>
                if isContinuation b3 then
                  (Char.ofNat ((n % 8) * 262144 + sixBits b1 * 4096 + sixBits b2 * 64 + sixBits b3), rest3)
                else (replacement, rest2)
              | [] => (replacement, rest2)
          else (replacement, rest1)
        | [] => (replacement, rest1)
      else (replacement, rest)
    | [] => (replacement, rest)
  else (replacement, rest)

private def decodeSteps : Nat → Bytes → Str
  | 0, _ => []
  | _ + 1, [] => []
  | fuel + 1, b :: rest => (decodeFirst b rest).1 :: decodeSteps fuel (decodeFirst b rest).2

/-- Decode a byte string, replacing what is not UTF-8.  Each step takes at least one byte. -/
def decodeLossy (bytes : Bytes) : Str := decodeSteps bytes.length bytes

/-! ### What is encoded -/

private theorem toNat_ofNat_of_lt {n : Nat} (h : n < 256) : (UInt8.ofNat n).toNat = n := by
  rw [UInt8.toNat_ofNat']
  omega

private theorem ofNat_eq_of_toNat {c : Char} {n : Nat} (h : n = c.toNat) : Char.ofNat n = c := by
  rw [h, Char.ofNat_toNat]

private theorem isContinuation_ofNat (n : Nat) : isContinuation (UInt8.ofNat (n % 64 + 0x80)) = true := by
  have hb := @toNat_ofNat_of_lt (n % 64 + 0x80) (by omega)
  unfold isContinuation
  rw [hb]
  simp
  omega

private theorem sixBits_ofNat (n : Nat) : sixBits (UInt8.ofNat (n % 64 + 0x80)) = n % 64 := by
  have hb := @toNat_ofNat_of_lt (n % 64 + 0x80) (by omega)
  unfold sixBits
  rw [hb]
  omega

private theorem decodeFirst_two (c : Char) (r : Bytes) (h1 : 0x7f < c.toNat) (h2 : c.toNat ≤ 0x7ff) :
    decodeFirst (UInt8.ofNat (c.toNat / 64 % 32 + 0xc0)) (UInt8.ofNat (c.toNat % 64 + 0x80) :: r) = (c, r) := by
  have hb := @toNat_ofNat_of_lt (c.toNat / 64 % 32 + 0xc0) (by omega)
  unfold decodeFirst
  simp only [hb, isContinuation_ofNat, sixBits_ofNat]
  rw [if_neg (by omega), if_neg (by omega), if_pos (by omega), if_pos trivial, ofNat_eq_of_toNat]
  omega

private theorem decodeFirst_three (c : Char) (r : Bytes) (h2 : 0x7ff < c.toNat) (h3 : c.toNat ≤ 0xffff) :
    decodeFirst (UInt8.ofNat (c.toNat / 4096 % 16 + 0xe0))
      (UInt8.ofNat (c.toNat / 64 % 64 + 0x80) :: UInt8.ofNat (c.toNat % 64 + 0x80) :: r) = (c, r) := by
  have hvalid : c.toNat < 0xd800 ∨ (0xdfff < c.toNat ∧ c.toNat < 0x110000) := c.valid
  have hb := @toNat_ofNat_of_lt (c.toNat / 4096 % 16 + 0xe0) (by omega)
  have hb1 := @toNat_ofNat_of_lt (c.toNat / 64 % 64 + 0x80) (by omega)
  -- no overlong sequences, and no surrogates
  have hsecond : (secondRange (UInt8.ofNat (c.toNat / 4096 % 16 + 0xe0))).1 ≤ c.toNat / 64 % 64 + 0x80 ∧
      c.toNat / 64 % 64 + 0x80 ≤ (secondRange (UInt8.ofNat (c.toNat / 4096 % 16 + 0xe0))).2 := by
    unfold secondRange
    rw [hb]
    split
    · dsimp only
      omega
    · split
      · dsimp only
        omega
      · rw [if_neg (by omega), if_neg (by omega)]
        dsimp only
        omega
  unfold decodeFirst
  simp only [hb, hb1, isContinuation_ofNat, sixBits_ofNat, hsecond]
  rw [if_neg (by omega), if_neg (by omega), if_neg (by omega), if_pos (by omega), if_pos (by trivial), if_pos trivial,
    if_pos (by omega), ofNat_eq_of_toNat]
  omega

private theorem decodeFirst_four (c : Char) (r : Bytes) (h3 : 0xffff < c.toNat) :
    decodeFirst (UInt8.ofNat (c.toNat / 262144 % 8 + 0xf0))
      (UInt8.ofNat (c.toNat / 4096 % 64 + 0x80) :: UInt8.ofNat (c.toNat / 64 % 64 + 0x80) ::
        UInt8.ofNat (c.toNat % 64 + 0x80) :: r) = (c, r) := by
  have hvalid : c.toNat < 0xd800 ∨ (0xdfff < c.toNat ∧ c.toNat < 0x110000) := c.valid
  have hb := @toNat_ofNat_of_lt (c.toNat / 262144 % 8 + 0xf0) (by omega)
  have hb1 := @toNat_ofNat_of_lt (c.toNat / 4096 % 64 + 0x80) (by omega)
  have hsecond : (secondRange (UInt8.ofNat (c.toNat / 262144 % 8 + 0xf0))).1 ≤ c.toNat / 4096 % 64 + 0x80 ∧
      c.toNat / 4096 % 64 + 0x80 ≤ (secondRange (UInt8.ofNat (c.toNat / 262144 % 8 + 0xf0))).2 := by
    unfold secondRange
    rw [hb, if_neg (by omega), if_neg (by omega)]
    split
    · dsimp only
      omega
    · split
      · dsimp only
        omega
      · dsimp only
        omega
  unfold decodeFirst
  simp only [hb, hb1, isContinuation_ofNat, sixBits_ofNat, hsecond]
  rw [if_neg (by omega), if_neg (by omega), if_neg (by omega), if_pos (by omega), if_pos (by trivial), if_pos trivial,
    if_neg (by omega), if_pos trivial, ofNat_eq_of_toNat]
  omega

/-- A character which is encoded is decoded again, by the number of its bytes. -/
private theorem decodeFirst_encode (c : Char) (r : Bytes) :
    ∃ b rest, String.utf8EncodeChar c = b :: rest ∧ decodeFirst b (rest ++ r) = (c, r) := by
  have hval : c.val.toNat = c.toNat := rfl
  unfold String.utf8EncodeChar
  by_cases h1 : c.toNat ≤ 0x7f
  · simp only [hval, if_pos h1]
    refine ⟨_, _, rfl, ?_⟩
    have hb := @toNat_ofNat_of_lt c.toNat (by omega)
    unfold decodeFirst
    simp only [hb, List.nil_append]
    rw [if_pos (by omega), Char.ofNat_toNat]
  · by_cases h2 : c.toNat ≤ 0x7ff
    · simp only [hval, if_neg h1, if_pos h2]
      exact ⟨_, _, rfl, decodeFirst_two c r (by omega) h2⟩
    · by_cases h3 : c.toNat ≤ 0xffff
      · simp only [hval, if_neg h1, if_neg h2, if_pos h3]
        exact ⟨_, _, rfl, decodeFirst_three c r (by omega) h3⟩
      · simp only [hval, if_neg h1, if_neg h2, if_neg h3]
        exact ⟨_, _, rfl, decodeFirst_four c r (by omega)⟩

private theorem decodeSteps_toUtf8 (text : Str) (fuel : Nat) (h : (Str.toUtf8 text).length ≤ fuel) :
    decodeSteps fuel (Str.toUtf8 text) = text := by
  induction text generalizing fuel with
  | nil => cases fuel <;> rfl
  | cons c text ih =>
    obtain ⟨b, rest, hencode, hdecode⟩ := decodeFirst_encode c (Str.toUtf8 text)
    have hbytes : Str.toUtf8 (c :: text) = b :: (rest ++ Str.toUtf8 text) := by
      unfold Str.toUtf8
      rw [List.flatMap_cons, hencode, List.cons_append]
    rw [hbytes] at h ⊢
    rw [List.length_cons, List.length_append] at h
    obtain ⟨fuel, rfl⟩ : ∃ n, fuel = n + 1 := ⟨fuel - 1, by omega⟩
    unfold decodeSteps
    rw [hdecode, ih fuel (by omega)]

/-- Text which is encoded is decoded again. -/
@[simp] theorem decodeLossy_toUtf8 (text : Str) : decodeLossy text.toUtf8 = text :=
  decodeSteps_toUtf8 text _ (Nat.le_refl _)

theorem toUtf8_inj {a b : Str} : a.toUtf8 = b.toUtf8 ↔ a = b := by
  constructor
  · intro h
    rw [← decodeLossy_toUtf8 a, h, decodeLossy_toUtf8]
  · exact congrArg Str.toUtf8

/-- Each character takes at least one byte. -/
theorem length_decodeLossy_le (bytes : Bytes) : (decodeLossy bytes).length ≤ bytes.length := by
  have hsteps : ∀ (fuel : Nat) (bytes : Bytes), (decodeSteps fuel bytes).length ≤ fuel := by
    intro fuel
    induction fuel with
    | zero => exact fun _ => Nat.le_refl _
    | succ fuel ih =>
      intro bytes
      cases bytes with
      | nil => exact Nat.zero_le _
      | cons b rest => exact Nat.succ_le_succ (ih _)
  exact hsteps bytes.length bytes

/-- The encoding of some text. -/
def Valid (bytes : Bytes) : Prop := ∃ text : Str, text.toUtf8 = bytes

/-- Decoding loses nothing exactly where the bytes are the encoding of some text. -/
theorem toUtf8_decodeLossy_iff (bytes : Bytes) : (decodeLossy bytes).toUtf8 = bytes ↔ Valid bytes := by
  constructor
  · intro h
    exact ⟨_, h⟩
  · rintro ⟨text, rfl⟩
    rw [decodeLossy_toUtf8]

end Utf8
