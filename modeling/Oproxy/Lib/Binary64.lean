import Mathlib.Data.Nat.Log
import Mathlib.Tactic.Positivity
import Mathlib.Tactic.Ring

/-!
# Whole numbers in binary64

A 64-bit count kept as a double-precision number, and read back.  The arithmetic is that of the `Float` of the
language, which rounds to 53 bits: a whole number below `2 ^ 53` is kept as it is (`toU64_ofU64`), so is the sum of two
such numbers as long as it stays below `2 ^ 53` (`Holds.add`), and a sum which does not is a number of at least
`2 ^ 53` after the rounding (`Exceeds.toU64`).
-/

namespace Binary64

open Float.Model Float.Model.UnpackedFloat

/-- A count as a float. -/
def ofU64 (n : Nat) : Float := (UInt64.ofNat n).toFloat

/-- A float as a count: it is cut off, no number is 0, and numbers out of range go to the nearest count. -/
def toU64 (x : Float) : Nat := x.toUInt64.toNat

/-- The larger of two numbers, and the other one where one is no number. -/
def max (x y : Float) : Float := if x.isNaN then y else if x ≤ y then y else x

/-! ### Shifts -/

private theorem shiftRight_succ (em : ExtendedMantissa) (j : Nat) : em >>> (j + 1) = (em >>> j).shiftRightOne := rfl

/-- Nothing is lost where only zeros are shifted out. -/
private theorem shiftRight_exact (q j : Nat) :
    (⟨q * 2 ^ j, false, false⟩ : ExtendedMantissa) >>> j = ⟨q, false, false⟩ := by
  induction j generalizing q with
  | zero =>
    rw [Nat.pow_zero, Nat.mul_one]
    rfl
  | succ j ih =>
    have hmul : q * 2 ^ (j + 1) = (q * 2) * 2 ^ j := by ring
    rw [shiftRight_succ, hmul, ih]
    simp [ExtendedMantissa.shiftRightOne]

private theorem mantissa_shiftRight (em : ExtendedMantissa) (j : Nat) : (em >>> j).mantissa = em.mantissa / 2 ^ j := by
  induction j with
  | zero => simp [HShiftRight.hShiftRight, Nat.repeat]
  | succ j ih =>
    rw [shiftRight_succ]
    show (em >>> j).mantissa / 2 = _
    rw [ih, Nat.div_div_eq_div_mul, Nat.pow_succ]

private theorem roundedMantissa_bounds (em : ExtendedMantissa) :
    em.mantissa ≤ em.roundedMantissa ∧ em.roundedMantissa ≤ em.mantissa + 1 := by
  obtain ⟨m, r, s⟩ := em
  cases r <;> cases s <;>
    simp only [ExtendedMantissa.roundedMantissa, ExtendedMantissa.accuracy, Accuracy.roundToNearestEven] <;> omega

private theorem targetExponent_eq (m : Nat) (e : Int) :
    Format.binary64.targetExponent (totalExponent m e) = Max.max ((m.log2 : Int) + e - 52) (-1074) := by
  have hbits : Format.binary64.mantissaBits = 53 := rfl
  unfold Format.targetExponent totalExponent Format.minExponent
  rw [hbits]
  norm_num
  omega

/-! ### Rounding -/

/-- A number with a full mantissa. -/
def IsNormal (f : UnpackedFloat) (e : Int) : Prop :=
  ∃ m hm, f = .finite .positive m e hm ∧ 2 ^ 52 ≤ m ∧ m < 2 ^ 53

private theorem log2_of_full {m : Nat} (hlow : 2 ^ 52 ≤ m) (hhigh : m < 2 ^ 53) : m.log2 = 52 :=
  (Nat.log2_eq_iff (by omega)).2 ⟨hlow, hhigh⟩

private theorem log2_mul_two_pow {m : Nat} (hm : m ≠ 0) (k : Nat) : (m * 2 ^ k).log2 = m.log2 + k := by
  rw [Nat.log2_eq_iff (by positivity)]
  have hlow := Nat.log2_self_le hm
  have hhigh := @Nat.lt_log2_self m
  constructor
  · rw [Nat.pow_add]
    exact Nat.mul_le_mul_right _ hlow
  · have hsplit : 2 ^ (m.log2 + k + 1) = 2 ^ (m.log2 + 1) * 2 ^ k := by ring
    rw [hsplit]
    exact Nat.mul_lt_mul_of_pos_right hhigh (by positivity)

/-- A full mantissa stays where it is. -/
private theorem shiftToTarget_full {m : Nat} {e : Int} (hlow : 2 ^ 52 ≤ m) (hhigh : m < 2 ^ 53) (he : -1074 ≤ e) :
    shiftToTargetExponent Format.binary64 m e .exact = (⟨m, false, false⟩, e) := by
  have htarget : Format.binary64.targetExponent (totalExponent m e) = e := by
    rw [targetExponent_eq, log2_of_full hlow hhigh]
    omega
  unfold shiftToTargetExponent
  rw [htarget]
  simp [shiftToExponent, ExtendedMantissa.ofMantissaAndAccuracy, HShiftRight.hShiftRight, Nat.repeat]

/-- The one mantissa which a rounding makes too long loses its last bit, a zero. -/
private theorem shiftToTarget_overflow {e : Int} (he : -1074 ≤ e) :
    shiftToTargetExponent Format.binary64 (2 ^ 53) e .exact = (⟨2 ^ 52, false, false⟩, e + 1) := by
  have htarget : Format.binary64.targetExponent (totalExponent (2 ^ 53) e) = e + 1 := by
    rw [targetExponent_eq, Nat.log2_two_pow]
    omega
  unfold shiftToTargetExponent
  rw [htarget]
  have hone : (e + 1 - e).toNat = 1 := by omega
  simp only [shiftToExponent, hone, ExtendedMantissa.ofMantissaAndAccuracy]
  exact Prod.ext (shiftRight_exact (2 ^ 52) 1) rfl

/-- What two shifts and a rounding make of a mantissa of at least 53 bits. -/
private theorem roundWithAccuracy_normal {m : Nat} {e : Int} (hm : m ≠ 0) (hlog : 52 ≤ m.log2)
    (he : -1074 ≤ (m.log2 : Int) + e - 52) :
    ∃ e', IsNormal (roundWithAccuracy Format.binary64 .positive m e .exact) e' ∧
      (m.log2 : Int) + e - 52 ≤ e' ∧ e' ≤ (m.log2 : Int) + e - 51 := by
  obtain ⟨k, hk⟩ : ∃ k, m.log2 = 52 + k := ⟨m.log2 - 52, by omega⟩
  have htarget : Format.binary64.targetExponent (totalExponent m e) = e + k := by
    rw [targetExponent_eq, hk]
    omega
  have hshift : (e + k - e).toNat = k := by omega
  have hfirst : shiftToTargetExponent Format.binary64 m e .exact =
      ((⟨m, false, false⟩ : ExtendedMantissa) >>> k, e + k) := by
    unfold shiftToTargetExponent
    rw [htarget]
    simp only [shiftToExponent, hshift, ExtendedMantissa.ofMantissaAndAccuracy]
  have hlow : 2 ^ 52 ≤ m / 2 ^ k := by
    rw [Nat.le_div_iff_mul_le (by positivity), ← Nat.pow_add, ← hk]
    exact Nat.log2_self_le hm
  have hhigh : m / 2 ^ k < 2 ^ 53 := by
    rw [Nat.div_lt_iff_lt_mul (by positivity), ← Nat.pow_add]
    have := @Nat.lt_log2_self m
    rw [hk] at this
    rwa [show 53 + k = 52 + k + 1 by omega]
  obtain ⟨hbelow, habove⟩ := roundedMantissa_bounds ((⟨m, false, false⟩ : ExtendedMantissa) >>> k)
  rw [mantissa_shiftRight] at hbelow habove
  unfold roundWithAccuracy
  rw [hfirst]
  dsimp only at hbelow habove ⊢
  generalize ((⟨m, false, false⟩ : ExtendedMantissa) >>> k).roundedMantissa = r at hbelow habove ⊢
  by_cases hfull : r < 2 ^ 53
  · rw [shiftToTarget_full (by omega) hfull (by omega)]
    have hne : r ≠ 0 := by omega
    exact ⟨e + k, ⟨r, Nat.pos_of_ne_zero hne, dif_neg hne, by omega, hfull⟩, by omega, by omega⟩
  · obtain rfl : r = 2 ^ 53 := by omega
    rw [shiftToTarget_overflow (by omega)]
    have hne : 2 ^ 52 ≠ 0 := by decide
    exact ⟨e + k + 1, ⟨2 ^ 52, Nat.pos_of_ne_zero hne, dif_neg hne, by decide, by decide⟩, by omega, by omega⟩

/-- A rounding first writes the number with enough bits. -/
private theorem round_eq {m : Nat} {e t : Int} (ht : Format.binary64.targetExponent (totalExponent m e) = t) :
    round Format.binary64 .positive m e =
      roundWithAccuracy Format.binary64 .positive (m * 2 ^ (e - t).toNat) (e - ((e - t).toNat : Nat)) .exact := by
  unfold UnpackedFloat.round
  rw [ht]
  simp only [decreaseExponent, Nat.shiftLeft_eq]

/-- A number in the normal range is rounded to a full mantissa. -/
theorem round_normal {m : Nat} {e : Int} (hm : m ≠ 0) (he : -1074 ≤ (m.log2 : Int) + e - 52) :
    ∃ e', IsNormal (round Format.binary64 .positive m e) e' ∧
      (m.log2 : Int) + e - 52 ≤ e' ∧ e' ≤ (m.log2 : Int) + e - 51 := by
  have htarget : Format.binary64.targetExponent (totalExponent m e) = (m.log2 : Int) + e - 52 := by
    rw [targetExponent_eq]
    omega
  rw [round_eq htarget]
  generalize hk : (e - ((m.log2 : Int) + e - 52)).toNat = k
  have hlog : (m * 2 ^ k).log2 = m.log2 + k := log2_mul_two_pow hm k
  obtain ⟨e', hnormal, hlow, hhigh⟩ :=
    @roundWithAccuracy_normal (m * 2 ^ k) (e - k) (by positivity) (by omega) (by omega)
  exact ⟨e', hnormal, by omega, by omega⟩

/-- A full mantissa with zeros at its end is rounded to itself. -/
private theorem roundWithAccuracy_exact {q : Nat} {e : Int} (hlow : 2 ^ 52 ≤ q) (hhigh : q < 2 ^ 53) (he : -1074 ≤ e)
    (j : Nat) :
    roundWithAccuracy Format.binary64 .positive (q * 2 ^ j) (e - j) .exact = .finite .positive q e (by omega) := by
  have htarget : Format.binary64.targetExponent (totalExponent (q * 2 ^ j) (e - j)) = e := by
    rw [targetExponent_eq, log2_mul_two_pow (by omega), log2_of_full hlow hhigh]
    omega
  have hshift : (e - (e - j)).toNat = j := by omega
  have hfirst : shiftToTargetExponent Format.binary64 (q * 2 ^ j) (e - j) .exact = (⟨q, false, false⟩, e) := by
    unfold shiftToTargetExponent
    rw [htarget]
    simp only [shiftToExponent, hshift, ExtendedMantissa.ofMantissaAndAccuracy]
    exact Prod.ext (shiftRight_exact q j) (by simp)
  unfold roundWithAccuracy
  rw [hfirst]
  have hround : ExtendedMantissa.roundedMantissa ⟨q, false, false⟩ = q := rfl
  dsimp only
  rw [hround, shiftToTarget_full hlow hhigh he]
  have hne : q ≠ 0 := by omega
  exact dif_neg hne

/-- A number with a full mantissa is rounded to itself, with whatever exponent it is written. -/
private theorem round_exact {q m a b : Nat} {e : Int} (hlow : 2 ^ 52 ≤ q) (hhigh : q < 2 ^ 53) (he : -1074 ≤ e)
    (heq : m * 2 ^ a = q * 2 ^ b) :
    round Format.binary64 .positive m (e + a - b) = .finite .positive q e (by omega) := by
  have hm : m ≠ 0 := by
    rintro rfl
    have : q * 2 ^ b ≠ 0 := by positivity
    omega
  have hlog : m.log2 + a = 52 + b := by
    rw [← log2_mul_two_pow hm, heq, log2_mul_two_pow (by omega), log2_of_full hlow hhigh]
  have htarget : Format.binary64.targetExponent (totalExponent m (e + a - b)) = e := by
    rw [targetExponent_eq]
    omega
  rw [round_eq htarget]
  rcases Nat.le_total a b with hab | hab
  · have hzero : (e + a - b - e).toNat = 0 := by omega
    have hmul : m = q * 2 ^ (b - a) := by
      apply Nat.eq_of_mul_eq_mul_right (show 0 < 2 ^ a by positivity)
      rw [heq, Nat.mul_assoc, ← Nat.pow_add, Nat.sub_add_cancel hab]
    have hexp : e + a - b - ((0 : Nat) : Int) = e - ((b - a : Nat) : Int) := by omega
    rw [hzero, Nat.pow_zero, Nat.mul_one, hexp, hmul]
    exact roundWithAccuracy_exact hlow hhigh he (b - a)
  · have hdiff : (e + a - b - e).toNat = a - b := by omega
    have hmul : m * 2 ^ (a - b) = q := by
      apply Nat.eq_of_mul_eq_mul_right (show 0 < 2 ^ b by positivity)
      rw [← heq, Nat.mul_assoc, ← Nat.pow_add, Nat.sub_add_cancel hab]
    have hexp : e + a - b - ((a - b : Nat) : Int) = e - ((0 : Nat) : Int) := by omega
    rw [hdiff, hmul, hexp]
    have hround := roundWithAccuracy_exact hlow hhigh he 0
    rwa [Nat.pow_zero, Nat.mul_one] at hround

/-! ### Words -/

private theorem unpackSign_packComponents (sign : Sign) (e : BitVec Format.binary64.exponentBits)
    (m : BitVec Format.binary64.mantissaBitsWithoutImplicit) :
    unpackSign (packComponents Format.binary64 sign e m) = sign.toBitVec := by
  apply BitVec.eq_of_getLsbD_eq
  intro i hi
  obtain rfl : i = 0 := by omega
  have happend : (sign.toBitVec ++ e ++ m).getLsbD 63 = sign.toBitVec.getLsbD 0 := by
    rw [BitVec.getLsbD_append, if_neg (by decide), BitVec.getLsbD_append, if_neg (by decide)]
    rfl
  unfold unpackSign packComponents
  simp only [BitVec.getLsbD_cast, BitVec.getLsbD_extractLsb]
  exact (Bool.true_and _).trans happend

/-- A full mantissa is the implicit bit with the bits that are stored. -/
private theorem toNat_implicitBit {m : Nat} (hlow : 2 ^ 52 ≤ m) (hhigh : m < 2 ^ 53) :
    (1#1 ++ BitVec.ofNat 52 m).toNat = m := by
  have hmod : m % 2 ^ 52 = m - 2 ^ 52 := by omega
  have hlt : m - 2 ^ 52 < 2 ^ 52 := by omega
  have hone : (1#1).toNat = 1 := rfl
  have hstored : (BitVec.ofNat 52 m).toNat = m - 2 ^ 52 := by
    rw [BitVec.toNat_ofNat, hmod]
  rw [BitVec.toNat_append, hstored, hone, ← Nat.shiftLeft_add_eq_or_of_lt hlt, Nat.shiftLeft_eq]
  omega

/-- A normal number is stored without loss. -/
theorem unpack_pack_normal {f : UnpackedFloat} {e : Int} (hf : IsNormal f e) (hlow : -1074 ≤ e) (hhigh : e ≤ 900) :
    (Float.Model.pack f).unpack = f := by
  obtain ⟨m, hm, rfl, hmlow, hmhigh⟩ := hf
  -- the biased exponent, which fits its eleven bits
  obtain ⟨b, hb⟩ : ∃ b : Nat, e + 1075 = b := ⟨(e + 1075).toNat, by omega⟩
  have hbias : (e + Format.binary64.exponentBias + Format.binary64.mantissaBitsWithoutImplicit).toNat = b := by
    simp only [Format.exponentBias]
    omega
  have hlog : m.log2 + 1 = Format.binary64.mantissaBits := by
    rw [log2_of_full hmlow hmhigh]
    rfl
  have hpack : UnpackedFloat.pack Format.binary64 (.finite .positive m e hm) =
      packComponents Format.binary64 .positive (BitVec.ofNat 11 b) (BitVec.ofNat 52 m) := by
    unfold UnpackedFloat.pack
    dsimp only
    rw [hbias]
    have hfits : ¬ 2 ^ Format.binary64.exponentBits ≤ b + 1 := by
      show ¬ 2 ^ 11 ≤ b + 1
      omega
    rw [if_neg hfits, if_pos hlog]
  have hexp : (BitVec.ofNat 11 b).toNat = b := by
    rw [BitVec.toNat_ofNat]
    omega
  -- it is neither that of the infinities nor that of zero
  have hones : BitVec.ofNat 11 b ≠ -1#11 := by
    intro h
    have := congrArg BitVec.toNat h
    rw [hexp] at this
    have hval : (-1#11 : BitVec 11).toNat = 2047 := by decide
    omega
  have hzero : BitVec.ofNat 11 b ≠ 0#11 := by
    intro h
    have := congrArg BitVec.toNat h
    rw [hexp] at this
    have hval : (0#11 : BitVec 11).toNat = 0 := by decide
    omega
  show UnpackedFloat.unpack Format.binary64 (UnpackedFloat.pack Format.binary64 (.finite .positive m e hm)) = _
  rw [hpack]
  unfold UnpackedFloat.unpack
  dsimp only
  rw [if_neg (by rw [unpackExponent_packComponents]; exact hones),
    if_neg (by rw [unpackExponent_packComponents]; exact hzero)]
  have hmant := toNat_implicitBit hmlow hmhigh
  have hbiased : ((BitVec.ofNat 11 b).toNat : Int) - (Format.binary64.exponentBias + 52) = e := by
    rw [hexp]
    simp only [Format.exponentBias]
    omega
  refine (UnpackedFloat.finite.injEq ..).mpr ⟨?_, ?_, ?_⟩
  · rw [unpackSign_packComponents]
    rfl
  · rw [unpackMantissa_packComponents]
    exact hmant
  · rw [unpackExponent_packComponents]
    exact hbiased

/-! ### Whole numbers -/

/-- A whole number below `2 ^ 53`, written with a full mantissa. -/
def whole (n : Nat) : UnpackedFloat :=
  if h : n = 0 then .zero .positive
  else .finite .positive (n * 2 ^ (52 - n.log2))
    ((n.log2 : Int) - 52) (Nat.mul_pos (Nat.pos_of_ne_zero h) (Nat.two_pow_pos _))

/-- The float is this whole number, which is below `2 ^ 53`. -/
structure Holds (x : Float) (n : Nat) : Prop where
  lt : n < 2 ^ 53
  unpack_eq : x.toModel.unpack = whole n

/-- The float is a number of at least `2 ^ 53`, below `2 ^ (53 + k)`. -/
def Exceeds (x : Float) (k : Nat) : Prop := ∃ e : Int, IsNormal x.toModel.unpack e ∧ 1 ≤ e ∧ e ≤ k

private theorem whole_zero : whole 0 = .zero .positive := rfl

private theorem whole_pos {n : Nat} (hn : n ≠ 0) :
    whole n = .finite .positive (n * 2 ^ (52 - n.log2)) ((n.log2 : Int) - 52)
      (Nat.mul_pos (Nat.pos_of_ne_zero hn) (Nat.two_pow_pos _)) := dif_neg hn

private theorem whole_full {n : Nat} (hn : n ≠ 0) (hlt : n < 2 ^ 53) :
    n.log2 ≤ 52 ∧ 2 ^ 52 ≤ n * 2 ^ (52 - n.log2) ∧ n * 2 ^ (52 - n.log2) < 2 ^ 53 := by
  have hlog : n.log2 ≤ 52 := Nat.le_of_lt_succ ((Nat.log2_lt hn).2 hlt)
  have hfull : (n * 2 ^ (52 - n.log2)).log2 = 52 := by
    rw [log2_mul_two_pow hn]
    omega
  have hne : n * 2 ^ (52 - n.log2) ≠ 0 := (Nat.mul_pos (Nat.pos_of_ne_zero hn) (Nat.two_pow_pos _)).ne'
  exact ⟨hlog, (Nat.log2_eq_iff hne).1 hfull⟩

private theorem isNormal_whole {n : Nat} (hn : n ≠ 0) (hlt : n < 2 ^ 53) : IsNormal (whole n) ((n.log2 : Int) - 52) :=
  ⟨_, _, whole_pos hn, (whole_full hn hlt).2⟩

private theorem unpack_pack_whole {n : Nat} (hlt : n < 2 ^ 53) : (Float.Model.pack (whole n)).unpack = whole n := by
  by_cases hn : n = 0
  · subst hn
    rfl
  · have hlog := (whole_full hn hlt).1
    exact unpack_pack_normal (isNormal_whole hn hlt) (by omega) (by omega)

private theorem normalize_natCast {n : Nat} (hn : n ≠ 0) (e : Int) (sign : Sign) :
    normalize Format.binary64 n e sign = round Format.binary64 .positive n e := by
  have hgt : compare (n : Int) 0 = .gt := Int.compare_eq_gt.2 (by omega)
  unfold UnpackedFloat.normalize
  rw [hgt]
  rfl

/-- A whole number is rounded to itself, with whatever exponent below 0 it is written. -/
private theorem round_whole {n : Nat} (hn : n ≠ 0) (hlt : n < 2 ^ 53) (k : Nat) :
    round Format.binary64 .positive (n * 2 ^ k) (-k) = whole n := by
  obtain ⟨hlog, hlow, hhigh⟩ := whole_full hn hlt
  have hmul : n * 2 ^ k * 2 ^ (52 - n.log2) = n * 2 ^ (52 - n.log2) * 2 ^ k := by ring
  have hround := @round_exact _ _ _ _ ((n.log2 : Int) - 52) hlow hhigh (by omega) hmul
  have hexp : (n.log2 : Int) - 52 + ((52 - n.log2 : Nat) : Int) - (k : Int) = -k := by omega
  rw [hexp] at hround
  rw [hround, whole_pos hn]

theorem holds_ofU64 {n : Nat} (hlt : n < 2 ^ 53) : Holds (ofU64 n) n := by
  refine ⟨hlt, ?_⟩
  have hnat : (UInt64.ofNat n).toNat = n := by
    rw [UInt64.toNat_ofNat']
    omega
  have hunpacked : UnpackedFloat.ofUInt64 Format.binary64 (UInt64.ofNat n) = whole n := by
    show normalize Format.binary64 ((UInt64.ofNat n).toNat : Int) 0 .positive = whole n
    rw [hnat]
    by_cases hn : n = 0
    · subst hn
      rfl
    · rw [normalize_natCast hn]
      have hround := round_whole hn hlt 0
      rwa [Nat.pow_zero, Nat.mul_one] at hround
  show (Float.Model.pack (UnpackedFloat.ofUInt64 Format.binary64 (UInt64.ofNat n))).unpack = whole n
  rw [hunpacked, unpack_pack_whole hlt]

/-! ### Sums -/

private theorem add_unpack (x y : Float) :
    (x + y).toModel.unpack =
      (Float.Model.pack (UnpackedFloat.add Format.binary64 x.toModel.unpack y.toModel.unpack)).unpack := rfl

/-- Two numbers are added at the smaller of their exponents, and the sum is rounded. -/
private theorem add_finite {m₁ m₂ : Nat} {e₁ e₂ : Int} (h₁ : 0 < m₁) (h₂ : 0 < m₂) :
    UnpackedFloat.add Format.binary64 (.finite .positive m₁ e₁ h₁) (.finite .positive m₂ e₂ h₂) =
      round Format.binary64 .positive
        (m₁ * 2 ^ (e₁ - min e₁ e₂).toNat + m₂ * 2 ^ (e₂ - min e₁ e₂).toNat) (min e₁ e₂) := by
  have hne : m₁ * 2 ^ (e₁ - min e₁ e₂).toNat + m₂ * 2 ^ (e₂ - min e₁ e₂).toNat ≠ 0 := by
    have := Nat.mul_pos h₁ (Nat.two_pow_pos (e₁ - min e₁ e₂).toNat)
    omega
  rw [← normalize_natCast hne _ .positive]
  unfold UnpackedFloat.add
  simp only [decreaseExponent, Nat.shiftLeft_eq, Sign.apply, Nat.cast_add]

/-- The sum of two whole numbers, before it is rounded. -/
private theorem add_whole {a b : Nat} (ha : a ≠ 0) (hb : b ≠ 0) (halt : a < 2 ^ 53) (hblt : b < 2 ^ 53) :
    ∃ k : Nat, k ≤ 52 ∧ UnpackedFloat.add Format.binary64 (whole a) (whole b) =
      round Format.binary64 .positive ((a + b) * 2 ^ k) (-(k : Int)) := by
  have halog := (whole_full ha halt).1
  have hblog := (whole_full hb hblt).1
  refine ⟨52 - min a.log2 b.log2, by omega, ?_⟩
  rw [whole_pos ha, whole_pos hb, add_finite]
  generalize hk : 52 - min a.log2 b.log2 = k
  have hmin : min ((a.log2 : Int) - 52) ((b.log2 : Int) - 52) = -(k : Int) := by omega
  rw [hmin]
  have haexp : ((a.log2 : Int) - 52 - -(k : Int)).toNat + (52 - a.log2) = k := by omega
  have hbexp : ((b.log2 : Int) - 52 - -(k : Int)).toNat + (52 - b.log2) = k := by omega
  rw [Nat.mul_assoc, ← Nat.pow_add, Nat.mul_assoc, ← Nat.pow_add, Nat.add_comm (52 - a.log2), haexp,
    Nat.add_comm (52 - b.log2), hbexp, ← Nat.add_mul]

private theorem add_zero_right {f : UnpackedFloat} {e : Int} (hf : IsNormal f e) :
    UnpackedFloat.add Format.binary64 f (.zero .positive) = f := by
  obtain ⟨m, hm, rfl, -⟩ := hf
  rfl

/-- A sum of whole numbers below `2 ^ 53` is exact. -/
theorem Holds.add {x y : Float} {a b : Nat} (hx : Holds x a) (hy : Holds y b) (hlt : a + b < 2 ^ 53) :
    Holds (x + y) (a + b) := by
  refine ⟨hlt, ?_⟩
  have hsum : UnpackedFloat.add Format.binary64 (whole a) (whole b) = whole (a + b) := by
    by_cases ha : a = 0
    · subst ha
      rw [Nat.zero_add, whole_zero]
      by_cases hb : b = 0
      · subst hb
        rfl
      · rw [whole_pos hb]
        rfl
    · by_cases hb : b = 0
      · subst hb
        exact add_zero_right (isNormal_whole ha hx.lt)
      · obtain ⟨k, -, hadd⟩ := add_whole ha hb hx.lt hy.lt
        rw [hadd, round_whole (by omega) hlt]
  rw [add_unpack, hx.unpack_eq, hy.unpack_eq, hsum, unpack_pack_whole hlt]

/-- A sum of whole numbers which is not below `2 ^ 53` is not rounded to a number below. -/
theorem Holds.add_exceeds {x y : Float} {a b : Nat} (hx : Holds x a) (hy : Holds y b) (hle : 2 ^ 53 ≤ a + b) :
    Exceeds (x + y) 2 := by
  have halt := hx.lt
  have hblt := hy.lt
  obtain ⟨k, hk, hadd⟩ := add_whole (show a ≠ 0 by omega) (show b ≠ 0 by omega) halt hblt
  have hlog : (a + b).log2 = 53 := (Nat.log2_eq_iff (by omega)).2 ⟨hle, by omega⟩
  have hmul : ((a + b) * 2 ^ k).log2 = 53 + k := by rw [log2_mul_two_pow (by omega), hlog]
  have hne : (a + b) * 2 ^ k ≠ 0 := (Nat.mul_pos (by omega) (Nat.two_pow_pos k)).ne'
  obtain ⟨e, hnormal, hlow, hhigh⟩ := @round_normal _ (-(k : Int)) hne (by omega)
  rw [hmul] at hlow hhigh
  rw [← hadd] at hnormal
  refine ⟨e, ?_, by omega, by omega⟩
  rw [add_unpack, hx.unpack_eq, hy.unpack_eq, unpack_pack_normal hnormal (by omega) (by omega)]
  exact hnormal

/-- Adding to a number of at least `2 ^ 53` leaves one. -/
theorem Exceeds.add {x y : Float} {k b : Nat} (hx : Exceeds x k) (hy : Holds y b) (hk : k ≤ 800) :
    Exceeds (x + y) (k + 2) := by
  obtain ⟨e, hnormal, hone, hle⟩ := hx
  by_cases hb : b = 0
  · subst hb
    refine ⟨e, ?_, hone, by omega⟩
    rw [add_unpack, hy.unpack_eq, whole_zero, add_zero_right hnormal, unpack_pack_normal hnormal (by omega) (by omega)]
    exact hnormal
  · obtain ⟨m, hm, hunpack, hmlow, hmhigh⟩ := hnormal
    obtain ⟨hblog, hbfull, hbhigh⟩ := whole_full hb hy.lt
    have hmin : min e ((b.log2 : Int) - 52) = (b.log2 : Int) - 52 := by omega
    obtain ⟨d, hd⟩ : ∃ d : Nat, e - ((b.log2 : Int) - 52) = d := ⟨(e - ((b.log2 : Int) - 52)).toNat, by omega⟩
    have hadd : UnpackedFloat.add Format.binary64 x.toModel.unpack y.toModel.unpack =
        round Format.binary64 .positive (m * 2 ^ d + b * 2 ^ (52 - b.log2)) ((b.log2 : Int) - 52) := by
      rw [hunpack, hy.unpack_eq, whole_pos hb, add_finite, hmin, hd, Int.sub_self]
      simp
    -- the sum takes the bits of the large number, and one more at most
    have hpow : 1 ≤ 2 ^ d := Nat.one_le_two_pow
    have hlow : 2 ^ (52 + d) ≤ m * 2 ^ d + b * 2 ^ (52 - b.log2) := by
      rw [Nat.pow_add]
      exact le_trans (Nat.mul_le_mul_right _ hmlow) (Nat.le_add_right _ _)
    have hhigh : m * 2 ^ d + b * 2 ^ (52 - b.log2) < 2 ^ (54 + d) := by
      have hm' : m * 2 ^ d < 2 ^ 53 * 2 ^ d := Nat.mul_lt_mul_of_pos_right hmhigh (by omega)
      have hb' : b * 2 ^ (52 - b.log2) < 2 ^ 53 * 2 ^ d := lt_of_lt_of_le hbhigh (Nat.le_mul_of_pos_right _ (by omega))
      have hsplit : 2 ^ (54 + d) = 2 ^ 53 * 2 ^ d + 2 ^ 53 * 2 ^ d := by ring
      omega
    generalize hsum : m * 2 ^ d + b * 2 ^ (52 - b.log2) = s at hadd hlow hhigh
    have hne : s ≠ 0 := by
      have := Nat.two_pow_pos (52 + d)
      omega
    have hloglow : 52 + d ≤ s.log2 := (Nat.le_log2 hne).2 hlow
    have hloghigh : s.log2 < 54 + d := (Nat.log2_lt hne).2 hhigh
    obtain ⟨e', hnormal', hlow', hhigh'⟩ := @round_normal s ((b.log2 : Int) - 52) hne (by omega)
    rw [← hadd] at hnormal'
    refine ⟨e', ?_, by omega, by omega⟩
    rw [add_unpack, unpack_pack_normal hnormal' (by omega) (by omega)]
    exact hnormal'

/-! ### Back to counts -/

private theorem toU64_eq (x : Float) :
    toU64 x = (UInt64.ofNatClamp (x.toModel.unpack.toInt 0 (UInt64.size - 1)).toNat).toNat := rfl

private theorem roundToInt_eq (m : Nat) (e : Int) :
    roundToInt .positive m e = ((m * 2 ^ e.toNat / 2 ^ (-e).toNat : Nat) : Int) := by
  have hleft : (e - 0).toNat = e.toNat := by omega
  have hright : (0 - (e - (e.toNat : Int))).toNat = (-e).toNat := by omega
  simp only [roundToInt, decreaseExponent, shiftToExponent, Sign.apply, Nat.shiftLeft_eq, hleft, hright,
    mantissa_shiftRight, ExtendedMantissa.ofMantissaAndAccuracy]

private theorem toInt_whole {n : Nat} (hlt : n < 2 ^ 53) (low high : Int) : (whole n).toInt low high = n := by
  by_cases hn : n = 0
  · subst hn
    rfl
  · have hlog := (whole_full hn hlt).1
    have hup : ((n.log2 : Int) - 52).toNat = 0 := by omega
    have hdown : (-((n.log2 : Int) - 52)).toNat = 52 - n.log2 := by omega
    rw [whole_pos hn]
    show roundToInt .positive _ _ = _
    rw [roundToInt_eq, hup, hdown, Nat.pow_zero, Nat.mul_one, Nat.mul_div_cancel _ (Nat.two_pow_pos _)]

/-- A whole number below `2 ^ 53` is read back as it is. -/
theorem Holds.toU64 {x : Float} {n : Nat} (hx : Holds x n) : toU64 x = n := by
  have hlt := hx.lt
  rw [toU64_eq, hx.unpack_eq, toInt_whole hlt, Int.toNat_natCast]
  apply UInt64.toNat_ofNatClamp_of_lt
  have hsize : UInt64.size = 2 ^ 64 := rfl
  omega

theorem toU64_ofU64 {n : Nat} (hlt : n < 2 ^ 53) : toU64 (ofU64 n) = n := (holds_ofU64 hlt).toU64

/-- A number of at least `2 ^ 53` is read as a count of at least `2 ^ 53`. -/
theorem Exceeds.toU64 {x : Float} {k : Nat} (hx : Exceeds x k) : 2 ^ 53 ≤ toU64 x := by
  obtain ⟨e, ⟨m, hm, hunpack, hlow, -⟩, hone, -⟩ := hx
  have hup : 2 ^ 1 ≤ 2 ^ e.toNat := Nat.pow_le_pow_right (by decide) (by omega)
  have hdown : (-e).toNat = 0 := by omega
  have hint : x.toModel.unpack.toInt 0 (UInt64.size - 1) = ((m * 2 ^ e.toNat : Nat) : Int) := by
    rw [hunpack]
    show roundToInt .positive _ _ = _
    rw [roundToInt_eq, hdown, Nat.pow_zero, Nat.div_one]
  have hbig : 2 ^ 52 * 2 ≤ m * 2 ^ e.toNat := Nat.mul_le_mul hlow hup
  rw [toU64_eq, hint, Int.toNat_natCast]
  have hsize : UInt64.size = 2 ^ 64 := rfl
  rcases Nat.lt_or_ge (m * 2 ^ e.toNat) UInt64.size with hlt | hge
  · rw [UInt64.toNat_ofNatClamp_of_lt hlt]
    omega
  · rw [UInt64.toNat_ofNatClamp_of_le hge]
    omega

/-! ### The larger of a number and zero -/

theorem max_eq (x y : Float) :
    max x y = if x.toModel.unpack.isNaN then y else if x.toModel.unpack.le y.toModel.unpack then y else x := by
  unfold max
  have hle : x ≤ y ↔ x.toModel.unpack.le y.toModel.unpack = true := by
    show decide (x.toModel ≤ y.toModel) = true ↔ _
    rw [decide_eq_true_iff]
    rfl
  simp only [hle]
  rfl

private theorem isNormal_gt_zero {f : UnpackedFloat} {e : Int} (hf : IsNormal f e) :
    f.isNaN = false ∧ f.le (.zero .positive) = false := by
  obtain ⟨m, hm, rfl, -⟩ := hf
  exact ⟨rfl, rfl⟩

/-- A number above zero is the larger one. -/
private theorem max_zero_of_isNormal {x : Float} {e : Int} (hx : IsNormal x.toModel.unpack e) :
    max x (ofU64 0) = x := by
  obtain ⟨hnan, hle⟩ := isNormal_gt_zero hx
  rw [max_eq, (holds_ofU64 (show 0 < 2 ^ 53 by decide)).unpack_eq, whole_zero, hnan, hle]
  rfl

theorem Holds.max_zero {x : Float} {n : Nat} (hx : Holds x n) : Holds (max x (ofU64 0)) n := by
  by_cases hn : n = 0
  · subst hn
    have hzero := holds_ofU64 (show 0 < 2 ^ 53 by decide)
    rw [max_eq]
    split
    · exact hzero
    · split
      · exact hzero
      · exact hx
  · have hnormal := isNormal_whole hn hx.lt
    rw [← hx.unpack_eq] at hnormal
    rwa [max_zero_of_isNormal hnormal]

theorem Exceeds.max_zero {x : Float} {k : Nat} (hx : Exceeds x k) : Exceeds (max x (ofU64 0)) k := by
  obtain ⟨e, hnormal, hbounds⟩ := hx
  rw [max_zero_of_isNormal hnormal]
  exact ⟨e, hnormal, hbounds⟩

end Binary64
