import Oproxy.Middleware.Plugins.WireFormat

/-!
# Reading back a protobuf message (`middleware/plugins/grpc_inspector.rs`)

The encoder which the decoder is compared with: minimal varints, and fields of the four wire types it knows.
-/

namespace Oproxy

namespace GrpcInspector

/-! ### Minimal varints -/

/-- Seven bits a byte, the lowest ones first, and the high bit in all bytes but the last. -/
def encodeVarint (n : Nat) : Bytes :=
  if n < 128 then [UInt8.ofNat n] else UInt8.ofNat (n % 128 + 128) :: encodeVarint (n / 128)
termination_by n

theorem toNat_varintBits {byte : UInt8} {l shift : Nat} (hlow : byte.toNat % 128 = l) (hshift : shift < 64) :
    (varintBits byte shift).toNat = l * 2 ^ shift % 2 ^ 64 := by
  have hmask : (byte &&& 0x7f).toUInt64.toNat = l := by
    rw [UInt8.toNat_toUInt64, UInt8.toNat_and, ← hlow]
    exact Nat.and_two_pow_sub_one_eq_mod byte.toNat 7
  have hsame : (UInt64.ofNat shift).toNat % 64 = shift := by
    rw [UInt64.toNat_ofNat']
    omega
  unfold varintBits
  rw [UInt64.toNat_shiftLeft, hmask, hsame, Nat.shiftLeft_eq]

theorem high_eq_zero_iff (byte : UInt8) : byte &&& 0x80 = 0 ↔ byte.toNat < 128 := by
  have hall : ∀ n < 256, n &&& 128 = 0 ↔ n < 128 := by decide +kernel
  rw [← UInt8.toNat_inj, UInt8.toNat_and]
  exact hall byte.toNat byte.toNat_lt

/-- The encoding of a number is a varint with its value. -/
theorem varint_encodeVarint (n : Nat) : ∀ shift, n * 2 ^ shift < 2 ^ 64 → shift < 64 →
    Varint shift (encodeVarint n) (UInt64.ofNat (n * 2 ^ shift)) := by
  induction n using encodeVarint.induct with
  | case1 n hsmall =>
    intro shift hfits hshift
    have hbyte : (UInt8.ofNat n).toNat = n := by
      rw [UInt8.toNat_ofNat']
      omega
    have hvalue : varintBits (UInt8.ofNat n) shift = UInt64.ofNat (n * 2 ^ shift) := by
      refine UInt64.toNat_inj.1 ?_
      rw [toNat_varintBits (l := n) (by omega) hshift, UInt64.toNat_ofNat']
    unfold encodeVarint
    rw [if_pos hsmall, ← hvalue]
    exact .last hshift ((high_eq_zero_iff _).2 (by omega))
  | case2 n hlarge ih =>
    intro shift hfits hshift
    have hpow : 2 ^ (shift + 7) = 128 * 2 ^ shift := by
      rw [Nat.pow_add]
      omega
    have hsplit : n * 2 ^ shift = n % 128 * 2 ^ shift + n / 128 * 2 ^ (shift + 7) := by
      rw [hpow, ← Nat.mul_assoc, ← Nat.add_mul]
      congr 1
      omega
    have hnext : shift + 7 < 64 := by
      by_contra hnot
      have hbig : 2 ^ 64 ≤ 2 ^ (shift + 7) := Nat.pow_le_pow_right (by decide) (Nat.le_of_not_lt hnot)
      have hone : 1 * 2 ^ (shift + 7) ≤ n / 128 * 2 ^ (shift + 7) := Nat.mul_le_mul_right _ (by omega)
      omega
    have hrest := ih (shift + 7) (by omega) hnext
    have hbyte : (UInt8.ofNat (n % 128 + 128)).toNat = n % 128 + 128 := by
      rw [UInt8.toNat_ofNat']
      omega
    have hvalue : varintBits (UInt8.ofNat (n % 128 + 128)) shift ||| UInt64.ofNat (n / 128 * 2 ^ (shift + 7)) =
        UInt64.ofNat (n * 2 ^ shift) := by
      refine UInt64.toNat_inj.1 ?_
      have hlow : n % 128 * 2 ^ shift < 2 ^ (shift + 7) := by
        rw [hpow]
        exact Nat.mul_lt_mul_of_pos_right (Nat.mod_lt _ (by decide)) (Nat.two_pow_pos _)
      have hor := Nat.two_pow_add_eq_or_of_lt hlow (n / 128)
      rw [UInt64.toNat_or, toNat_varintBits (l := n % 128) (by omega) hshift, UInt64.toNat_ofNat',
        UInt64.toNat_ofNat', Nat.mod_eq_of_lt (a := n % 128 * 2 ^ shift) (by omega),
        Nat.mod_eq_of_lt (a := n / 128 * 2 ^ (shift + 7)) (by omega), Nat.mod_eq_of_lt hfits, Nat.or_comm,
        Nat.mul_comm (n / 128), ← hor, hsplit, Nat.mul_comm (n / 128)]
      exact Nat.add_comm _ _
    unfold encodeVarint
    rw [if_neg hlarge, ← hvalue]
    refine .more hshift (fun hzero => ?_) hrest
    have hlt := (high_eq_zero_iff _).1 hzero
    omega

/-! ### Messages -/

/-- The value of a field of one of the wire types 0, 1, 2 and 5. -/
inductive FieldValue where
  | varint (v : UInt64)
  | fixed64 (bytes : { bytes : Bytes // bytes.length = 8 })
  | delimited (bytes : { bytes : Bytes // bytes.length < 2 ^ 31 })
  | fixed32 (bytes : { bytes : Bytes // bytes.length = 4 })

structure MessageField where
  number : Nat
  value : FieldValue
  number_pos : 1 ≤ number
  number_lt : number < 2 ^ 29

def FieldValue.wireType : FieldValue → Nat
  | .varint _ => 0
  | .fixed64 _ => 1
  | .delimited _ => 2
  | .fixed32 _ => 5

def encodeValue : FieldValue → Bytes
  | .varint v => encodeVarint v.toNat
  | .fixed64 bytes => bytes.val
  | .delimited bytes => encodeVarint bytes.val.length ++ bytes.val
  | .fixed32 bytes => bytes.val

def encodeField (field : MessageField) : Bytes :=
  encodeVarint (field.number * 8 + field.value.wireType) ++ encodeValue field.value

def encodeMessage (fields : List MessageField) : Bytes := (fields.map encodeField).flatten

/-- How a value is shown: a number, the digits of fixed bytes, and a text where the bytes of a length-delimited value
are one, else their digits. -/
inductive Shown : FieldValue → Json → Prop
  | varint {v : UInt64} : Shown (.varint v) (.int v.toNat)
  | fixed64 {bytes} : Shown (.fixed64 bytes) (.str (hexOf bytes.val))
  | text {bytes} {text : Str} : text.toUtf8 = bytes.val → Shown (.delimited bytes) (.str text)
  | digits {bytes} : ¬Utf8.Valid bytes.val → Shown (.delimited bytes) (.str (hexOf bytes.val))
  | fixed32 {bytes} : Shown (.fixed32 bytes) (.str (hexOf bytes.val))

/-- What is decoded of a field. -/
def Decoded (field : MessageField) (decoded : GrpcField) : Prop :=
  decoded.fieldNumber.toNat = field.number ∧ decoded.wireType.toNat = field.value.wireType ∧
    Shown field.value decoded.value

theorem varint_of_lt {n : Nat} (h : n < 2 ^ 64) : Varint 0 (encodeVarint n) (UInt64.ofNat n) := by
  have hvarint := varint_encodeVarint n 0 (by simpa using h) (by decide)
  simpa using hvarint

theorem toNat_ofNat_lt {n : Nat} (h : n < 2 ^ 64) : (UInt64.ofNat n).toNat = n := by
  rw [UInt64.toNat_ofNat']
  exact Nat.mod_eq_of_lt h

theorem wireType_lt (value : FieldValue) : value.wireType < 8 := by
  cases value <;> simp [FieldValue.wireType]

/-- What the decoder makes of a tag. -/
theorem tag_parts (field : MessageField) :
    (fieldNumberOf (UInt64.ofNat (field.number * 8 + field.value.wireType))).toNat = field.number ∧
      (wireTypeOf (UInt64.ofNat (field.number * 8 + field.value.wireType))).toNat = field.value.wireType := by
  have hnumber := field.number_lt
  have htype := wireType_lt field.value
  have htag : (UInt64.ofNat (field.number * 8 + field.value.wireType)).toNat =
      field.number * 8 + field.value.wireType := toNat_ofNat_lt (by omega)
  constructor
  · unfold fieldNumberOf
    rw [UInt64.toNat_toUInt32, UInt64.toNat_shiftRight, htag]
    show (field.number * 8 + field.value.wireType) >>> 3 % 2 ^ 32 = field.number
    rw [Nat.shiftRight_eq_div_pow]
    omega
  · unfold wireTypeOf
    rw [UInt64.toNat_toUInt8, UInt64.toNat_and, htag]
    show ((field.number * 8 + field.value.wireType) &&& (2 ^ 3 - 1)) % 2 ^ 8 = field.value.wireType
    rw [Nat.and_two_pow_sub_one_eq_mod]
    omega

theorem shown_textOrHex (bytes : { bytes : Bytes // bytes.length < 2 ^ 31 }) :
    Shown (.delimited bytes) (.str (textOrHex bytes.val)) := by
  unfold textOrHex
  dsimp only
  split
  · rename_i htext
    exact .text htext
  · rename_i htext
    exact .digits (mt (Utf8.toUtf8_decodeLossy_iff bytes.val).2 htext)

/-- The bytes of a value are those which the decoder reads as a value of its wire type. -/
theorem valueBytes_encodeValue (value : FieldValue) {wireType : UInt8} (h : wireType.toNat = value.wireType) :
    ∃ json, ValueBytes wireType (encodeValue value) json ∧ Shown value json := by
  have hsame : ∀ n : Nat, n < 8 → wireType.toNat = n → wireType = UInt8.ofNat n := by
    intro n hn heq
    rw [← UInt8.toNat_inj, heq, UInt8.toNat_ofNat']
    omega
  cases value with
  | varint v =>
    refine ⟨_, .varint (hsame 0 (by decide) h) ?_, .varint⟩
    have hvarint := varint_of_lt v.toNat_lt
    rwa [UInt64.ofNat_toNat] at hvarint
  | fixed64 bytes => exact ⟨_, .fixed64 (hsame 1 (by decide) h) bytes.property, .fixed64⟩
  | delimited bytes =>
    have hlength := bytes.property
    have hfits : bytes.val.length < 2 ^ 64 := by omega
    exact ⟨_, .delimited (hsame 2 (by decide) h) (varint_of_lt hfits) (toNat_ofNat_lt hfits).symm,
      shown_textOrHex bytes⟩
  | fixed32 bytes => exact ⟨_, .fixed32 (hsame 5 (by decide) h) bytes.property, .fixed32⟩

theorem fieldBytes_encodeField (field : MessageField) :
    ∃ decoded, FieldBytes (encodeField field) decoded ∧ Decoded field decoded := by
  obtain ⟨hnumber, htype⟩ := tag_parts field
  obtain ⟨json, hvalue, hshown⟩ := valueBytes_encodeValue field.value htype
  have hlt := field.number_lt
  have hwire := wireType_lt field.value
  exact ⟨_, .mk (varint_of_lt (by omega)) hvalue, hnumber, htype, hshown⟩

theorem fieldBytes_encodeMessage (fields : List MessageField) :
    ∃ decoded, List.Forall₂ FieldBytes (fields.map encodeField) decoded ∧ List.Forall₂ Decoded fields decoded := by
  induction fields with
  | nil => exact ⟨[], .nil, .nil⟩
  | cons field fields ih =>
    obtain ⟨first, hbytes, hfirst⟩ := fieldBytes_encodeField field
    obtain ⟨rest, hrest, hdecoded⟩ := ih
    exact ⟨first :: rest, .cons hbytes hrest, .cons hfirst hdecoded⟩

/-! ### Decoding what was encoded -/

/-- The loop keeps the fields it has. -/
theorem fields_prefix_of_returns {checks : Bool} {data : Bytes} (hdata : data.length < 2 ^ 63) {s : DecodeState}
    {b : Except Fault (List GrpcField)} (h : Loop.Returns (decodeTurn checks data) s b) {fields : List GrpcField}
    (hb : b = .ok fields) : s.fields <+: fields := by
  induction h with
  | leave hturn =>
    subst hb
    rewrite [decodeTurn_ok hturn]
    exact List.prefix_rfl
  | again hturn _ ih =>
    obtain ⟨bytes, post, field, -, -, -, rfl⟩ := decodeTurn_sound hdata hturn
    exact (List.prefix_append _ _).trans (ih hb)

variable (fields : List MessageField)

/-- The decoder comes to the end of the encoding with its fields. -/
theorem returns_encodeMessage (checks : Bool) {post : Bytes}
    (hdata : (encodeMessage fields ++ post).length < 2 ^ 63) :
    ∃ decoded, List.Forall₂ Decoded fields decoded ∧
      Loop.Returns (decodeTurn checks (encodeMessage fields ++ post)) ⟨(encodeMessage fields).length, decoded⟩
        (decodeWireFormat checks (encodeMessage fields ++ post)) := by
  obtain ⟨decoded, hbytes, hdecoded⟩ := fieldBytes_encodeMessage fields
  have hafter := returns_after (s := ⟨0, []⟩) hdata hbytes (Nat.zero_le _) rfl (decodeWireFormat_returns checks hdata)
  rw [Nat.zero_add, List.nil_append] at hafter
  exact ⟨decoded, hdecoded, hafter⟩

theorem decodeWireFormat_encodeMessage (checks : Bool) (hdata : (encodeMessage fields).length < 2 ^ 63) :
    ∃ decoded, decodeWireFormat checks (encodeMessage fields) = .ok decoded ∧ List.Forall₂ Decoded fields decoded := by
  have hempty : encodeMessage fields ++ [] = encodeMessage fields := List.append_nil _
  obtain ⟨decoded, hdecoded, hreturns⟩ := returns_encodeMessage fields checks (hempty ▸ hdata)
  rw [hempty] at hreturns
  have hend : decodeTurn checks (encodeMessage fields) ⟨(encodeMessage fields).length, decoded⟩ =
      .leave (.ok decoded) := by
    unfold decodeTurn
    rw [if_neg (Nat.lt_irrefl _)]
  exact ⟨decoded, hreturns.of_leave hend, hdecoded⟩

/-- A message is decoded, alone and before other bytes. -/
structure Recovers (fields : List MessageField) (post : Bytes) : Prop where
  whole : ∀ checks, ∃ decoded, decodeWireFormat checks (encodeMessage fields) = .ok decoded ∧
    List.Forall₂ Decoded fields decoded
  before : ∀ checks, ∃ decoded more, decodeWireFormat checks (encodeMessage fields ++ post) = .ok (decoded ++ more) ∧
    List.Forall₂ Decoded fields decoded

/-- The exact condition on the bytes. -/
theorem recovers_iff (fields : List MessageField) (post : Bytes)
    (hdata : (encodeMessage fields ++ post).length < 2 ^ 63) :
    Recovers fields post ↔ LengthsFit (encodeMessage fields ++ post) := by
  constructor
  · intro h
    obtain ⟨decoded, more, hok, -⟩ := h.before true
    exact lengthsFit_of_ok hdata hok
  · intro hfit
    refine ⟨fun checks => decodeWireFormat_encodeMessage fields checks ?_, fun checks => ?_⟩
    · rw [List.length_append] at hdata
      omega
    · obtain ⟨decoded, hdecoded, hreturns⟩ := returns_encodeMessage fields checks hdata
      obtain ⟨all, -, -, hok, -⟩ := hfit.decoded hdata checks
      obtain ⟨more, rfl⟩ := fields_prefix_of_returns hdata hreturns hok
      exact ⟨decoded, more, hok, hdecoded⟩

/-- The field 1 with the number 42. -/
def fortyTwo : MessageField := ⟨1, .varint 42, by decide, by decide⟩

theorem encodeMessage_fortyTwo : encodeMessage [fortyTwo] = [8, 42] := by
  simp [encodeMessage, encodeField, encodeValue, encodeVarint, fortyTwo, FieldValue.wireType]

/-- A field before one which is cut off. -/
theorem recovers_fortyTwo : Recovers [fortyTwo] [10, 5] := by
  refine (recovers_iff [fortyTwo] [10, 5] ?_).2 ?_
  · rw [encodeMessage_fortyTwo]
    decide
  · rw [encodeMessage_fortyTwo]
    have hok : (decodeWireFormat true [8, 42, 10, 5]).toOption.isSome = true := by decide +kernel
    cases hresult : decodeWireFormat true [8, 42, 10, 5] with
    | error fault =>
      rw [hresult] at hok
      cases hok
    | ok decoded => exact lengthsFit_of_ok (by decide) hresult

/-- A field before a length of `2 ^ 64 - 1`. -/
theorem not_recovers : ¬ ∀ fields post, (encodeMessage fields ++ post).length < 2 ^ 63 → Recovers fields post := by
  intro h
  have hrecovers := h [fortyTwo] [10, 255, 255, 255, 255, 255, 255, 255, 255, 255, 1] (by
    rw [encodeMessage_fortyTwo]
    decide)
  obtain ⟨decoded, more, hok, -⟩ := hrecovers.before true
  have hfault : (decodeWireFormat true
      [8, 42, 10, 255, 255, 255, 255, 255, 255, 255, 255, 255, 1]).toOption.isNone = true := by
    decide +kernel
  rw [encodeMessage_fortyTwo] at hok
  change decodeWireFormat true [8, 42, 10, 255, 255, 255, 255, 255, 255, 255, 255, 255, 1] = _ at hok
  rw [hok] at hfault
  cases hfault

end GrpcInspector

end Oproxy
