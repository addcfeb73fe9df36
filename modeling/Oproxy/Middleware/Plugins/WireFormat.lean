import Oproxy.Lib.Json
import Oproxy.Lib.Loop
import Oproxy.Lib.Utf8
import Mathlib.Data.List.Forall2

/-!
# Protobuf fields without a schema (`middleware/plugins/grpc_inspector.rs`)

The decoder of a message of which no schema is known.  Its positions are `usize` values of 64 bits: an addition which
is too large is a fault where overflow is checked and wraps where it is not, and a slice which does not lie in the
message is a fault.
-/

namespace Oproxy

namespace GrpcInspector

/-- How a Rust program stops. -/
inductive Fault where
  | overflow | slice
  deriving DecidableEq

/-- `+` on `usize`, with overflow checks or without. -/
def usizeAdd (checks : Bool) (a b : Nat) : Except Fault Nat :=
  if a + b < 2 ^ 64 then .ok (a + b) else if checks then .error .overflow else .ok ((a + b) % 2 ^ 64)

/-- `&data[start..stop]`. -/
def sliceOf (data : Bytes) (start stop : Nat) : Except Fault Bytes :=
  if start ≤ stop ∧ stop ≤ data.length then .ok ((data.take stop).drop start) else .error .slice

/-! ### Varints -/

structure VarintState where
  pos : Nat
  result : UInt64
  shift : Nat

/-- What a byte of a varint stands for. -/
def varintBits (byte : UInt8) (shift : Nat) : UInt64 := (byte &&& 0x7f).toUInt64 <<< UInt64.ofNat shift

def varintTurn (data : Bytes) (start : Nat) (s : VarintState) : Turn VarintState (Option (UInt64 × Nat)) :=
  match data[s.pos]? with
  | none => .leave none
  | some byte =>
    if 64 ≤ s.shift then .leave none
    else
      let result := s.result ||| varintBits byte s.shift
      if byte &&& 0x80 = 0 then .leave (some (result, s.pos + 1 - start))
      else .again ⟨s.pos + 1, result, s.shift + 7⟩

/-- The varint at a position, and the number of its bytes; the shift reaches 64 after ten of them. -/
def readVarint (data : Bytes) (pos : Nat) : Option (UInt64 × Nat) :=
  (Loop.run (varintTurn data pos) 11 ⟨pos, 0, 0⟩).getD none

/-! ### Fields -/

structure GrpcField where
  fieldNumber : UInt32
  wireType : UInt8
  value : Json

def fieldNumberOf (tag : UInt64) : UInt32 := (tag >>> 3).toUInt32

def wireTypeOf (tag : UInt64) : UInt8 := (tag &&& 7).toUInt8

/-- Two hexadecimal digits a byte. -/
def hexOf (bytes : Bytes) : Str :=
  bytes.flatMap fun b => [Nat.digitChar (b.toNat / 16), Nat.digitChar (b.toNat % 16)]

/-- The text of the bytes where they are UTF-8, their digits where they are not. -/
def textOrHex (bytes : Bytes) : Str :=
  let text := Utf8.decodeLossy bytes
  if text.toUtf8 = bytes then text else hexOf bytes

/-- The next bytes of the message and the position after them, where they are there. -/
def takeBytes (checks : Bool) (data : Bytes) (pos len : Nat) : Except Fault (Option (Bytes × Nat)) := do
  if (← usizeAdd checks pos len) > data.length then return none
  let bytes ← sliceOf data pos (← usizeAdd checks pos len)
  let pos ← usizeAdd checks pos len
  return some (bytes, pos)

/-- The value of a field of a wire type. -/
def decodeValue (checks : Bool) (data : Bytes) (wireType : UInt8) (pos : Nat) : Except Fault (Option (Json × Nat)) := do
  if wireType = 0 then
    match readVarint data pos with
    | some (v, n) => return some (.int v.toNat, ← usizeAdd checks pos n)
    | none => return none
  else if wireType = 1 then
    return (← takeBytes checks data pos 8).map fun p => (.str (hexOf p.1), p.2)
  else if wireType = 2 then
    match readVarint data pos with
    | some (len, n) =>
      return (← takeBytes checks data (← usizeAdd checks pos n) len.toNat).map fun p => (.str (textOrHex p.1), p.2)
    | none => return none
  else if wireType = 5 then
    return (← takeBytes checks data pos 4).map fun p => (.str (hexOf p.1), p.2)
  else return none

structure DecodeState where
  pos : Nat
  fields : List GrpcField

/-- One turn of the loop of `decode_wire_format`. -/
def decodeTurn (checks : Bool) (data : Bytes) (s : DecodeState) :
    Turn DecodeState (Except Fault (List GrpcField)) :=
  if s.pos < data.length then
    match readVarint data s.pos with
    | none => .leave (.ok s.fields)
    | some (tag, n) =>
      match (usizeAdd checks s.pos n).bind (decodeValue checks data (wireTypeOf tag)) with
      | .error fault => .leave (.error fault)
      | .ok none => .leave (.ok s.fields)
      | .ok (some (value, pos)) => .again ⟨pos, s.fields ++ [⟨fieldNumberOf tag, wireTypeOf tag, value⟩]⟩
  else .leave (.ok s.fields)

/-- The fields up to the first which is cut off or unknown.  A field takes up at least a byte, which bounds the
turns. -/
def decodeWireFormat (checks : Bool) (data : Bytes) : Except Fault (List GrpcField) :=
  (Loop.run (decodeTurn checks data) (data.length + 1) ⟨0, []⟩).getD (.ok [])

/-! ### What a varint is -/

/-- The bytes of a varint, from some shift on: at most up to shift 63, all but the last with the high bit. -/
inductive Varint : Nat → Bytes → UInt64 → Prop
  | last {shift : Nat} {byte : UInt8} : shift < 64 → byte &&& 0x80 = 0 → Varint shift [byte] (varintBits byte shift)
  | more {shift : Nat} {byte : UInt8} {bytes : Bytes} {v : UInt64} : shift < 64 → byte &&& 0x80 ≠ 0 →
      Varint (shift + 7) bytes v → Varint shift (byte :: bytes) (varintBits byte shift ||| v)

theorem Varint.length_pos {shift : Nat} {bytes : Bytes} {v : UInt64} (h : Varint shift bytes v) : 0 < bytes.length := by
  cases h <;> simp

/-- No varint begins another. -/
theorem Varint.unique {shift : Nat} {bytes bytes' rest rest' : Bytes} {v v' : UInt64} (h : Varint shift bytes v)
    (h' : Varint shift bytes' v') (heq : bytes ++ rest = bytes' ++ rest') : bytes = bytes' ∧ v = v' ∧ rest = rest' := by
  induction h generalizing bytes' v' with
  | last _ hbit =>
    cases h' with
    | last _ _ =>
      cases heq
      exact ⟨rfl, rfl, rfl⟩
    | more _ hbit' _ =>
      cases heq
      exact absurd hbit hbit'
  | more _ hbit _ ih =>
    cases h' with
    | last _ hbit' =>
      cases heq
      exact absurd hbit' hbit
    | more _ _ hrest =>
      rw [List.cons_append, List.cons_append, List.cons.injEq] at heq
      obtain ⟨rfl, heq⟩ := heq
      obtain ⟨rfl, rfl, hafter⟩ := ih hrest heq
      exact ⟨rfl, rfl, hafter⟩

theorem readVarint_returns (data : Bytes) (pos : Nat) :
    Loop.Returns (varintTurn data pos) ⟨pos, 0, 0⟩ (readVarint data pos) := by
  have hstep : ∀ s s' : VarintState, True → varintTurn data pos s = .again s' →
      True ∧ (70 - s'.shift) / 7 < (70 - s.shift) / 7 := by
    intro s s' _ hturn
    unfold varintTurn at hturn
    split at hturn
    · cases hturn
    · split at hturn
      · cases hturn
      · dsimp only at hturn
        split at hturn
        · cases hturn
        · cases hturn
          exact ⟨trivial, by dsimp only; omega⟩
  obtain ⟨b, hrun⟩ := Loop.exists_run (s := ⟨pos, 0, 0⟩) hstep trivial (show (70 - 0) / 7 < 11 by decide)
  unfold readVarint
  rw [hrun]
  exact Loop.returns_of_run hrun

private theorem varint_of_returns {data : Bytes} {start : Nat} {s : VarintState} {b : Option (UInt64 × Nat)}
    (h : Loop.Returns (varintTurn data start) s b) {v : UInt64} {n : Nat} (hb : b = some (v, n)) :
    ∃ bytes v', (∃ post, data.drop s.pos = bytes ++ post) ∧ n = s.pos + bytes.length - start ∧
      Varint s.shift bytes v' ∧ v = s.result ||| v' := by
  induction h with
  | @leave s b hturn =>
    subst hb
    unfold varintTurn at hturn
    split at hturn
    · cases hturn
    · rename_i byte hbyte
      split at hturn
      · cases hturn
      · rename_i hshift
        dsimp only at hturn
        split at hturn
        · rename_i hbit
          cases hturn
          obtain ⟨hlt, rfl⟩ := List.getElem?_eq_some_iff.1 hbyte
          exact ⟨[data[s.pos]], _, ⟨_, List.drop_eq_getElem_cons hlt⟩, rfl, .last (by omega) hbit, rfl⟩
        · cases hturn
  | @again s s' b hturn _ ih =>
    obtain ⟨bytes, v', ⟨post, hpost⟩, hn, hvarint, hv⟩ := ih hb
    unfold varintTurn at hturn
    split at hturn
    · cases hturn
    · rename_i byte hbyte
      split at hturn
      · cases hturn
      · rename_i hshift
        dsimp only at hturn
        split at hturn
        · cases hturn
        · rename_i hbit
          cases hturn
          obtain ⟨hlt, rfl⟩ := List.getElem?_eq_some_iff.1 hbyte
          refine ⟨data[s.pos] :: bytes, _, ⟨post, ?_⟩, ?_, .more (by omega) hbit hvarint, ?_⟩
          · rw [List.drop_eq_getElem_cons hlt, hpost]
            rfl
          · dsimp only at hn
            rw [List.length_cons]
            omega
          · rw [hv, UInt64.or_assoc]

private theorem returns_of_varint {data : Bytes} {start shift : Nat} {bytes : Bytes} {v' : UInt64}
    (h : Varint shift bytes v') {pos : Nat} {result : UInt64} {post : Bytes} (hpost : data.drop pos = bytes ++ post) :
    Loop.Returns (varintTurn data start) ⟨pos, result, shift⟩ (some (result ||| v', pos + bytes.length - start)) := by
  induction h generalizing pos result with
  | @last shift byte hshift hbit =>
    have hbyte : data[pos]? = some byte := by
      rw [← List.head?_drop, hpost]
      rfl
    refine .leave ?_
    unfold varintTurn
    simp only [hbyte, if_neg (Nat.not_le.2 hshift), if_pos hbit]
    rfl
  | @more shift byte bytes v' hshift hbit _ ih =>
    have hbyte : data[pos]? = some byte := by
      rw [← List.head?_drop, hpost]
      rfl
    have hrest : data.drop (pos + 1) = bytes ++ post := by
      rw [← List.drop_drop, hpost]
      rfl
    have hturn : varintTurn data start ⟨pos, result, shift⟩ =
        .again ⟨pos + 1, result ||| varintBits byte shift, shift + 7⟩ := by
      unfold varintTurn
      simp only [hbyte, if_neg (Nat.not_le.2 hshift), if_neg hbit]
    have hnext : Loop.Returns (varintTurn data start) ⟨pos + 1, result ||| varintBits byte shift, shift + 7⟩ _ :=
      ih hrest
    rw [UInt64.or_assoc, show pos + 1 + bytes.length = pos + (bytes.length + 1) by omega] at hnext
    exact .again hturn hnext

/-- `readVarint` reads the varint at a position. -/
theorem readVarint_eq_some {data : Bytes} {pos : Nat} {v : UInt64} {n : Nat} :
    readVarint data pos = some (v, n) ↔
      ∃ bytes post, data.drop pos = bytes ++ post ∧ n = bytes.length ∧ Varint 0 bytes v := by
  have hreturns := readVarint_returns data pos
  constructor
  · intro h
    obtain ⟨bytes, v', ⟨post, hpost⟩, hn, hvarint, hv⟩ := varint_of_returns hreturns h
    refine ⟨bytes, post, hpost, by dsimp only at hn; omega, ?_⟩
    rw [hv, UInt64.zero_or]
    exact hvarint
  · rintro ⟨bytes, post, hpost, rfl, hvarint⟩
    have hreads : Loop.Returns (varintTurn data pos) ⟨pos, 0, 0⟩ (some (0 ||| v, pos + bytes.length - pos)) :=
      returns_of_varint hvarint hpost
    rw [UInt64.zero_or, Nat.add_sub_cancel_left] at hreads
    exact hreads.unique hreturns

/-! ### What a field is -/

/-- The bytes of a value of a wire type. -/
inductive ValueBytes (wireType : UInt8) : Bytes → Json → Prop
  | varint {bytes : Bytes} {v : UInt64} : wireType = 0 → Varint 0 bytes v → ValueBytes wireType bytes (.int v.toNat)
  | fixed64 {bytes : Bytes} : wireType = 1 → bytes.length = 8 → ValueBytes wireType bytes (.str (hexOf bytes))
  | delimited {lenBytes bytes : Bytes} {len : UInt64} : wireType = 2 → Varint 0 lenBytes len →
      bytes.length = len.toNat → ValueBytes wireType (lenBytes ++ bytes) (.str (textOrHex bytes))
  | fixed32 {bytes : Bytes} : wireType = 5 → bytes.length = 4 → ValueBytes wireType bytes (.str (hexOf bytes))

/-- The bytes of a field: its tag and its value. -/
inductive FieldBytes : Bytes → GrpcField → Prop
  | mk {tagBytes bytes : Bytes} {tag : UInt64} {value : Json} : Varint 0 tagBytes tag →
      ValueBytes (wireTypeOf tag) bytes value →
      FieldBytes (tagBytes ++ bytes) ⟨fieldNumberOf tag, wireTypeOf tag, value⟩

/-- At a position is a length which, added to the position after it, does not fit 64 bits. -/
def OverlongValue (data : Bytes) (wireType : UInt8) (pos : Nat) : Prop :=
  wireType = 2 ∧ ∃ lenBytes len post, data.drop pos = lenBytes ++ post ∧ Varint 0 lenBytes len ∧
    2 ^ 64 ≤ pos + lenBytes.length + len.toNat

/-- At a position is the tag of a length-delimited field with such a length. -/
def OverlongField (data : Bytes) (pos : Nat) : Prop :=
  ∃ tagBytes tag post, data.drop pos = tagBytes ++ post ∧ Varint 0 tagBytes tag ∧
    OverlongValue data (wireTypeOf tag) (pos + tagBytes.length)

/-- After no number of whole fields comes such a field. -/
def LengthsFit (data : Bytes) : Prop :=
  ∀ segments fields post, List.Forall₂ FieldBytes segments fields → data = segments.flatten ++ post →
    ¬ OverlongField data segments.flatten.length

/-! ### One value -/

/-- A position after bytes of the message lies in it. -/
private theorem add_length_le {data bytes post : Bytes} {pos : Nat} (h : data.drop pos = bytes ++ post)
    (hpos : pos ≤ data.length) : pos + bytes.length ≤ data.length := by
  have hlength := congrArg List.length h
  rw [List.length_drop, List.length_append] at hlength
  omega

private theorem usizeAdd_eq {checks : Bool} {a b : Nat} (h : a + b < 2 ^ 64) : usizeAdd checks a b = .ok (a + b) :=
  if_pos h

/-- Taking bytes ends in a fault exactly where their number is too large for the addition: a position which has wrapped
lies before the one it is added to, so that the check lets it pass and the slice does not. -/
private theorem takeBytes_eq (checks : Bool) {data : Bytes} (hdata : data.length < 2 ^ 63) {pos len : Nat}
    (hpos : pos ≤ data.length) (hlen : len < 2 ^ 64) :
    takeBytes checks data pos len =
      if pos + len ≤ data.length then .ok (some ((data.drop pos).take len, pos + len))
      else if pos + len < 2 ^ 64 then .ok none else .error (if checks then .overflow else .slice) := by
  unfold takeBytes
  by_cases hfits : pos + len < 2 ^ 64
  · rw [usizeAdd_eq hfits, if_pos hfits]
    by_cases hin : pos + len ≤ data.length
    · have hslice : sliceOf data pos (pos + len) = .ok ((data.drop pos).take len) := by
        unfold sliceOf
        rw [if_pos ⟨Nat.le_add_right _ _, hin⟩, List.drop_take, Nat.add_sub_cancel_left]
      rw [if_pos hin]
      show (if pos + len > data.length then _ else _) = _
      rw [if_neg (Nat.not_lt.2 hin)]
      show (sliceOf data pos (pos + len) >>= _) = _
      rw [hslice]
      rfl
    · rw [if_neg hin]
      show (if pos + len > data.length then _ else _) = _
      rw [if_pos (Nat.lt_of_not_le hin)]
      rfl
  · have hin : ¬ pos + len ≤ data.length := by omega
    rw [if_neg hin, if_neg hfits]
    unfold usizeAdd
    rw [if_neg hfits]
    cases checks with
    | true => rfl
    | false =>
      have hwrapped : (pos + len) % 2 ^ 64 < pos := by omega
      show (if (pos + len) % 2 ^ 64 > data.length then _ else _) = _
      rw [if_neg (by omega)]
      have hslice : sliceOf data pos ((pos + len) % 2 ^ 64) = .error .slice := by
        unfold sliceOf
        rw [if_neg (fun h => absurd h.1 (by omega))]
      show (sliceOf data pos ((pos + len) % 2 ^ 64) >>= _) = _
      rw [hslice]
      rfl

private theorem takeBytes_complete (checks : Bool) {data : Bytes} (hdata : data.length < 2 ^ 63) {pos : Nat}
    (hpos : pos ≤ data.length) {bytes post : Bytes} (h : data.drop pos = bytes ++ post) :
    takeBytes checks data pos bytes.length = .ok (some (bytes, pos + bytes.length)) := by
  have hle := add_length_le h hpos
  rw [takeBytes_eq checks hdata hpos (by omega), if_pos hle, h, List.take_left]

private theorem takeBytes_sound {checks : Bool} {data : Bytes} (hdata : data.length < 2 ^ 63) {pos len : Nat}
    (hpos : pos ≤ data.length) (hlen : len < 2 ^ 64) {bytes : Bytes} {pos' : Nat}
    (h : takeBytes checks data pos len = .ok (some (bytes, pos'))) :
    (∃ post, data.drop pos = bytes ++ post) ∧ bytes.length = len ∧ pos' = pos + len := by
  rw [takeBytes_eq checks hdata hpos hlen] at h
  split at h
  · rename_i hin
    cases h
    refine ⟨⟨_, (List.take_append_drop len _).symm⟩, ?_, rfl⟩
    rw [List.length_take, List.length_drop]
    omega
  · split at h <;> cases h

private theorem takeBytes_error (checks : Bool) {data : Bytes} (hdata : data.length < 2 ^ 63) {pos len : Nat}
    (hpos : pos ≤ data.length) (hlen : len < 2 ^ 64) :
    (∃ fault, takeBytes checks data pos len = .error fault) ↔ 2 ^ 64 ≤ pos + len := by
  rw [takeBytes_eq checks hdata hpos hlen]
  split
  · constructor
    · rintro ⟨_, h⟩
      cases h
    · intro h
      omega
  · split
    · constructor
      · rintro ⟨_, h⟩
        cases h
      · intro h
        omega
    · exact ⟨fun _ => by omega, fun _ => ⟨_, rfl⟩⟩

private theorem map_eq_some {α β : Type} {x : Except Fault (Option α)} {f : α → β} {b : β}
    (h : (do return (← x).map f) = (.ok (some b) : Except Fault (Option β))) : ∃ a, x = .ok (some a) ∧ b = f a := by
  cases x with
  | error fault => cases h
  | ok o =>
    cases o with
    | none => cases h
    | some a =>
      cases h
      exact ⟨a, rfl, rfl⟩

private theorem map_eq_error {α β : Type} {x : Except Fault (Option α)} {f : α → β} {fault : Fault} :
    (do return (← x).map f) = (.error fault : Except Fault (Option β)) ↔ x = .error fault := by
  cases x with
  | error _ =>
    constructor
    · intro h
      cases h
      rfl
    · intro h
      cases h
      rfl
  | ok _ => constructor <;> intro h <;> cases h

theorem decodeValue_complete (checks : Bool) {data : Bytes} (hdata : data.length < 2 ^ 63) {wireType : UInt8}
    {pos : Nat}
    (hpos : pos ≤ data.length) {bytes post : Bytes} (hpost : data.drop pos = bytes ++ post) {value : Json}
    (h : ValueBytes wireType bytes value) :
    decodeValue checks data wireType pos = .ok (some (value, pos + bytes.length)) := by
  have hle := add_length_le hpost hpos
  unfold decodeValue
  cases h with
  | varint hzero hvarint =>
    subst hzero
    rw [if_pos rfl, readVarint_eq_some.2 ⟨bytes, post, hpost, rfl, hvarint⟩]
    dsimp only
    rw [usizeAdd_eq (by omega)]
    rfl
  | fixed64 hone hlength =>
    subst hone
    rw [if_neg (by decide), if_pos rfl, ← hlength, takeBytes_complete checks hdata hpos hpost]
    rfl
  | @delimited lenBytes body len htwo hvarint hlength =>
    subst htwo
    rw [List.append_assoc] at hpost
    have hle' := add_length_le hpost hpos
    have hbody : data.drop (pos + lenBytes.length) = body ++ post := by
      rw [← List.drop_drop, hpost, List.drop_left]
    rw [if_neg (by decide), if_neg (by decide), if_pos rfl,
      readVarint_eq_some.2 ⟨lenBytes, body ++ post, hpost, rfl, hvarint⟩]
    dsimp only
    rw [usizeAdd_eq (by omega)]
    show (do return (← takeBytes checks data (pos + lenBytes.length) len.toNat).map _) = _
    rw [← hlength, takeBytes_complete checks hdata hle' hbody, List.length_append, ← Nat.add_assoc]
    rfl
  | fixed32 hfive hlength =>
    subst hfive
    rw [if_neg (by decide), if_neg (by decide), if_neg (by decide), if_pos rfl, ← hlength,
      takeBytes_complete checks hdata hpos hpost]
    rfl

theorem decodeValue_sound {checks : Bool} {data : Bytes} (hdata : data.length < 2 ^ 63) {wireType : UInt8}
    {pos pos' : Nat}
    (hpos : pos ≤ data.length) {value : Json} (h : decodeValue checks data wireType pos = .ok (some (value, pos'))) :
    ∃ bytes post, data.drop pos = bytes ++ post ∧ ValueBytes wireType bytes value ∧ pos' = pos + bytes.length := by
  unfold decodeValue at h
  split at h
  · rename_i hzero
    cases hread : readVarint data pos with
    | none =>
      rw [hread] at h
      cases h
    | some p =>
      obtain ⟨v, n⟩ := p
      obtain ⟨bytes, post, hpost, rfl, hvarint⟩ := readVarint_eq_some.1 hread
      have hle := add_length_le hpost hpos
      rw [hread] at h
      dsimp only at h
      rw [usizeAdd_eq (by omega)] at h
      cases h
      exact ⟨bytes, post, hpost, .varint hzero hvarint, rfl⟩
  · split at h
    · rename_i hone
      obtain ⟨⟨bytes, stop⟩, htake, heq⟩ := map_eq_some h
      obtain ⟨⟨post, hpost⟩, hlength, rfl⟩ := takeBytes_sound hdata hpos (by decide) htake
      cases heq
      exact ⟨bytes, post, hpost, .fixed64 hone hlength, by rw [hlength]⟩
    · split at h
      · rename_i htwo
        cases hread : readVarint data pos with
        | none =>
          rw [hread] at h
          cases h
        | some p =>
          obtain ⟨len, n⟩ := p
          obtain ⟨lenBytes, rest, hrest, rfl, hvarint⟩ := readVarint_eq_some.1 hread
          have hle := add_length_le hrest hpos
          rw [hread] at h
          dsimp only at h
          rw [usizeAdd_eq (by omega)] at h
          obtain ⟨⟨bytes, stop⟩, htake, heq⟩ := map_eq_some h
          obtain ⟨⟨post, hpost⟩, hlength, rfl⟩ := takeBytes_sound hdata hle len.toNat_lt htake
          -- the value is what follows the length
          have hbody : rest = bytes ++ post := by
            rw [← hpost, ← List.drop_drop, hrest, List.drop_left]
          cases heq
          refine ⟨lenBytes ++ bytes, post, ?_, .delimited htwo hvarint hlength, ?_⟩
          · rw [hrest, hbody, List.append_assoc]
          · rw [List.length_append, hlength, Nat.add_assoc]
      · split at h
        · rename_i hfive
          obtain ⟨⟨bytes, stop⟩, htake, heq⟩ := map_eq_some h
          obtain ⟨⟨post, hpost⟩, hlength, rfl⟩ := takeBytes_sound hdata hpos (by decide) htake
          cases heq
          exact ⟨bytes, post, hpost, .fixed32 hfive hlength, by rw [hlength]⟩
        · cases h

/-- A value ends in a fault exactly where its length is too large. -/
theorem decodeValue_error (checks : Bool) {data : Bytes} (hdata : data.length < 2 ^ 63) {wireType : UInt8} {pos : Nat}
    (hpos : pos ≤ data.length) :
    (∃ fault, decodeValue checks data wireType pos = .error fault) ↔ OverlongValue data wireType pos := by
  -- only a length-delimited value announces a length of its own
  have hno : wireType ≠ 2 → ¬ OverlongValue data wireType pos := fun hne h => hne h.1
  have hfixed : ∀ len < 9, ¬ ∃ fault, takeBytes checks data pos len = .error fault := by
    intro len hlen h
    have hlarge := (takeBytes_error checks hdata hpos (by omega)).1 h
    omega
  unfold decodeValue
  split
  · rename_i hzero
    refine ⟨fun h => ?_, fun h => absurd h (hno (by rw [hzero]; decide))⟩
    obtain ⟨fault, h⟩ := h
    cases hread : readVarint data pos with
    | none =>
      rw [hread] at h
      cases h
    | some p =>
      obtain ⟨bytes, post, hpost, hn, -⟩ := readVarint_eq_some.1 hread
      have hle := add_length_le hpost hpos
      rw [hread] at h
      dsimp only at h
      rw [usizeAdd_eq (by omega)] at h
      cases h
  · split
    · rename_i hone
      refine ⟨fun h => ?_, fun h => absurd h (hno (by rw [hone]; decide))⟩
      obtain ⟨fault, h⟩ := h
      exact absurd ⟨fault, map_eq_error.1 h⟩ (hfixed 8 (by decide))
    · split
      · rename_i htwo
        constructor
        · rintro ⟨fault, h⟩
          cases hread : readVarint data pos with
          | none =>
            rw [hread] at h
            cases h
          | some p =>
            obtain ⟨len, n⟩ := p
            obtain ⟨lenBytes, post, hpost, rfl, hvarint⟩ := readVarint_eq_some.1 hread
            have hle := add_length_le hpost hpos
            rw [hread] at h
            dsimp only at h
            rw [usizeAdd_eq (by omega)] at h
            have hlarge := (takeBytes_error checks hdata hle len.toNat_lt).1 ⟨fault, map_eq_error.1 h⟩
            exact ⟨htwo, lenBytes, len, post, hpost, hvarint, hlarge⟩
        · rintro ⟨-, lenBytes, len, post, hpost, hvarint, hlarge⟩
          have hle := add_length_le hpost hpos
          obtain ⟨fault, hfault⟩ := (takeBytes_error checks hdata hle len.toNat_lt).2 hlarge
          refine ⟨fault, ?_⟩
          rw [readVarint_eq_some.2 ⟨lenBytes, post, hpost, rfl, hvarint⟩]
          dsimp only
          rw [usizeAdd_eq (by omega)]
          exact map_eq_error.2 hfault
      · rename_i htwo
        refine ⟨fun h => ?_, fun h => absurd h (hno htwo)⟩
        obtain ⟨fault, h⟩ := h
        split at h
        · exact absurd ⟨fault, map_eq_error.1 h⟩ (hfixed 4 (by decide))
        · cases h

/-! ### One field -/

theorem decodeTurn_complete (checks : Bool) {data : Bytes} (hdata : data.length < 2 ^ 63) {s : DecodeState}
    (hpos : s.pos ≤ data.length) {bytes post : Bytes} (hpost : data.drop s.pos = bytes ++ post) {field : GrpcField}
    (h : FieldBytes bytes field) :
    decodeTurn checks data s = .again ⟨s.pos + bytes.length, s.fields ++ [field]⟩ := by
  obtain ⟨htag, hvalue⟩ := h
  rename_i tagBytes body tag value
  rw [List.append_assoc] at hpost
  have hle := add_length_le hpost hpos
  have htagpos := htag.length_pos
  have hbody : data.drop (s.pos + tagBytes.length) = body ++ post := by
    rw [← List.drop_drop, hpost, List.drop_left]
  unfold decodeTurn
  rw [if_pos (by omega), readVarint_eq_some.2 ⟨tagBytes, body ++ post, hpost, rfl, htag⟩]
  dsimp only
  rw [usizeAdd_eq (by omega), Except.bind, decodeValue_complete checks hdata hle hbody hvalue, List.length_append,
    Nat.add_assoc]

theorem decodeTurn_sound {checks : Bool} {data : Bytes} (hdata : data.length < 2 ^ 63) {s s' : DecodeState}
    (h : decodeTurn checks data s = .again s') :
    ∃ bytes post field, data.drop s.pos = bytes ++ post ∧ FieldBytes bytes field ∧ s.pos < data.length ∧
      s' = ⟨s.pos + bytes.length, s.fields ++ [field]⟩ := by
  unfold decodeTurn at h
  split at h
  · rename_i hlt
    cases hread : readVarint data s.pos with
    | none =>
      rw [hread] at h
      cases h
    | some p =>
      obtain ⟨tag, n⟩ := p
      obtain ⟨tagBytes, rest, hrest, rfl, htag⟩ := readVarint_eq_some.1 hread
      have hle := add_length_le hrest (Nat.le_of_lt hlt)
      rw [hread] at h
      dsimp only at h
      rw [usizeAdd_eq (by omega)] at h
      dsimp only [Except.bind] at h
      split at h
      · cases h
      · cases h
      · rename_i value pos' hvalue
        cases h
        obtain ⟨bytes, post, hpost, hbytes, rfl⟩ := decodeValue_sound hdata hle hvalue
        have hbody : rest = bytes ++ post := by
          rw [← hpost, ← List.drop_drop, hrest, List.drop_left]
        refine ⟨tagBytes ++ bytes, post, _, ?_, .mk htag hbytes, hlt, ?_⟩
        · rw [hrest, hbody, List.append_assoc]
        · rw [List.length_append, Nat.add_assoc]
  · cases h

/-- A turn ends in a fault exactly at a field whose length is too large. -/
theorem decodeTurn_error (checks : Bool) {data : Bytes} (hdata : data.length < 2 ^ 63) {s : DecodeState}
    (hpos : s.pos ≤ data.length) :
    (∃ fault, decodeTurn checks data s = .leave (.error fault)) ↔ OverlongField data s.pos := by
  unfold decodeTurn
  split
  · rename_i hlt
    constructor
    · rintro ⟨fault, h⟩
      cases hread : readVarint data s.pos with
      | none =>
        rw [hread] at h
        cases h
      | some p =>
        obtain ⟨tag, n⟩ := p
        obtain ⟨tagBytes, rest, hrest, rfl, htag⟩ := readVarint_eq_some.1 hread
        have hle := add_length_le hrest hpos
        rw [hread] at h
        dsimp only at h
        rw [usizeAdd_eq (by omega)] at h
        dsimp only [Except.bind] at h
        split at h
        · rename_i hvalue
          exact ⟨tagBytes, tag, rest, hrest, htag, (decodeValue_error checks hdata hle).1 ⟨_, hvalue⟩⟩
        · cases h
        · cases h
    · rintro ⟨tagBytes, tag, rest, hrest, htag, hoverlong⟩
      have hle := add_length_le hrest hpos
      obtain ⟨fault, hvalue⟩ := (decodeValue_error checks hdata hle).2 hoverlong
      refine ⟨fault, ?_⟩
      rw [readVarint_eq_some.2 ⟨tagBytes, rest, hrest, rfl, htag⟩]
      dsimp only
      rw [usizeAdd_eq (by omega), Except.bind, hvalue]
  · rename_i hend
    constructor
    · rintro ⟨_, h⟩
      cases h
    · rintro ⟨tagBytes, tag, rest, hrest, htag, -⟩
      have hle := add_length_le hrest hpos
      have htagpos := htag.length_pos
      omega

/-- A loop which leaves with fields leaves with those it has. -/
theorem decodeTurn_ok {checks : Bool} {data : Bytes} {s : DecodeState} {fields : List GrpcField}
    (h : decodeTurn checks data s = .leave (.ok fields)) : fields = s.fields := by
  unfold decodeTurn at h
  split at h
  · split at h
    · cases h
      rfl
    · split at h
      · cases h
      · cases h
        rfl
      · cases h
  · cases h
    rfl

/-! ### All fields -/

/-- A message in memory takes up less than half of the addresses. -/
structure ByteSlice where
  bytes : Bytes
  length_lt : bytes.length < 2 ^ 63

/-- The fields which have been decoded are those of the bytes up to the position. -/
def DecodeInv (data : Bytes) (s : DecodeState) : Prop :=
  ∃ segments post, List.Forall₂ FieldBytes segments s.fields ∧ data = segments.flatten ++ post ∧
    s.pos = segments.flatten.length

theorem DecodeInv.pos_le {data : Bytes} {s : DecodeState} (h : DecodeInv data s) : s.pos ≤ data.length := by
  obtain ⟨segments, post, -, rfl, hpos⟩ := h
  rw [hpos, List.length_append]
  omega

theorem DecodeInv.step {checks : Bool} {data : Bytes} (hdata : data.length < 2 ^ 63) {s s' : DecodeState}
    (h : DecodeInv data s) (hturn : decodeTurn checks data s = .again s') : DecodeInv data s' := by
  obtain ⟨segments, rest, hfields, hrest, hpos⟩ := h
  obtain ⟨bytes, post, field, hpost, hbytes, -, rfl⟩ := decodeTurn_sound hdata hturn
  rw [hpos, hrest, List.drop_left] at hpost
  refine ⟨segments ++ [bytes], post, List.rel_append hfields (.cons hbytes .nil), ?_, ?_⟩
  · rw [hrest, hpost, List.flatten_concat, List.append_assoc]
  · rw [List.flatten_concat, List.length_append, hpos]

/-- The position of the loop only grows. -/
theorem decodeTurn_pos_lt {checks : Bool} {data : Bytes} (hdata : data.length < 2 ^ 63) {s s' : DecodeState}
    (h : decodeTurn checks data s = .again s') : s.pos < s'.pos ∧ s'.pos ≤ data.length := by
  obtain ⟨bytes, post, field, hpost, hbytes, hlt, rfl⟩ := decodeTurn_sound hdata h
  obtain ⟨htag, -⟩ := hbytes
  have htagpos := htag.length_pos
  refine ⟨?_, add_length_le hpost (Nat.le_of_lt hlt)⟩
  dsimp only
  rw [List.length_append]
  omega

theorem decodeWireFormat_returns (checks : Bool) {data : Bytes} (hdata : data.length < 2 ^ 63) :
    Loop.Returns (decodeTurn checks data) ⟨0, []⟩ (decodeWireFormat checks data) := by
  have hstep : ∀ s s' : DecodeState, True → decodeTurn checks data s = .again s' →
      True ∧ data.length - s'.pos < data.length - s.pos := by
    intro s s' _ hturn
    obtain ⟨hless, hle⟩ := decodeTurn_pos_lt hdata hturn
    exact ⟨trivial, by omega⟩
  have henough : data.length - (⟨0, []⟩ : DecodeState).pos < data.length + 1 := by
    dsimp only
    omega
  obtain ⟨b, hrun⟩ := Loop.exists_run hstep trivial henough
  unfold decodeWireFormat
  rw [hrun]
  exact Loop.returns_of_run hrun

/-- The loop passes all the fields at the beginning of a message. -/
theorem returns_after {checks : Bool} {data : Bytes} (hdata : data.length < 2 ^ 63) {segments : List Bytes}
    {fields : List GrpcField} (h : List.Forall₂ FieldBytes segments fields) {b : Except Fault (List GrpcField)}
    {s : DecodeState} (hpos : s.pos ≤ data.length) {post : Bytes} (hpost : data.drop s.pos = segments.flatten ++ post)
    (hreturns : Loop.Returns (decodeTurn checks data) s b) :
    Loop.Returns (decodeTurn checks data) ⟨s.pos + segments.flatten.length, s.fields ++ fields⟩ b := by
  induction h generalizing s with
  | nil => simpa using hreturns
  | @cons bytes field segments fields hbytes _ ih =>
    rw [List.flatten_cons, List.append_assoc] at hpost
    have hturn := decodeTurn_complete checks hdata hpos hpost hbytes
    have hle := add_length_le hpost hpos
    have hrest : data.drop (s.pos + bytes.length) = segments.flatten ++ post := by
      rw [← List.drop_drop, hpost, List.drop_left]
    have hnext := ih hle hrest (hreturns.of_again hturn)
    rw [List.append_assoc, Nat.add_assoc] at hnext
    rw [List.flatten_cons, List.length_append]
    exact hnext

/-- A decoder which returns has come to no field whose length is too large. -/
theorem lengthsFit_of_ok {checks : Bool} {data : Bytes} (hdata : data.length < 2 ^ 63) {fields : List GrpcField}
    (hok : decodeWireFormat checks data = .ok fields) : LengthsFit data := by
  intro segments before post hfields hpost hoverlong
  have hafter :=
    returns_after (s := ⟨0, []⟩) hdata hfields (Nat.zero_le _) hpost (decodeWireFormat_returns checks hdata)
  rw [Nat.zero_add, List.nil_append] at hafter
  have hle : segments.flatten.length ≤ data.length := by
    rw [hpost, List.length_append]
    omega
  obtain ⟨fault, hfault⟩ := (decodeTurn_error checks hdata (s := ⟨segments.flatten.length, before⟩) hle).2 hoverlong
  have herror := hafter.of_leave hfault
  rw [hok] at herror
  cases herror

/-- Where all lengths fit, the decoder returns fields which are there. -/
theorem LengthsFit.decoded {data : Bytes} (hfit : LengthsFit data) (hdata : data.length < 2 ^ 63) (checks : Bool) :
    ∃ fields segments post, decodeWireFormat checks data = .ok fields ∧
      List.Forall₂ FieldBytes segments fields ∧ data = segments.flatten ++ post := by
  have hreturns := decodeWireFormat_returns checks hdata
  have hstart : DecodeInv data ⟨0, []⟩ := ⟨[], data, .nil, rfl, rfl⟩
  obtain ⟨last, hinv, hleave⟩ := hreturns.last (fun s s' hinv hturn => DecodeInv.step hdata hinv hturn) hstart
  have hpos := hinv.pos_le
  obtain ⟨segments, post, hfields, hpost, hlast⟩ := hinv
  cases hresult : decodeWireFormat checks data with
  | error fault =>
    rw [hresult] at hleave
    have hoverlong := (decodeTurn_error checks hdata hpos).1 ⟨fault, hleave⟩
    rw [hlast] at hoverlong
    exact absurd hoverlong (hfit segments last.fields post hfields hpost)
  | ok fields =>
    rw [hresult] at hleave
    have hsame := decodeTurn_ok hleave
    subst hsame
    exact ⟨last.fields, segments, post, rfl, hfields, hpost⟩

/-- The decoder meets no fault, and every field it returns has been read from the bytes of the message, exactly where
no length-delimited field that it comes to has a length which is too large for the addition of the position. -/
theorem decodeWireFormat_safe_iff (data : ByteSlice) :
    (∀ checks, Loop.Returns (decodeTurn checks data.bytes) ⟨0, []⟩ (decodeWireFormat checks data.bytes) ∧
        (∀ s s', decodeTurn checks data.bytes s = .again s' → s.pos < s'.pos) ∧
        ∃ fields segments post, decodeWireFormat checks data.bytes = .ok fields ∧
          List.Forall₂ FieldBytes segments fields ∧ data.bytes = segments.flatten ++ post) ↔
      LengthsFit data.bytes := by
  have hdata := data.length_lt
  constructor
  · intro h
    obtain ⟨-, -, fields, -, -, hok, -⟩ := h true
    exact lengthsFit_of_ok hdata hok
  · intro hfit checks
    exact ⟨decodeWireFormat_returns checks hdata, fun s s' hturn => (decodeTurn_pos_lt hdata hturn).1,
      hfit.decoded hdata checks⟩

/-- A length of `2 ^ 64 - 1`: the addition overflows, and where it wraps the slice starts after its end. -/
theorem not_decodeWireFormat_safe :
    ¬ ∀ (data : ByteSlice) (checks : Bool), ∃ fields, decodeWireFormat checks data.bytes = .ok fields := by
  intro h
  have hfault : ∀ checks,
      (decodeWireFormat checks [10, 255, 255, 255, 255, 255, 255, 255, 255, 255, 1]).toOption.isNone = true := by
    decide +kernel
  obtain ⟨fields, hok⟩ := h ⟨[10, 255, 255, 255, 255, 255, 255, 255, 255, 255, 1], by decide⟩ true
  have hboth := hfault true
  rw [hok] at hboth
  cases hboth

end GrpcInspector

end Oproxy
