import Oproxy.Lib.Text

/-!
# gRPC frames (`core/forward.rs`)

A frame is a compression flag, the length of the message in four bytes, and the message.
-/

namespace Oproxy

/-- The four bytes of a `u32`, the highest first. -/
def beBytes (n : Nat) : Bytes :=
  [UInt8.ofNat (n / 2 ^ 24), UInt8.ofNat (n / 2 ^ 16), UInt8.ofNat (n / 2 ^ 8), UInt8.ofNat n]

def encodeGrpcFrame (compressed : Bool) (payload : Bytes) : Bytes :=
  (if compressed then 1 else 0) :: (beBytes (payload.length % 2 ^ 32) ++ payload)

/-- The number in four bytes, the highest first. -/
def readBe (b0 b1 b2 b3 : UInt8) : Nat := ((b0.toNat * 256 + b1.toNat) * 256 + b2.toNat) * 256 + b3.toNat

theorem readBe_lt (b0 b1 b2 b3 : UInt8) : readBe b0 b1 b2 b3 < 2 ^ 32 := by
  have h0 := b0.toNat_lt
  have h1 := b1.toNat_lt
  have h2 := b2.toNat_lt
  have h3 := b3.toNat_lt
  unfold readBe
  omega

theorem readBe_beBytes {n : Nat} (h : n < 2 ^ 32) :
    readBe (UInt8.ofNat (n / 2 ^ 24)) (UInt8.ofNat (n / 2 ^ 16)) (UInt8.ofNat (n / 2 ^ 8)) (UInt8.ofNat n) = n := by
  unfold readBe
  simp only [UInt8.toNat_ofNat']
  omega

/-- A frame has one message. -/
theorem encodeGrpcFrame_inj {compressed : Bool} {payload payload' : Bytes} :
    encodeGrpcFrame compressed payload = encodeGrpcFrame compressed payload' ↔ payload = payload' := by
  constructor
  · intro h
    exact congrArg (List.drop 5) h
  · rintro rfl
    rfl

end Oproxy
