import Oproxy.Session.Event

/-!
# WebSocket messages

The messages which the WebSocket library hands over, and the part of them which a session keeps.
-/

namespace Oproxy

inductive WsMessage where
  | text (text : Str)
  | binary (data : Bytes)
  | ping (data : Bytes)
  | pong (data : Bytes)
  /-- The code and the reason, where the peer gives them. -/
  | close (frame : Option (Nat × Str))
  /-- A raw frame, which the library never reads. -/
  | frame (data : Bytes)
  deriving DecidableEq

namespace WsMessage

def maxTextChars : Nat := 512

def maxHexBytes : Nat := 64

private def hexDigit (n : Nat) : Char := ("0123456789abcdef" : Str).getD n '0'

def hexText (data : Bytes) : Str := data.flatMap fun b => [hexDigit (b.toNat / 16), hexDigit (b.toNat % 16)]

/-- The first bytes of a payload in hexadecimal; none of an empty one. -/
def hexPreview (data : Bytes) : Option Str := if data.isEmpty then none else some (hexText (data.take maxHexBytes))

end WsMessage

end Oproxy
