import Oproxy.Middleware.HeaderMap

/-!
# Content decoding (`core/decompression.rs`)

A response body is decoded by the first coding which its `content-encoding` mentions.  The decoders are parameters.
-/

namespace Oproxy

/-- The decoders; each fails on what is not in its format. -/
structure Codecs where
  gzip : Bytes → Option Bytes
  zlib : Bytes → Option Bytes
  deflate : Bytes → Option Bytes
  brotli : Bytes → Option Bytes
  zstd : Bytes → Option Bytes

/-- The magic number of a zstd frame or of a skippable one. -/
def looksLikeZstdFrame (bytes : Bytes) : Bool :=
  match bytes with
  | a :: b :: c :: d :: _ =>
    (a == 0x28 && b == 0xb5 && c == 0x2f && d == 0xfd) ||
      (0x50 ≤ a.toNat && a.toNat ≤ 0x5f && b == 0x2a && c == 0x4d && d == 0x18)
  | _ => false

/-- The decoded body, where the fields name a coding and the body decodes. -/
def decodedBody (codecs : Codecs) (headers : HeaderMap) (bytes : Bytes) : Option Bytes :=
  let encoding := ((headerValue headers "content-encoding").getD []).toAsciiLowercase
  if Str.contains "gzip" encoding then codecs.gzip bytes
  else if Str.contains "deflate" encoding then (codecs.zlib bytes).orElse fun _ => codecs.deflate bytes
  else if Str.contains "br" encoding then codecs.brotli bytes
  else if Str.contains "zstd" encoding then
    if looksLikeZstdFrame bytes then codecs.zstd bytes else some bytes
  else none

/-- The fields and the body after decoding; `content-encoding` and `content-length` go with the coding. -/
def decodedResponseBody (codecs : Codecs) (headers : HeaderMap) (bytes : Bytes) : HeaderMap × Bytes :=
  match decodedBody codecs headers bytes with
  | some out => (removeHeader (removeHeader headers "content-encoding") "content-length", out)
  | none => (headers, bytes)

end Oproxy
