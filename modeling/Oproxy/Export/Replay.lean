import Oproxy.Har.Redaction
import Oproxy.Lib.Json
import Oproxy.Session.Store

/-!
# Exports of a request (`export.rs`)

A recorded request as a command of the shell, as a call in JavaScript and as a Python program.  `parseJson` is the
reader of JSON texts behind the redaction of bodies.
-/

namespace Oproxy

namespace Export

def shouldSkipReplayHeader (header : Str) : Bool :=
  let header := header.trim.toAsciiLowercase
  (["host", "content-length", "connection", "keep-alive", "proxy-authenticate", "proxy-authorization",
    "proxy-connection", "te", "trailer", "transfer-encoding", "upgrade"].map String.toList).contains header ||
    Str.startsWith header "x-oproxy-"

/-- The header fields of an export, redacted or not. -/
def replayHeaders (headers : HeaderMap) (redact : Bool) : List (Str × Str) :=
  let headers := if redact then Redaction.redactHeaders headers else headers
  headers.entries.filter fun e => !shouldSkipReplayHeader e.1

/-- The body of an export. -/
def replayBody (parseJson : Str → Option Json) (req : RequestContext) (redact : Bool) : Str :=
  if redact then Redaction.redactBodyText parseJson req.bodyText else req.bodyText

/-! ### curl -/

def escapeQuotes (s : Str) : Str := Str.replace "'" "'\\''" s

def curlHeader (e : Str × Str) : Str := ("-H '" : Str) ++ e.1 ++ (": " : Str) ++ escapeQuotes e.2 ++ ("'" : Str)

def curlData (body : Str) : Str := ("--data '" : Str) ++ escapeQuotes body ++ ("'" : Str)

def exportAsCurlWithRedaction (parseJson : Str → Option Json) (ex : Exchange) (redact : Bool) : Str :=
  let req := ex.request
  let parts := [("curl -X " : Str) ++ req.method ++ (" '" : Str) ++ req.uri ++ ("'" : Str)] ++
    (replayHeaders req.headers redact).map curlHeader ++
    (if req.body.isEmpty then [] else [curlData (replayBody parseJson req redact)])
  List.intercalate " \\\n  " parts

def exportAsCurl (parseJson : Str → Option Json) (ex : Exchange) : Str := exportAsCurlWithRedaction parseJson ex true

def exportAsCurlRaw (parseJson : Str → Option Json) (ex : Exchange) : Str :=
  exportAsCurlWithRedaction parseJson ex false

/-! ### fetch -/

/-- `serde_json::to_string` of a text. -/
def jsString (value : Str) : Str := Json.quoted value

def fetchHeader (e : Str × Str) : Str := ("    " : Str) ++ jsString e.1 ++ (": " : Str) ++ jsString e.2

def exportAsFetchWithRedaction (parseJson : Str → Option Json) (ex : Exchange) (redact : Bool) : Str :=
  let req := ex.request
  let headersObj := (replayHeaders req.headers redact).map fetchHeader
  let optsParts := [("  method: \"" : Str) ++ req.method ++ ("\"" : Str),
    ("  headers: \x7b\n" : Str) ++ List.intercalate ",\n" headersObj ++ ("\n  \x7d" : Str)] ++
    (if req.body.isEmpty then [] else [("  body: " : Str) ++ jsString (replayBody parseJson req redact)])
  ("fetch(\"" : Str) ++ req.uri ++ ("\", \x7b\n" : Str) ++ List.intercalate ",\n" optsParts ++ ("\n\x7d);" : Str)

def exportAsFetch (parseJson : Str → Option Json) (ex : Exchange) : Str := exportAsFetchWithRedaction parseJson ex true

def exportAsFetchRaw (parseJson : Str → Option Json) (ex : Exchange) : Str :=
  exportAsFetchWithRedaction parseJson ex false

/-! ### Python -/

/-- A character as `fmt::Debug` writes it in a text; `unprintable` are the characters which it writes by their number,
as they are not printable or belong to the character before them. -/
def debugChar (unprintable : Char → Bool) (c : Char) : Str :=
  if c.toNat = 0 then "\\0"
  else if c = '\t' then "\\t"
  else if c = '\r' then "\\r"
  else if c = '\n' then "\\n"
  else if c = '\\' then "\\\\"
  else if c = Json.quoteMark then "\\\""
  else if unprintable c then ("\\u\x7b" : Str) ++ Nat.toDigits 16 c.toNat ++ ("\x7d" : Str)
  else [c]

def pythonString (unprintable : Char → Bool) (value : Str) : Str :=
  Json.quoteMark :: (value.flatMap (debugChar unprintable) ++ [Json.quoteMark])

def pythonHeader (unprintable : Char → Bool) (e : Str × Str) : Str :=
  ("    " : Str) ++ pythonString unprintable e.1 ++ (": " : Str) ++ pythonString unprintable e.2

def exportAsPythonWithRedaction (unprintable : Char → Bool) (parseJson : Str → Option Json) (ex : Exchange)
    (redact : Bool) : Str :=
  let req := ex.request
  let headersEntries := (replayHeaders req.headers redact).map (pythonHeader unprintable)
  let headersStr := ("\x7b\n" : Str) ++ List.intercalate ",\n" headersEntries ++ ("\n\x7d" : Str)
  let bodyLine : Str :=
    if req.body.isEmpty then []
    else ("\ndata = " : Str) ++ pythonString unprintable (replayBody parseJson req redact) ++ ("\n" : Str)
  let dataArg : Str := if req.body.isEmpty then [] else ", data=data"
  ("import requests\n\nurl = \"" : Str) ++ req.uri ++ ("\"\nheaders = " : Str) ++ headersStr ++ bodyLine ++
    ("\nresponse = requests.request(\"" : Str) ++ req.method ++ ("\", url, headers=headers" : Str) ++ dataArg ++
    (")\nprint(response.text)" : Str)

def exportAsPython (unprintable : Char → Bool) (parseJson : Str → Option Json) (ex : Exchange) : Str :=
  exportAsPythonWithRedaction unprintable parseJson ex true

def exportAsPythonRaw (unprintable : Char → Bool) (parseJson : Str → Option Json) (ex : Exchange) : Str :=
  exportAsPythonWithRedaction unprintable parseJson ex false

end Export

end Oproxy
