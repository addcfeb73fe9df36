import Oproxy.Lib.IndexMap
import Oproxy.Lib.Json

/-!
# Reading a curl command (`export.rs`)

The importer of a request: continuations are taken out of the whole text, the text is cut into tokens, and a loop goes
over the tokens.  The parser of URLs and the check of a method are those of the HTTP library and stay parameters.
-/

namespace Oproxy

namespace Export

open Json (quoteMark)

structure ParsedCurl where
  method : Str
  url : Str
  headers : IndexMap Str Str
  body : Str

/-- What the loop starts with. -/
def ParsedCurl.empty : ParsedCurl where
  method := []
  url := []
  headers := IndexMap.empty
  body := []

/-! ### Tokens -/

/-- A character after a backslash in double quotes. -/
def unescape (c : Char) : Char := if c = 'n' then '\n' else if c = 't' then '\t' else c

/-- A text in double quotes and what is behind it. -/
def readDouble : Str → Option (Str × Str)
  | [] => none
  | [c] => if c = quoteMark then some ([], []) else none
  | c :: d :: s =>
    if c = quoteMark then some ([], d :: s)
    else if c = '\\' then (readDouble s).map fun r => (unescape d :: r.1, r.2)
    else (readDouble (d :: s)).map fun r => (c :: r.1, r.2)

/-- What ends a token without quotes: not every white space does. -/
def isBlank (c : Char) : Bool := c = ' ' || c = '\t'

theorem length_readDouble {s v rest : Str} (h : readDouble s = some (v, rest)) : rest.length < s.length := by
  induction s using readDouble.induct generalizing v with
  | case1 => cases h
  | case2 =>
    cases h
    exact Nat.zero_lt_one
  | case3 c hc =>
    rw [readDouble, if_neg hc] at h
    cases h
  | case4 =>
    rw [readDouble, if_pos rfl] at h
    cases h
    exact Nat.lt_succ_self _
  | case5 d s hc ih =>
    rw [readDouble, if_neg hc, if_pos rfl] at h
    obtain ⟨r, hread, hr⟩ := Option.map_eq_some_iff.1 h
    cases hr
    exact Nat.lt_succ_of_lt (Nat.lt_succ_of_lt (ih hread))
  | case6 c d s hc hc' ih =>
    rw [readDouble, if_neg hc, if_neg hc'] at h
    obtain ⟨r, hread, hr⟩ := Option.map_eq_some_iff.1 h
    cases hr
    exact Nat.lt_succ_of_lt (ih hread)

theorem length_of_splitOnce {sep : Char} {s a b : Str} (h : Str.splitOnce sep s = some (a, b)) :
    b.length < s.length := by
  rw [(Str.splitOnce_eq_some.1 h).1, List.length_append, List.length_cons]
  omega

theorem length_of_dropWhile {p : Char → Bool} {s rest : Str} {c : Char} (h : s.dropWhile p = c :: rest) :
    rest.length < s.length := by
  have hle := (List.dropWhile_suffix p : s.dropWhile p <:+ s).length_le
  rw [h, List.length_cons] at hle
  exact hle

/-- A character which is no white space is no blank. -/
theorem not_isBlank_of_dropWhile {s rest : Str} {c : Char} (h : s.dropWhile Str.isWhitespace = c :: rest) :
    isBlank c = false := by
  have hspace := List.head?_dropWhile_not Str.isWhitespace s
  rw [h, List.head?_cons] at hspace
  by_contra hblank
  simp only [isBlank, Bool.not_eq_false, Bool.or_eq_true, decide_eq_true_eq] at hblank
  rcases hblank with rfl | rfl
  · cases hspace
  · cases hspace

/-- Cut a text into tokens: in single quotes, in double quotes, or up to a blank. -/
def tokeniseShell (s : Str) : Except Str (List Str) :=
  match _hs : s.dropWhile Str.isWhitespace with
  | [] => .ok []
  | c :: rest =>
    if c = '\'' then
      match _hquoted : Str.splitOnce '\'' rest with
      | none => .error "Unterminated single-quoted string"
      | some (token, rest) => (tokeniseShell rest).map (token :: ·)
    else if c = quoteMark then
      match _hquoted : readDouble rest with
      | none => .error "Unterminated double-quoted string"
      | some (token, rest) => (tokeniseShell rest).map (token :: ·)
    else (tokeniseShell ((c :: rest).dropWhile fun c => !isBlank c)).map
      ((c :: rest).takeWhile (fun c => !isBlank c) :: ·)
termination_by s.length
decreasing_by
  · exact Nat.lt_trans (length_of_splitOnce _hquoted) (length_of_dropWhile _hs)
  · exact Nat.lt_trans (length_readDouble _hquoted) (length_of_dropWhile _hs)
  · rw [List.dropWhile_cons_of_pos (by rw [not_isBlank_of_dropWhile _hs]; rfl)]
    exact Nat.lt_of_le_of_lt (List.dropWhile_suffix _).length_le (length_of_dropWhile _hs)

/-! ### The loop over the tokens -/

/-- `-H` or its long form: a token without a colon is left out. -/
def ParsedCurl.insertHeader (out : ParsedCurl) (token : Str) : ParsedCurl :=
  match Str.splitOnce ':' token with
  | some (k, v) => { out with headers := out.headers.insert k.trim v.trim }
  | none => out

/-- The loop over the tokens behind the command. -/
def parseTokens : List Str → ParsedCurl → ParsedCurl
  | [], out => out
  | t :: rest, out =>
    if t = "-X" ∨ t = "--request" then
      match rest with
      | [] => out
      | method :: rest => parseTokens rest { out with method }
    else if t = "-H" ∨ t = "--header" then
      match rest with
      | [] => out
      | header :: rest => parseTokens rest (out.insertHeader header)
    else if t = "-d" ∨ t = "--data" ∨ t = "--data-raw" ∨ t = "--data-binary" ∨ t = "--data-ascii" then
      match rest with
      | [] => out
      | data :: rest => parseTokens rest { out with body := data.dropWhile (· = '@') }
    else if t = "-G" ∨ t = "--get" then parseTokens rest { out with method := "GET" }
    else if t = "-I" ∨ t = "--head" then parseTokens rest { out with method := "HEAD" }
    else if !Str.startsWith t "-" && out.url.isEmpty then parseTokens rest { out with url := t }
    else parseTokens rest out

/-! ### The importer -/

/-- `Url::parse`, of which the scheme is used, and `Method::from_bytes`. -/
structure HttpLibrary where
  parseUrl : Str → Except Str Str
  methodFromBytes : Bytes → Bool

def validateHttpUrl (lib : HttpLibrary) (url : Str) : Except Str Unit :=
  match lib.parseUrl url with
  | .error e => .error (("Invalid URL: " : Str) ++ e)
  | .ok scheme =>
    if scheme = "http" ∨ scheme = "https" then .ok () else .error (("Unsupported URL scheme: " : Str) ++ scheme)

/-- The text without line continuations. -/
def normalised (s : Str) : Str := Str.replace "\\\r\n" " " (Str.replace "\\\n" " " s)

/-- What is checked and filled in behind the loop. -/
def finishCurl (lib : HttpLibrary) (out : ParsedCurl) : Except Str ParsedCurl :=
  if out.url.isEmpty then .error "No URL found in curl command"
  else
    match validateHttpUrl lib out.url with
    | .error e => .error e
    | .ok () =>
      let method : Str := if out.method.isEmpty then (if out.body.isEmpty then "GET" else "POST") else out.method
      if lib.methodFromBytes method.toUtf8 then .ok { out with method }
      else .error (("Invalid HTTP method: " : Str) ++ method)

def parseCurl (lib : HttpLibrary) (input : Str) : Except Str ParsedCurl :=
  match tokeniseShell (normalised input.trim) with
  | .error e => .error e
  | .ok [] => .error "No curl command found"
  | .ok (command :: tokens) =>
    let name := ((Str.rsplitOnce '/' command).map Prod.snd).getD command
    if name ≠ "curl" then .error "Input must start with curl"
    else finishCurl lib (parseTokens tokens ParsedCurl.empty)

end Export

end Oproxy
