import Oproxy.Core.Decompression
import Oproxy.Lib.Occurrences

/-!
# Stacks of content codings (`core/decompression.rs`)

What a body stands for under the codings which its fields list, and what becomes of it when the code takes one off.
-/

namespace Oproxy

namespace ContentCodings

/-! ### Codings and what lists them -/

inductive Coding where
  | gzip | deflate | br | zstd
  deriving DecidableEq

def Coding.name : Coding → Str
  | .gzip => "gzip"
  | .deflate => "deflate"
  | .br => "br"
  | .zstd => "zstd"

/-- What is listed in a value of `content-encoding`, in lower case and without the spaces. -/
def elements (line : Str) : List Str :=
  ((Str.split ',' line.toAsciiLowercase).map Str.trim).filter fun element => element ≠ []

/-- What all values of `content-encoding` list. -/
def listed (headers : HeaderMap) : List Str := (headers.getAll "content-encoding").flatMap elements

/-- The decoder of a coding. -/
def decoder (codecs : Codecs) (bytes : Bytes) : Coding → Option Bytes
  | .gzip => codecs.gzip bytes
  | .deflate => (codecs.zlib bytes).orElse fun _ => codecs.deflate bytes
  | .br => codecs.brotli bytes
  | .zstd => codecs.zstd bytes

def codingOf (name : Str) : Option Coding := [Coding.gzip, .deflate, .br, .zstd].find? fun c => c.name = name

/-- The content which a body stands for: the listed codings are taken off, the last one first. -/
def denoted (codecs : Codecs) (r : HeaderMap × Bytes) : Option Bytes :=
  (listed r.1).foldr (fun name body => body.bind fun bytes => (codingOf name).bind (decoder codecs bytes)) (some r.2)

/-- Apply codings to a content in their order. -/
def encodeAll (encode : Coding → Bytes → Bytes) (codings : List Coding) (content : Bytes) : Bytes :=
  codings.foldl (fun body c => encode c body) content

/-- The decoders read what their own coding has written, and fail on what another has written. -/
structure Inverts (codecs : Codecs) (encode : Coding → Bytes → Bytes) : Prop where
  own : ∀ c bytes, decoder codecs (encode c bytes) c = some bytes
  other : ∀ c c' bytes, c ≠ c' → decoder codecs (encode c' bytes) c = none

/-- The decoded body with the fields that are left stands for the content; and where it does not decode, body and
fields are as they were. -/
structure Consistent (codecs : Codecs) (headers : HeaderMap) (bytes content : Bytes) : Prop where
  content : denoted codecs (decodedResponseBody codecs headers bytes) = some content
  unchanged : decodedBody codecs headers bytes = none → decodedResponseBody codecs headers bytes = (headers, bytes)

/-! ### The coding which is tried -/

/-- The coding which is looked for first among those of the first value. -/
def tried (headers : HeaderMap) : Option Coding :=
  [Coding.gzip, .deflate, .br, .zstd].find? fun c => c.name ∈ elements ((headers.get "content-encoding").getD [])

/-- A body that is taken for plain although it is tried as zstd. -/
def takenAsPlain (c : Coding) (bytes : Bytes) : Bool := c = .zstd && !looksLikeZstdFrame bytes

theorem codingOf_name (c : Coding) : codingOf c.name = some c := by
  revert c
  have hall : ∀ c ∈ [Coding.gzip, .deflate, .br, .zstd], codingOf c.name = some c := by decide +kernel
  intro c
  exact hall c (by cases c <;> decide)

theorem name_plain (c : Coding) : c.name ≠ [] ∧ ',' ∉ c.name ∧ ∀ d ∈ c.name, Str.isWhitespace d = false := by
  have hall : ∀ c ∈ [Coding.gzip, .deflate, .br, .zstd],
      c.name ≠ [] ∧ ',' ∉ c.name ∧ ∀ d ∈ c.name, Str.isWhitespace d = false := by
    decide +kernel
  exact hall c (by cases c <;> decide)

theorem infix_name_iff (c c' : Coding) : c.name <:+: c'.name ↔ c = c' := by
  have hall : ∀ c ∈ [Coding.gzip, .deflate, .br, .zstd], ∀ c' ∈ [Coding.gzip, .deflate, .br, .zstd],
      Str.contains c.name c'.name = true ↔ c = c' := by
    decide +kernel
  rw [← Str.contains_iff]
  exact hall c (by cases c <;> decide) c' (by cases c' <;> decide)

/-- In a list of codings, looking for the text of a coding finds the coding. -/
theorem contains_name_iff {line : Str} (h : ∀ element ∈ elements line, ∃ c : Coding, element = c.name) (c : Coding) :
    Str.contains c.name line.toAsciiLowercase = true ↔ c.name ∈ elements line := by
  obtain ⟨hne, hcomma, hplain⟩ := name_plain c
  rw [Str.contains_iff, Str.infix_split_iff hne hcomma]
  constructor
  · rintro ⟨part, hpart, hoccurs⟩
    rw [← Str.infix_trim_iff hne hplain] at hoccurs
    have hmem : part.trim ∈ elements line := by
      refine List.mem_filter.2 ⟨List.mem_map_of_mem hpart, decide_eq_true fun hempty => hne ?_⟩
      rw [hempty] at hoccurs
      exact List.infix_nil.1 hoccurs
    obtain ⟨c', hc'⟩ := h _ hmem
    rw [hc', infix_name_iff] at hoccurs
    rwa [hoccurs, ← hc']
  · intro hmem
    obtain ⟨part, hpart, heq⟩ := List.mem_map.1 (List.mem_of_mem_filter hmem)
    refine ⟨part, hpart, (Str.infix_trim_iff hne hplain).1 ?_⟩
    rewrite [heq]
    exact List.infix_rfl

theorem decodedBody_eq (codecs : Codecs) {headers : HeaderMap} (bytes : Bytes)
    (h : ∀ element ∈ elements ((headers.get "content-encoding").getD []), ∃ c : Coding, element = c.name) :
    decodedBody codecs headers bytes =
      (tried headers).bind fun c => if takenAsPlain c bytes then some bytes else decoder codecs bytes c := by
  have hname : ∀ c : Coding, Str.contains c.name ((headers.get "content-encoding").getD []).toAsciiLowercase =
      decide (c.name ∈ elements ((headers.get "content-encoding").getD [])) := by
    intro c
    rw [Bool.eq_iff_iff, contains_name_iff h c, decide_eq_true_iff]
  have hgzip := hname .gzip
  have hdeflate := hname .deflate
  have hbr := hname .br
  have hzstd := hname .zstd
  unfold decodedBody tried headerValue
  change (if Str.contains Coding.gzip.name _ = true then _ else if Str.contains Coding.deflate.name _ = true then _ else
    if Str.contains Coding.br.name _ = true then _ else if Str.contains Coding.zstd.name _ = true then _ else _) = _
  rw [hgzip, hdeflate, hbr, hzstd]
  simp only [List.find?_cons, List.find?_nil]
  generalize decide (Coding.gzip.name ∈ elements ((headers.get "content-encoding").getD [])) = gzip
  generalize decide (Coding.deflate.name ∈ elements ((headers.get "content-encoding").getD [])) = deflate
  generalize decide (Coding.br.name ∈ elements ((headers.get "content-encoding").getD [])) = br
  generalize decide (Coding.zstd.name ∈ elements ((headers.get "content-encoding").getD [])) = zstd
  cases gzip with
  | true => rfl
  | false =>
    cases deflate with
    | true => rfl
    | false =>
      cases br with
      | true => rfl
      | false =>
        cases zstd with
        | false => rfl
        | true =>
          show (if looksLikeZstdFrame bytes = true then _ else _) = if (true && !looksLikeZstdFrame bytes) = true then _
            else _
          cases looksLikeZstdFrame bytes <;> rfl

/-! ### What becomes of the content -/

section

variable {codecs : Codecs} {encode : Coding → Bytes → Bytes}

/-- Taking off all the codings of an encoded content gives the content. -/
theorem Inverts.decode_encodeAll (h : Inverts codecs encode) (codings : List Coding) (content : Bytes) :
    (codings.map Coding.name).foldr
      (fun name body => body.bind fun bytes => (codingOf name).bind (decoder codecs bytes))
      (some (encodeAll encode codings content)) = some content := by
  unfold encodeAll
  induction codings using List.reverseRecOn with
  | nil => rfl
  | append_singleton codings c ih =>
    rw [List.map_append, List.foldr_append, List.foldl_append]
    simp only [List.map_cons, List.map_nil, List.foldr_cons, List.foldr_nil, List.foldl_cons, List.foldl_nil,
      Option.bind_some, codingOf_name, h.own]
    exact ih

/-- What is left of the codings once the last one is taken off. -/
theorem encodeAll_of_getLast? {codings : List Coding} {c : Coding} (hlast : codings.getLast? = some c)
    (content : Bytes) : encodeAll encode codings content = encode c (encodeAll encode codings.dropLast content) := by
  have hsplit := List.dropLast_append_getLast? c hlast
  unfold encodeAll
  conv_lhs => rw [← hsplit]
  rw [List.foldl_append]
  rfl

/-- What the first value lists is listed. -/
theorem mem_listed {headers : HeaderMap} {element : Str}
    (h : element ∈ elements ((headers.get "content-encoding").getD [])) : element ∈ listed headers := by
  rw [HeaderMap.get_eq_head?] at h
  unfold listed
  cases hvalues : headers.getAll "content-encoding" with
  | nil =>
    rw [hvalues] at h
    cases h
  | cons first rest =>
    rw [hvalues] at h
    exact List.mem_flatMap.2 ⟨first, List.mem_cons_self, h⟩

theorem listed_removed (headers : HeaderMap) :
    listed (removeHeader (removeHeader headers "content-encoding") "content-length") = [] := by
  have hgone : (removeHeader (removeHeader headers "content-encoding") "content-length").getAll "content-encoding" =
      [] := by
    unfold removeHeader
    rw [HeaderMap.getAll_remove, HeaderMap.getAll_remove, if_pos rfl, ite_self]
  unfold listed
  rw [hgone]
  rfl

/-- A body is taken for plain only where it is; and where the coding that is tried is the outermost one, the others
leave the content as it is. -/
def OneLayer (encode : Coding → Bytes → Bytes) (headers : HeaderMap) (codings : List Coding) (content : Bytes) : Prop :=
  ∀ c, tried headers = some c →
    if takenAsPlain c (encodeAll encode codings content) then encodeAll encode codings content = content
    else codings.getLast? = some c → encodeAll encode codings.dropLast content = content

/-- The exact condition on the fields, the codings and the content. -/
theorem consistent_iff (h : Inverts codecs encode) {headers : HeaderMap} {codings : List Coding}
    (hlisted : listed headers = codings.map Coding.name) (content : Bytes) :
    Consistent codecs headers (encodeAll encode codings content) content ↔
      OneLayer encode headers codings content := by
  have hfirst : ∀ element ∈ elements ((headers.get "content-encoding").getD []), ∃ c : Coding, element = c.name := by
    intro element helement
    have hmem := mem_listed helement
    rw [hlisted] at hmem
    obtain ⟨c, -, hc⟩ := List.mem_map.1 hmem
    exact ⟨c, hc.symm⟩
  have hdecoded := decodedBody_eq codecs (encodeAll encode codings content) hfirst
  -- the body and the fields as they were stand for the content
  have hkept : denoted codecs (headers, encodeAll encode codings content) = some content := by
    unfold denoted
    rw [hlisted]
    exact h.decode_encodeAll codings content
  have hplain : ∀ out, denoted codecs (removeHeader (removeHeader headers "content-encoding") "content-length", out) =
      some out := by
    intro out
    unfold denoted
    rw [listed_removed]
    rfl
  have hunchanged : decodedBody codecs headers (encodeAll encode codings content) = none →
      decodedResponseBody codecs headers (encodeAll encode codings content) =
        (headers, encodeAll encode codings content) := by
    intro hnone
    unfold decodedResponseBody
    rw [hnone]
  have hcontent : Consistent codecs headers (encodeAll encode codings content) content ↔
      ∀ out, decodedBody codecs headers (encodeAll encode codings content) = some out → out = content := by
    constructor
    · intro hconsistent out hout
      have heq := hconsistent.content
      unfold decodedResponseBody at heq
      rw [hout] at heq
      exact Option.some.inj ((hplain out).symm.trans heq)
    · intro hout
      refine ⟨?_, hunchanged⟩
      cases hresult : decodedBody codecs headers (encodeAll encode codings content) with
      | none => rw [hunchanged hresult, hkept]
      | some out =>
        unfold decodedResponseBody
        rw [hresult, ← hout out hresult]
        exact hplain out
  rw [hcontent, hdecoded]
  unfold OneLayer
  cases htried : tried headers with
  | none => simp
  | some c =>
    simp only [Option.bind_some, Option.some.injEq, forall_eq']
    split
    · simp
    · by_cases hlast : codings.getLast? = some c
      · rw [encodeAll_of_getLast? hlast, h.own]
        simp [hlast]
      · -- another coding is the outermost one, so that decoding fails
        have hne : codings ≠ [] := by
          rintro rfl
          have hmem := List.find?_some htried
          rw [decide_eq_true_iff] at hmem
          have hlist := mem_listed hmem
          rw [hlisted] at hlist
          cases hlist
        have hsome := List.getLast?_eq_getLast_of_ne_nil hne
        rw [encodeAll_of_getLast? hsome, h.other c _ _ fun heq => hlast (heq ▸ hsome)]
        simp [hlast]

end

/-! ### The codings of an empty content -/

/-- What each coding makes of an empty content. -/
def emptyOf : Coding → Bytes
  | .gzip => [0x1f, 0x8b, 0x08, 0, 0, 0, 0, 0, 0, 3, 3, 0, 0, 0, 0, 0, 0, 0, 0, 0]
  | .deflate => [0x78, 0x9c, 3, 0, 0, 0, 0, 1]
  | .br => [6]
  | .zstd => [0x28, 0xb5, 0x2f, 0xfd, 0x20, 0, 1, 0, 0]

/-- The rest of a body behind the bytes of an empty content. -/
def behindEmpty (c : Coding) (bytes : Bytes) : Option Bytes :=
  if (emptyOf c).isPrefixOf bytes then some (bytes.drop (emptyOf c).length) else none

/-- Codings which put the bytes of an empty content in front. -/
def emptyCodecs : Codecs where
  gzip := behindEmpty .gzip
  zlib := behindEmpty .deflate
  deflate := fun _ => none
  brotli := behindEmpty .br
  zstd := behindEmpty .zstd

theorem inverts_emptyCodecs : Inverts emptyCodecs fun c bytes => emptyOf c ++ bytes := by
  have hdecoder : ∀ c bytes, decoder emptyCodecs bytes c = behindEmpty c bytes := by
    intro c bytes
    cases c with
    | gzip => rfl
    | deflate =>
      show (behindEmpty .deflate bytes).orElse (fun _ => none) = behindEmpty .deflate bytes
      cases behindEmpty .deflate bytes <;> rfl
    | br => rfl
    | zstd => rfl
  constructor
  · intro c bytes
    have hprefix : (emptyOf c).isPrefixOf (emptyOf c ++ bytes) = true :=
      List.isPrefixOf_iff_prefix.2 (List.prefix_append _ _)
    rw [hdecoder]
    unfold behindEmpty
    rw [if_pos hprefix, List.drop_left]
  · intro c c' bytes hne
    have hfirst : (emptyOf c).isPrefixOf (emptyOf c' ++ bytes) = false := by
      cases c <;> cases c' <;> first | rfl | exact absurd rfl hne
    rw [hdecoder]
    unfold behindEmpty
    rw [hfirst]
    rfl

def encodedBy (codings : Str) : HeaderMap := HeaderMap.fromIter [("Content-Encoding", codings)]

/-- A content in one coding, and in two. -/
theorem consistent_gzip :
    Consistent emptyCodecs (encodedBy "GZip ") (emptyOf .gzip ++ Str.toUtf8 "ok") (Str.toUtf8 "ok") ∧
      (Consistent emptyCodecs (encodedBy "br, gzip") (emptyOf .gzip ++ (emptyOf .br ++ Str.toUtf8 "ok"))
        (Str.toUtf8 "ok") ↔
        OneLayer (fun c bytes => emptyOf c ++ bytes) (encodedBy "br, gzip") [.br, .gzip] (Str.toUtf8 "ok")) := by
  constructor
  · have hlisted : listed (encodedBy "GZip ") = [Coding.gzip].map Coding.name := by decide +kernel
    have htried : tried (encodedBy "GZip ") = some .gzip := by decide +kernel
    refine (consistent_iff inverts_emptyCodecs hlisted (Str.toUtf8 "ok")).2 fun c hc => ?_
    rw [htried] at hc
    cases hc
    exact fun _ => rfl
  · exact consistent_iff inverts_emptyCodecs (by decide +kernel : listed (encodedBy "br, gzip") = [Coding.br, .gzip].map
      Coding.name) (Str.toUtf8 "ok")

/-- A body which was coded with brotli and then with gzip comes out coded with brotli, and without a field that says
so. -/
theorem not_consistent : ¬ ∀ (codecs : Codecs) (encode : Coding → Bytes → Bytes), Inverts codecs encode →
    ∀ headers codings content, listed headers = codings.map Coding.name →
      Consistent codecs headers (encodeAll encode codings content) content := by
  intro h
  have hcontent := (h emptyCodecs (fun c bytes => emptyOf c ++ bytes) inverts_emptyCodecs (encodedBy "br, gzip")
    [.br, .gzip] [] (by decide +kernel)).content
  exact absurd hcontent (by decide +kernel)

end ContentCodings

end Oproxy
