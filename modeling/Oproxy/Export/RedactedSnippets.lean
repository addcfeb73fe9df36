import Oproxy.Export.Replay
import Oproxy.Har.RedactedExport

/-!
# Redacted snippets (`export.rs`)

The headers and the body go through a redactor on their way to a snippet, and two exchanges which are the same but for
their secrets give the same there.  The URL is printed as it is: a snippet tells the values of its query.
-/

namespace Oproxy

namespace Export

open Har Redaction

/-! ### Exchanges which are the same but for secrets -/

/-- The URLs are the same but for values with sensitive names in the query, in front of the same fragment. -/
def UrlAlike (uri₁ uri₂ : Str) : Prop :=
  UriAlike (uri₁.takeWhile (· ≠ '#')) (uri₂.takeWhile (· ≠ '#')) ∧ uri₁.dropWhile (· ≠ '#') = uri₂.dropWhile (· ≠ '#')

structure RequestAlike (parseJson : Str → Option Json) (req₁ req₂ : RequestContext) : Prop where
  uri : UrlAlike req₁.uri req₂.uri
  headers : HeadersAlike req₁.headers req₂.headers
  body : req₁.body = req₂.body ∨
    ∃ text₁ text₂, req₁.body = Str.toUtf8 text₁ ∧ req₂.body = Str.toUtf8 text₂ ∧ BodyAlike parseJson text₁ text₂
  rest : req₂ = { req₁ with uri := req₂.uri, headers := req₂.headers, body := req₂.body }

section

variable (unprintable : Char → Bool) (parseJson : Str → Option Json)

/-- All exchanges which are the same as one but for secrets have the same snippets. -/
def Independent (ex : Exchange) : Prop :=
  ∀ req, RequestAlike parseJson ex.request req →
    exportAsCurl parseJson { ex with request := req } = exportAsCurl parseJson ex ∧
      exportAsFetch parseJson { ex with request := req } = exportAsFetch parseJson ex ∧
      exportAsPython unprintable parseJson { ex with request := req } = exportAsPython unprintable parseJson ex

end

/-- The query of a URL has a field with a sensitive name. -/
def QuerySecret (uri : Str) : Prop :=
  ∃ base query, Str.splitOnce '?' (uri.takeWhile (· ≠ '#')) = some (base, query) ∧
    ∃ part ∈ Str.split '&' query, (sensitiveField part).isSome = true

/-! ### Headers and bodies -/

variable {unprintable : Char → Bool} {parseJson : Str → Option Json} {req req₁ req₂ : RequestContext} {ex : Exchange}

theorem replayHeaders_alike {h₁ h₂ : HeaderMap} (h : HeadersAlike h₁ h₂) :
    replayHeaders h₁ true = replayHeaders h₂ true := by
  unfold replayHeaders
  rw [if_pos rfl, if_pos rfl, h.redactHeaders_eq]

private theorem isEmpty_toUtf8 (text : Str) : (Str.toUtf8 text).isEmpty = text.isEmpty := by
  rw [Bool.eq_iff_iff, List.isEmpty_iff, List.isEmpty_iff]
  constructor
  · intro h
    have hdecode := Utf8.decodeLossy_toUtf8 text
    rw [h] at hdecode
    exact hdecode.symm
  · intro h
    rw [h]
    rfl

private theorem isEmpty_alike {text₁ text₂ : Str} (h : BodyAlike parseJson text₁ text₂) :
    text₁.isEmpty = text₂.isEmpty := by
  have hnonempty : ∀ text : Str, text.trim ≠ [] → text.isEmpty = false := by
    intro text htext
    rw [List.isEmpty_eq_false_iff]
    intro hnil
    rw [hnil] at htext
    exact htext rfl
  cases h with
  | same heq => rw [heq]
  | json htext₁ htext₂ => rw [hnonempty _ htext₁, hnonempty _ htext₂]
  | form htext₁ htext₂ => rw [hnonempty _ htext₁, hnonempty _ htext₂]

/-- Bodies which are the same but for secrets are printed alike. -/
theorem replayBody_alike (h : RequestAlike parseJson req₁ req₂) :
    req₁.body.isEmpty = req₂.body.isEmpty ∧ replayBody parseJson req₁ true = replayBody parseJson req₂ true := by
  unfold replayBody
  rw [if_pos rfl, if_pos rfl]
  rcases h.body with hsame | ⟨text₁, text₂, hbody₁, hbody₂, halike⟩
  · unfold RequestContext.bodyText
    rw [hsame]
    exact ⟨rfl, rfl⟩
  · have htext₁ : req₁.bodyText = text₁ := by
      unfold RequestContext.bodyText
      rw [hbody₁, Utf8.decodeLossy_toUtf8]
    have htext₂ : req₂.bodyText = text₂ := by
      unfold RequestContext.bodyText
      rw [hbody₂, Utf8.decodeLossy_toUtf8]
    rw [hbody₁, hbody₂, isEmpty_toUtf8, isEmpty_toUtf8, htext₁, htext₂]
    exact ⟨isEmpty_alike halike, halike.redactBodyText_eq⟩

/-- Where the URLs are the same, the snippets are. -/
theorem snippets_eq (h : RequestAlike parseJson ex.request req) (huri : req.uri = ex.request.uri) :
    exportAsCurl parseJson { ex with request := req } = exportAsCurl parseJson ex ∧
      exportAsFetch parseJson { ex with request := req } = exportAsFetch parseJson ex ∧
      exportAsPython unprintable parseJson { ex with request := req } = exportAsPython unprintable parseJson ex := by
  obtain ⟨hempty, hbody⟩ := replayBody_alike h
  have hheaders := replayHeaders_alike h.headers
  have hmethod : req.method = ex.request.method := by rw [h.rest]
  refine ⟨?_, ?_, ?_⟩
  · unfold exportAsCurl exportAsCurlWithRedaction
    dsimp only
    rw [hmethod, huri, ← hheaders, ← hempty, ← hbody]
  · unfold exportAsFetch exportAsFetchWithRedaction
    dsimp only
    rw [hmethod, huri, ← hheaders, ← hempty, ← hbody]
  · unfold exportAsPython exportAsPythonWithRedaction
    dsimp only
    rw [hmethod, huri, ← hheaders, ← hempty, ← hbody]

/-! ### URLs -/

/-- A URL without secrets in its query is like no other. -/
theorem eq_of_urlAlike {uri₁ uri₂ : Str} (h : UrlAlike uri₁ uri₂) (hsecret : ¬ QuerySecret uri₁) : uri₂ = uri₁ := by
  obtain ⟨hfront, hfragment⟩ := h
  have hsame : uri₁.takeWhile (· ≠ '#') = uri₂.takeWhile (· ≠ '#') := by
    rcases hfront with hsame | ⟨base, query₁, query₂, hsplit₁, hsplit₂, halike⟩
    · exact hsame
    · have hplain : ∀ part ∈ Str.split '&' query₁, sensitiveField part = none := by
        intro part hpart
        by_contra hfield
        exact hsecret ⟨base, query₁, hsplit₁, part, hpart, Option.isSome_iff_ne_none.2 hfield⟩
      have hparts : Str.split '&' query₁ = Str.split '&' query₂ := by
        unfold FieldsAlike at halike
        generalize Str.split '&' query₁ = parts₁, Str.split '&' query₂ = parts₂ at hplain halike
        induction halike with
        | nil => rfl
        | @cons part₁ part₂ parts₁ parts₂ hpart _ ih =>
          rw [List.forall_mem_cons] at hplain
          rw [ih hplain.2]
          rcases hpart with rfl | ⟨key, value₁, value₂, hfield, -⟩
          · rfl
          · rw [hplain.1] at hfield
            cases hfield
      have hquery : query₁ = query₂ := by
        have hjoin := congrArg (List.intercalate ['&']) hparts
        unfold Str.split at hjoin
        rwa [List.intercalate_splitOn, List.intercalate_splitOn] at hjoin
      rw [(Str.splitOnce_eq_some.1 hsplit₁).1, (Str.splitOnce_eq_some.1 hsplit₂).1, hquery]
  rw [← List.takeWhile_append_dropWhile (p := fun c => decide (c ≠ '#')) (l := uri₁),
    ← List.takeWhile_append_dropWhile (p := fun c => decide (c ≠ '#')) (l := uri₂), hsame, hfragment]

private theorem intercalate_around (sep : Str) (pre post : List Str) :
    ∃ a b : Str, ∀ part : Str, sep.intercalate (pre ++ part :: post) = a ++ part ++ b := by
  induction pre with
  | nil =>
    cases post with
    | nil => exact ⟨[], [], fun part => by simp⟩
    | cons next post =>
      exact ⟨[], sep ++ sep.intercalate (next :: post), fun part => by simp [List.intercalate_cons_cons]⟩
  | cons first pre ih =>
    obtain ⟨a, b, h⟩ := ih
    refine ⟨first ++ sep ++ a, b, fun part => ?_⟩
    rw [List.cons_append, List.intercalate_cons_of_ne_nil (by simp), h]
    simp [List.append_assoc]

private theorem behind_mark (uri : Str) :
    (uri.dropWhile (· ≠ '#')).takeWhile (· ≠ '#') = [] ∧
      (uri.dropWhile (· ≠ '#')).dropWhile (· ≠ '#') = uri.dropWhile (· ≠ '#') := by
  have hdrop : (uri.dropWhile (· ≠ '#')).dropWhile (· ≠ '#') = uri.dropWhile (· ≠ '#') := List.dropWhile_idempotent _ _
  have hwhole := @List.takeWhile_append_dropWhile _ (fun c => decide (c ≠ '#')) (uri.dropWhile (· ≠ '#'))
  rw [hdrop] at hwhole
  exact ⟨List.append_left_eq_self.1 hwhole, hdrop⟩

/-- A field with a sensitive name is like one with a longer value. -/
private theorem partAlike_longer {part : Str} (h : (sensitiveField part).isSome = true) :
    PartAlike part (part ++ "x") := by
  obtain ⟨⟨key, value⟩, hfield⟩ := Option.isSome_iff_exists.1 h
  refine Or.inr ⟨key, value, value ++ "x", hfield, ?_⟩
  unfold sensitiveField at hfield ⊢
  rw [Option.filter_eq_some_iff] at hfield ⊢
  obtain ⟨hsplit, hkey⟩ := hfield
  obtain ⟨heq, hno⟩ := Str.splitOnce_eq_some.1 hsplit
  refine ⟨Str.splitOnce_eq_some.2 ⟨?_, hno⟩, hkey⟩
  rw [heq, List.append_assoc, List.cons_append]

private theorem fieldsAlike_refl (parts : List Str) : List.Forall₂ PartAlike parts parts := by
  induction parts with
  | nil => exact .nil
  | cons part parts ih => exact .cons (Or.inl rfl) ih

/-- A URL with a secret in its query is like a longer one. -/
theorem exists_urlAlike {uri : Str} (h : QuerySecret uri) :
    ∃ uri', UrlAlike uri uri' ∧ uri'.length = uri.length + 1 := by
  obtain ⟨base, query, hsplit, part, hpart, hfield⟩ := h
  obtain ⟨pre, post, hparts⟩ := List.append_of_mem hpart
  obtain ⟨a, b, haround⟩ := intercalate_around ['&'] pre post
  obtain ⟨hfront, hbase⟩ := Str.splitOnce_eq_some.1 hsplit
  have hquery : query = a ++ part ++ b := by
    rw [← haround, ← hparts]
    exact (List.intercalate_splitOn '&').symm
  let query' : Str := a ++ (part ++ "x") ++ b
  let fragment := uri.dropWhile (· ≠ '#')
  -- the longer value adds no separator and no fragment
  have hmark : ∀ c ∈ base ++ '?' :: query', decide (c ≠ '#') = true := by
    intro c hc
    have hfree : ∀ c ∈ base ++ '?' :: query, decide (c ≠ '#') = true := by
      rw [← hfront]
      exact fun c hc => @List.mem_takeWhile_imp _ (fun c => decide (c ≠ '#')) _ _ hc
    simp only [query', hquery, List.mem_append, List.mem_cons] at hc hfree
    rcases hc with hc | hc | ((hc | hc | hc) | hc)
    · exact hfree c (Or.inl hc)
    · exact hfree c (Or.inr (Or.inl hc))
    · exact hfree c (Or.inr (Or.inr (Or.inl (Or.inl hc))))
    · exact hfree c (Or.inr (Or.inr (Or.inl (Or.inr hc))))
    · rw [List.mem_singleton.1 hc]
      rfl
    · exact hfree c (Or.inr (Or.inr (Or.inr hc)))
  have hbehind := behind_mark uri
  have hfront' : ((base ++ '?' :: query') ++ fragment).takeWhile (· ≠ '#') = base ++ '?' :: query' := by
    rw [List.takeWhile_append_of_pos hmark, hbehind.1, List.append_nil]
  have hfragment' : ((base ++ '?' :: query') ++ fragment).dropWhile (· ≠ '#') = fragment := by
    rw [List.dropWhile_append_of_pos hmark, hbehind.2]
  refine ⟨(base ++ '?' :: query') ++ fragment, ⟨Or.inr ⟨base, query, query', hsplit, ?_, ?_⟩, hfragment'.symm⟩, ?_⟩
  · rw [hfront']
    exact Str.splitOnce_eq_some.2 ⟨rfl, hbase⟩
  · have hsep : ∀ part' ∈ pre ++ (part ++ "x") :: post, '&' ∉ part' := by
      have hfree : ∀ part' ∈ pre ++ part :: post, '&' ∉ part' := by
        rw [← hparts]
        exact fun part' h => Str.not_mem_of_mem_split h
      rw [List.forall_mem_append, List.forall_mem_cons] at hfree ⊢
      refine ⟨hfree.1, fun hmem => ?_, hfree.2.2⟩
      rcases List.mem_append.1 hmem with hmem | hmem
      · exact hfree.2.1 hmem
      · cases List.mem_singleton.1 hmem
    have hparts' : Str.split '&' query' = pre ++ (part ++ "x") :: post := by
      show Str.split '&' (a ++ (part ++ "x") ++ b) = _
      rw [← haround]
      exact List.splitOn_intercalate '&' hsep (by simp)
    unfold FieldsAlike
    rw [hparts, hparts']
    exact List.rel_append (fieldsAlike_refl pre) (.cons (partAlike_longer hfield) (fieldsAlike_refl post))
  · have huri : uri = (base ++ '?' :: query) ++ fragment := by
      rw [← hfront]
      exact (List.takeWhile_append_dropWhile).symm
    rw [huri]
    simp only [query', hquery, List.length_append, List.length_cons]
    have hone : ("x" : Str).length = 1 := rfl
    omega

/-! ### Snippets -/

/-- The length of each snippet tells that of the URL. -/
theorem length_uri_of_curl {uri' : Str}
    (h : exportAsCurl parseJson { ex with request := { ex.request with uri := uri' } } = exportAsCurl parseJson ex) :
    uri'.length = ex.request.uri.length := by
  unfold exportAsCurl exportAsCurlWithRedaction at h
  dsimp only at h
  rw [List.append_assoc, List.append_assoc, List.singleton_append, List.singleton_append] at h
  obtain ⟨a, b, haround⟩ := intercalate_around " \\\n  " []
    ((replayHeaders ex.request.headers true).map curlHeader ++
      (if ex.request.body.isEmpty then [] else [curlData (replayBody parseJson ex.request true)]))
  have hlength := congrArg List.length ((haround _).symm.trans (h.trans (haround _)))
  simp only [List.length_append] at hlength
  omega

theorem not_independent_of_querySecret (hsecret : QuerySecret ex.request.uri) :
    ¬ Independent unprintable parseJson ex := by
  intro h
  obtain ⟨uri', halike, hlength⟩ := exists_urlAlike hsecret
  have hsame : List.Forall₂ (fun e₁ e₂ : Str × Str => e₁.1 = e₂.1 ∧ (isSensitiveKey e₁.1 = true ∨ e₁.2 = e₂.2))
      ex.request.headers.entries ex.request.headers.entries :=
    List.forall₂_same.2 fun e _ => ⟨rfl, Or.inr rfl⟩
  have hcurl := (h { ex.request with uri := uri' } ⟨halike, hsame, Or.inl rfl, rfl⟩).1
  have hsameLength := length_uri_of_curl hcurl
  omega

theorem independent_iff (unprintable : Char → Bool) (parseJson : Str → Option Json) (ex : Exchange) :
    Independent unprintable parseJson ex ↔ ¬ QuerySecret ex.request.uri := by
  constructor
  · exact fun h hsecret => not_independent_of_querySecret hsecret h
  · intro hplain req h
    exact snippets_eq h (eq_of_urlAlike h.uri hplain)

private def tokenLogin : Exchange where
  id := "e1"
  timestamp := 0
  updatedAt := none
  request := { RequestContext.default with method := "GET", uri := "/login?token=alpha1", host := "example.com" }
  response := none
  metrics := none
  source := .proxy
  wsFrames := []
  events := []
  flow := []
  note := none
  tags := []
  inspectorData := none
  pausedAt := none
  connectionId := none
  streamId := none
  downstreamProtocol := none
  protocolContext := none

/-- The token stands in the URL of each snippet. -/
theorem not_independent : ¬ ∀ (unprintable : Char → Bool) (parseJson : Str → Option Json) (ex : Exchange),
    Independent unprintable parseJson ex := by
  intro h
  have hsecret : QuerySecret tokenLogin.request.uri := by
    refine ⟨"/login", "token=alpha1", by decide, "token=alpha1", ?_, by decide⟩
    have hparts : Str.split '&' "token=alpha1" = ["token=alpha1"] := by decide
    rw [hparts]
    exact List.mem_singleton_self _
  exact not_independent_of_querySecret hsecret (h (fun _ => false) (fun _ => none) tokenLogin)

end Export

end Oproxy
