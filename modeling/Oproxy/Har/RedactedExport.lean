import Oproxy.Har.Echoes
import Oproxy.Har.RoundTrip

/-!
# Redacted export

An exchange as it is exported without its secrets, and two exchanges which are the same but for the values which the
request carries under sensitive names and for the places where the response repeats them.  The URL of the request and
the headers of the response are exported as they are, so that the entries can be the same only where these are
(`redactedEntry_eq`); what the body of the response repeats is replaced where it can be told from the rest of the body.
-/

namespace Oproxy

namespace Har

open Redaction Template

/-! ### The export -/

def stripHarHeaders (headers : HeaderMap) : HeaderMap := headers.retain fun name _ => !shouldSkipHarHeader name

def redactExchangeForExport (parseJson : Str → Option Json) (ex : Exchange) : Exchange :=
  let known := sensitiveValues parseJson ex.request.headers ex.request.bodyText
  let request := { ex.request with headers := stripHarHeaders (redactHeaders ex.request.headers) }
  { ex with
    request := request.setBodyText (redactBodyText parseJson request.bodyText)
    response := ex.response.map fun response =>
      let stripped := { response with headers := stripHarHeaders (redactHeaders response.headers) }
      stripped.setBodyText (redactKnownValues (redactBodyText parseJson stripped.bodyText) known) }

/-- The entry of an exchange in a redacted archive. -/
def redactedEntry (world : HarWorld) (parseJson : Str → Option Json) (ex : Exchange) : HarEntry :=
  exchangeToHarEntry world (redactExchangeForExport parseJson ex)

/-! ### Exchanges which are the same but for secrets -/

def HeadersAlike (h₁ h₂ : HeaderMap) : Prop :=
  List.Forall₂ (fun e₁ e₂ => e₁.1 = e₂.1 ∧ (isSensitiveKey e₁.1 = true ∨ e₁.2 = e₂.2)) h₁.entries h₂.entries

mutual

/-- The values are the same, members with sensitive keys aside. -/
def JsonAlike : Json → Json → Prop
  | .null, .null => True
  | .bool b, .bool b' => b = b'
  | .int n, .int n' => n = n'
  | .float lexeme, .float lexeme' => lexeme = lexeme'
  | .str s, .str s' => s = s'
  | .arr items, .arr items' => ItemsAlike items items'
  | .obj members, .obj members' => MembersAlike members members'
  | _, _ => False

def ItemsAlike : List Json → List Json → Prop
  | [], [] => True
  | v :: items, v' :: items' => JsonAlike v v' ∧ ItemsAlike items items'
  | _, _ => False

def MembersAlike : List (Str × Json) → List (Str × Json) → Prop
  | [], [] => True
  | (key, v) :: members, (key', v') :: members' =>
    key = key' ∧ (isSensitiveKey key = true ∨ JsonAlike v v') ∧ MembersAlike members members'
  | _, _ => False

end

/-- The parts are the same, or fields with the same sensitive name. -/
def PartAlike (part₁ part₂ : Str) : Prop :=
  part₁ = part₂ ∨ ∃ key value₁ value₂, sensitiveField part₁ = some (key, value₁) ∧
    sensitiveField part₂ = some (key, value₂)

def FieldsAlike (sep : Char) (text₁ text₂ : Str) : Prop :=
  List.Forall₂ PartAlike (Str.split sep text₁) (Str.split sep text₂)

/-- The bodies are the same, or the same but for values with sensitive names in a JSON value or in form fields. -/
inductive BodyAlike (parseJson : Str → Option Json) (body₁ body₂ : Str) : Prop where
  | same (heq : body₁ = body₂)
  | json {v₁ v₂ : Json} (htext₁ : body₁.trim ≠ []) (htext₂ : body₂.trim ≠ []) (hparse₁ : parseJson body₁ = some v₁)
      (hparse₂ : parseJson body₂ = some v₂) (halike : JsonAlike v₁ v₂)
  | form (htext₁ : body₁.trim ≠ []) (htext₂ : body₂.trim ≠ []) (hparse₁ : parseJson body₁ = none)
      (hparse₂ : parseJson body₂ = none) (hsep : separator body₁ = separator body₂)
      (halike : FieldsAlike (separator body₁) body₁ body₂)

def UriAlike (uri₁ uri₂ : Str) : Prop :=
  uri₁ = uri₂ ∨ ∃ base query₁ query₂, Str.splitOnce '?' uri₁ = some (base, query₁) ∧
    Str.splitOnce '?' uri₂ = some (base, query₂) ∧ FieldsAlike '&' query₁ query₂

/-- The values which a request carries under sensitive names in its headers, its body and its query. -/
def carriedValues (parseJson : Str → Option Json) (request : RequestContext) : List Str :=
  carriedHeaderValues request.headers ++ carriedBodyValues parseJson request.bodyText ++
    ((Str.splitOnce '?' request.uri).map fun parts => carriedFieldValues '&' parts.2).getD []

variable {ι : Type}

/-- The texts are the same but for the values which they repeat. -/
def EchoAlike (σ₁ σ₂ : ι → Str) (text₁ text₂ : Str) : Prop :=
  ∃ t : Template ι, text₁ = render σ₁ t ∧ text₂ = render σ₂ t

structure ResponseAlike (σ₁ σ₂ : ι → Str) (res₁ res₂ : ResponseContext) : Prop where
  headers : List.Forall₂ (fun e₁ e₂ => e₁.1 = e₂.1 ∧ EchoAlike σ₁ σ₂ e₁.2 e₂.2) res₁.headers.entries
    res₂.headers.entries
  body : EchoAlike σ₁ σ₂ res₁.bodyText res₂.bodyText
  rest : res₂ = { res₁ with headers := res₂.headers, body := res₂.body }

/-- The exchanges are the same but for values under sensitive names and for what the response repeats of them. -/
structure SameButSecrets (parseJson : Str → Option Json) (σ₁ σ₂ : ι → Str) (ex₁ ex₂ : Exchange) : Prop where
  carried₁ : ∀ i, σ₁ i ∈ carriedValues parseJson ex₁.request
  carried₂ : ∀ i, σ₂ i ∈ carriedValues parseJson ex₂.request
  uri : UriAlike ex₁.request.uri ex₂.request.uri
  headers : HeadersAlike ex₁.request.headers ex₂.request.headers
  body : BodyAlike parseJson ex₁.request.bodyText ex₂.request.bodyText
  response : Option.Rel (ResponseAlike σ₁ σ₂) ex₁.response ex₂.response
  rest : ex₂ =
    { ex₁ with
      request :=
        { ex₁.request with
          uri := ex₂.request.uri, headers := ex₂.request.headers, body := ex₂.request.body }
      response := ex₂.response }

/-! ### Where the entries are the same -/

/-- The headers which are exported with their values. -/
def visibleHeaders (headers : HeaderMap) : List (Str × Str) :=
  headers.entries.filter fun e => !shouldSkipHarHeader e.1 && !isSensitiveKey e.1

/-- What the export leaves as it is does not tell the exchanges apart. -/
structure SameVisible (ex₁ ex₂ : Exchange) : Prop where
  uri : ex₁.request.uri = ex₂.request.uri
  headers : Option.Rel (fun res₁ res₂ => visibleHeaders res₁.headers = visibleHeaders res₂.headers) ex₁.response
    ex₂.response

/-- The values which the request carries in its headers and its body, as they are looked for in the response. -/
def LookedFor (parseJson : Str → Option Json) (ex : Exchange) : Str → Prop :=
  Collected parseJson ex.request.headers ex.request.bodyText

/-- The places in which the body of a response repeats values that are looked for can be told from the rest of it: each
of the values, when it is its turn, stands only in such places, those before it in the order being replaced. -/
structure EchoesTold (parseJson : Str → Option Json) (σ : ι → Str) (ex : Exchange) (res : ResponseContext)
    (t : Template ι) : Prop where
  shows : ShowsBody parseJson res.bodyText (render σ t)
  lookedFor : ∀ i ∈ t.holes, LookedFor parseJson ex (σ i)
  apart : ∀ v, LookedFor parseJson ex v → ∀ before : List Str, (∀ w, w ∈ before ↔ LookedFor parseJson ex w ∧ w < v) →
    OnlyInHoles v (masked before redacted σ) t

/-- Both bodies repeat values at the same places of one text.  A place has the value of the first body and that of the
second. -/
def SameEchoes (parseJson : Str → Option Json) (ex₁ ex₂ : Exchange) : Prop :=
  Option.Rel (fun res₁ res₂ => ∃ t : Template (Str × Str),
    EchoesTold parseJson Prod.fst ex₁ res₁ t ∧ EchoesTold parseJson Prod.snd ex₂ res₂ t) ex₁.response ex₂.response

/-! ### The request -/

theorem entries_redactHeaders (headers : HeaderMap) :
    (redactHeaders headers).entries =
      headers.entries.map fun e => (e.1, if isSensitiveKey e.1 then redacted else e.2) := by
  unfold redactHeaders
  rw [HeaderMap.entries_fromIter, List.map_map]
  apply List.map_congr_left
  intro e he
  exact Prod.ext (headers.lower e he) rfl

theorem HeadersAlike.redactHeaders_eq {h₁ h₂ : HeaderMap} (h : HeadersAlike h₁ h₂) :
    redactHeaders h₁ = redactHeaders h₂ := by
  apply HeaderMap.ext_entries
  rw [entries_redactHeaders, entries_redactHeaders]
  unfold HeadersAlike at h
  generalize h₁.entries = entries₁, h₂.entries = entries₂ at h ⊢
  induction h with
  | nil => rfl
  | @cons e₁ e₂ l₁ l₂ hhead _ ih =>
    obtain ⟨hname, hvalue⟩ := hhead
    rw [List.map_cons, List.map_cons, ih]
    congr 1
    refine Prod.ext hname ?_
    by_cases hkey : isSensitiveKey e₁.1 = true
    · simp [← hname, hkey]
    · simp [← hname, hkey, hvalue.resolve_left hkey]

mutual

private theorem redactJsonValue_alike (v₁ v₂ : Json) (h : JsonAlike v₁ v₂) :
    redactJsonValue v₁ = redactJsonValue v₂ := by
  cases v₁ with
  | null => cases v₂ <;> first | exact h.elim | rfl
  | bool b => cases v₂ <;> first | exact h.elim | exact congrArg (fun b => redactJsonValue (.bool b)) h
  | int n => cases v₂ <;> first | exact h.elim | exact congrArg (fun n => redactJsonValue (.int n)) h
  | float lexeme => cases v₂ <;> first | exact h.elim | exact congrArg (fun l => redactJsonValue (.float l)) h
  | str s => cases v₂ <;> first | exact h.elim | exact congrArg (fun s => redactJsonValue (.str s)) h
  | arr items =>
    cases v₂ <;> first | exact h.elim | skip
    rename_i items'
    rw [redactJsonValue, redactJsonValue, redactItems_alike items items' h]
  | obj members =>
    cases v₂ <;> first | exact h.elim | skip
    rename_i members'
    rw [redactJsonValue, redactJsonValue, redactMembers_alike members members' h]

private theorem redactItems_alike (items₁ items₂ : List Json) (h : ItemsAlike items₁ items₂) :
    redactItems items₁ = redactItems items₂ := by
  cases items₁ with
  | nil => cases items₂ <;> first | exact h.elim | rfl
  | cons v₁ items₁ =>
    cases items₂ with
    | nil => exact h.elim
    | cons v₂ items₂ =>
      rw [redactItems, redactItems, redactJsonValue_alike v₁ v₂ h.1, redactItems_alike items₁ items₂ h.2]

private theorem redactMembers_alike (members₁ members₂ : List (Str × Json)) (h : MembersAlike members₁ members₂) :
    redactMembers members₁ = redactMembers members₂ := by
  cases members₁ with
  | nil => cases members₂ <;> first | exact h.elim | rfl
  | cons m₁ members₁ =>
    cases members₂ with
    | nil => exact h.elim
    | cons m₂ members₂ =>
      obtain ⟨key, v₁⟩ := m₁
      obtain ⟨key', v₂⟩ := m₂
      obtain ⟨hkey, hvalue, hrest⟩ := h
      subst hkey
      rw [redactMembers, redactMembers, redactMembers_alike members₁ members₂ hrest]
      by_cases hhidden : isSensitiveKey key = true
      · simp [hhidden]
      · rw [redactJsonValue_alike v₁ v₂ (hvalue.resolve_left hhidden)]

end

private theorem map_redactPart_alike {sep : Char} {text₁ text₂ : Str} (h : FieldsAlike sep text₁ text₂) :
    (Str.split sep text₁).map redactPart = (Str.split sep text₂).map redactPart := by
  unfold FieldsAlike at h
  generalize Str.split sep text₁ = parts₁, Str.split sep text₂ = parts₂ at h ⊢
  induction h with
  | nil => rfl
  | @cons part₁ part₂ parts₁ parts₂ hpart _ ih =>
    have heq : redactPart part₁ = redactPart part₂ := by
      rcases hpart with rfl | ⟨key, value₁, value₂, hfield₁, hfield₂⟩
      · rfl
      · rw [redactPart_eq, redactPart_eq]
        unfold shownPart
        rw [hfield₁, hfield₂]
    rw [List.map_cons, List.map_cons, ih, heq]

theorem BodyAlike.redactBodyText_eq {parseJson : Str → Option Json} {body₁ body₂ : Str}
    (h : BodyAlike parseJson body₁ body₂) : redactBodyText parseJson body₁ = redactBodyText parseJson body₂ := by
  cases h with
  | same heq => rw [heq]
  | json htext₁ htext₂ hparse₁ hparse₂ halike =>
    unfold redactBodyText
    rw [if_neg fun hempty => htext₁ (List.isEmpty_iff.1 hempty),
      if_neg fun hempty => htext₂ (List.isEmpty_iff.1 hempty), hparse₁, hparse₂]
    exact congrArg (Json.pretty 0) (redactJsonValue_alike _ _ halike)
  | form htext₁ htext₂ hparse₁ hparse₂ hsep halike =>
    unfold redactBodyText
    rw [if_neg fun hempty => htext₁ (List.isEmpty_iff.1 hempty),
      if_neg fun hempty => htext₂ (List.isEmpty_iff.1 hempty), hparse₁, hparse₂]
    unfold redactUrlencodedLike
    rw [← hsep, map_redactPart_alike halike]

/-! ### The response -/

private theorem entries_stripped (headers : HeaderMap) :
    (stripHarHeaders (redactHeaders headers)).entries =
      (headers.entries.map fun e => (e.1, if isSensitiveKey e.1 then redacted else e.2)).filter
        fun e => !shouldSkipHarHeader e.1 := by
  rw [← entries_redactHeaders]
  rfl

/-- The headers with their values are among those which are exported. -/
private theorem visibleHeaders_eq (headers : HeaderMap) :
    (stripHarHeaders (redactHeaders headers)).entries.filter
      (fun e => !shouldSkipHarHeader e.1 && !isSensitiveKey e.1) =
      visibleHeaders headers := by
  rw [entries_stripped]
  unfold visibleHeaders
  induction headers.entries with
  | nil => rfl
  | cons e entries ih =>
    by_cases hskip : shouldSkipHarHeader e.1 = true
    · simpa [hskip] using ih
    · by_cases hkey : isSensitiveKey e.1 = true
      · simpa [hskip, hkey] using ih
      · simpa [hskip, hkey] using ih

/-- Two responses with the same names of headers are exported with the same headers where the values which are not
hidden are the same. -/
private theorem stripped_eq {h₁ h₂ : HeaderMap}
    (hnames : List.Forall₂ (fun e₁ e₂ : Str × Str => e₁.1 = e₂.1) h₁.entries h₂.entries)
    (hvisible : visibleHeaders h₁ = visibleHeaders h₂) :
    stripHarHeaders (redactHeaders h₁) = stripHarHeaders (redactHeaders h₂) := by
  apply HeaderMap.ext_entries
  rw [entries_stripped, entries_stripped]
  unfold visibleHeaders at hvisible
  generalize h₁.entries = entries₁, h₂.entries = entries₂ at hnames hvisible ⊢
  induction hnames with
  | nil => rfl
  | @cons e₁ e₂ l₁ l₂ hname _ ih =>
    obtain ⟨name, value₁⟩ := e₁
    obtain ⟨name', value₂⟩ := e₂
    obtain rfl : name = name' := hname
    by_cases hskip : shouldSkipHarHeader name = true
    · have hrest := ih (by simpa [hskip] using hvisible)
      simpa [hskip] using hrest
    · by_cases hkey : isSensitiveKey name = true
      · have hrest := ih (by simpa [hskip, hkey] using hvisible)
        simpa [hskip, hkey] using hrest
      · obtain ⟨hvalue, htail⟩ : value₁ = value₂ ∧ _ := by simpa [hskip, hkey] using hvisible
        have hrest := ih htail
        simpa [hskip, hkey, hvalue] using hrest

/-- The response as it is exported. -/
private def exportedResponse (parseJson : Str → Option Json) (ex : Exchange) (res : ResponseContext) :
    ResponseContext :=
  { res with
    headers := stripHarHeaders (redactHeaders res.headers)
    body := Str.toUtf8 (redactKnownValues (redactBodyText parseJson res.bodyText)
      (sensitiveValues parseJson ex.request.headers ex.request.bodyText)) }

/-- Where the echoes are told, the mark is in all of them. -/
theorem EchoesTold.redactKnownValues_eq {parseJson : Str → Option Json} {σ : ι → Str} {ex : Exchange}
    {res : ResponseContext} {t : Template ι} (h : EchoesTold parseJson σ ex res t) :
    redactKnownValues (redactBodyText parseJson res.bodyText)
      (sensitiveValues parseJson ex.request.headers ex.request.bodyText) = render (fun _ => redacted) t := by
  refine h.shows.redactKnownValues_eq h.lookedFor fun done v left heq => ?_
  have hv : v ∈ sensitiveValues parseJson ex.request.headers ex.request.bodyText :=
    heq ▸ List.mem_append_right _ List.mem_cons_self
  exact h.apart v (mem_sensitiveValues.1 hv) done (mem_done_iff heq)

private theorem exportedResponse_eq {parseJson : Str → Option Json} {σ₁ σ₂ : ι → Str} {ex₁ ex₂ : Exchange}
    {res₁ res₂ : ResponseContext} (halike : ResponseAlike σ₁ σ₂ res₁ res₂)
    (hvisible : visibleHeaders res₁.headers = visibleHeaders res₂.headers) {t : Template (Str × Str)}
    (hechoes₁ : EchoesTold parseJson Prod.fst ex₁ res₁ t) (hechoes₂ : EchoesTold parseJson Prod.snd ex₂ res₂ t) :
    exportedResponse parseJson ex₁ res₁ = exportedResponse parseJson ex₂ res₂ := by
  have hheaders := stripped_eq (halike.headers.imp fun _ _ h => h.1) hvisible
  unfold exportedResponse
  rw [hheaders, hechoes₁.redactKnownValues_eq, hechoes₂.redactKnownValues_eq]
  exact (congrArg (fun res : ResponseContext =>
    { res with
      headers := stripHarHeaders (redactHeaders res₂.headers)
      body := Str.toUtf8 (render (fun _ : Str × Str => redacted) t) }) halike.rest).symm

/-! ### The whole exchange -/

private theorem redactExchangeForExport_eq (parseJson : Str → Option Json) (ex : Exchange) :
    redactExchangeForExport parseJson ex =
      { ex with
        request :=
          { ex.request with
            headers := stripHarHeaders (redactHeaders ex.request.headers)
            body := Str.toUtf8 (redactBodyText parseJson ex.request.bodyText) }
        response := ex.response.map (exportedResponse parseJson ex) } := rfl

/-- The entry has the URL and the headers of the response which are not hidden. -/
private theorem sameVisible_of_entry {world : HarWorld} {parseJson : Str → Option Json} {σ₁ σ₂ : ι → Str}
    {ex₁ ex₂ : Exchange} (h : SameButSecrets parseJson σ₁ σ₂ ex₁ ex₂)
    (heq : redactedEntry world parseJson ex₁ = redactedEntry world parseJson ex₂) : SameVisible ex₁ ex₂ := by
  refine ⟨congrArg (fun entry => entry.request.url) heq, ?_⟩
  have hheaders := congrArg (fun entry => entry.response.headers) heq
  have hspec : ∀ (ex : Exchange) (res : ResponseContext), ex.response = some res →
      (redactedEntry world parseJson ex).response.headers =
        harHeaders (stripHarHeaders (redactHeaders res.headers)) := by
    intro ex res hres
    unfold redactedEntry exchangeToHarEntry exchangeResponseToHar
    rw [redactExchangeForExport_eq, hres]
    cases ex.metrics <;> rfl
  have hresponse := h.response
  cases hres₁ : ex₁.response with
  | none =>
    cases hres₂ : ex₂.response with
    | none => exact .none
    | some res₂ =>
      rw [hres₁, hres₂] at hresponse
      cases hresponse
  | some res₁ =>
    cases hres₂ : ex₂.response with
    | none =>
      rw [hres₁, hres₂] at hresponse
      cases hresponse
    | some res₂ =>
      refine .some ?_
      rw [hspec ex₁ res₁ hres₁, hspec ex₂ res₂ hres₂] at hheaders
      have hpairs := congrArg (List.map fun nv : HarNameValue => (nv.name, nv.value)) hheaders
      unfold harHeaders at hpairs
      rw [List.map_map, List.map_map] at hpairs
      have hid : ((fun nv : HarNameValue => (nv.name, nv.value)) ∘ fun e : Str × Str => ⟨e.1, e.2⟩) = id := rfl
      rw [hid, List.map_id, List.map_id] at hpairs
      have hkept := congrArg (List.filter fun e : Str × Str => !shouldSkipHarHeader e.1 && !isSensitiveKey e.1) hpairs
      rw [List.filter_filter, List.filter_filter] at hkept
      simp only [Bool.and_comm, Bool.and_self_left] at hkept
      rw [← visibleHeaders_eq, ← visibleHeaders_eq]
      simpa only [Bool.and_comm] using hkept

private theorem redactExchangeForExport_same {parseJson : Str → Option Json} {σ₁ σ₂ : ι → Str} {ex₁ ex₂ : Exchange}
    (h : SameButSecrets parseJson σ₁ σ₂ ex₁ ex₂) (hvisible : SameVisible ex₁ ex₂)
    (hechoes : SameEchoes parseJson ex₁ ex₂) :
    redactExchangeForExport parseJson ex₁ = redactExchangeForExport parseJson ex₂ := by
  have hresponse : ex₁.response.map (exportedResponse parseJson ex₁) =
      ex₂.response.map (exportedResponse parseJson ex₂) := by
    have halike := h.response
    have hheaders := hvisible.headers
    unfold SameEchoes at hechoes
    cases hres₁ : ex₁.response with
    | none =>
      cases hres₂ : ex₂.response with
      | none => rfl
      | some res₂ =>
        rw [hres₁, hres₂] at halike
        cases halike
    | some res₁ =>
      cases hres₂ : ex₂.response with
      | none =>
        rw [hres₁, hres₂] at halike
        cases halike
      | some res₂ =>
        rw [hres₁, hres₂] at halike hheaders hechoes
        cases halike with
        | some halike =>
          cases hheaders with
          | some hheaders =>
            cases hechoes with
            | some hechoes =>
              obtain ⟨t, hechoes₁, hechoes₂⟩ := hechoes
              exact congrArg some (exportedResponse_eq halike hheaders hechoes₁ hechoes₂)
  rw [redactExchangeForExport_eq, redactExchangeForExport_eq, hresponse, h.headers.redactHeaders_eq,
    h.body.redactBodyText_eq]
  -- the rest of the second exchange is the rest of the first
  have hrest := congrArg (fun ex : Exchange =>
    { ex with
      request :=
        { ex.request with
          headers := stripHarHeaders (redactHeaders ex₂.request.headers)
          body := Str.toUtf8 (redactBodyText parseJson ex₂.request.bodyText) }
      response := ex₂.response.map (exportedResponse parseJson ex₂) }) h.rest
  rw [← hvisible.uri] at hrest
  exact hrest.symm

/-- Exchanges which are the same but for their secrets have the same redacted entry only where their URLs and the
headers of their responses do not tell them apart; and they have it there, if what the bodies of the responses repeat
can be told from the rest of the bodies. -/
theorem redactedEntry_eq (world : HarWorld) {parseJson : Str → Option Json} {σ₁ σ₂ : ι → Str} {ex₁ ex₂ : Exchange}
    (h : SameButSecrets parseJson σ₁ σ₂ ex₁ ex₂) :
    (redactedEntry world parseJson ex₁ = redactedEntry world parseJson ex₂ → SameVisible ex₁ ex₂) ∧
      (SameVisible ex₁ ex₂ → SameEchoes parseJson ex₁ ex₂ →
        redactedEntry world parseJson ex₁ = redactedEntry world parseJson ex₂) :=
  ⟨sameVisible_of_entry h, fun hvisible hechoes =>
    congrArg (exchangeToHarEntry world) (redactExchangeForExport_same h hvisible hechoes)⟩

/-! ### A token in a header and in a URL -/

private def epoch : HarWorld where
  toRfc3339 _ := "1970-01-01T00:00:00+00:00"
  parseRfc3339 _ := some 0
  now := 0
  newId := "new"

private def loginResponse (body : Str) : ResponseContext :=
  { ResponseContext.default with status := 200, body := body.toUtf8 }

private def loginExchange (uri : Str) (headers : HeaderMap) (body : Str) : Exchange where
  id := "e1"
  timestamp := 0
  updatedAt := none
  request := { RequestContext.default with method := "GET", uri := uri, host := "example.com", headers := headers }
  response := some (loginResponse body)
  metrics := none
  source := .proxy
  wsFrames := []
  events := []
  flow := []
  note := none
  tags := []
  inspectorData := none
  pausedAt := none
  connectionId := none
  streamId := none
  downstreamProtocol := none
  protocolContext := none

/-- The request has a field with white space around its `=`, and the response repeats the value. -/
private def echoed (password : Str) : Exchange :=
  let ex := loginExchange "/login" HeaderMap.new (("logged in as " : Str) ++ password)
  { ex with request := { ex.request with body := Str.toUtf8 (("password = " : Str) ++ password) } }

private theorem loginResponse_bodyText (body : Str) : (loginResponse body).bodyText = body :=
  Utf8.decodeLossy_toUtf8 body

private theorem echoed_bodyText (password : Str) :
    (echoed password).request.bodyText = ("password = " : Str) ++ password :=
  Utf8.decodeLossy_toUtf8 _

/-- A password which does not break its line, and of which nothing is in the rest of the response. -/
private structure PlainPassword (password : Str) : Prop where
  literal : shouldRedactLiteral password = true
  trimmed : Str.trim (' ' :: password) = password
  requestLine : Str.split (separator (("password = " : Str) ++ password)) (("password = " : Str) ++ password) =
    [("password = " : Str) ++ password]
  requestField : sensitiveField (("password = " : Str) ++ password) =
    some (("password " : Str), ' ' :: password)
  requestText : Str.trim (("password = " : Str) ++ password) ≠ []
  responseLine : Str.split (separator (("logged in as " : Str) ++ password)) (("logged in as " : Str) ++ password) =
    [("logged in as " : Str) ++ password]
  responseField : sensitiveField (("logged in as " : Str) ++ password) = none
  responseText : Str.trim (("logged in as " : Str) ++ password) ≠ []
  start : ∀ c ∈ ("logged in as " : Str), password.head? ≠ some c

private theorem carriedBodyValues_echoed {password : Str} (h : PlainPassword password) :
    carriedBodyValues (fun _ => none) (echoed password).request.bodyText = [' ' :: password] := by
  rw [echoed_bodyText]
  unfold carriedBodyValues carriedFieldValues
  rw [if_neg fun hempty => h.requestText (List.isEmpty_iff.1 hempty)]
  dsimp only
  rw [h.requestLine, List.filterMap_cons, h.requestField]
  rfl

private theorem carriedValues_echoed {password : Str} (h : PlainPassword password) :
    carriedValues (fun _ => none) (echoed password).request = [' ' :: password] := by
  have hheaders : carriedHeaderValues (echoed password).request.headers = [] := rfl
  have hquery : Str.splitOnce '?' (echoed password).request.uri = none := by
    show Str.splitOnce '?' "/login" = none
    decide
  unfold carriedValues
  rw [hheaders, hquery, carriedBodyValues_echoed h]
  rfl

private theorem echoed_same {password₁ password₂ : Str} (h₁ : PlainPassword password₁) (h₂ : PlainPassword password₂)
    (hseparator : separator (("password = " : Str) ++ password₁) = separator (("password = " : Str) ++ password₂)) :
    SameButSecrets (fun _ => none) (fun _ : Unit => ' ' :: password₁) (fun _ => ' ' :: password₂) (echoed password₁)
      (echoed password₂) where
  carried₁ _ := by
    rw [carriedValues_echoed h₁]
    exact List.mem_singleton_self _
  carried₂ _ := by
    rw [carriedValues_echoed h₂]
    exact List.mem_singleton_self _
  uri := Or.inl rfl
  headers := .nil
  body := by
    rw [echoed_bodyText, echoed_bodyText]
    refine .form h₁.requestText h₂.requestText rfl rfl hseparator ?_
    unfold FieldsAlike
    rw [h₁.requestLine, hseparator, h₂.requestLine]
    exact .cons (Or.inr ⟨_, _, _, h₁.requestField, h₂.requestField⟩) .nil
  response := .some
    { headers := .nil
      body := by
        refine ⟨ofText "logged in as" ++ [.hole ()], ?_, ?_⟩
        · rw [loginResponse_bodyText, render_append, render_ofText, render_hole, render_nil, List.append_nil]
          rfl
        · rw [loginResponse_bodyText, render_append, render_ofText, render_hole, render_nil, List.append_nil]
          rfl
      rest := rfl }
  rest := rfl

/-- What is looked for in the response is the password without its white space. -/
private theorem lookedFor_echoed {password v : Str} (hplain : PlainPassword password) :
    LookedFor (fun _ => none) (echoed password) v ↔ v = password := by
  have hcarried : carriedHeaderValues (echoed password).request.headers ++
      carriedBodyValues (fun _ => none) (echoed password).request.bodyText = [' ' :: password] := by
    rw [carriedBodyValues_echoed hplain]
    rfl
  unfold LookedFor Collected
  rw [hcarried]
  constructor
  · rintro ⟨-, carried, hmem, htrim⟩
    rw [List.mem_singleton.1 hmem, hplain.trimmed] at htrim
    exact htrim.symm
  · rintro rfl
    exact ⟨hplain.literal, _, List.mem_singleton_self _, hplain.trimmed⟩

private theorem onlyInHoles_echoed {ι : Type} {σ : ι → Str} {i : ι} {text : Str}
    (hstart : ∀ c ∈ text, (σ i).head? ≠ some c) (hne : σ i ≠ []) : OnlyInHoles (σ i) σ (ofText text ++ [.hole i]) := by
  induction text with
  | nil => exact ⟨Or.inl rfl, trivial⟩
  | cons c text ih =>
    refine ⟨?_, ih fun d hd => hstart d (List.mem_cons_of_mem _ hd)⟩
    by_contra hstarts
    obtain ⟨rest, hrest⟩ := Str.startsWith_iff.1 (Bool.not_eq_false _ ▸ hstarts)
    cases hvalue : σ i with
    | nil => exact hne hvalue
    | cons d value =>
      rw [hvalue] at hrest
      injection hrest with hcd
      exact hstart c List.mem_cons_self (by rw [hvalue, hcd]; rfl)

/-- The body is one line, which is no field, and the password stands in it once. -/
private theorem echoed_told {password : Str} (h : PlainPassword password) {σ : Str × Str → Str} {i : Str × Str}
    (hi : σ i = password) :
    EchoesTold (fun _ => none) σ (echoed password) (loginResponse (("logged in as " : Str) ++ password))
      (ofText "logged in as " ++ [.hole i]) := by
  refine ⟨?_, fun j hj => ?_, fun v hv before hbefore => ?_⟩
  · have hshown : shownPart (("logged in as " : Str) ++ password) = ("logged in as " : Str) ++ password := by
      unfold shownPart
      rw [h.responseField]
    have hshows := @ShowsBody.form (fun _ => none) _ h.responseText rfl
    rw [h.responseLine, List.map_singleton, hshown, List.intercalate_singleton] at hshows
    rw [loginResponse_bodyText, render_append, render_ofText, render_hole, render_nil, List.append_nil, hi]
    exact hshows
  · rw [holes_append, holes_ofText, List.nil_append] at hj
    rw [List.mem_singleton.1 hj, hi]
    exact (lookedFor_echoed h).2 rfl
  · obtain rfl := (lookedFor_echoed h).1 hv
    have hnone : before = [] := by
      apply List.eq_nil_iff_forall_not_mem.2
      intro w hw
      obtain ⟨hlooked, hlt⟩ := (hbefore w).1 hw
      rw [(lookedFor_echoed h).1 hlooked] at hlt
      exact lt_irrefl _ hlt
    rw [hnone, masked_nil, ← hi]
    refine onlyInHoles_echoed (hi ▸ h.start) ?_
    rw [hi]
    exact ((lookedFor_echoed h).2 rfl : Collected _ _ _ _).ne_nil

private theorem plain_hunter2 : PlainPassword "hunter2" := by constructor <;> decide +kernel

private theorem plain_hunter3x : PlainPassword "hunter3x" := by constructor <;> decide +kernel

theorem redactedEntry_echoed :
    (redactedEntry epoch (fun _ => none) (echoed "hunter2") = redactedEntry epoch (fun _ => none) (echoed "hunter3x") →
        SameVisible (echoed "hunter2") (echoed "hunter3x")) ∧
      redactedEntry epoch (fun _ => none) (echoed "hunter2") =
        redactedEntry epoch (fun _ => none) (echoed "hunter3x") := by
  obtain ⟨hvisible, hsame⟩ := redactedEntry_eq epoch (echoed_same plain_hunter2 plain_hunter3x (by decide +kernel))
  refine ⟨hvisible, hsame ⟨rfl, .some rfl⟩ (.some ⟨ofText "logged in as " ++ [.hole ("hunter2", "hunter3x")], ?_, ?_⟩)⟩
  · exact echoed_told plain_hunter2 rfl
  · exact echoed_told plain_hunter3x rfl

/-- The texts of an exchange. -/
def textsOf (ex : Exchange) : List Str :=
  [ex.id, ex.request.method, ex.request.uri, ex.request.host, ex.request.bodyText] ++
    ex.request.headers.entries.flatMap (fun e => [e.1, e.2]) ++
    ex.response.toList.flatMap (fun res => res.bodyText :: res.headers.entries.flatMap fun e => [e.1, e.2]) ++
    ex.note.toList ++ ex.tags

/-- The values which one exchange carries are long enough, and are neither in the mark nor in the other exchange, and so
in nothing which the two have in common. -/
def CarriesApart (parseJson : Str → Option Json) (ex other : Exchange) : Prop :=
  ∀ v ∈ carriedValues parseJson ex.request, 4 ≤ v.utf8Len ∧ Str.contains v redacted = false ∧
    ∀ text ∈ textsOf other, Str.contains v text = false

private def tokenExchange (token : Str) : Exchange := loginExchange ("/login?token=" ++ token) HeaderMap.new "hello"

private theorem tokenExchange_alike {token₁ token₂ : Str}
    (h₁ : FieldsAlike '&' ("token=" ++ token₁) ("token=" ++ token₂))
    (hcarried₁ : carriedFieldValues '&' ("token=" ++ token₁) = [token₁])
    (hcarried₂ : carriedFieldValues '&' ("token=" ++ token₂) = [token₂]) :
    SameButSecrets (fun _ => none) (fun _ : Unit => token₁) (fun _ => token₂) (tokenExchange token₁)
      (tokenExchange token₂) := by
  have hsplit : ∀ token, Str.splitOnce '?' (tokenExchange token).request.uri =
      some (("/login" : Str), ("token=" : Str) ++ token) :=
    fun token => rfl
  have hcarried : ∀ token, carriedFieldValues '&' ("token=" ++ token) = [token] →
      carriedValues (fun _ => none) (tokenExchange token).request = [token] := by
    intro token h
    have hheaders : carriedHeaderValues (tokenExchange token).request.headers = [] := rfl
    have hbody : (tokenExchange token).request.bodyText = [] := rfl
    unfold carriedValues
    rw [hheaders, hbody, hsplit, Option.map_some, Option.getD_some, h]
    rfl
  refine ⟨fun _ => ?_, fun _ => ?_, Or.inr ⟨_, _, _, hsplit token₁, hsplit token₂, h₁⟩, .nil, .same rfl, .some ?_, rfl⟩
  · rw [hcarried token₁ hcarried₁]
    exact List.mem_singleton_self token₁
  · rw [hcarried token₂ hcarried₂]
    exact List.mem_singleton_self token₂
  · refine ⟨.nil, ⟨ofText "hello", ?_, ?_⟩, rfl⟩
    · rw [loginResponse_bodyText, render_ofText]
    · rw [loginResponse_bodyText, render_ofText]

/-- The URLs of two exchanges with other tokens in their queries are exported as they are. -/
theorem not_redactedEntry_eq :
    ¬ ∀ (world : HarWorld) (parseJson : Str → Option Json) (σ₁ σ₂ : Unit → Str) (ex₁ ex₂ : Exchange),
      SameButSecrets parseJson σ₁ σ₂ ex₁ ex₂ → CarriesApart parseJson ex₁ ex₂ → CarriesApart parseJson ex₂ ex₁ →
      redactedEntry world parseJson ex₁ = redactedEntry world parseJson ex₂ := by
  intro hall
  have halike : SameButSecrets (fun _ => none) (fun _ : Unit => ("alpha1" : Str)) (fun _ => "omega2")
      (tokenExchange "alpha1") (tokenExchange "omega2") := by
    refine tokenExchange_alike ?_ (by decide +kernel) (by decide +kernel)
    have hsplit₁ : Str.split '&' (("token=" : Str) ++ ("alpha1" : Str)) = ["token=alpha1"] := by decide +kernel
    have hsplit₂ : Str.split '&' (("token=" : Str) ++ ("omega2" : Str)) = ["token=omega2"] := by decide +kernel
    unfold FieldsAlike
    rw [hsplit₁, hsplit₂]
    exact .cons (Or.inr ⟨"token", "alpha1", "omega2", by decide +kernel, by decide +kernel⟩) .nil
  have heq :=
    hall epoch _ _ _ _ _ halike (by unfold CarriesApart; decide +kernel) (by unfold CarriesApart; decide +kernel)
  have huri := (sameVisible_of_entry halike heq).uri
  exact absurd huri (by decide +kernel)

end Har

end Oproxy
