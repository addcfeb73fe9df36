import Oproxy.Middleware.Plugins.LuaEngine

/-!
# Scripts which do nothing

A script works on a text view of the message, and the message is made again from the view, whatever the script has
done.  What the view does not hold is lost as soon as one script is enabled.
-/

namespace Oproxy

/-- A script which fails, or which leaves its tables as they are and does not abort.  The pairs of a table come in any
order. -/
structure LuaVm.Inert (vm : LuaVm) (code : Str) : Prop where
  request : ∀ method uri body headers, vm.request code method uri body headers = none ∨
    ∃ pairs, pairs.Perm headers.entries ∧
      vm.request code method uri body headers = some ⟨none, some body, some pairs⟩
  response : ∀ status body headers, vm.response code status body headers = none ∨
    ∃ pairs, pairs.Perm headers.entries ∧
      vm.response code status body headers = some ⟨some status, some body, some pairs⟩

/-- Two requests with the same header fields, each with its values in order, and the same body. -/
structure RequestContext.SameMessage (a b : RequestContext) : Prop where
  headers : ∀ name, a.headers.getAll name = b.headers.getAll name
  body : a.body = b.body

structure ResponseContext.SameMessage (a b : ResponseContext) : Prop where
  status : a.status = b.status
  headers : ∀ name, a.headers.getAll name = b.headers.getAll name
  body : a.body = b.body

/-- What the text view of a message holds: fields with one value each, and a body which is text. -/
structure HeldByView (headers : HeaderMap) (body : Bytes) : Prop where
  headers : ∀ name, (headers.getAll name).length ≤ 1
  body : Utf8.Valid body

namespace LuaEngine

variable {vm : LuaVm} {scripts : List LuaScript}

theorem insertPairs_of_perm {headers : IndexMap Str Str} {pairs : List (Str × Str)} (h : pairs.Perm headers.entries) :
    insertPairs headers (some pairs) = headers := by
  apply IndexMap.insertAll_of_mem
  intro e he
  exact h.subset he

/-- Inert scripts hand the view on as it is. -/
theorem runRequestScripts_of_inert (method uri body : Str) (headers : IndexMap Str Str)
    (h : ∀ script ∈ scripts, vm.Inert script.code) :
    runRequestScripts vm method uri scripts body headers = ⟨body, headers, none⟩ := by
  induction scripts with
  | nil => rfl
  | cons script scripts ih =>
    rw [List.forall_mem_cons] at h
    unfold runRequestScripts
    rcases h.1.request method uri body headers with hnone | ⟨pairs, hperm, hsome⟩
    · rw [hnone]
      exact ih h.2
    · rw [hsome]
      dsimp only
      rw [insertPairs_of_perm hperm]
      exact ih h.2

theorem runResponseScripts_of_inert (status : Nat) (body : Str) (headers : IndexMap Str Str)
    (h : ∀ script ∈ scripts, vm.Inert script.code) :
    runResponseScripts vm scripts status body headers = ⟨status, body, headers⟩ := by
  induction scripts with
  | nil => rfl
  | cons script scripts ih =>
    rw [List.forall_mem_cons] at h
    unfold runResponseScripts
    rcases h.1.response status body headers with hnone | ⟨pairs, hperm, hsome⟩
    · rw [hnone]
      exact ih h.2
    · rw [hsome]
      dsimp only
      rw [insertPairs_of_perm hperm]
      exact ih h.2

private theorem inert_of_filter (h : ∀ script ∈ scripts, script.enabled = true → vm.Inert script.code) :
    ∀ script ∈ scripts.filter LuaScript.enabled, vm.Inert script.code := by
  intro script hscript
  obtain ⟨hmem, henabled⟩ := List.mem_filter.1 hscript
  exact h script hmem henabled

/-- Inert scripts leave a message alone exactly where their view of it holds all of it. -/
theorem sameMessage_iff (hsome : scripts.filter LuaScript.enabled ≠ [])
    (hinert : ∀ script ∈ scripts, script.enabled = true → vm.Inert script.code) (request : RequestContext)
    (response : ResponseContext) :
    ((onRequest vm scripts request).1.SameMessage request ↔ HeldByView request.headers request.body) ∧
      ((onResponse vm scripts response).1.SameMessage response ↔ HeldByView response.headers response.body) := by
  have henabled : (scripts.filter LuaScript.enabled).isEmpty = false := List.isEmpty_eq_false_iff.2 hsome
  have hrequest : (onRequest vm scripts request).1 =
      { request.setBodyText request.bodyText with headers := HeaderMap.ofMap request.headers.toMap } := by
    unfold onRequest
    simp only [henabled, Bool.false_eq_true, if_false, runRequestScripts_of_inert _ _ _ _ (inert_of_filter hinert)]
  have hresponse : (onResponse vm scripts response).1 =
      { response.setBodyText response.bodyText with
        status := response.status
        headers := HeaderMap.ofMap response.headers.toMap } := by
    unfold onResponse responseOutcome
    simp only [henabled, Bool.false_eq_true, if_false, runResponseScripts_of_inert _ _ _ (inert_of_filter hinert)]
  rw [hrequest, hresponse]
  constructor
  · constructor
    · rintro ⟨hheaders, hbody⟩
      exact ⟨request.headers.getAll_ofMap_toMap_eq_iff.1 hheaders, (Utf8.toUtf8_decodeLossy_iff _).1 hbody⟩
    · rintro ⟨hheaders, hbody⟩
      exact ⟨request.headers.getAll_ofMap_toMap_eq_iff.2 hheaders, (Utf8.toUtf8_decodeLossy_iff _).2 hbody⟩
  · constructor
    · rintro ⟨-, hheaders, hbody⟩
      exact ⟨response.headers.getAll_ofMap_toMap_eq_iff.1 hheaders, (Utf8.toUtf8_decodeLossy_iff _).1 hbody⟩
    · rintro ⟨hheaders, hbody⟩
      exact ⟨rfl, response.headers.getAll_ofMap_toMap_eq_iff.2 hheaders, (Utf8.toUtf8_decodeLossy_iff _).2 hbody⟩

/-! ### A script with a syntax error -/

private def failing : LuaVm := ⟨fun _ _ _ _ _ => none, fun _ _ _ _ => none⟩

private def unfinished : LuaScript := ⟨"l1", "unfinished", "if", true⟩

private theorem inert_failing (code : Str) : failing.Inert code :=
  ⟨fun _ _ _ _ => Or.inl rfl, fun _ _ _ => Or.inl rfl⟩

private def formRequest : RequestContext :=
  { RequestContext.default with
    headers := (HeaderMap.new.insert "accept" "*/*").insert "content-type" "application/x-www-form-urlencoded"
    body := Str.toUtf8 "name=Jürgen" }

private def cookieResponse : ResponseContext :=
  { ResponseContext.default with
    headers := ((HeaderMap.new.insert "content-type" "text/plain").append "set-cookie" "a=1").append "set-cookie" "b=2"
    body := Str.toUtf8 "ok" }

/-- The request passes as it is, the response does not. -/
theorem sameMessage_iff_unfinished :
    ((onRequest failing [unfinished] formRequest).1.SameMessage formRequest ↔
        HeldByView formRequest.headers formRequest.body) ∧
      ((onResponse failing [unfinished] cookieResponse).1.SameMessage cookieResponse ↔
        HeldByView cookieResponse.headers cookieResponse.body) :=
  sameMessage_iff (show [unfinished].filter LuaScript.enabled ≠ [] by decide) (fun _ _ _ => inert_failing _) _ _

/-- Of two cookies the first one is lost. -/
theorem not_sameMessage :
    ¬ ∀ (vm : LuaVm) (scripts : List LuaScript), scripts.filter LuaScript.enabled ≠ [] →
      (∀ script ∈ scripts, script.enabled = true → vm.Inert script.code) →
      ∀ (request : RequestContext) (response : ResponseContext),
        (onRequest vm scripts request).1.SameMessage request ∧
          (onResponse vm scripts response).1.SameMessage response := by
  intro h
  have hheaders := (h failing [unfinished] (by decide) (fun _ _ _ => inert_failing _) formRequest
    cookieResponse).2.headers "set-cookie"
  revert hheaders
  decide

end LuaEngine

end Oproxy
