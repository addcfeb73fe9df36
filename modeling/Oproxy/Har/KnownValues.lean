import Oproxy.Har.Redaction
import Oproxy.Lib.Cuts

/-!
# Redacting known values (`redaction.rs`)

The values which a request carries are replaced in the text of the response, in their sorted order and each in the
text which the ones before have left.
-/

namespace Oproxy

namespace Redaction

open Template

/-- The output is the text with some intervals replaced by the mark, and every character of an occurrence of a value
lies in one of them. -/
def NoFragment (text : Str) (values : List Str) : Prop :=
  ∃ intervals : Template Str, render id intervals = text ∧
    redactKnownValues text values = render (fun _ => redacted) intervals ∧
    ∀ v ∈ values, ∀ p, OccursAt text v p → ∀ k, p ≤ k → k < p + v.length →
      ∃ before u after, intervals = before ++ .hole u :: after ∧ (render id before).length ≤ k ∧
        k < (render id before).length + u.length

/-- The text divides into occurrences of values and other characters, so that every occurrence of a value lies in one of
these, none of these overlaps an occurrence of a value before its own or another one of its own, and no value touches a
mark when its turn comes. -/
def KeptWhole (text : Str) (values : List Str) : Prop :=
  ∃ secrets : Template Str, render id secrets = text ∧ Divides values redacted secrets

/-- A character of the output which is not in the mark stands between the intervals. -/
theorem exists_lit_of_mem {c : Char} {m : Str} (hm : c ∉ m) {t : Template Str} (h : c ∈ render (fun _ => m) t) :
    ∃ before after, t = before ++ .lit c :: after := by
  induction t with
  | nil => cases h
  | cons piece t ih =>
    have hrest : c ∈ render (fun _ => m) t → ∃ before after, piece :: t = before ++ .lit c :: after := by
      intro hmem
      obtain ⟨before, after, rfl⟩ := ih hmem
      exact ⟨piece :: before, after, rfl⟩
    cases piece with
    | lit d =>
      rcases List.mem_cons.1 h with rfl | hmem
      · exact ⟨[], t, rfl⟩
      · exact hrest hmem
    | hole u => exact (List.mem_append.1 h).elim (fun hmem => absurd hmem hm) hrest

/-- No fragment of a value is left where no value is cut in two by one before it. -/
theorem noFragment_of_keptWhole (parseJson : Str → Option Json) (headers : HeaderMap) (body text : Str)
    (h : KeptWhole text (sensitiveValues parseJson headers body)) :
    NoFragment text (sensitiveValues parseJson headers body) := by
  obtain ⟨secrets, rfl, hdivides⟩ := h
  have hliteral : ∀ v ∈ sensitiveValues parseJson headers body, shouldRedactLiteral v = true :=
    fun v hv => (mem_sensitiveValues.1 hv).1
  refine ⟨secrets, rfl, ?_, fun v hv p hp k hle hlt => ?_⟩
  · rw [redactKnownValues_eq hliteral]
    exact foldl_replace_divided hdivides (fun v hv => (mem_sensitiveValues.1 hv).ne_nil)
      (nodup_sensitiveValues parseJson headers body)
  · obtain ⟨before, u, after, heq, hstart, hend⟩ := hdivides.within v hv p hp
    exact ⟨before, u, after, heq, by omega, by omega⟩

/-- A request with a session and a token. -/
def sessionAndToken : HeaderMap := HeaderMap.fromIter [("cookie", "sid=77"), ("authorization", "token-1")]

theorem sensitiveValues_sessionAndToken :
    sensitiveValues (fun _ => none) sessionAndToken [] = [("sid=77" : Str), "token-1"] := by
  have hcollected : sessionAndToken.entries.flatMap
    (fun e => if isSensitiveKey e.1 then pushSensitiveValue e.2 else []) ++
      collectSensitiveBodyValues (fun _ => none) [] = [("sid=77" : Str), "token-1"] := by
    decide +kernel
  unfold sensitiveValues
  dsimp only
  rw [hcollected, List.mergeSort_of_pairwise (by decide +kernel)]
  decide +kernel

/-- A text with both, the token twice. -/
def usage : Template Str :=
  let token : Template Str := [.hole "token-1"]
  let session : Template Str := [.hole "sid=77"]
  ofText "use " ++ token ++ ofText " (" ++ session ++ ofText "), not " ++ token ++ ofText "!"

theorem noFragment_sessionAndToken :
    NoFragment "use token-1 (sid=77), not token-1!" (sensitiveValues (fun _ => none) sessionAndToken []) := by
  refine noFragment_of_keptWhole (fun _ => none) sessionAndToken [] "use token-1 (sid=77), not token-1!"
    ⟨usage, by decide +kernel, ?_⟩
  rw [sensitiveValues_sessionAndToken]
  refine divides_of_positions ?_ ?_ ?_ ?_ ?_
  all_goals decide +kernel

/-- A request with two tokens. -/
def twoTokens : HeaderMap := HeaderMap.fromIter [("authorization", "token-1"), ("cookie", "token-12")]

/-- The first token is the beginning of the second one, the rest of which stays. -/
theorem not_noFragment : ¬ ∀ parseJson headers body text, NoFragment text (sensitiveValues parseJson headers body) := by
  intro h
  obtain ⟨intervals, htext, houtput, hcovered⟩ := h (fun _ => none) twoTokens [] "token-12"
  have hvalues : sensitiveValues (fun _ => none) twoTokens [] = [("token-1" : Str), "token-12"] := by
    have hcollected : twoTokens.entries.flatMap (fun e => if isSensitiveKey e.1 then pushSensitiveValue e.2 else []) ++
        collectSensitiveBodyValues (fun _ => none) [] = [("token-1" : Str), "token-12"] := by
      decide +kernel
    unfold sensitiveValues
    dsimp only
    rw [hcollected, List.mergeSort_of_pairwise (by decide +kernel)]
    decide +kernel
  rw [hvalues] at houtput hcovered
  have hredacted : redactKnownValues "token-12" [("token-1" : Str), "token-12"] = ("[redacted]2" : Str) := by
    decide +kernel
  rw [hredacted] at houtput
  -- the digit is not from a mark, so that it lies in no interval
  have hdigit : '2' ∈ render (fun _ => redacted) intervals := by
    rw [← houtput]
    decide
  obtain ⟨before, after, rfl⟩ := exists_lit_of_mem (by decide +kernel) hdigit
  have hlt : (render id before).length < ("token-12" : Str).length := by
    rw [← htext, render_append, render_lit, List.length_append, List.length_cons]
    omega
  obtain ⟨before', u, after', heq, hle, hend⟩ := hcovered "token-12" (by simp) 0 (List.prefix_refl _)
    (render id before).length (Nat.zero_le _) (by rw [Nat.zero_add]; exact hlt)
  have houtside := outside_of_lit heq
  omega

end Redaction

end Oproxy
