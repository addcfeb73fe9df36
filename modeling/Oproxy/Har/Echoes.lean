import Oproxy.Har.Redaction

/-!
# What a redacted text shows

What a body shows once the members and the fields with sensitive names in it are hidden is a text.  Where the places in
which this text repeats values of the request can be told from the rest of it, nothing is left of the values
(`ShowsBody.redactKnownValues_eq`).
-/

namespace Oproxy

namespace Redaction

open Template

/-- A part as it is shown: the value of a field with a sensitive name is hidden. -/
def shownPart (part : Str) : Str :=
  match sensitiveField part with
  | some (key, _) => key ++ '=' :: redacted
  | none => part

theorem redactPart_eq (part : Str) : redactPart part = shownPart part := by
  unfold redactPart shownPart sensitiveField
  cases hsplit : Str.splitOnce '=' part with
  | none => rfl
  | some field =>
    obtain ⟨key, value⟩ := field
    by_cases hkey : isSensitiveKey key = true
    · simp [hkey, Option.filter]
    · simp [hkey, Option.filter, (Str.splitOnce_eq_some.1 hsplit).1]

/-- The text which a body shows once what has a sensitive name in it is hidden. -/
inductive ShowsBody (parseJson : Str → Option Json) (body : Str) : Str → Prop where
  | blank (hblank : body.trim = []) : ShowsBody parseJson body body
  | form (htext : body.trim ≠ []) (hparse : parseJson body = none) :
    ShowsBody parseJson body ([separator body].intercalate ((Str.split (separator body) body).map shownPart))
  | json {v : Json} (htext : body.trim ≠ []) (hparse : parseJson body = some v) :
    ShowsBody parseJson body ((redactJsonValue v).pretty 0)

namespace ShowsBody

variable {parseJson : Str → Option Json} {body text : Str}

theorem redactBodyText_eq (h : ShowsBody parseJson body text) : redactBodyText parseJson body = text := by
  unfold redactBodyText
  cases h with
  | blank hblank => rw [if_pos (List.isEmpty_iff.2 hblank)]
  | form htext hparse =>
    rw [if_neg fun hempty => htext (List.isEmpty_iff.1 hempty), hparse]
    unfold redactUrlencodedLike
    dsimp only
    rw [List.map_congr_left fun part _ => redactPart_eq part]
  | json htext hparse => rw [if_neg fun hempty => htext (List.isEmpty_iff.1 hempty), hparse]

variable {ι : Type} {σ : ι → Str} {t : Template ι}

/-- Where the holes show values which the request carries, and each of these stands nowhere else when it is replaced,
the mark is in every hole. -/
theorem redactKnownValues_eq (h : ShowsBody parseJson body (render σ t)) {headers : HeaderMap} {requestBody : Str}
    (hcollected : ∀ i ∈ t.holes, Collected parseJson headers requestBody (σ i))
    (hapart : ApartInTurn (sensitiveValues parseJson headers requestBody) redacted σ t) :
    redactKnownValues (redactBodyText parseJson body) (sensitiveValues parseJson headers requestBody) =
      render (fun _ => redacted) t := by
  have hvalues : ∀ v ∈ sensitiveValues parseJson headers requestBody, Collected parseJson headers requestBody v :=
    fun v hv => mem_sensitiveValues.1 hv
  rw [h.redactBodyText_eq, Redaction.redactKnownValues_eq fun v hv => (hvalues v hv).1,
    foldl_replace_render hapart (nodup_sensitiveValues _ _ _) fun v hv => (hvalues v hv).ne_nil]
  exact render_masked_all fun i hi => mem_sensitiveValues.2 (hcollected i hi)

end ShowsBody

end Redaction

end Oproxy
