import Oproxy.Lib.Utf8
import Oproxy.Middleware.Plugins.Rules

/-!
# Bodies which are replaced (`middleware/plugins/rules.rs`)

`ReplaceBody` is to skip a binary body.  It works on the lossy text of the body, and writes the text back wherever the
replacement has changed it.
-/

namespace Oproxy

namespace UnifiedRewrite

/-- A text in which nothing matches is not changed. -/
def KeepsUnmatched (regex : RegexEngine) : Prop :=
  ∀ pattern r text replacement, regex pattern = some r → r.isMatch text = false → r.replaceAll text replacement = text

/-- The `ReplaceBody` actions of patterns and replacements. -/
def replaceBodies (replacements : List (Str × Str)) : List RewriteAction :=
  replacements.map fun p => .replaceBody p.1 p.2

instance (body : Bytes) : Decidable (Utf8.Valid body) := decidable_of_iff _ (Utf8.toUtf8_decodeLossy_iff body)

variable (regex : RegexEngine)

/-- What an action is to make of a body: a body which is no text is skipped. -/
def replacedBody (body : Bytes) (p : Str × Str) : Bytes :=
  match regex p.1 with
  | none => body
  | some r => if Utf8.Valid body then Str.toUtf8 (r.replaceAll (Utf8.decodeLossy body) p.2) else body

/-- What an action makes of a body. -/
def writtenBody (body : Bytes) (p : Str × Str) : Bytes :=
  match regex p.1 with
  | none => body
  | some r =>
    let text := Utf8.decodeLossy body
    let newBody := r.replaceAll text p.2
    if newBody ≠ text then newBody.toUtf8 else body

/-- A body after a list of actions: it is what the actions are to make of it, and the same body where none of them
matches. -/
structure BodyReplaced (replacements : List (Str × Str)) (body after : Bytes) : Prop where
  replaced : after = replacements.foldl (replacedBody regex) body
  unmatched : (∀ p ∈ replacements, ∀ r, regex p.1 = some r → r.isMatch (Utf8.decodeLossy body) = false) → after = body

/-- No replacement changes the lossy text. -/
def LeavesText (replacements : List (Str × Str)) (body : Bytes) : Prop :=
  ∀ p ∈ replacements, ∀ r, regex p.1 = some r → r.replaceAll (Utf8.decodeLossy body) p.2 = Utf8.decodeLossy body

variable {regex}

/-! ### The bodies -/

theorem writtenBody_of_valid {body : Bytes} (h : Utf8.Valid body) (p : Str × Str) :
    writtenBody regex body p = replacedBody regex body p := by
  unfold writtenBody replacedBody
  cases regex p.1 with
  | none => rfl
  | some r =>
    dsimp only
    rw [if_pos h]
    by_cases hsame : r.replaceAll (Utf8.decodeLossy body) p.2 = Utf8.decodeLossy body
    · rw [if_neg (not_not.2 hsame), hsame, (Utf8.toUtf8_decodeLossy_iff body).2 h]
    · rw [if_pos hsame]

theorem replacedBody_of_not_valid {body : Bytes} (h : ¬ Utf8.Valid body) (p : Str × Str) :
    replacedBody regex body p = body := by
  unfold replacedBody
  cases regex p.1 with
  | none => rfl
  | some r => exact if_neg h

theorem replacedBody_valid {body : Bytes} (h : Utf8.Valid body) (p : Str × Str) :
    Utf8.Valid (replacedBody regex body p) := by
  unfold replacedBody
  cases regex p.1 with
  | none => exact h
  | some r =>
    dsimp only
    rw [if_pos h]
    exact ⟨_, rfl⟩

/-- An action leaves a body, or makes a text of it. -/
theorem writtenBody_cases (body : Bytes) (p : Str × Str) :
    (∀ r, regex p.1 = some r → r.replaceAll (Utf8.decodeLossy body) p.2 = Utf8.decodeLossy body) ∧
        writtenBody regex body p = body ∨
      (∃ r, regex p.1 = some r ∧ r.replaceAll (Utf8.decodeLossy body) p.2 ≠ Utf8.decodeLossy body) ∧
        Utf8.Valid (writtenBody regex body p) := by
  unfold writtenBody
  cases hregex : regex p.1 with
  | none => exact Or.inl ⟨fun r hr => (by cases hr), rfl⟩
  | some r =>
    by_cases hsame : r.replaceAll (Utf8.decodeLossy body) p.2 = Utf8.decodeLossy body
    · refine Or.inl ⟨fun r' hr => ?_, if_neg (not_not.2 hsame)⟩
      cases hr
      exact hsame
    · refine Or.inr ⟨⟨r, rfl, hsame⟩, ?_⟩
      dsimp only
      rw [if_pos hsame]
      exact ⟨_, rfl⟩

theorem foldl_of_valid (replacements : List (Str × Str)) {body : Bytes} (h : Utf8.Valid body) :
    replacements.foldl (writtenBody regex) body = replacements.foldl (replacedBody regex) body ∧
      Utf8.Valid (replacements.foldl (writtenBody regex) body) := by
  induction replacements generalizing body with
  | nil => exact ⟨rfl, h⟩
  | cons p replacements ih =>
    rw [List.foldl_cons, List.foldl_cons, writtenBody_of_valid h]
    exact ih (replacedBody_valid h p)

theorem foldl_of_not_valid (replacements : List (Str × Str)) {body : Bytes} (h : ¬ Utf8.Valid body) :
    replacements.foldl (replacedBody regex) body = body := by
  induction replacements with
  | nil => rfl
  | cons p replacements ih =>
    rw [List.foldl_cons, replacedBody_of_not_valid h]
    exact ih

/-- Where the texts are left alone, so is the body; a body which is no text is left alone only there. -/
theorem foldl_writtenBody (replacements : List (Str × Str)) (body : Bytes) :
    (LeavesText regex replacements body → replacements.foldl (writtenBody regex) body = body) ∧
      (¬ Utf8.Valid body → replacements.foldl (writtenBody regex) body = body →
        LeavesText regex replacements body) := by
  induction replacements with
  | nil => exact ⟨fun _ => rfl, fun _ _ p hp => absurd hp List.not_mem_nil⟩
  | cons p replacements ih =>
    unfold LeavesText at ih ⊢
    rw [List.foldl_cons, List.forall_mem_cons]
    rcases @writtenBody_cases regex body p with ⟨hleaves, hbody⟩ | ⟨⟨r, hregex, hchanged⟩, hvalid⟩
    · rw [hbody]
      exact ⟨fun h => ih.1 h.2, fun hinvalid hsame => ⟨hleaves, ih.2 hinvalid hsame⟩⟩
    · refine ⟨fun h => absurd (h.1 r hregex) hchanged, fun hinvalid hsame => ?_⟩
      have hafter := (@foldl_of_valid regex replacements _ hvalid).2
      rw [hsame] at hafter
      exact absurd hafter hinvalid

theorem bodyReplaced_iff (hregex : KeepsUnmatched regex) (replacements : List (Str × Str)) (body : Bytes) :
    BodyReplaced regex replacements body (replacements.foldl (writtenBody regex) body) ↔
      Utf8.Valid body ∨ LeavesText regex replacements body := by
  have hunmatched : (∀ p ∈ replacements, ∀ r, regex p.1 = some r → r.isMatch (Utf8.decodeLossy body) = false) →
      replacements.foldl (writtenBody regex) body = body := by
    intro h
    refine (foldl_writtenBody replacements body).1 fun p hp r hr => ?_
    exact hregex p.1 r _ p.2 hr (h p hp r hr)
  constructor
  · rintro ⟨hreplaced, -⟩
    by_cases hvalid : Utf8.Valid body
    · exact Or.inl hvalid
    · rw [foldl_of_not_valid replacements hvalid] at hreplaced
      exact Or.inr ((foldl_writtenBody replacements body).2 hvalid hreplaced)
  · intro h
    refine ⟨?_, hunmatched⟩
    by_cases hvalid : Utf8.Valid body
    · exact (foldl_of_valid replacements hvalid).1
    · rw [foldl_of_not_valid replacements hvalid]
      exact (foldl_writtenBody replacements body).1 (h.resolve_left hvalid)

/-! ### Requests and responses -/

theorem body_applyRequestAction (rule : RewriteRuleSet) (ctx : RequestContext) (p : Str × Str) :
    ∃ ctx' summary, applyRequestAction regex rule ctx (.replaceBody p.1 p.2) = .next ctx' summary ∧
      ctx'.body = writtenBody regex ctx.body p := by
  unfold writtenBody
  cases hregex : regex p.1 with
  | none =>
    simp only [applyRequestAction, hregex]
    exact ⟨ctx, none, rfl, rfl⟩
  | some r =>
    simp only [applyRequestAction, hregex]
    by_cases hchanged : r.replaceAll ctx.bodyText p.2 ≠ ctx.bodyText
    · rw [if_pos hchanged]
      exact ⟨_, _, rfl, (if_pos hchanged).symm⟩
    · rw [if_neg hchanged]
      exact ⟨_, _, rfl, (if_neg hchanged).symm⟩

theorem body_applyRequestLoop (rule : RewriteRuleSet) (replacements : List (Str × Str)) (ctx : RequestContext)
    (summaries : List Str) : (applyRequestLoop regex rule (replaceBodies replacements) ctx summaries).1.body =
      replacements.foldl (writtenBody regex) ctx.body := by
  induction replacements generalizing ctx summaries with
  | nil =>
    show (if summaries.isEmpty then ctx else _ : RequestContext).body = ctx.body
    split <;> rfl
  | cons p replacements ih =>
    obtain ⟨ctx', summary, hstep, hbody⟩ := @body_applyRequestAction regex rule ctx p
    show (applyRequestLoop regex rule (.replaceBody p.1 p.2 :: replaceBodies replacements) ctx summaries).1.body = _
    unfold applyRequestLoop
    rw [hstep, List.foldl_cons, ← hbody]
    exact ih ctx' _

theorem body_applyResponseAction (ctx : ResponseContext) (p : Str × Str) :
    (applyResponseAction regex ctx (.replaceBody p.1 p.2)).1.body = writtenBody regex ctx.body p := by
  unfold writtenBody
  cases hregex : regex p.1 with
  | none => simp only [applyResponseAction, hregex]
  | some r =>
    simp only [applyResponseAction, hregex]
    by_cases hchanged : r.replaceAll ctx.bodyText p.2 ≠ ctx.bodyText
    · rw [if_pos hchanged]
      exact (if_pos hchanged).symm
    · rw [if_neg hchanged]
      exact (if_neg hchanged).symm

theorem body_applyResponseLoop (rule : RewriteRuleSet) (replacements : List (Str × Str)) (ctx : ResponseContext)
    (summaries : List Str) : (applyResponseLoop regex rule (replaceBodies replacements) ctx summaries).body =
      replacements.foldl (writtenBody regex) ctx.body := by
  induction replacements generalizing ctx summaries with
  | nil =>
    show (if summaries.isEmpty then ctx else _ : ResponseContext).body = ctx.body
    split <;> rfl
  | cons p replacements ih =>
    show (applyResponseLoop regex rule (.replaceBody p.1 p.2 :: replaceBodies replacements) ctx summaries).body = _
    unfold applyResponseLoop
    rw [List.foldl_cons, ← body_applyResponseAction]
    exact ih _ _

/-- `ReplaceBody` changes only what it matches exactly where the body is a text, or no replacement changes the lossy
text. -/
theorem replaceBody_iff (hregex : KeepsUnmatched regex) (rule : RewriteRuleSet) (replacements : List (Str × Str))
    (hactions : rule.actions = replaceBodies replacements) (request : RequestContext) (response : ResponseContext) :
    (BodyReplaced regex replacements request.body (applyRequestActions regex rule request).1.body ↔
        Utf8.Valid request.body ∨ LeavesText regex replacements request.body) ∧
      (BodyReplaced regex replacements response.body (applyResponseActions regex rule response).body ↔
        Utf8.Valid response.body ∨ LeavesText regex replacements response.body) := by
  unfold applyRequestActions applyResponseActions
  rw [hactions, body_applyRequestLoop, body_applyResponseLoop]
  exact ⟨bodyReplaced_iff hregex replacements _, bodyReplaced_iff hregex replacements _⟩

/-! ### A pattern of one letter -/

/-- An engine which knows the patterns of one letter. -/
private def letters : RegexEngine
  | [letter] => some
    { isMatch := fun text => text.any fun c => c = letter
      replaceAll := fun text new => text.flatMap fun c => if c = letter then new else [c]
      captures := fun _ => none }
  | _ => none

private theorem flatMap_of_not_mem {letter : Char} {text : Str} (new : Str) (h : letter ∉ text) :
    (text.flatMap fun c => if c = letter then new else [c]) = text := by
  induction text with
  | nil => rfl
  | cons c text ih =>
    rw [List.mem_cons, not_or] at h
    rw [List.flatMap_cons, if_neg (Ne.symm h.1), ih h.2]
    rfl

private theorem keepsUnmatched_letters : KeepsUnmatched letters := by
  intro pattern r text replacement hr hmatch
  unfold letters at hr
  split at hr
  · cases hr
    refine flatMap_of_not_mem replacement fun hmem => ?_
    exact List.any_eq_false.1 hmatch _ hmem (decide_eq_true rfl)
  · cases hr

private def masking : RewriteRuleSet := ⟨"r1", "mask", true, Location.default, .both, [.replaceBody "a" "b"]⟩

private def withBody (body : Bytes) : RequestContext × ResponseContext :=
  ({ RequestContext.default with body := body }, { ResponseContext.default with body := body })

theorem replaceBody_iff_text :
    (BodyReplaced letters [("a", "b")] (withBody [97]).1.body
          (applyRequestActions letters masking (withBody [97]).1).1.body ↔
        Utf8.Valid (withBody [97]).1.body ∨ LeavesText letters [("a", "b")] (withBody [97]).1.body) ∧
      (BodyReplaced letters [("a", "b")] (withBody [97]).2.body
          (applyResponseActions letters masking (withBody [97]).2).body ↔
        Utf8.Valid (withBody [97]).2.body ∨ LeavesText letters [("a", "b")] (withBody [97]).2.body) :=
  replaceBody_iff keepsUnmatched_letters masking [("a", "b")] rfl (withBody [97]).1 (withBody [97]).2

/-- A body of a byte which is no text and of a letter which matches. -/
theorem not_replaceBody : ¬ ∀ (regex : RegexEngine), KeepsUnmatched regex →
    ∀ (rule : RewriteRuleSet) (replacements : List (Str × Str)), rule.actions = replaceBodies replacements →
      ∀ (request : RequestContext) (response : ResponseContext),
        BodyReplaced regex replacements request.body (applyRequestActions regex rule request).1.body ∧
          BodyReplaced regex replacements response.body (applyResponseActions regex rule response).body := by
  intro h
  have hreplaced := (h letters keepsUnmatched_letters masking [("a", "b")] rfl (withBody [0xff, 97]).1
    (withBody [0xff, 97]).2).1.replaced
  revert hreplaced
  decide

end UnifiedRewrite

end Oproxy
