import Oproxy.Lib.Occurrences
import Oproxy.Lib.Template

/-!
# What the assistant is not shown of a text (`control_plane/assistant_redaction.rs`)

`redactString` takes secret values out of a query or else withholds a text with a marker as a whole.  The same
computation with holes where placeholders stand (`redactTemplate`) tells which part of the answer is shown from the
text; it is without markers and tokens exactly for the texts described by `Redactable`.
-/

namespace Oproxy

namespace AssistantRedaction

open Template (render ofText)

/-! ### The functions -/

def isSensitiveKey (key : Str) : Bool :=
  let key := key.toAsciiLowercase
  Str.contains "authorization" key || Str.contains "cookie" key || Str.contains "token" key ||
    Str.contains "secret" key || Str.contains "api_key" key || Str.contains "apikey" key || Str.contains "password" key

def isJwtChar (ch : Char) : Bool := ch.isAlphanum || ch == '-' || ch == '_'

def looksLikeJwt (input : Str) : Bool :=
  let parts := Str.split '.' input.trim
  parts.length == 3 && parts.all fun part => decide (8 ≤ part.utf8Len) && part.all isJwtChar

/-- A part of a query with its value taken out if it is secret, and whether it is. -/
def redactPart (part : Str) : Bool × Str :=
  match Str.splitOnce '=' part with
  | none => if isSensitiveKey part then (true, part ++ ("=[REDACTED]" : Str)) else (false, part)
  | some (key, value) =>
    if isSensitiveKey key || looksLikeJwt value then (true, key ++ ("=[REDACTED]" : Str)) else (false, part)

/-- Query and fragment in what follows the question mark. -/
def splitFragment (afterQuery : Str) : Str × Option Str :=
  match Str.splitOnce '#' afterQuery with
  | some (query, fragment) => (query, some fragment)
  | none => (afterQuery, none)

def fragmentText (fragment : Option Str) : Str := fragment.elim [] fun fragment => '#' :: fragment

def redactUriQuerySecrets (input : Str) : Str :=
  match Str.splitOnce '?' input with
  | none => input
  | some (beforeQuery, afterQuery) =>
    let (query, fragment) := splitFragment afterQuery
    let parts := (Str.split '&' query).map redactPart
    let changed := parts.any Prod.fst
    let redactedQuery := List.intercalate ['&'] (parts.map Prod.snd)
    if !changed then input else beforeQuery ++ '?' :: (redactedQuery ++ fragmentText fragment)

def markers : List Str :=
  ["sk-", "Bearer ", "authorization:", "cookie:", "api_key", "secret", "token"].map String.toList

/-- The characters which fit into a number of bytes. -/
def takeBytes : Nat → Str → Str
  | _, [] => []
  | n, c :: s => if c.utf8Size ≤ n then c :: takeBytes (n - c.utf8Size) s else []

def isCharBoundary (n : Nat) (s : Str) : Bool := (takeBytes n s).utf8Len == n

/-- `String::truncate`; `none` is the panic inside of a character. -/
def truncate (n : Nat) (s : Str) : Option Str :=
  if n ≤ s.utf8Len then if isCharBoundary n s then some (takeBytes n s) else none else some s

def redactString (input : Str) : Option Str :=
  let out := redactUriQuerySecrets input
  let uriWasRedacted := decide (out ≠ input)
  let out : Str :=
    if !uriWasRedacted && markers.any fun marker => Str.contains marker.toAsciiLowercase out.toAsciiLowercase then
      "[REDACTED]"
    else out
  let out : Str := if looksLikeJwt out then "[REDACTED]" else out
  if 4000 < out.utf8Len then (truncate 4000 out).map fun out => out ++ ("...[truncated]" : Str) else some out

/-! ### The answer with holes for the placeholders -/

def partTemplate (part : Str) : Template Str :=
  match Str.splitOnce '=' part with
  | none => if isSensitiveKey part then ofText part ++ [.hole "=[REDACTED]"] else ofText part
  | some (key, value) =>
    if isSensitiveKey key || looksLikeJwt value then ofText (key ++ ['=']) ++ [.hole "[REDACTED]"] else ofText part

/-- The text with a hole for every value of its query that is taken out. -/
def queryTemplate (input : Str) : Template Str :=
  match Str.splitOnce '?' input with
  | none => ofText input
  | some (beforeQuery, afterQuery) =>
    let (query, fragment) := splitFragment afterQuery
    ofText (beforeQuery ++ ['?']) ++ List.intercalate [.lit '&'] ((Str.split '&' query).map partTemplate) ++
      ofText (fragmentText fragment)

/-- What fits into a number of bytes, holes filled. -/
def takeTemplate : Nat → Template Str → Template Str
  | _, [] => []
  | n, .lit c :: t => if c.utf8Size ≤ n then .lit c :: takeTemplate (n - c.utf8Size) t else []
  | n, .hole text :: t =>
    if text.utf8Len ≤ n then .hole text :: takeTemplate (n - text.utf8Len) t else [.hole (takeBytes n text)]

/-- A text that is not cut inside of a character. -/
def Fits (t : Template Str) : Prop := 4000 < (render id t).utf8Len → isCharBoundary 4000 (render id t) = true

instance (t : Template Str) : Decidable (Fits t) := by unfold Fits; infer_instance

/-- What is shown of a text: at most 4000 bytes. -/
def shown (t : Template Str) : Template Str :=
  if 4000 < (render id t).utf8Len then takeTemplate 4000 t ++ [.hole "...[truncated]"] else t

def hasMarker (s : Str) : Bool :=
  markers.any fun marker => Str.contains marker.toAsciiLowercase s.toAsciiLowercase

/-- `redactString` with holes in place of its placeholders. -/
def redactTemplate (input : Str) : Option (Template Str) :=
  if redactUriQuerySecrets input = input then
    if hasMarker input || looksLikeJwt input then some [.hole "[REDACTED]"]
    else if Fits (ofText input) then some (shown (ofText input)) else none
  else if Fits (queryTemplate input) then some (shown (queryTemplate input)) else none

/-! ### The property and the condition -/

/-- The runs of text between the holes. -/
def runs : Template Str → List Str
  | [] => [[]]
  | .lit c :: t => (runs t).modifyHead (c :: ·)
  | .hole _ :: t => [] :: runs t

def words (s : Str) : List Str := s.splitOnP Str.isWhitespace

def NoMarker (t : Template Str) : Prop := ∀ run ∈ runs t, hasMarker run = false

def NoJwtWord (t : Template Str) : Prop := ∀ run ∈ runs t, ∀ word ∈ words run, looksLikeJwt word = false

/-- There is an answer, and outside its placeholders it has neither a marker nor a word which looks like a token. -/
def Redacted (input : Str) : Prop :=
  ∃ t, redactTemplate input = some t ∧ redactString input = some (render id t) ∧ NoMarker t ∧ NoJwtWord t

/-- The parts of the query. -/
def queryParts (input : Str) : List Str :=
  match Str.splitOnce '?' input with
  | none => []
  | some (_, afterQuery) => Str.split '&' (splitFragment afterQuery).1

/-- A value is taken out of the query. -/
def Rewritten (input : Str) : Prop := ∃ part ∈ queryParts input, (redactPart part).2 ≠ part

/-- The condition.  Where no value is taken out: the text has a marker or is as a whole a token, or it is not cut inside
of a character and none of the words that are shown looks like a token.  Where one is: the rest is not cut inside of a
character, and what is shown of it has neither markers nor such words. -/
inductive Redactable (input : Str) : Prop where
  | withheld (unchanged : ¬Rewritten input) (secret : hasMarker input = true ∨ looksLikeJwt input = true)
  | plain (unchanged : ¬Rewritten input) (fits : Fits (ofText input)) (jwt : NoJwtWord (shown (ofText input)))
  | query (changed : Rewritten input) (fits : Fits (queryTemplate input))
      (marker : NoMarker (shown (queryTemplate input)))
      (jwt : NoJwtWord (shown (queryTemplate input)))

/-! ### The query -/

theorem render_partTemplate (part : Str) : render id (partTemplate part) = (redactPart part).2 := by
  unfold partTemplate redactPart
  split
  · split <;> simp
  · split <;> simp

/-- A part stays as it is, or its key stays with a placeholder behind it. -/
theorem redactPart_cases (part : Str) :
    redactPart part = (false, part) ∨
      ∃ key, redactPart part = (true, key ++ ("=[REDACTED]" : Str)) ∧
        (part = key ∨ ∃ value, part = key ++ '=' :: value) := by
  unfold redactPart
  cases hsplit : Str.splitOnce '=' part with
  | none =>
    dsimp only
    split
    · exact Or.inr ⟨part, rfl, Or.inl rfl⟩
    · exact Or.inl rfl
  | some parts =>
    obtain ⟨key, value⟩ := parts
    dsimp only
    split
    · exact Or.inr ⟨key, rfl, Or.inr ⟨value, (Str.splitOnce_eq_some.1 hsplit).1⟩⟩
    · exact Or.inl rfl

theorem redactPart_unchanged {part : Str} (h : (redactPart part).1 = false) : (redactPart part).2 = part := by
  rcases redactPart_cases part with heq | ⟨key, heq, -⟩
  · rw [heq]
  · rw [heq] at h
    cases h

/-- A part whose value is taken out has a placeholder. -/
theorem bracket_mem_redactPart {part : Str} (h : (redactPart part).2 ≠ part) : '[' ∈ (redactPart part).2 := by
  rcases redactPart_cases part with heq | ⟨key, heq, -⟩
  · rw [heq] at h
    exact absurd rfl h
  · rw [heq]
    exact List.mem_append_right _ (by decide)

theorem ampersand_not_mem_redactPart {part : Str} (h : '&' ∉ part) : '&' ∉ (redactPart part).2 := by
  rcases redactPart_cases part with heq | ⟨key, heq, hpart⟩
  · rw [heq]
    exact h
  · rw [heq, List.mem_append, not_or]
    refine ⟨fun hkey => h ?_, by decide⟩
    rcases hpart with rfl | ⟨value, rfl⟩
    · exact hkey
    · exact List.mem_append_left _ hkey

theorem render_intercalate (templates : List (Template Str)) :
    render id (List.intercalate [.lit '&'] templates) = List.intercalate ['&'] (templates.map (render id)) := by
  induction templates with
  | nil => rfl
  | cons t templates ih =>
    cases templates with
    | nil => simp
    | cons u templates =>
      rw [List.intercalate_cons_cons, List.map_cons, List.map_cons, List.intercalate_cons_cons, Template.render_append,
        Template.render_append, ih, List.map_cons]
      rfl

/-- The parts of a query make up the query. -/
theorem intercalate_split (query : Str) : List.intercalate ['&'] (Str.split '&' query) = query :=
  List.intercalate_splitOn '&'

theorem splitFragment_append (afterQuery : Str) :
    (splitFragment afterQuery).1 ++ fragmentText (splitFragment afterQuery).2 = afterQuery := by
  unfold splitFragment
  cases hsplit : Str.splitOnce '#' afterQuery with
  | none => exact List.append_nil _
  | some parts =>
    obtain ⟨query, fragment⟩ := parts
    exact (Str.splitOnce_eq_some.1 hsplit).1.symm

/-- What the values that are taken out leave of the text. -/
theorem redactUriQuerySecrets_eq (input : Str) : redactUriQuerySecrets input = render id (queryTemplate input) := by
  unfold redactUriQuerySecrets queryTemplate
  cases hsplit : Str.splitOnce '?' input with
  | none => exact (Template.render_ofText id input).symm
  | some parts =>
    obtain ⟨beforeQuery, afterQuery⟩ := parts
    dsimp only
    have hinput : input = beforeQuery ++ '?' :: afterQuery := (Str.splitOnce_eq_some.1 hsplit).1
    have hparts : ((Str.split '&' (splitFragment afterQuery).1).map partTemplate).map (render id) =
        ((Str.split '&' (splitFragment afterQuery).1).map redactPart).map Prod.snd := by
      rw [List.map_map, List.map_map]
      exact List.map_congr_left fun part _ => render_partTemplate part
    rw [Template.render_append, Template.render_append, Template.render_ofText, Template.render_ofText,
      render_intercalate, hparts, List.append_assoc, List.append_assoc, List.singleton_append]
    split
    · rename_i hchanged
      rw [Bool.not_eq_true', List.any_map, List.any_eq_false] at hchanged
      have hsame : ((Str.split '&' (splitFragment afterQuery).1).map redactPart).map Prod.snd =
          Str.split '&' (splitFragment afterQuery).1 := by
        rw [List.map_map]
        calc (Str.split '&' (splitFragment afterQuery).1).map _ = (Str.split '&' (splitFragment afterQuery).1).map id :=
              List.map_congr_left fun part hpart => redactPart_unchanged (Bool.eq_false_iff.2 (hchanged part hpart))
          _ = _ := List.map_id _
      rw [hsame, intercalate_split, splitFragment_append, hinput]
    · rfl

theorem redactUriQuerySecrets_eq_self_iff (input : Str) : redactUriQuerySecrets input = input ↔ ¬Rewritten input := by
  rw [redactUriQuerySecrets_eq]
  unfold queryTemplate Rewritten queryParts
  cases hsplit : Str.splitOnce '?' input with
  | none => simp
  | some parts =>
    obtain ⟨beforeQuery, afterQuery⟩ := parts
    dsimp only
    have hinput : input = beforeQuery ++ '?' :: ((splitFragment afterQuery).1 ++
        fragmentText (splitFragment afterQuery).2) := by
      rw [splitFragment_append]
      exact (Str.splitOnce_eq_some.1 hsplit).1
    have hfree : ∀ part ∈ Str.split '&' (splitFragment afterQuery).1, '&' ∉ part :=
      fun part hpart => Str.not_mem_of_mem_split hpart
    have hne : Str.split '&' (splitFragment afterQuery).1 ≠ [] := List.splitOn_ne_nil _ _
    generalize hquery : (splitFragment afterQuery).1 = query at hinput hfree hne ⊢
    have hrender : ((Str.split '&' query).map partTemplate).map (render id) =
        (Str.split '&' query).map fun part => (redactPart part).2 := by
      rw [List.map_map]
      exact List.map_congr_left fun part _ => render_partTemplate part
    rw [Template.render_append, Template.render_append, Template.render_ofText, Template.render_ofText,
      render_intercalate, hrender]
    conv_lhs => rhs; rw [hinput]
    rw [List.append_assoc, List.append_assoc, List.singleton_append, List.append_right_inj, List.cons_inj_right,
      List.append_left_inj]
    push Not
    constructor
    · intro h part hpart
      have hsplits := congrArg (Str.split '&') h
      have hback : Str.split '&' (List.intercalate ['&'] ((Str.split '&' query).map fun part => (redactPart part).2)) =
          (Str.split '&' query).map fun part => (redactPart part).2 := by
        refine List.splitOn_intercalate _ (fun text htext => ?_) (by simpa using hne)
        obtain ⟨part, hpart, rfl⟩ := List.mem_map.1 htext
        exact ampersand_not_mem_redactPart (hfree part hpart)
      rw [hback] at hsplits
      exact List.map_inj_left.1 (hsplits.trans (List.map_id _).symm) part hpart
    · intro h
      rw [List.map_congr_left h, List.map_id', intercalate_split]

/-! ### Tokens -/

theorem singleton_infix_iff {c : Char} {s : Str} : [c] <:+: s ↔ c ∈ s := by
  constructor
  · intro h
    exact h.subset List.mem_cons_self
  · intro h
    obtain ⟨a, b, rfl⟩ := List.append_of_mem h
    exact ⟨a, b, by rw [List.append_assoc, List.singleton_append]⟩

theorem mem_split {sep c : Char} (hc : c ≠ sep) {s : Str} (h : c ∈ s) : ∃ part ∈ Str.split sep s, c ∈ part := by
  have hsep : sep ∉ [c] := by
    rw [List.mem_singleton]
    exact Ne.symm hc
  obtain ⟨part, hpart, hmem⟩ := (Str.infix_split_iff (List.cons_ne_nil c []) hsep).1 (singleton_infix_iff.2 h)
  exact ⟨part, hpart, singleton_infix_iff.1 hmem⟩

/-- What looks like a token has no other characters but white space around it. -/
theorem isJwtChar_of_looksLikeJwt {s : Str} (h : looksLikeJwt s = true) {c : Char} (hc : c ∈ s)
    (hblank : Str.isWhitespace c = false) (hdot : c ≠ '.') : isJwtChar c = true := by
  unfold looksLikeJwt at h
  rw [Bool.and_eq_true, List.all_eq_true] at h
  have htrim : c ∈ s.trim := by
    have hplain : ∀ d ∈ [c], Str.isWhitespace d = false := by simpa using hblank
    have hinfix := (Str.infix_trim_iff (List.cons_ne_nil c []) hplain).2 (singleton_infix_iff.2 hc)
    exact singleton_infix_iff.1 hinfix
  obtain ⟨part, hpart, hmem⟩ := mem_split hdot htrim
  have hall := h.2 part hpart
  rw [Bool.and_eq_true, List.all_eq_true] at hall
  exact hall.2 c hmem

/-- A text from which a value was taken out is no token. -/
theorem looksLikeJwt_of_rewritten {input : Str} (h : Rewritten input) :
    looksLikeJwt (redactUriQuerySecrets input) = false := by
  have hbracket : '[' ∈ redactUriQuerySecrets input := by
    rw [redactUriQuerySecrets_eq]
    unfold Rewritten queryParts at h
    unfold queryTemplate
    cases hsplit : Str.splitOnce '?' input with
    | none =>
      rw [hsplit] at h
      obtain ⟨part, hpart, -⟩ := h
      cases hpart
    | some parts =>
      obtain ⟨beforeQuery, afterQuery⟩ := parts
      rw [hsplit] at h
      obtain ⟨part, hpart, hchanged⟩ := h
      dsimp only at hpart ⊢
      rw [Template.render_append, Template.render_append, render_intercalate]
      refine List.mem_append_left _ (List.mem_append_right _ ?_)
      have hin : (redactPart part).2 ∈
          ((Str.split '&' (splitFragment afterQuery).1).map partTemplate).map (render id) := by
        rw [← render_partTemplate]
        exact List.mem_map_of_mem (List.mem_map_of_mem hpart)
      exact Str.mem_intercalate.2 (Or.inr ⟨_, hin, bracket_mem_redactPart hchanged⟩)
  by_contra hjwt
  rw [Bool.not_eq_false] at hjwt
  exact absurd (isJwtChar_of_looksLikeJwt hjwt hbracket (by decide) (by decide)) (by decide)

/-! ### Cutting -/

theorem takeBytes_append (n : Nat) (a b : Str) :
    takeBytes n (a ++ b) = if a.utf8Len ≤ n then a ++ takeBytes (n - a.utf8Len) b else takeBytes n a := by
  induction a generalizing n with
  | nil => simp [Str.utf8Len]
  | cons c a ih =>
    have hlen : Str.utf8Len (c :: a) = c.utf8Size + Str.utf8Len a := rfl
    rw [List.cons_append, takeBytes, takeBytes, hlen]
    by_cases hc : c.utf8Size ≤ n
    · rw [if_pos hc, if_pos hc, ih]
      by_cases ha : Str.utf8Len a ≤ n - c.utf8Size
      · rw [if_pos ha, if_pos (by omega), List.cons_append, Nat.sub_sub]
      · rw [if_neg ha, if_neg (by omega)]
    · rw [if_neg hc, if_neg hc, if_neg (by omega)]

theorem takeBytes_initial (n : Nat) (s : Str) : takeBytes n s <+: s := by
  induction s generalizing n with
  | nil => exact List.prefix_refl _
  | cons c s ih =>
    rw [takeBytes]
    split
    · exact List.cons_prefix_cons.2 ⟨rfl, ih _⟩
    · exact List.nil_prefix

theorem render_takeTemplate (n : Nat) (t : Template Str) :
    render id (takeTemplate n t) = takeBytes n (render id t) := by
  induction t generalizing n with
  | nil => rfl
  | cons piece t ih =>
    cases piece with
    | lit c =>
      rw [takeTemplate, Template.render_lit, takeBytes]
      split
      · rw [Template.render_lit, ih]
      · rfl
    | hole text =>
      rw [takeTemplate, Template.render_hole, id, takeBytes_append]
      split
      · rw [Template.render_hole, ih, id]
      · rw [Template.render_hole, Template.render_nil, List.append_nil, id]

theorem takeTemplate_ofText (n : Nat) (s : Str) : takeTemplate n (ofText s) = ofText (takeBytes n s) := by
  induction s generalizing n with
  | nil => rfl
  | cons c s ih =>
    show takeTemplate n (.lit c :: ofText s) = _
    rw [takeTemplate, takeBytes, ih]
    split <;> rfl

/-- The cut of `redactString`. -/
theorem truncate_shown (t : Template Str) :
    (if 4000 < (render id t).utf8Len then (truncate 4000 (render id t)).map fun out => out ++ ("...[truncated]" : Str)
      else some (render id t)) = (if Fits t then some (shown t) else none).map (render id) := by
  unfold shown truncate
  by_cases hlong : 4000 < (render id t).utf8Len
  · rw [if_pos hlong, if_pos (Nat.le_of_lt hlong), if_pos hlong]
    by_cases hboundary : isCharBoundary 4000 (render id t) = true
    · have hfits : Fits t := fun _ => hboundary
      rw [if_pos hboundary, if_pos hfits, Option.map_some, Option.map_some, Template.render_append, render_takeTemplate]
      rfl
    · have hfits : ¬Fits t := fun h => hboundary (h hlong)
      rw [if_neg hboundary, if_neg hfits]
      rfl
  · have hfits : Fits t := fun h => absurd h hlong
    rw [if_neg hlong, if_pos hfits, if_neg hlong]
    rfl

/-- The template is what `redactString` computes. -/
theorem redactString_eq (input : Str) : redactString input = (redactTemplate input).map (render id) := by
  have hplaceholder : looksLikeJwt "[REDACTED]" = false := by decide
  have hshort : ¬4000 < Str.utf8Len "[REDACTED]" := by decide
  unfold redactString redactTemplate
  dsimp only
  by_cases hsame : redactUriQuerySecrets input = input
  · rw [hsame, if_pos rfl]
    have hkept : (!decide (input ≠ input)) = true := by simp
    rw [hkept, Bool.true_and]
    cases hmarker : hasMarker input with
    | true =>
      unfold hasMarker at hmarker
      rw [hmarker, if_pos rfl, hplaceholder, Bool.true_or, if_pos rfl]
      rfl
    | false =>
      unfold hasMarker at hmarker
      rw [hmarker, Bool.false_or, if_neg Bool.false_ne_true]
      cases hjwt : looksLikeJwt input with
      | true => rfl
      | false =>
        have hcut := truncate_shown (ofText input)
        rw [Template.render_ofText] at hcut
        rw [if_neg Bool.false_ne_true, if_neg Bool.false_ne_true]
        exact hcut
  · rw [if_neg hsame]
    have hkept : (!decide (redactUriQuerySecrets input ≠ input)) = false := by simp [hsame]
    rw [hkept, Bool.false_and, if_neg Bool.false_ne_true,
      looksLikeJwt_of_rewritten (Classical.not_not.1 (mt (redactUriQuerySecrets_eq_self_iff input).2 hsame)),
      if_neg Bool.false_ne_true, redactUriQuerySecrets_eq]
    exact truncate_shown (queryTemplate input)

/-! ### What is shown -/

theorem runs_ofText_append (s : Str) (t : Template Str) : runs (ofText s ++ t) = (runs t).modifyHead (s ++ ·) := by
  induction s with
  | nil => cases h : runs t <;> simp [ofText, h]
  | cons c s ih =>
    show (runs (ofText s ++ t)).modifyHead (c :: ·) = _
    rw [ih]
    cases runs t <;> rfl

/-- Of a text without holes a beginning is shown. -/
theorem runs_shown_ofText (s : Str) : ∀ run ∈ runs (shown (ofText s)), run <+: s := by
  have hruns : ∀ a : Str, a <+: s → ∀ run ∈ [a, []], run <+: s := by
    intro a ha run hrun
    rw [List.mem_cons, List.mem_singleton] at hrun
    rcases hrun with rfl | rfl
    · exact ha
    · exact List.nil_prefix
  unfold shown
  split
  · rw [takeTemplate_ofText, runs_ofText_append]
    intro run hrun
    refine hruns _ (takeBytes_initial 4000 s) run ?_
    simpa [runs] using hrun
  · intro run hrun
    refine hruns s (List.prefix_refl s) run ?_
    rw [← List.append_nil (ofText s), runs_ofText_append] at hrun
    exact List.mem_cons.2 (Or.inl (by simpa [runs] using hrun))

theorem hasMarker_of_initial {a s : Str} (h : a <+: s) (hmarker : hasMarker a = true) : hasMarker s = true := by
  obtain ⟨marker, hmem, hcontains⟩ := List.any_eq_true.1 hmarker
  refine List.any_eq_true.2 ⟨marker, hmem, ?_⟩
  rw [Str.contains_iff] at hcontains ⊢
  exact hcontains.trans (h.map Char.toLower).isInfix

/-- A text without a marker shows none. -/
theorem noMarker_shown_ofText {s : Str} (h : hasMarker s = false) : NoMarker (shown (ofText s)) := by
  intro run hrun
  rw [Bool.eq_false_iff] at h ⊢
  exact mt (hasMarker_of_initial (runs_shown_ofText s run hrun)) h

theorem clean_placeholder : NoMarker [.hole "[REDACTED]"] ∧ NoJwtWord [.hole "[REDACTED]"] := by
  unfold NoMarker NoJwtWord runs runs words
  decide

theorem redacted_iff_template (input : Str) :
    Redacted input ↔ ∃ t, redactTemplate input = some t ∧ NoMarker t ∧ NoJwtWord t := by
  constructor
  · rintro ⟨t, ht, -, hclean⟩
    exact ⟨t, ht, hclean⟩
  · rintro ⟨t, ht, hclean⟩
    exact ⟨t, ht, by rw [redactString_eq, ht, Option.map_some], hclean⟩

/-- There is an answer without markers and tokens outside its placeholders exactly for the redactable texts. -/
theorem redacted_iff (input : Str) : Redacted input ↔ Redactable input := by
  rw [redacted_iff_template]
  unfold redactTemplate
  by_cases hrewritten : Rewritten input
  · have hchanged : ¬redactUriQuerySecrets input = input := mt (redactUriQuerySecrets_eq_self_iff input).1 (by simpa)
    rw [if_neg hchanged]
    constructor
    · rintro ⟨t, ht, hmarker, hjwt⟩
      obtain ⟨hfits, heq⟩ := Option.ite_none_right_eq_some.1 ht
      cases heq
      exact .query hrewritten hfits hmarker hjwt
    · intro h
      cases h with
      | withheld unchanged => exact absurd hrewritten unchanged
      | plain unchanged => exact absurd hrewritten unchanged
      | query _ fits marker jwt => exact ⟨_, if_pos fits, marker, jwt⟩
  · rw [if_pos ((redactUriQuerySecrets_eq_self_iff input).2 hrewritten)]
    by_cases hsecret : (hasMarker input || looksLikeJwt input) = true
    · rw [if_pos hsecret]
      exact iff_of_true ⟨_, rfl, clean_placeholder⟩ (.withheld hrewritten (by simpa using hsecret))
    · rw [if_neg hsecret]
      rw [Bool.or_eq_true, not_or, Bool.not_eq_true] at hsecret
      constructor
      · rintro ⟨t, ht, -, hjwt⟩
        obtain ⟨hfits, heq⟩ := Option.ite_none_right_eq_some.1 ht
        cases heq
        exact .plain hrewritten hfits hjwt
      · intro h
        cases h with
        | withheld _ secret =>
          rcases secret with hmarker | hjwt
          · rw [hsecret.1] at hmarker
            cases hmarker
          · exact absurd hjwt hsecret.2
        | plain _ fits jwt => exact ⟨_, if_pos fits, noMarker_shown_ofText hsecret.1, jwt⟩
        | query changed => exact absurd changed hrewritten

/-! ### A bearer token that is shown, and a panic -/

/-- A text of 4001 bytes, the last two of which are one character. -/
def cutText : Str := List.replicate 3999 'a' ++ ['é']

theorem mem_cutText {c : Char} (h : c ∈ cutText) : c = 'a' ∨ c = 'é' := by
  rcases List.mem_append.1 h with h | h
  · exact Or.inl (List.eq_of_mem_replicate h)
  · exact Or.inr (List.mem_singleton.1 h)

theorem not_fits_cutText : ¬ Fits (ofText cutText) := by
  have hlen : Str.utf8Len (List.replicate 3999 'a') = 3999 := by
    unfold Str.utf8Len
    rw [List.map_replicate, List.sum_replicate_nat]
    rfl
  have hall : cutText.utf8Len = 4001 := by
    have happend : cutText.utf8Len = Str.utf8Len (List.replicate 3999 'a') + Str.utf8Len ['é'] := by
      unfold cutText Str.utf8Len
      rw [List.map_append, List.sum_append]
    rw [happend, hlen]
    rfl
  have hcut : takeBytes 4000 cutText = List.replicate 3999 'a' := by
    unfold cutText
    rw [takeBytes_append, hlen, if_pos (by decide)]
    exact List.append_nil _
  intro h
  have hboundary := h (by rw [Template.render_ofText, hall]; decide)
  rw [Template.render_ofText] at hboundary
  unfold isCharBoundary at hboundary
  rw [hcut, hlen] at hboundary
  revert hboundary
  decide

theorem hasMarker_cutText : hasMarker cutText = false := by
  rw [Bool.eq_false_iff]
  intro hmarker
  obtain ⟨marker, hmem, hcontains⟩ := List.any_eq_true.1 hmarker
  rw [Str.contains_iff] at hcontains
  -- Every mark has a letter which does not occur in the text, in either case.
  have hother : (markers.all fun marker => marker.toAsciiLowercase.any fun c => c != 'a' && c != 'é') = true := by
    decide
  obtain ⟨c, hc, hne⟩ := List.any_eq_true.1 (List.all_eq_true.1 hother marker hmem)
  rw [Bool.and_eq_true, bne_iff_ne, bne_iff_ne] at hne
  obtain ⟨ha, he⟩ := hne
  obtain ⟨d, hd, rfl⟩ := List.mem_map.1 (hcontains.subset hc)
  rcases mem_cutText hd with rfl | rfl
  · exact ha (by decide)
  · exact he (by decide)

theorem looksLikeJwt_cutText : looksLikeJwt cutText = false := by
  rw [Bool.eq_false_iff]
  intro hjwt
  have hlast : 'é' ∈ cutText := List.mem_append_right _ (List.mem_singleton_self 'é')
  exact absurd (isJwtChar_of_looksLikeJwt hjwt hlast (by decide) (by decide)) (by decide)

theorem not_rewritten_cutText : ¬Rewritten cutText := by
  have hmark : Str.splitOnce '?' cutText = none := by
    refine Str.splitOnce_eq_none.2 fun hmem => ?_
    rcases mem_cutText hmem with h | h <;> revert h <;> decide
  rintro ⟨part, hpart, -⟩
  unfold queryParts at hpart
  rw [hmark] at hpart
  cases hpart

/-- The text is cut inside of its last character, which is a panic. -/
theorem redactString_cutText : redactString cutText = none := by
  rw [redactString_eq]
  unfold redactTemplate
  rw [if_pos ((redactUriQuerySecrets_eq_self_iff _).2 not_rewritten_cutText), hasMarker_cutText, looksLikeJwt_cutText,
    if_neg not_fits_cutText]
  rfl

/-- A bearer token is shown if the text has a password in a query too, and a text of 4001 bytes is a panic. -/
theorem not_redacted : (¬ ∀ input, Redacted input) ∧ redactString cutText = none ∧ ¬ Redacted cutText := by
  refine ⟨fun h => ?_, redactString_cutText, ?_⟩
  · obtain ⟨t, ht, -, hmarker, -⟩ := h "Bearer abc123 /?password=hunter22"
    have hshown : redactTemplate "Bearer abc123 /?password=hunter22" =
        some (ofText "Bearer abc123 /?password=" ++ [.hole "[REDACTED]"]) := by decide +kernel
    obtain rfl := Option.some.inj (hshown.symm.trans ht)
    exact absurd (hmarker "Bearer abc123 /?password=" (by decide +kernel)) (by decide +kernel)
  · rintro ⟨t, -, hanswer, -⟩
    rw [redactString_cutText] at hanswer
    cases hanswer

end AssistantRedaction

end Oproxy
