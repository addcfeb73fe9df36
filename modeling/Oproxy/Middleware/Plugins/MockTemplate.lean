import Oproxy.Lib.Marks
import Oproxy.Middleware.Plugins.Mock

/-!
# Filling in a mock's template (`middleware/plugins/mock.rs`)

The placeholders `${i}` of a template, all filled in at once, against the rounds of replacements which the code makes.
-/

namespace Oproxy

namespace MockTemplate

open Template

def placeholder (i : Nat) : Str := ['$', '\x7b'] ++ Str.ofNat i ++ ['\x7d']

/-- The number of the placeholder at the beginning of a text. -/
def placeholderAt (s : Str) : Option Nat :=
  let i := Nat.ofDigitChars 10 ((s.drop 2).takeWhile Str.isAsciiDigit) 0
  if Str.startsWith s (placeholder i) then some i else none

/-- A text with its placeholders as holes; `skip` characters belong to a placeholder before. -/
def piecesFrom : Nat → Str → Template Nat
  | _, [] => []
  | skip + 1, _ :: s => piecesFrom skip s
  | 0, c :: s =>
    match placeholderAt (c :: s) with
    | some i => .hole i :: piecesFrom ((placeholder i).length - 1) s
    | none => .lit c :: piecesFrom 0 s

def pieces (template : Str) : Template Nat := piecesFrom 0 template

/-- What stands at a placeholder: the capture, and the placeholder itself where there is none. -/
def filling (captures : List Str) (i : Nat) : Str := captures[i]?.getD (placeholder i)

/-- The template with all placeholders filled in at once. -/
def fill (captures : List Str) (template : Str) : Str := render (filling captures) (pieces template)

/-- The template is filled in as if at once, and after every round so: no text of a capture is taken for a
placeholder. -/
def Simultaneous (template : Str) (captures : List Str) : Prop :=
  ∀ rounds ≤ captures.length, applyTemplate template (captures.take rounds) = fill (captures.take rounds) template

/-- In the template, filled with the captures before, a capture's placeholder starts nowhere but where the template
has it. -/
def NoNewPlaceholder (template : Str) (captures : List Str) : Prop :=
  ∀ i value, captures[i]? = some value → value = placeholder i ∨
    NoneOutside (placeholder i) (focus i (filling (captures.take i)) (pieces template))

/-! ### The placeholders of a template -/

theorem not_mem_placeholder_tail (i : Nat) : '$' ∉ '\x7b' :: (Str.ofNat i ++ ['\x7d']) := by
  rw [List.mem_cons, List.mem_append, List.mem_singleton]
  rintro (h | h | h)
  · exact absurd h (by decide)
  · exact absurd (Str.isAsciiDigit_of_mem_ofNat h) (by decide)
  · exact absurd h (by decide)

theorem startsWith_of_placeholderAt {s : Str} {i : Nat} (h : placeholderAt s = some i) :
    Str.startsWith s (placeholder i) = true := by
  unfold placeholderAt at h
  dsimp only at h
  split at h
  · rename_i hstart
    cases h
    exact hstart
  · cases h

theorem placeholderAt_append (i : Nat) (s : Str) : placeholderAt (placeholder i ++ s) = some i := by
  have hdigits : ((placeholder i ++ s).drop 2).takeWhile Str.isAsciiDigit = Str.ofNat i := by
    have hdrop : (placeholder i ++ s).drop 2 = Str.ofNat i ++ '\x7d' :: s := by
      unfold placeholder
      rw [List.append_assoc, List.append_assoc]
      rfl
    rw [hdrop, List.takeWhile_append_of_pos fun c hc => Str.isAsciiDigit_of_mem_ofNat hc]
    exact List.append_nil _
  have hnumber : Nat.ofDigitChars 10 (Str.ofNat i) 0 = i := Nat.ofDigitChars_ten_toDigits
  unfold placeholderAt
  rw [hdigits]
  dsimp only
  rw [hnumber, if_pos (Str.startsWith_iff.2 ⟨s, rfl⟩)]

theorem render_placeholder (s : Str) : ∀ skip, render placeholder (piecesFrom skip s) = s.drop skip := by
  induction s with
  | nil =>
    intro skip
    rw [List.drop_nil]
    cases skip <;> rfl
  | cons c s ih =>
    intro skip
    cases skip with
    | succ skip => exact ih skip
    | zero =>
      unfold piecesFrom
      cases hplaceholder : placeholderAt (c :: s) with
      | none =>
        dsimp only
        rw [render_lit, ih 0]
        rfl
      | some i =>
        dsimp only
        obtain ⟨after, hafter⟩ := Str.startsWith_iff.1 (startsWith_of_placeholderAt hplaceholder)
        have htail : s.drop ((placeholder i).length - 1) = after := by
          have hdrop := congrArg (List.drop (placeholder i).length) hafter
          rwa [List.drop_left] at hdrop
        rw [render_hole, ih, htail, List.drop_zero, hafter]

/-! ### The rounds -/

theorem applyTemplate_succ {captures : List Str} {i : Nat} {value : Str} (h : captures[i]? = some value)
    (template : Str) : applyTemplate template (captures.take (i + 1)) =
      Str.replace (placeholder i) value (applyTemplate template (captures.take i)) := by
  have hlt : i < captures.length := (List.getElem?_eq_some_iff.1 h).1
  unfold applyTemplate
  rw [List.take_add_one, h, Option.toList_some, List.zipIdx_append, List.foldl_append, List.length_take,
    Nat.min_eq_left (Nat.le_of_lt hlt), Nat.zero_add]
  rfl

theorem fill_nil (template : Str) : fill [] template = template := render_placeholder template 0

section

variable {captures : List Str} {i : Nat}

theorem filling_take_self : filling (captures.take i) i = placeholder i := by
  unfold filling
  rw [List.getElem?_take_eq_none (Nat.le_refl i), Option.getD_none]

theorem filling_take_succ {value : Str} (h : captures[i]? = some value) :
    filling (captures.take (i + 1)) = Function.update (filling (captures.take i)) i value := by
  funext j
  unfold filling
  by_cases hj : j = i
  · rw [hj, Function.update_self, List.getElem?_take_of_lt (Nat.lt_succ_self i), h, Option.getD_some]
  · rw [Function.update_of_ne hj]
    rcases Nat.lt_or_gt_of_ne hj with hless | hmore
    · rw [List.getElem?_take_of_lt (Nat.lt_succ_of_lt hless), List.getElem?_take_of_lt hless]
    · rw [List.getElem?_take_eq_none hmore, List.getElem?_take_eq_none (Nat.le_of_lt hmore)]

/-- What a round does to the template with the captures before it. -/
theorem round_iff {value : Str} (h : captures[i]? = some value) (template : Str) :
    Str.replace (placeholder i) value (fill (captures.take i) template) = fill (captures.take (i + 1)) template ↔
      value = placeholder i ∨ NoneOutside (placeholder i) (focus i (filling (captures.take i)) (pieces template)) := by
  have hbefore : fill (captures.take i) template =
      shown (placeholder i) (focus i (filling (captures.take i)) (pieces template)) := by
    rw [shown_focus]
    unfold fill
    rw [← filling_take_self, Function.update_eq_self]
  have hafter : fill (captures.take (i + 1)) template =
      shown value (focus i (filling (captures.take i)) (pieces template)) := by
    rw [shown_focus]
    unfold fill
    rw [filling_take_succ h]
  rw [hbefore, hafter]
  exact replace_shown_iff (not_mem_placeholder_tail i) value _

end

/-- The exact condition on a template and the captures. -/
theorem simultaneous_iff (template : Str) (captures : List Str) :
    Simultaneous template captures ↔ NoNewPlaceholder template captures := by
  constructor
  · intro h i value hvalue
    have hlt : i < captures.length := (List.getElem?_eq_some_iff.1 hvalue).1
    have hnext := h (i + 1) hlt
    rw [applyTemplate_succ hvalue, h i (Nat.le_of_lt hlt)] at hnext
    exact (round_iff hvalue template).1 hnext
  · intro h rounds
    induction rounds with
    | zero => exact fun _ => (fill_nil template).symm
    | succ i ih =>
      intro hi
      obtain ⟨value, hvalue⟩ : ∃ value, captures[i]? = some value := ⟨_, List.getElem?_eq_getElem hi⟩
      rw [applyTemplate_succ hvalue, ih (Nat.le_of_lt hi)]
      exact (round_iff hvalue template).2 (h i value hvalue)

/-- The path `/a${1}` against the pattern `/(a)(.*)`: the second group of the match is filled in again. -/
theorem not_fill : ¬ ∀ template captures, applyTemplate template captures = fill captures template := by
  intro h
  exact absurd (h "${0}" ["/a${1}", "a", "${1}"]) (by decide +kernel)

end MockTemplate

end Oproxy
