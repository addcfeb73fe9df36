import Oproxy.Lib.Json

/-!
# Texts with holes

A text in which some places are left open, and what becomes of it when texts are put into the holes.  Replacing a text
fills the holes which show it anew, if the text stands nowhere else (`replace_render`); and so does replacing several
texts by one mark, one after the other (`foldl_replace_render`).
-/

inductive Piece (ι : Type) where
  | lit (c : Char)
  | hole (i : ι)
  deriving DecidableEq

abbrev Template (ι : Type) := List (Piece ι)

namespace Template

variable {ι : Type}

/-- The text with its holes filled. -/
def render (σ : ι → Str) : Template ι → Str
  | [] => []
  | .lit c :: t => c :: render σ t
  | .hole i :: t => σ i ++ render σ t

/-- A text without holes. -/
def ofText (s : Str) : Template ι := s.map .lit

def holes : Template ι → List ι
  | [] => []
  | .lit _ :: t => holes t
  | .hole i :: t => i :: holes t

@[simp] theorem render_nil (σ : ι → Str) : render σ [] = [] := rfl

@[simp] theorem render_lit (σ : ι → Str) (c : Char) (t : Template ι) : render σ (.lit c :: t) = c :: render σ t := rfl

@[simp] theorem render_hole (σ : ι → Str) (i : ι) (t : Template ι) : render σ (.hole i :: t) = σ i ++ render σ t := rfl

@[simp] theorem render_append (σ : ι → Str) (t u : Template ι) : render σ (t ++ u) = render σ t ++ render σ u := by
  induction t with
  | nil => rfl
  | cons p t ih =>
    cases p with
    | lit c => simp [ih]
    | hole i => simp [ih]

@[simp] theorem render_ofText (σ : ι → Str) (s : Str) : render σ (ofText s) = s := by
  unfold ofText
  induction s with
  | nil => rfl
  | cons c s ih => simp [ih]

@[simp] theorem holes_append (t u : Template ι) : holes (t ++ u) = holes t ++ holes u := by
  induction t with
  | nil => rfl
  | cons p t ih =>
    cases p with
    | lit c => simpa [holes] using ih
    | hole i => simp [holes, ih]

@[simp] theorem holes_ofText (s : Str) : holes (ofText s : Template ι) = [] := by
  unfold ofText
  induction s with
  | nil => rfl
  | cons c s ih => exact ih

/-- Only what is put into the holes matters. -/
theorem render_congr {σ τ : ι → Str} {t : Template ι} (h : ∀ i ∈ t.holes, σ i = τ i) : render σ t = render τ t := by
  induction t with
  | nil => rfl
  | cons p t ih =>
    cases p with
    | lit c => rw [render_lit, render_lit, ih h]
    | hole i =>
      rw [render_hole, render_hole, h i List.mem_cons_self, ih fun j hj => h j (List.mem_cons_of_mem _ hj)]

/-! ### Replacing a text -/

/-- In the text with its holes filled, `pat` starts where a hole shows it, and otherwise nowhere but inside such a
hole. -/
def OnlyInHoles (pat : Str) (σ : ι → Str) : Template ι → Prop
  | [] => True
  | .lit c :: t => Str.startsWith (c :: render σ t) pat = false ∧ OnlyInHoles pat σ t
  | .hole i :: t =>
    (σ i = pat ∨ ∀ b, b ≠ [] → b <:+ σ i → Str.startsWith (b ++ render σ t) pat = false) ∧ OnlyInHoles pat σ t

/-- What the holes show once each of some texts is replaced by a mark. -/
def masked (replaced : List Str) (mark : Str) (σ : ι → Str) : ι → Str := fun i =>
  if σ i ∈ replaced then mark else σ i

@[simp] theorem masked_nil (mark : Str) (σ : ι → Str) : masked [] mark σ = σ := by
  funext i
  simp [masked]

theorem replace_render {pat : Str} (hpat : pat ≠ []) (new : Str) {σ : ι → Str} {t : Template ι}
    (h : OnlyInHoles pat σ t) : Str.replace pat new (render σ t) = render (masked [pat] new σ) t := by
  induction t with
  | nil => exact Str.replace_nil pat new
  | cons p t ih =>
    cases p with
    | lit c =>
      obtain ⟨hstart, hrest⟩ := h
      rw [render_lit, Str.replace_cons hstart, ih hrest, render_lit]
    | hole i =>
      obtain ⟨hhole, hrest⟩ := h
      rw [render_hole, render_hole, ← ih hrest]
      unfold masked
      by_cases hshown : σ i = pat
      · rw [hshown, if_pos (List.mem_singleton.2 rfl), Str.replace_append_self hpat]
      · rw [if_neg fun hmem => hshown (List.mem_singleton.1 hmem), Str.replace_append (hhole.resolve_left hshown)]

/-- When its turn comes, each of the texts stands only where a hole shows it, the ones before it being replaced. -/
def ApartInTurn (texts : List Str) (mark : Str) (σ : ι → Str) (t : Template ι) : Prop :=
  ∀ done v left, texts = done ++ v :: left → OnlyInHoles v (masked done mark σ) t

theorem masked_masked {replaced : List Str} {v : Str} (hv : v ∉ replaced) (mark : Str) (σ : ι → Str) :
    masked [v] mark (masked replaced mark σ) = masked (replaced ++ [v]) mark σ := by
  funext i
  unfold masked
  by_cases hreplaced : σ i ∈ replaced
  · simp [hreplaced]
  · by_cases hshown : σ i = v
    · simp [hv, hshown]
    · simp [hreplaced, hshown]

/-- Replacing the texts one after the other. -/
theorem foldl_replace_render {texts : List Str} {mark : Str} {σ : ι → Str} {t : Template ι}
    (h : ApartInTurn texts mark σ t) (hnodup : texts.Nodup) (hne : ∀ v ∈ texts, v ≠ []) :
    texts.foldl (fun s v => Str.replace v mark s) (render σ t) = render (masked texts mark σ) t := by
  -- the induction is on the texts that are left, the others being replaced
  have hfold : ∀ (left replaced : List Str), replaced ++ left = texts →
      left.foldl (fun s v => Str.replace v mark s) (render (masked replaced mark σ) t) =
        render (masked texts mark σ) t := by
    intro left
    induction left with
    | nil =>
      intro replaced heq
      rw [List.foldl_nil, ← heq, List.append_nil]
    | cons v left ih =>
      intro replaced heq
      have hmem : v ∈ texts := heq ▸ List.mem_append_right _ List.mem_cons_self
      have hfresh : v ∉ replaced := by
        intro hin
        rw [← heq, List.nodup_append] at hnodup
        exact hnodup.2.2 v hin v List.mem_cons_self rfl
      rw [List.foldl_cons, replace_render (hne v hmem) mark (h replaced v left heq.symm), masked_masked hfresh mark]
      exact ih (replaced ++ [v]) (by rw [List.append_assoc]; exact heq)
  have hstart := hfold texts [] rfl
  rwa [masked_nil] at hstart

/-- Once every text that the holes show is replaced, what they showed is gone. -/
theorem render_masked_all {texts : List Str} {mark : Str} {σ : ι → Str} {t : Template ι}
    (h : ∀ i ∈ t.holes, σ i ∈ texts) : render (masked texts mark σ) t = render (fun _ => mark) t :=
  render_congr fun i hi => if_pos (h i hi)

end Template
