import Oproxy.Lib.Template

/-!
# Cutting texts out of a text

Several texts are replaced by a mark, one after the other and each in what is left by the ones before.  Where they
overlap in the text, this can cut one of them in two.  A division of the text into pieces which are cut out as a whole
and other characters says when it does not (`Divides`); then all occurrences are gone (`foldl_replace_divided`).
-/

namespace Template

/-- The text `v` stands in `s` from the position `p` on. -/
def OccursAt (s v : Str) (p : Nat) : Prop := v <+: s.drop p

/-- The text in which the mark has taken the place of the pieces that show one of some texts. -/
def marked (done : List Str) (mark : Str) (t : Template Str) : Str := render (masked done mark id) t

/-- A division of a text into pieces to be cut out, with the texts in the order in which they are replaced. -/
structure Divides (texts : List Str) (mark : Str) (t : Template Str) : Prop where
  /-- The pieces show texts which are replaced. -/
  listed : ∀ u ∈ t.holes, u ∈ texts
  /-- Every occurrence of such a text lies in one piece. -/
  within : ∀ v ∈ texts, ∀ p, OccursAt (render id t) v p → ∃ before u after, t = before ++ .hole u :: after ∧
    (render id before).length ≤ p ∧ p + v.length ≤ (render id before).length + u.length
  /-- No piece overlaps an occurrence of a text before its own, or another one of its own. -/
  first : ∀ done u left, texts = done ++ u :: left → ∀ before after, t = before ++ .hole u :: after →
    ∀ v ∈ done ++ [u], ∀ p, OccursAt (render id t) v p → p < (render id before).length + u.length →
      (render id before).length < p + v.length → v = u
  /-- When the turn of a text comes, it does not touch a mark. -/
  apart : ∀ done v left, texts = done ++ v :: left → ∀ before u after, t = before ++ .hole u :: after → u ∈ done →
    ∀ p, OccursAt (marked done mark t) v p →
      p + v.length ≤ (marked done mark before).length ∨ (marked done mark before).length + mark.length ≤ p

/-! ### Checking a division -/

instance (s v : Str) (p : Nat) : Decidable (OccursAt s v p) := inferInstanceAs (Decidable (v <+: s.drop p))

/-- The elements of a list, each with those before it. -/
def turns {α : Type} : List α → List (List α × α)
  | [] => []
  | a :: l => ([], a) :: (turns l).map fun e => (a :: e.1, e.2)

theorem mem_turns {α : Type} {l done left : List α} {a : α} (h : l = done ++ a :: left) : (done, a) ∈ turns l := by
  induction done generalizing l with
  | nil =>
    subst h
    exact List.mem_cons_self
  | cons b done ih =>
    subst h
    exact List.mem_cons_of_mem _ (List.mem_map.2 ⟨(done, a), ih rfl, rfl⟩)

theorem of_mem_turns {α : Type} {l done : List α} {a : α} (h : (done, a) ∈ turns l) :
    ∃ left, l = done ++ a :: left := by
  induction l generalizing done with
  | nil => cases h
  | cons b l ih =>
    rcases List.mem_cons.1 h with heq | hmem
    · cases heq
      exact ⟨l, rfl⟩
    · obtain ⟨⟨done', a'⟩, hin, heq⟩ := List.mem_map.1 hmem
      cases heq
      obtain ⟨left, rfl⟩ := ih hin
      exact ⟨left, rfl⟩

theorem OccursAt.lt_length {s v : Str} {p : Nat} (h : OccursAt s v p) (hne : v ≠ []) : p < s.length := by
  have hlength := h.length_le
  have hpos := List.length_pos_iff.2 hne
  rw [List.length_drop] at hlength
  omega

/-- Only the positions in the text have to be looked at. -/
theorem divides_of_positions {texts : List Str} {mark : Str} {t : Template Str} (hne : ∀ v ∈ texts, v ≠ [])
    (hlisted : ∀ u ∈ t.holes, u ∈ texts)
    (hwithin : ∀ v ∈ texts, ∀ p < (render id t).length, OccursAt (render id t) v p → ∃ e ∈ turns t,
      ∃ u ∈ t.holes, e.2 = .hole u ∧ (render id e.1).length ≤ p ∧ p + v.length ≤ (render id e.1).length + u.length)
    (hfirst : ∀ d ∈ turns texts, ∀ e ∈ turns t, e.2 = .hole d.2 → ∀ v ∈ d.1 ++ [d.2],
      ∀ p < (render id t).length, OccursAt (render id t) v p → p < (render id e.1).length + d.2.length →
        (render id e.1).length < p + v.length → v = d.2)
    (hapart : ∀ d ∈ turns texts, ∀ e ∈ turns t, ∀ u ∈ d.1, e.2 = .hole u →
      ∀ p < (marked d.1 mark t).length, OccursAt (marked d.1 mark t) d.2 p →
        p + d.2.length ≤ (marked d.1 mark e.1).length ∨ (marked d.1 mark e.1).length + mark.length ≤ p) :
    Divides texts mark t where
  listed := hlisted
  within := by
    intro v hv p hp
    obtain ⟨⟨before, piece⟩, he, u, -, rfl, hle, hend⟩ := hwithin v hv p (hp.lt_length (hne v hv)) hp
    obtain ⟨after, ht⟩ := of_mem_turns he
    exact ⟨before, u, after, ht, hle, hend⟩
  first := by
    intro done u left heq before after ht v hv p hp hlt hgt
    have hmem : v ∈ texts := by
      rw [heq]
      rcases List.mem_append.1 hv with hdone | hu
      · exact List.mem_append_left _ hdone
      · exact List.mem_append_right _ (List.mem_singleton.1 hu ▸ List.mem_cons_self)
    exact hfirst (done, u) (mem_turns heq) (before, .hole u) (mem_turns ht) rfl v hv p (hp.lt_length (hne v hmem)) hp
      hlt hgt
  apart := by
    intro done v left heq before u after ht hu p hp
    have hmem : v ∈ texts := heq ▸ List.mem_append_right _ List.mem_cons_self
    exact hapart (done, v) (mem_turns heq) (before, .hole u) (mem_turns ht) u hu rfl p (hp.lt_length (hne v hmem)) hp

/-! ### Occurrences in pieces -/

variable {done : List Str} {mark : Str}

theorem marked_append (t t' : Template Str) : marked done mark (t ++ t') = marked done mark t ++ marked done mark t' :=
  render_append _ t t'

theorem occursAt_append {s s' v : Str} (h : v <+: s') : OccursAt (s ++ s') v s.length := by
  unfold OccursAt
  rwa [List.drop_left]

/-- An occurrence which ends before the first mark is one in the text without marks. -/
theorem prefix_of_apart {v : Str} (t : Template Str) : ∀ b : Str, v <+: b ++ marked done mark t →
    (∀ before u after, t = before ++ .hole u :: after → u ∈ done →
      v.length ≤ b.length + (marked done mark before).length) →
    v <+: b ++ render id t := by
  induction t with
  | nil => exact fun b h _ => h
  | cons piece t ih =>
    intro b hprefix hapart
    -- the text of the first piece joins the text before
    have hjoin : ∀ shown : Str, marked done mark [piece] = shown → render id [piece] = shown →
        v <+: b ++ render id (piece :: t) := by
      intro shown hmarked hshown
      have hmarks : marked done mark (piece :: t) = shown ++ marked done mark t := by
        rw [← hmarked]
        exact marked_append [piece] t
      have htext : render id (piece :: t) = shown ++ render id t := by
        rw [← hshown]
        exact render_append id [piece] t
      rw [hmarks, ← List.append_assoc] at hprefix
      rw [htext, ← List.append_assoc]
      refine ih (b ++ shown) hprefix fun before u after heq hu => ?_
      have hlength := hapart (piece :: before) u after (by rw [heq]; rfl) hu
      have hmarksBefore : marked done mark (piece :: before) = shown ++ marked done mark before := by
        rw [← hmarked]
        exact marked_append [piece] before
      rw [hmarksBefore, List.length_append] at hlength
      rw [List.length_append]
      omega
    cases piece with
    | lit c => exact hjoin [c] rfl rfl
    | hole u =>
      by_cases hu : u ∈ done
      · have hlength := hapart [] u t rfl hu
        have hshort : v <+: b := by
          refine List.prefix_of_prefix_length_le hprefix (List.prefix_append _ _) ?_
          simpa [marked] using hlength
        exact hshort.trans (List.prefix_append _ _)
      · refine hjoin u ?_ ?_
        · show masked done mark id u ++ [] = u
          rw [List.append_nil]
          exact if_neg hu
        · exact List.append_nil _

/-- A character between the pieces lies in none of them. -/
theorem outside_of_lit {before after before' after' : Template Str} {c : Char} {u : Str}
    (heq : before ++ .lit c :: after = before' ++ .hole u :: after') :
    (render id before).length < (render id before').length ∨
      (render id before').length + u.length ≤ (render id before).length := by
  rcases List.append_eq_append_iff.1 heq with ⟨between, rfl, hbetween⟩ | ⟨between, rfl, hbetween⟩
  · refine Or.inl ?_
    cases between with
    | nil => cases hbetween
    | cons piece between =>
      obtain ⟨rfl, -⟩ := List.cons.inj hbetween
      rw [render_append, List.length_append, render_lit, List.length_cons]
      omega
  · refine Or.inr ?_
    cases between with
    | nil => cases hbetween
    | cons piece between =>
      obtain ⟨rfl, -⟩ := List.cons.inj hbetween
      rw [render_append, List.length_append, render_hole, List.length_append]
      show (render id before').length + u.length ≤ _ + (u.length + _)
      omega

/-! ### Replacing the pieces -/

section

variable {texts left : List Str} {v : Str} {t : Template Str}

/-- A text whose turn has come and which starts in a piece that is still there stands there in the text without
marks. -/
theorem Divides.occursAt (h : Divides texts mark t) (heq : texts = done ++ v :: left) {before after : Template Str}
    {piece : Piece Str} (ht : t = before ++ piece :: after) {z b : Str} (hmarked : marked done mark [piece] = z ++ b)
    (hshown : render id [piece] = z ++ b) (hb : b ≠ []) (hstart : v <+: b ++ marked done mark after) :
    OccursAt (render id t) v ((render id before).length + z.length) := by
  have hpos : 0 < b.length := List.length_pos_iff.2 hb
  have hmarks : marked done mark t = (marked done mark before ++ z) ++ (b ++ marked done mark after) := by
    have hpiece : marked done mark (piece :: after) = (z ++ b) ++ marked done mark after := by
      rw [← hmarked]
      exact marked_append [piece] after
    rw [ht, marked_append, hpiece]
    simp only [List.append_assoc]
  have htext : render id t = (render id before ++ z) ++ (b ++ render id after) := by
    have hpiece : render id (piece :: after) = (z ++ b) ++ render id after := by
      rw [← hshown]
      exact render_append id [piece] after
    rw [ht, render_append, hpiece]
    simp only [List.append_assoc]
  have hhere : OccursAt (marked done mark t) v ((marked done mark before).length + z.length) := by
    rw [hmarks, ← List.length_append]
    exact occursAt_append hstart
  have hprefix : v <+: b ++ render id after := by
    refine prefix_of_apart after b hstart fun between u rest hafter hu => ?_
    have hsplit : t = (before ++ piece :: between) ++ .hole u :: rest := by
      rw [ht, hafter, List.append_assoc, List.cons_append]
    have hlength : (marked done mark (before ++ piece :: between)).length =
        (marked done mark before).length + (z.length + b.length) + (marked done mark between).length := by
      have hpiece : marked done mark (piece :: between) = (z ++ b) ++ marked done mark between := by
        rw [← hmarked]
        exact marked_append [piece] between
      rw [marked_append, hpiece, List.length_append, List.length_append, List.length_append]
      omega
    have hapart := h.apart done v left heq _ u rest hsplit hu _ hhere
    omega
  rw [htext, ← List.length_append]
  exact occursAt_append hprefix

theorem Divides.onlyInHoles (h : Divides texts mark t) (hne : ∀ u ∈ texts, u ≠ [])
    (heq : texts = done ++ v :: left) :
    ∀ rest before, t = before ++ rest → OnlyInHoles v (masked done mark id) rest := by
  have hv : v ∈ texts := heq ▸ List.mem_append_right _ List.mem_cons_self
  have hpos : 0 < v.length := List.length_pos_iff.2 (hne v hv)
  intro rest
  induction rest with
  | nil => exact fun _ _ => trivial
  | cons piece after ih =>
    intro before ht
    have hafter := ih (before ++ [piece]) (by rw [ht, List.append_assoc]; rfl)
    cases piece with
    | lit c =>
      refine ⟨Bool.eq_false_iff.2 fun hstart => ?_, hafter⟩
      obtain ⟨r, hr⟩ := Str.startsWith_iff.1 hstart
      have hhere := h.occursAt heq ht (z := []) (b := [c]) rfl rfl (by simp) ⟨r, hr.symm⟩
      obtain ⟨before', u, after', ht', hle, hend⟩ := h.within v hv _ hhere
      have houtside := outside_of_lit (ht.symm.trans ht')
      rw [List.length_nil] at hle hend
      omega
    | hole u =>
      refine ⟨?_, hafter⟩
      by_cases hu : u ∈ done
      · -- a mark stands here, which the text does not touch
        have hshown : masked done mark id u = mark := if_pos hu
        rw [hshown]
        refine Or.inr fun b hb hsuffix => Bool.eq_false_iff.2 fun hstart => ?_
        obtain ⟨r, hr⟩ := Str.startsWith_iff.1 hstart
        obtain ⟨z, hz⟩ := hsuffix
        have hmarks : marked done mark t = (marked done mark before ++ z) ++ (b ++ marked done mark after) := by
          have hpiece : marked done mark (.hole u :: after) = mark ++ marked done mark after := by
            show masked done mark id u ++ marked done mark after = mark ++ marked done mark after
            rw [hshown]
          rw [ht, marked_append, hpiece, ← hz]
          simp only [List.append_assoc]
        have hhere : OccursAt (marked done mark t) v ((marked done mark before).length + z.length) := by
          rw [hmarks, ← List.length_append]
          exact occursAt_append ⟨r, hr.symm⟩
        have hapart := h.apart done v left heq before u after ht hu _ hhere
        have hlength := congrArg List.length hz
        have hbpos : 0 < b.length := List.length_pos_iff.2 hb
        rw [List.length_append] at hlength
        omega
      · have hshown : masked done mark id u = u := if_neg hu
        rw [hshown]
        by_cases hsame : u = v
        · exact Or.inl hsame
        · refine Or.inr fun b hb hsuffix => Bool.eq_false_iff.2 fun hstart => ?_
          obtain ⟨r, hr⟩ := Str.startsWith_iff.1 hstart
          obtain ⟨z, hz⟩ := hsuffix
          have hmarked : marked done mark [.hole u] = z ++ b := by
            show masked done mark id u ++ [] = z ++ b
            rw [hshown, List.append_nil, hz]
          have hrender : render id [.hole u] = z ++ b := by
            rw [hz]
            exact List.append_nil u
          have hhere := h.occursAt heq ht hmarked hrender hb ⟨r, hr.symm⟩
          -- the turn of this piece comes later
          have hlater : u ∈ left := by
            have hmem := h.listed u (by rw [ht]; simp [holes])
            rw [heq, List.mem_append, List.mem_cons] at hmem
            exact (hmem.resolve_left hu).resolve_left hsame
          obtain ⟨l, l', rfl⟩ := List.append_of_mem hlater
          have hbpos : 0 < b.length := List.length_pos_iff.2 hb
          have hlength := congrArg List.length hz
          rw [List.length_append] at hlength
          refine hsame (h.first (done ++ v :: l) u l' (by rw [heq, List.append_assoc]; rfl) before after ht v ?_ _ hhere
            ?_ ?_).symm
          · simp
          · omega
          · omega

/-- Replacing the texts in their order cuts out the pieces and nothing else. -/
theorem foldl_replace_divided (h : Divides texts mark t) (hne : ∀ u ∈ texts, u ≠ [])
    (hnodup : texts.Nodup) :
    texts.foldl (fun s u => Str.replace u mark s) (render id t) = render (fun _ => mark) t := by
  -- the induction is on the texts that are left, the others being replaced
  have hfold : ∀ left done, texts = done ++ left →
      left.foldl (fun s u => Str.replace u mark s) (marked done mark t) = marked texts mark t := by
    intro left
    induction left with
    | nil =>
      intro done heq
      rw [List.foldl_nil, heq, List.append_nil]
    | cons u left ih =>
      intro done heq
      have hmem : u ∈ texts := heq ▸ List.mem_append_right _ List.mem_cons_self
      have hfresh : u ∉ done := by
        intro hin
        rw [heq, List.nodup_append] at hnodup
        exact hnodup.2.2 u hin u List.mem_cons_self rfl
      have honly := h.onlyInHoles hne heq t [] rfl
      have hreplaced : Str.replace u mark (marked done mark t) = marked (done ++ [u]) mark t := by
        unfold marked
        rw [replace_render (hne u hmem) mark honly, masked_masked hfresh mark]
      rw [List.foldl_cons, hreplaced]
      exact ih (done ++ [u]) (by rw [List.append_assoc]; exact heq)
  have hall := hfold texts [] rfl
  have hstart : marked [] mark t = render id t := by
    unfold marked
    rw [masked_nil]
  rw [hstart] at hall
  rw [hall]
  exact render_masked_all h.listed

end

end Template
