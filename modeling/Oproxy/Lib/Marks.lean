import Oproxy.Lib.Template
import Mathlib.Logic.Function.Basic

/-!
# Replacing the marks of a text

A text in which a mark is shown at some places is edited by replacing the mark.  This fills the places and leaves the
rest alone exactly where the mark starts nowhere else (`replace_shown_iff`), if its first character is not in it again.
-/

/-- A text which is replaced by itself stays. -/
theorem Str.replace_self {pat : Str} (hpat : pat ≠ []) (s : Str) : Str.replace pat pat s = s := by
  induction hn : s.length using Nat.strong_induction_on generalizing s with
  | _ n ih =>
    cases s with
    | nil => exact Str.replace_nil pat pat
    | cons c s =>
      by_cases hstart : Str.startsWith (c :: s) pat = true
      · obtain ⟨after, hafter⟩ := Str.startsWith_iff.1 hstart
        have hless : after.length < n := by
          have hlength := congrArg List.length hafter
          have hpos := List.length_pos_iff.2 hpat
          rw [List.length_append] at hlength
          omega
        rw [hafter, Str.replace_append_self hpat, ih after.length hless after rfl]
      · rw [Str.replace_cons (by simpa using hstart), ih s.length (by rw [← hn]; simp) s rfl]

namespace Template

/-- The text with a mark at its holes. -/
def shown (mark : Str) (t : Template Unit) : Str := render (fun _ => mark) t

/-- No mark starts at the characters between the holes. -/
def NoneOutside (mark : Str) : Template Unit → Prop
  | [] => True
  | .lit c :: t => Str.startsWith (c :: shown mark t) mark = false ∧ NoneOutside mark t
  | .hole _ :: t => NoneOutside mark t

section

variable {p : Char} {rest : Str}

/-- A text without the first character of the mark, where it stands in the text, is not part of a mark. -/
private theorem eq_lits_of_startsWith {q : Str} (hq : p ∉ q) {t : Template Unit}
    (h : Str.startsWith (shown (p :: rest) t) q = true) : ∃ t', t = q.map .lit ++ t' := by
  induction q generalizing t with
  | nil => exact ⟨t, rfl⟩
  | cons c q ih =>
    rw [List.mem_cons, not_or] at hq
    obtain ⟨after, hafter⟩ := Str.startsWith_iff.1 h
    cases t with
    | nil => cases hafter
    | cons piece t =>
      cases piece with
      | hole i => exact absurd (List.cons.inj hafter).1 hq.1
      | lit c' =>
        have htail : shown (p :: rest) t = q ++ after := (List.cons.inj hafter).2
        obtain ⟨t', rfl⟩ := ih hq.2 (Str.startsWith_iff.2 ⟨after, htail⟩)
        rw [(List.cons.inj hafter).1]
        exact ⟨t', rfl⟩

@[simp] private theorem render_lits {σ : Unit → Str} (q : Str) (t : Template Unit) :
    render σ (q.map .lit ++ t) = q ++ render σ t := by
  induction q with
  | nil => rfl
  | cons c q ih => rw [List.map_cons, List.cons_append, render_lit, ih, List.cons_append]

/-- What a text looks like which starts with a mark at no hole. -/
private theorem eq_mark_of_startsWith (hrest : p ∉ rest) {c : Char} {t : Template Unit}
    (h : Str.startsWith (c :: shown (p :: rest) t) (p :: rest) = true) : c = p ∧ ∃ t', t = rest.map .lit ++ t' := by
  obtain ⟨after, hafter⟩ := Str.startsWith_iff.1 h
  exact ⟨(List.cons.inj hafter).1,
    eq_lits_of_startsWith hrest (Str.startsWith_iff.2 ⟨after, (List.cons.inj hafter).2⟩)⟩

/-- Replacing replaces the holes and a number of other marks. -/
private theorem length_replace_shown (hrest : p ∉ rest) (new : Str) (n : Nat) : ∀ t : Template Unit, t.length ≤ n →
    ∃ others : Nat, ((Str.replace (p :: rest) new (shown (p :: rest) t)).length : Int) =
      (shown new t).length + others * ((new.length : Int) - (p :: rest).length) := by
  induction n with
  | zero =>
    intro t ht
    rw [List.eq_nil_of_length_eq_zero (Nat.le_zero.1 ht)]
    exact ⟨0, by simp [shown]⟩
  | succ n ih =>
    intro t ht
    cases t with
    | nil => exact ⟨0, by simp [shown]⟩
    | cons piece t =>
      rw [List.length_cons] at ht
      cases piece with
      | hole i =>
        obtain ⟨others, hothers⟩ := ih t (by omega)
        have hreplace : Str.replace (p :: rest) new (shown (p :: rest) (.hole i :: t)) =
            new ++ Str.replace (p :: rest) new (shown (p :: rest) t) := Str.replace_append_self (by simp) new _
        have hshown : shown new (.hole i :: t) = new ++ shown new t := rfl
        refine ⟨others, ?_⟩
        rw [hreplace, hshown, List.length_append, List.length_append]
        push_cast
        omega
      | lit c =>
        by_cases hstart : Str.startsWith (c :: shown (p :: rest) t) (p :: rest) = true
        · obtain ⟨rfl, t', rfl⟩ := eq_mark_of_startsWith hrest hstart
          obtain ⟨others, hothers⟩ := ih t' (by rw [List.length_append] at ht; omega)
          have hreplace : Str.replace (c :: rest) new (shown (c :: rest) (.lit c :: (rest.map .lit ++ t'))) =
              new ++ Str.replace (c :: rest) new (shown (c :: rest) t') := by
            have hmark : shown (c :: rest) (.lit c :: (rest.map .lit ++ t')) = (c :: rest) ++ shown (c :: rest) t' := by
              unfold shown
              rw [render_lit, render_lits, List.cons_append]
            rw [hmark, Str.replace_append_self (by simp)]
          have hshown : shown new (.lit c :: (rest.map .lit ++ t')) = (c :: rest) ++ shown new t' := by
            unfold shown
            rw [render_lit, render_lits, List.cons_append]
          refine ⟨others + 1, ?_⟩
          rw [hreplace, hshown, List.length_append, List.length_append]
          push_cast
          rw [hothers, Int.add_mul]
          omega
        · obtain ⟨others, hothers⟩ := ih t (by omega)
          have hreplace : Str.replace (p :: rest) new (shown (p :: rest) (.lit c :: t)) =
              c :: Str.replace (p :: rest) new (shown (p :: rest) t) := Str.replace_cons (Bool.not_eq_true _ ▸ hstart)
          have hshown : shown new (.lit c :: t) = c :: shown new t := rfl
          refine ⟨others, ?_⟩
          rw [hreplace, hshown, List.length_cons, List.length_cons]
          push_cast
          omega

/-- Replacing the mark fills the holes and nothing else exactly where there is no other mark, or where a mark is put in
its own place. -/
theorem replace_shown_iff (hrest : p ∉ rest) (new : Str) (t : Template Unit) :
    Str.replace (p :: rest) new (shown (p :: rest) t) = shown new t ↔ new = p :: rest ∨ NoneOutside (p :: rest) t := by
  by_cases hnew : new = p :: rest
  · refine iff_of_true ?_ (Or.inl hnew)
    rw [hnew]
    exact Str.replace_self (by simp) _
  rw [or_iff_right hnew]
  induction t with
  | nil => simp [shown, NoneOutside]
  | cons piece t ih =>
    cases piece with
    | hole i =>
      have hreplace : Str.replace (p :: rest) new (shown (p :: rest) (.hole i :: t)) =
          new ++ Str.replace (p :: rest) new (shown (p :: rest) t) := Str.replace_append_self (by simp) new _
      have hshown : shown new (.hole i :: t) = new ++ shown new t := rfl
      rw [hreplace, hshown, List.append_cancel_left_eq, ih]
      rfl
    | lit c =>
      unfold NoneOutside
      by_cases hstart : Str.startsWith (c :: shown (p :: rest) t) (p :: rest) = true
      · refine iff_of_false (fun heq => hnew ?_) (fun h => ?_)
        · -- the texts can only be equally long if the mark and what it is replaced by are
          obtain ⟨rfl, t', rfl⟩ := eq_mark_of_startsWith hrest hstart
          obtain ⟨others, hothers⟩ := length_replace_shown hrest new _ t' le_rfl
          have hmark : shown (c :: rest) (.lit c :: (rest.map .lit ++ t')) = (c :: rest) ++ shown (c :: rest) t' := by
            unfold shown
            rw [render_lit, render_lits, List.cons_append]
          have hshown : shown new (.lit c :: (rest.map .lit ++ t')) = (c :: rest) ++ shown new t' := by
            unfold shown
            rw [render_lit, render_lits, List.cons_append]
          rw [hmark, Str.replace_append_self (by simp), hshown] at heq
          have hlength : new.length = (c :: rest).length := by
            have hsum := congrArg (fun s : Str => (s.length : Int)) heq
            rw [List.length_append, List.length_append] at hsum
            push_cast at hsum
            rw [hothers] at hsum
            have hzero : ((others : Int) + 1) * ((new.length : Int) - (c :: rest).length) = 0 := by
              rw [Int.add_mul]
              omega
            rcases Int.mul_eq_zero.1 hzero with hnone | hsame
            · omega
            · omega
          exact (List.append_inj heq hlength).1
        · rw [hstart] at h
          cases h.1
      · have hnot : Str.startsWith (c :: shown (p :: rest) t) (p :: rest) = false := by simpa using hstart
        have hreplace : Str.replace (p :: rest) new (shown (p :: rest) (.lit c :: t)) =
            c :: Str.replace (p :: rest) new (shown (p :: rest) t) := Str.replace_cons hnot
        have hshown : shown new (.lit c :: t) = c :: shown new t := rfl
        rw [hreplace, hshown, List.cons_inj_right, ih]
        exact (and_iff_right hnot).symm

end

/-! ### The holes of one name -/

variable {ι : Type} [DecidableEq ι]

/-- The text in which only the holes of one name are left open. -/
def focus (i : ι) (σ : ι → Str) : Template ι → Template Unit
  | [] => []
  | .lit c :: t => .lit c :: focus i σ t
  | .hole j :: t => if j = i then .hole () :: focus i σ t else (σ j).map .lit ++ focus i σ t

theorem shown_focus (i : ι) (σ : ι → Str) (mark : Str) (t : Template ι) :
    shown mark (focus i σ t) = render (Function.update σ i mark) t := by
  unfold shown
  induction t with
  | nil => rfl
  | cons piece t ih =>
    cases piece with
    | lit c => rw [focus, render_lit, render_lit, ih]
    | hole j =>
      unfold focus
      by_cases hj : j = i
      · rw [if_pos hj, render_hole, render_hole, hj, Function.update_self, ih]
      · rw [if_neg hj, render_lits, render_hole, Function.update_of_ne hj, ih]

end Template
