import Oproxy.Lib.Occurrences

/-!
# What a replacement keeps

The induction that follows a replacement through a text, and what it gives: a character which the pattern lacks divides
the replacement, a shorter text in place of the pattern makes the text shorter, and characters which the pattern and the
new text have in equal number keep their number.
-/

namespace Str

/-- The induction along a replacement: an occurrence at the head is taken as a whole. -/
theorem replace_induction {pat : Str} (hpat : pat ≠ []) {motive : Str → Prop} (nil : motive [])
    (skip : ∀ c s, startsWith (c :: s) pat = false → motive s → motive (c :: s))
    (hit : ∀ s, motive s → motive (pat ++ s)) (s : Str) : motive s := by
  induction hn : s.length using Nat.strong_induction_on generalizing s with
  | _ n ih =>
    subst hn
    cases s with
    | nil => exact nil
    | cons c s =>
      cases hstart : startsWith (c :: s) pat with
      | false => exact skip c s hstart (ih s.length (Nat.lt_succ_self _) s rfl)
      | true =>
        obtain ⟨r, hr⟩ := startsWith_iff.1 hstart
        rw [hr]
        refine hit r (ih r.length ?_ r rfl)
        rw [hr, List.length_append]
        exact Nat.lt_add_of_pos_left (List.length_pos_of_ne_nil hpat)

/-- Where a text before a character is divided by a text without that character. -/
theorem append_cons_split {a b e rest : Str} {c : Char} (hc : c ∉ e) (h : a ++ c :: b = e ++ rest) :
    ∃ a', a = e ++ a' ∧ rest = a' ++ c :: b := by
  rcases List.append_eq_append_iff.1 h with ⟨e', rfl, heq⟩ | ⟨a', rfl, rfl⟩
  · cases e' with
    | nil => exact ⟨[], by simp, heq.symm⟩
    | cons d e' =>
      cases heq
      exact absurd (List.mem_append_right _ List.mem_cons_self) hc
  · exact ⟨a', rfl, rfl⟩

variable {pat : Str}

/-- The replacement before and behind a character which the pattern has not. -/
theorem replace_append_of_not_mem (hpat : pat ≠ []) {q : Char} (hq : q ∉ pat) (new a s : Str) :
    replace pat new (a ++ q :: s) = replace pat new a ++ q :: replace pat new s := by
  have hstart : startsWith (q :: s) pat = false := by
    by_contra hne
    obtain ⟨r, hr⟩ := startsWith_iff.1 ((Bool.not_eq_false _).mp hne)
    obtain ⟨p, pat, rfl⟩ := List.exists_cons_of_ne_nil hpat
    cases hr
    exact hq List.mem_cons_self
  induction a using replace_induction hpat with
  | nil => rw [List.nil_append, replace_cons hstart, replace_nil, List.nil_append]
  | skip c a h ih =>
    have hskip : startsWith (c :: (a ++ q :: s)) pat = false := by
      by_contra hne
      obtain ⟨r, hr⟩ := startsWith_iff.1 ((Bool.not_eq_false _).mp hne)
      have hr' : (c :: a) ++ q :: s = pat ++ r := hr
      obtain ⟨a', ha, -⟩ := append_cons_split hq hr'
      rw [startsWith_iff.2 ⟨a', ha⟩] at h
      cases h
    rw [List.cons_append, replace_cons hskip, ih, replace_cons h, List.cons_append]
  | hit a ih => rw [List.append_assoc, replace_append_self hpat, ih, replace_append_self hpat, List.append_assoc]

theorem replace_of_not_contains {s : Str} (h : contains pat s = false) (new : Str) : replace pat new s = s := by
  induction s with
  | nil => exact replace_nil pat new
  | cons c s ih =>
    rw [contains, Bool.or_eq_false_iff] at h
    rw [replace_cons h.1, ih h.2]

theorem length_replace_le (hpat : pat ≠ []) {new : Str} (hle : new.length ≤ pat.length) (s : Str) :
    (replace pat new s).length ≤ s.length := by
  induction s using replace_induction hpat with
  | nil => simp
  | skip c s h ih =>
    rw [replace_cons h]
    exact Nat.succ_le_succ ih
  | hit s ih =>
    rw [replace_append_self hpat, List.length_append, List.length_append]
    exact Nat.add_le_add hle ih

/-- A text which is as long afterwards has no occurrence. -/
theorem contains_of_length_replace (hpat : pat ≠ []) {new : Str} (hlt : new.length < pat.length) {s : Str}
    (h : s.length ≤ (replace pat new s).length) : contains pat s = false := by
  induction s using replace_induction hpat with
  | nil => simpa [contains] using hpat
  | skip c s hskip ih =>
    rw [replace_cons hskip] at h
    rw [contains, hskip, ih (Nat.le_of_succ_le_succ h)]
    rfl
  | hit s ih =>
    rw [replace_append_self hpat, List.length_append, List.length_append] at h
    have hle := length_replace_le hpat (Nat.le_of_lt hlt) s
    omega

theorem not_mem_replace (hpat : pat ≠ []) {new : Str} {c : Char} (hnew : c ∉ new) {s : Str} (h : c ∉ s) :
    c ∉ replace pat new s := by
  induction s using replace_induction hpat with
  | nil => rwa [replace_nil]
  | skip d s hskip ih =>
    rw [List.mem_cons, not_or] at h
    rw [replace_cons hskip, List.mem_cons, not_or]
    exact ⟨h.1, ih h.2⟩
  | hit s ih =>
    rw [List.mem_append, not_or] at h
    rw [replace_append_self hpat, List.mem_append, not_or]
    exact ⟨hnew, ih h.2⟩

theorem countP_replace (hpat : pat ≠ []) {p : Char → Bool} {new : Str} (hnew : new.countP p = pat.countP p) (s : Str) :
    (replace pat new s).countP p = s.countP p := by
  induction s using replace_induction hpat with
  | nil => simp
  | skip c s h ih => rw [replace_cons h, List.countP_cons, List.countP_cons, ih]
  | hit s ih => rw [replace_append_self hpat, List.countP_append, List.countP_append, hnew, ih]

end Str
