import Oproxy.Lib.Text

/-!
# Where a text occurs in another

An occurrence is an infix.  It is in one of the parts of a split text if it has no separator, and in a trimmed text if
it has no white space.
-/

namespace Str

theorem contains_iff {pat s : Str} : contains pat s = true ↔ pat <:+: s := by
  induction s with
  | nil => simp [contains]
  | cons c s ih =>
    have hstart : startsWith (c :: s) pat = true ↔ pat <+: c :: s := by
      rw [startsWith_iff]
      exact ⟨fun ⟨r, hr⟩ => ⟨r, hr.symm⟩, fun ⟨r, hr⟩ => ⟨r, hr.symm⟩⟩
    rw [contains, Bool.or_eq_true, hstart, ih, List.infix_cons_iff]

/-- A text which starts with no character of what is cut off. -/
theorem infix_append_iff {pat a s : Str} (hne : pat ≠ []) (h : ∀ c ∈ a, c ∉ pat) : pat <:+: a ++ s ↔ pat <:+: s := by
  induction a with
  | nil => rfl
  | cons c a ih =>
    rw [List.cons_append, List.infix_cons_iff, ih fun d hd => h d (List.mem_cons_of_mem _ hd)]
    refine or_iff_right fun hprefix => ?_
    cases pat with
    | nil => exact hne rfl
    | cons d pat =>
      have hfirst := (List.cons_prefix_cons.1 hprefix).1
      exact h c List.mem_cons_self (hfirst ▸ List.mem_cons_self)

theorem infix_trim_iff {pat s : Str} (hne : pat ≠ []) (h : ∀ c ∈ pat, isWhitespace c = false) :
    pat <:+: s.trim ↔ pat <:+: s := by
  have hcut : ∀ {q t : Str}, q ≠ [] → (∀ c ∈ q, isWhitespace c = false) →
      (q <:+: t.dropWhile isWhitespace ↔ q <:+: t) := by
    intro q t hq hplain
    have hspace : ∀ c ∈ t.takeWhile isWhitespace, c ∉ q := by
      intro c hc hmem
      have hwhite := List.mem_takeWhile_imp hc
      rw [hplain c hmem] at hwhite
      cases hwhite
    have heq := infix_append_iff (s := t.dropWhile isWhitespace) hq hspace
    rw [List.takeWhile_append_dropWhile] at heq
    exact heq.symm
  unfold trim List.rdropWhile
  rw [← List.reverse_infix, List.reverse_reverse, hcut (by simpa using hne) (by simpa using h), List.reverse_infix,
    hcut hne h]

/-- A text without a separator occurs in one of the parts. -/
theorem infix_split_iff {sep : Char} {pat s : Str} (hne : pat ≠ []) (hsep : sep ∉ pat) :
    pat <:+: s ↔ ∃ part ∈ split sep s, pat <:+: part := by
  induction s with
  | nil => simp [split]
  | cons c s ih =>
    have hsplit : split sep (c :: s) =
        if c = sep then [] :: split sep s else (split sep s).modifyHead (List.cons c) := by
      unfold split
      rw [List.splitOn_cons_eq_if_modifyHead]
      simp
    have hhead := headD_split sep s
    rw [List.infix_cons_iff, ih, hsplit]
    by_cases hc : c = sep
    · rw [if_pos hc, List.exists_mem_cons_iff, List.infix_nil]
      refine or_congr_left (iff_of_false (fun hprefix => ?_) hne)
      cases pat with
      | nil => exact hne rfl
      | cons d pat =>
        rw [(List.cons_prefix_cons.1 hprefix).1, hc] at hsep
        exact hsep List.mem_cons_self
    · rw [if_neg hc]
      cases hparts : split sep s with
      | nil =>
        unfold split at hparts
        exact absurd hparts (List.splitOn_ne_nil _ _)
      | cons first rest =>
        rw [hparts, List.headD_cons] at hhead
        rw [List.modifyHead_cons, List.exists_mem_cons_iff, List.exists_mem_cons_iff, List.infix_cons_iff, or_assoc]
        refine or_congr_left ?_
        rw [hhead]
        -- a text without the separator which starts here ends before it
        cases pat with
        | nil => exact absurd rfl hne
        | cons d pat =>
          rw [List.cons_prefix_cons, List.cons_prefix_cons]
          refine and_congr_right fun _ => ?_
          constructor
          · rintro ⟨after, rfl⟩
            rw [List.takeWhile_append_of_pos]
            · exact List.prefix_append _ _
            · intro e he
              simp only [ne_eq, decide_eq_true_eq]
              rintro rfl
              exact hsep (List.mem_cons_of_mem _ he)
          · exact fun h => h.trans (List.takeWhile_prefix _)

end Str
