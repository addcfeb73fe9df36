import Oproxy.Lib.Json
import Oproxy.Lib.Replacing

/-!
# String literals of programming languages

How a language reads the literals between double quotes: which characters may not stand in one, before which a backslash
stands for itself, and what the other escapes stand for.  A program is read as the characters of its code and the values
of its literals.
-/

/-- The literals of a language.  An escape is what follows a backslash: its first character, and the text behind. -/
structure LiteralGrammar where
  /-- What is behind the opening quote does not begin a longer delimiter. -/
  opens : Str → Bool
  /-- The character begins a literal or a comment. -/
  begins : Char → Bool
  forbidden : Char → Bool
  /-- A backslash before the character stands for itself. -/
  kept : Char → Bool
  escape : Char → Str → Option (Str × Str)
  newline_forbidden : forbidden '\n' = true
  backslash_allowed : forbidden '\\' = false
  quote_not_kept : kept Json.quoteMark = false
  escape_quote : ∀ s, escape Json.quoteMark s = some ([Json.quoteMark], s)
  opens_spec : ∀ s, Str.startsWith s [Json.quoteMark, Json.quoteMark] = false → opens s = true
  escape_spec : ∀ d s value rest, escape d s = some (value, rest) →
    ∃ e, s = e ++ rest ∧ Json.quoteMark ∉ e ∧ value.length ≤ 1 + e.length

namespace LiteralGrammar

variable (g : LiteralGrammar)

/-- What a backslash and the text behind it stand for. -/
def backslash : Str → Option (Str × Str)
  | [] => none
  | d :: s => if g.kept d then some (['\\', d], s) else g.escape d s

theorem length_backslash {s value rest : Str} (h : g.backslash s = some (value, rest)) : rest.length < s.length := by
  cases s with
  | nil => cases h
  | cons d s =>
    rw [backslash] at h
    split at h
    · cases h
      simp
    · obtain ⟨e, rfl, -, -⟩ := g.escape_spec _ _ _ _ h
      simp only [List.length_cons, List.length_append]
      omega

/-- The value of a literal and what is behind it, from what is behind its opening quote. -/
def read (text : Str) : Option (Str × Str) :=
  match text with
  | [] => none
  | c :: s =>
    if c = Json.quoteMark then some ([], s)
    else if g.forbidden c then none
    else if c = '\\' then
      match _h : g.backslash s with
      | none => none
      | some (value, rest) => (read rest).map fun r => (value ++ r.1, r.2)
    else (read s).map fun r => (c :: r.1, r.2)
termination_by text.length
decreasing_by
  · exact Nat.lt_succ_of_lt (g.length_backslash _h)
  · exact Nat.lt_succ_self _

/-- A text which stands for itself in a literal. -/
def plain : Str → Bool
  | [] => true
  | c :: s =>
    if c = '\\' then
      match s with
      | [] => false
      | d :: s => g.kept d && plain s
    else c ≠ Json.quoteMark && !g.forbidden c && plain s

variable {g}

theorem read_quote (s : Str) : g.read (Json.quoteMark :: s) = some ([], s) := by
  rw [read, if_pos rfl]

theorem read_char {c : Char} (hquote : c ≠ Json.quoteMark) (hforbidden : g.forbidden c = false) (hbackslash : c ≠ '\\')
    (s : Str) : g.read (c :: s) = (g.read s).map fun r => (c :: r.1, r.2) := by
  rw [read, if_neg hquote, if_neg (by simp [hforbidden]), if_neg hbackslash]

theorem read_forbidden {c : Char} (hquote : c ≠ Json.quoteMark) (hforbidden : g.forbidden c = true) (s : Str) :
    g.read (c :: s) = none := by
  rw [read, if_neg hquote, if_pos hforbidden]

theorem read_backslash {s value rest : Str} (h : g.backslash s = some (value, rest)) :
    g.read ('\\' :: s) = (g.read rest).map fun r => (value ++ r.1, r.2) := by
  rw [read, if_neg (by decide), if_neg (by simp [g.backslash_allowed]), if_pos rfl]
  split
  · rename_i hnone
    rw [h] at hnone
    cases hnone
  · rename_i hsome
    rw [h] at hsome
    cases hsome
    rfl

theorem read_backslash_none {s : Str} (h : g.backslash s = none) : g.read ('\\' :: s) = none := by
  rw [read, if_neg (by decide), if_neg (by simp [g.backslash_allowed]), if_pos rfl]
  split
  · rfl
  · rename_i hsome
    rw [h] at hsome
    cases hsome

/-- What the first character of a literal does. -/
theorem read_cons_eq_some {c : Char} {s value after : Str} (h : g.read (c :: s) = some (value, after)) :
    (c = Json.quoteMark ∧ value = [] ∧ after = s) ∨
      (c ≠ Json.quoteMark ∧ g.forbidden c = false ∧ c ≠ '\\' ∧
        ∃ value', g.read s = some (value', after) ∧ value = c :: value') ∨
      (c = '\\' ∧ ∃ v rest value', g.backslash s = some (v, rest) ∧ g.read rest = some (value', after) ∧
        value = v ++ value') := by
  by_cases hquote : c = Json.quoteMark
  · rw [hquote, read_quote] at h
    cases h
    exact Or.inl ⟨hquote, rfl, rfl⟩
  cases hforbidden : g.forbidden c with
  | true =>
    rw [read_forbidden hquote hforbidden] at h
    cases h
  | false =>
    by_cases hbackslash : c = '\\'
    · right; right
      subst hbackslash
      cases hescape : g.backslash s with
      | none =>
        rw [read_backslash_none hescape] at h
        cases h
      | some r =>
        obtain ⟨v, rest⟩ := r
        rw [read_backslash hescape] at h
        obtain ⟨⟨value', after'⟩, hread, heq⟩ := Option.map_eq_some_iff.1 h
        cases heq
        exact ⟨rfl, v, rest, value', rfl, hread, rfl⟩
    · right; left
      rw [read_char hquote hforbidden hbackslash] at h
      obtain ⟨⟨value', after'⟩, hread, heq⟩ := Option.map_eq_some_iff.1 h
      cases heq
      exact ⟨hquote, rfl, hbackslash, value', hread, rfl⟩

theorem plain_char {c : Char} (hbackslash : c ≠ '\\') (s : Str) :
    g.plain (c :: s) = (decide (c ≠ Json.quoteMark) && !g.forbidden c && g.plain s) := by
  rw [plain.eq_def]
  exact if_neg hbackslash

theorem plain_of_not_mem {x : Str} (h : '\\' ∉ x) :
    g.plain x = x.all fun c => decide (c ≠ Json.quoteMark) && !g.forbidden c := by
  induction x with
  | nil => rfl
  | cons c x ih =>
    rw [List.mem_cons, not_or] at h
    rw [plain_char (Ne.symm h.1), ih h.2, List.all_cons]

theorem not_mem_of_plain (hkept : ∀ c, g.kept c = false) {x : Str} (h : g.plain x = true) : '\\' ∉ x := by
  fun_induction plain g x with
  | case1 => exact List.not_mem_nil
  | case2 => cases h
  | case3 d s ih =>
    rw [hkept d] at h
    cases h
  | case4 c s hbackslash ih =>
    rw [Bool.and_eq_true] at h
    rw [List.mem_cons, not_or]
    exact ⟨Ne.symm hbackslash, ih h.2⟩

/-- A line end before the next quote ends a literal too early. -/
theorem read_newline {line : Str} (hquote : Json.quoteMark ∉ line) (hbackslash : '\\' ∉ line) (rest : Str) :
    g.read (line ++ '\n' :: rest) = none := by
  induction line with
  | nil => exact read_forbidden (by decide) g.newline_forbidden rest
  | cons c line ih =>
    rw [List.mem_cons, not_or] at hquote hbackslash
    rw [List.cons_append]
    cases hforbidden : g.forbidden c with
    | true => exact read_forbidden (Ne.symm hquote.1) hforbidden _
    | false =>
      rw [read_char (Ne.symm hquote.1) hforbidden (Ne.symm hbackslash.1), ih hquote.2 hbackslash.2]
      rfl

/-- A literal whose value is not shorter than the text which is written before its quote: the text stands for itself. -/
theorem read_exact {line rest : Str} (hquote : Json.quoteMark ∉ line) (hbackslash : '\\' ∉ line) {x value after : Str}
    (h : g.read (x ++ Json.quoteMark :: (line ++ '\n' :: rest)) = some (value, after)) (hle : x.length ≤ value.length) :
    value = x ∧ after = line ++ '\n' :: rest ∧ g.plain x = true := by
  induction hn : x.length using Nat.strong_induction_on generalizing x value with
  | _ n ih =>
    subst hn
    cases x with
    | nil =>
      rw [List.nil_append, read_quote] at h
      cases h
      exact ⟨rfl, rfl, rfl⟩
    | cons c x =>
      rw [List.cons_append] at h
      rw [List.length_cons] at hle
      rcases read_cons_eq_some h with ⟨-, rfl, -⟩ | ⟨hne, hforbidden, hchar, value', hread, rfl⟩ |
        ⟨rfl, v, rest', value', hescape, hread, rfl⟩
      · cases hle
      · obtain ⟨rfl, rfl, hplain⟩ := ih x.length (Nat.lt_succ_self _) hread (by simpa using hle) rfl
        exact ⟨rfl, rfl, by rw [plain_char hchar]; simp [hne, hforbidden, hplain]⟩
      · cases x with
        | nil =>
          rw [List.nil_append, backslash, if_neg (by simp [g.quote_not_kept]), g.escape_quote] at hescape
          cases hescape
          rw [read_newline hquote hbackslash] at hread
          cases hread
        | cons d x =>
          rw [List.cons_append, backslash] at hescape
          by_cases hkept : g.kept d = true
          · rw [if_pos hkept] at hescape
            cases hescape
            have hlength : x.length ≤ value'.length := by
              simp at hle
              omega
            obtain ⟨rfl, rfl, hplain⟩ := ih x.length (by simp only [List.length_cons]; omega) hread hlength rfl
            refine ⟨rfl, rfl, ?_⟩
            rw [plain, if_pos rfl]
            simp [hkept, hplain]
          · rw [if_neg hkept] at hescape
            obtain ⟨e, heq, hmem, hv⟩ := g.escape_spec _ _ _ _ hescape
            obtain ⟨x', rfl, rfl⟩ := Str.append_cons_split hmem heq
            simp only [List.length_cons, List.length_append] at hle
            obtain ⟨rfl, -, -⟩ := ih x'.length (by simp; omega) hread (by omega) rfl
            omega

/-- A plain text is read as it stands. -/
theorem read_plain {x : Str} (h : g.plain x = true) (rest : Str) :
    g.read (x ++ Json.quoteMark :: rest) = some (x, rest) := by
  fun_induction plain g x with
  | case1 => exact read_quote rest
  | case2 => cases h
  | case3 d s ih =>
    rw [Bool.and_eq_true] at h
    have hescape : g.backslash (d :: (s ++ Json.quoteMark :: rest)) =
        some (['\\', d], s ++ Json.quoteMark :: rest) := by
      rw [backslash, if_pos h.1]
    rw [List.cons_append, List.cons_append, read_backslash hescape, ih h.2]
    rfl
  | case4 c s hbackslash ih =>
    simp only [Bool.and_eq_true, ne_eq, decide_not, Bool.not_eq_true', decide_eq_false_iff_not] at h
    rw [List.cons_append, read_char h.1.1 h.1.2 hbackslash, ih h.2]
    rfl

/-! ### Programs -/

/-- A character of the code of a program, or the value of a literal. -/
inductive Piece where
  | code (c : Char)
  | literal (value : Str)

/-- A program is read as pieces. -/
inductive Lexes (g : LiteralGrammar) : Str → List Piece → Prop where
  | nil : Lexes g [] []
  | code {c : Char} {s : Str} {pieces : List Piece} (h : g.begins c = false) (hrest : Lexes g s pieces) :
      Lexes g (c :: s) (.code c :: pieces)
  | literal {s value after : Str} {pieces : List Piece} (hopens : g.opens s = true)
      (hread : g.read s = some (value, after)) (hrest : Lexes g after pieces) :
      Lexes g (Json.quoteMark :: s) (.literal value :: pieces)

theorem lexes_code {text s : Str} {pieces : List Piece} (h : text.any g.begins = false) :
    g.Lexes (text ++ s) (text.map Piece.code ++ pieces) ↔ g.Lexes s pieces := by
  induction text with
  | nil => exact Iff.rfl
  | cons c text ih =>
    rw [List.any_cons, Bool.or_eq_false_iff] at h
    rw [← ih h.2]
    constructor
    · intro hlex
      cases hlex with
      | code _ hrest => exact hrest
    · exact Lexes.code h.1

theorem lexes_code_end {text : Str} (h : text.any g.begins = false) : g.Lexes text (text.map Piece.code) := by
  have hcode : g.Lexes (text ++ []) (text.map Piece.code ++ []) := (lexes_code h).2 .nil
  rwa [List.append_nil, List.append_nil] at hcode

theorem lexes_literal {s value : Str} {pieces : List Piece} :
    g.Lexes (Json.quoteMark :: s) (.literal value :: pieces) ↔
      ∃ after, g.opens s = true ∧ g.read s = some (value, after) ∧ g.Lexes after pieces := by
  constructor
  · intro h
    cases h with
    | literal hopens hread hrest => exact ⟨_, hopens, hread, hrest⟩
  · rintro ⟨after, hopens, hread, hrest⟩
    exact .literal hopens hread hrest

theorem opens_append {x after : Str} (hx : x.head? ≠ some Json.quoteMark) (hafter : after.head? ≠ some Json.quoteMark) :
    g.opens (x ++ Json.quoteMark :: after) = true := by
  apply g.opens_spec
  cases x with
  | nil =>
    cases after with
    | nil => rfl
    | cons c after =>
      have hc : Json.quoteMark ≠ c := fun h => hafter (by rw [h]; rfl)
      simp [Str.startsWith, Str.stripPrefix, hc]
  | cons c x =>
    have hc : Json.quoteMark ≠ c := fun h => hx (by rw [h]; rfl)
    simp [Str.startsWith, Str.stripPrefix, hc]

theorem head_ne_of_plain {x : Str} (h : g.plain x = true) : x.head? ≠ some Json.quoteMark := by
  cases x with
  | nil => exact fun h => by cases h
  | cons c x =>
    intro hc
    cases hc
    rw [plain_char (by decide)] at h
    simp at h

/-- A text which is written as it stands, at the end of a line, is the value of its literal exactly where it is
plain. -/
theorem lexes_exact {x line rest : Str} {pieces : List Piece} (hquote : Json.quoteMark ∉ line)
    (hbackslash : '\\' ∉ line) :
    g.Lexes (Json.quoteMark :: (x ++ Json.quoteMark :: (line ++ '\n' :: rest))) (.literal x :: pieces) ↔
      g.plain x = true ∧ g.Lexes (line ++ '\n' :: rest) pieces := by
  rw [lexes_literal]
  constructor
  · rintro ⟨after, -, hread, hrest⟩
    obtain ⟨-, rfl, hplain⟩ := read_exact hquote hbackslash hread Nat.le.refl
    exact ⟨hplain, hrest⟩
  · rintro ⟨hplain, hrest⟩
    have hafter : (line ++ '\n' :: rest).head? ≠ some Json.quoteMark := by
      cases line with
      | nil => exact fun h => by cases h
      | cons c line =>
        intro h
        cases h
        exact hquote List.mem_cons_self
    exact ⟨_, opens_append (head_ne_of_plain hplain) hafter, read_plain hplain _, hrest⟩

/-- Parts which are joined, each of them read behind a character which is no quote. -/
theorem lexes_intercalate {α : Type} {text : α → Str} {read : α → List Piece} {good : α → Prop} {sep s : Str}
    {pieces : List Piece} (hsep : sep.any g.begins = false) (hne : sep ≠ [])
    (hhead : sep.head? ≠ some Json.quoteMark) (hs : s.head? ≠ some Json.quoteMark)
    (hpart : ∀ a t pieces, t.head? ≠ some Json.quoteMark →
      (g.Lexes (text a ++ t) (read a ++ pieces) ↔ good a ∧ g.Lexes t pieces)) (parts : List α) :
    g.Lexes (List.intercalate sep (parts.map text) ++ s)
        (List.intercalate (sep.map Piece.code) (parts.map read) ++ pieces) ↔
      (∀ a ∈ parts, good a) ∧ g.Lexes s pieces := by
  induction parts with
  | nil => simp
  | cons a parts ih =>
    cases parts with
    | nil => simpa using hpart a s pieces hs
    | cons b parts =>
      have htext : List.intercalate sep ((a :: b :: parts).map text) ++ s =
          text a ++ (sep ++ (List.intercalate sep ((b :: parts).map text) ++ s)) := by
        simp [List.intercalate_cons_cons]
      have hpieces : List.intercalate (sep.map Piece.code) ((a :: b :: parts).map read) ++ pieces =
          read a ++ (sep.map Piece.code ++
            (List.intercalate (sep.map Piece.code) ((b :: parts).map read) ++ pieces)) := by
        simp [List.intercalate_cons_cons]
      have hafter : (sep ++ (List.intercalate sep ((b :: parts).map text) ++ s)).head? ≠ some Json.quoteMark := by
        rwa [List.head?_append_of_ne_nil _ hne]
      rw [htext, hpieces, hpart a _ _ hafter, lexes_code hsep, List.forall_mem_cons, and_assoc]
      exact and_congr_right fun _ => ih

end LiteralGrammar
