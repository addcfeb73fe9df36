import Oproxy.Lib.Text

/-!
# Words of the shell

How a POSIX shell splits a text into commands and these into words: single quotes, the backslash, lines which are
continued and the separators of commands.  A text which has an expansion, a redirection or double quotes is not read.
A word is kept with the part of the text which it comes from.
-/

namespace Shell

structure Word where
  source : Str
  value : Str

def isBlank (c : Char) : Bool := c = ' ' || c = '\t'

def isSeparator (c : Char) : Bool := c = '\n' || c = ';' || c = '&' || c = '|'

def endsWord (c : Char) : Bool := isBlank c || isSeparator c

/-- The characters of what is not read. -/
def isRefused (c : Char) : Bool := ['<', '>', '(', ')', '$', Char.ofNat 96, Char.ofNat 34, '*', '?', '['].contains c

/-- A character which stands for itself in a word. -/
def isPlain (c : Char) : Bool := !endsWord c && c ≠ '\'' && c ≠ '\\' && !isRefused c

/-- Put a piece of the text and what it stands for before the rest of a word. -/
def push (source value : Str) (r : Str × Str × Str) : Str × Str × Str := (source ++ r.1, value ++ r.2.1, r.2.2)

/-- What is left of a word at the start of a text: its source, its value, and what comes behind it. -/
def scan : (quoted : Bool) → Str → Option (Str × Str × Str)
  | true, [] => none
  | false, [] => some ([], [], [])
  | true, c :: s => if c = '\'' then (scan false s).map (push [c] []) else (scan true s).map (push [c] [c])
  | false, c :: s =>
    if endsWord c then some ([], [], c :: s)
    else if c = '\'' then (scan true s).map (push [c] [])
    else if c = '\\' then
      match s with
      | [] => none
      | d :: s => (scan false s).map (push [c, d] (if d = '\n' then [] else [d]))
    else if isRefused c then none
    else (scan false s).map (push [c] [c])

attribute [local simp] scan

/-- A character where a word begins: no blank, no separator, no line that is continued and no comment. -/
def startsWord : Str → Bool
  | [] => false
  | c :: s => !endsWord c && !(c = '\\' && s.head? = some '\n') && c ≠ '#' && c ≠ '~'

theorem map_push_eq_some {r : Option (Str × Str × Str)} {a b source value rest : Str} :
    r.map (push a b) = some (source, value, rest) ↔
      ∃ source' value', r = some (source', value', rest) ∧ source = a ++ source' ∧ value = b ++ value' := by
  constructor
  · intro h
    obtain ⟨⟨source', value', rest'⟩, rfl, heq⟩ := Option.map_eq_some_iff.1 h
    cases heq
    exact ⟨source', value', rfl, rfl, rfl⟩
  · rintro ⟨source', value', rfl, rfl, rfl⟩
    rfl

theorem scan_end {c : Char} (h : endsWord c = true) (s : Str) : scan false (c :: s) = some ([], [], c :: s) := by
  unfold scan
  exact if_pos h

theorem scan_openQuote (s : Str) : scan false ('\'' :: s) = (scan true s).map (push ['\''] []) := by
  conv_lhs => unfold scan
  rw [if_neg (by decide), if_pos rfl]

theorem scan_closeQuote (s : Str) : scan true ('\'' :: s) = (scan false s).map (push ['\''] []) := by simp

theorem scan_inQuotes {c : Char} (h : c ≠ '\'') (s : Str) : scan true (c :: s) = (scan true s).map (push [c] [c]) := by
  simp [h]

theorem scan_backslash (d : Char) (s : Str) :
    scan false ('\\' :: d :: s) = (scan false s).map (push ['\\', d] (if d = '\n' then [] else [d])) := by
  rw [scan, if_neg (by decide), if_neg (by decide), if_pos rfl]

theorem scan_isPlain {c : Char} (h : isPlain c = true) (s : Str) :
    scan false (c :: s) = (scan false s).map (push [c] [c]) := by
  unfold isPlain at h
  simp only [Bool.and_eq_true, Bool.not_eq_true', ne_eq, decide_eq_true_eq] at h
  obtain ⟨⟨⟨hend, hquote⟩, hbackslash⟩, hrefused⟩ := h
  conv_lhs => unfold scan
  rw [if_neg (by simp [hend]), if_neg hquote, if_neg hbackslash, if_neg (by simp [hrefused])]

/-- What is read of a word is the text before the rest. -/
theorem scan_source {quoted : Bool} {text source value rest : Str} (h : scan quoted text = some (source, value, rest)) :
    text = source ++ rest := by
  fun_induction scan quoted text generalizing source value rest with
  | case1 | case7 | case9 => cases h
  | case2 | case5 =>
    cases h
    rfl
  | case3 s ih | case4 c s _ ih | case6 s _ ih | case8 d s _ _ ih | case10 c s _ _ _ _ ih =>
    obtain ⟨source', value', hscan, rfl, -⟩ := map_push_eq_some.1 h
    rw [ih hscan]
    rfl

/-- A word loses a character where one of its characters is not plain. -/
theorem length_value {quoted : Bool} {text source value rest : Str}
    (h : scan quoted text = some (source, value, rest)) :
    value.length < source.length ∨
      quoted = false ∧ value = source ∧ source.all isPlain = true := by
  fun_induction scan quoted text generalizing source value rest with
  | case1 | case7 | case9 => cases h
  | case2 | case5 =>
    cases h
    exact Or.inr ⟨rfl, rfl, rfl⟩
  | case3 s ih =>
    obtain ⟨source', value', hscan, rfl, rfl⟩ := map_push_eq_some.1 h
    left
    rcases ih hscan with hlt | ⟨-, rfl, -⟩
    · simp only [List.length_append, List.length_cons, List.length_nil]
      omega
    · simp
  | case4 c s _ ih | case6 s _ ih =>
    obtain ⟨source', value', hscan, rfl, rfl⟩ := map_push_eq_some.1 h
    left
    rcases ih hscan with hlt | ⟨hquoted, -⟩
    · simp only [List.length_append, List.length_cons, List.length_nil]
      omega
    · cases hquoted
  | case8 d s _ _ ih =>
    obtain ⟨source', value', hscan, rfl, rfl⟩ := map_push_eq_some.1 h
    left
    have hle : (if d = '\n' then [] else [d]).length ≤ 1 := by split <;> simp
    simp only [List.length_append, List.length_cons, List.length_nil]
    rcases ih hscan with hlt | ⟨-, rfl, -⟩
    · omega
    · omega
  | case10 c s hend hquote hbackslash hrefused ih =>
    obtain ⟨source', value', hscan, rfl, rfl⟩ := map_push_eq_some.1 h
    rcases ih hscan with hlt | ⟨-, rfl, hplain⟩
    · left
      simp only [List.length_append, List.length_cons, List.length_nil]
      omega
    · refine Or.inr ⟨rfl, rfl, ?_⟩
      have hc : isPlain c = true := by simp [isPlain, hend, hquote, hbackslash, hrefused]
      simp [hc, hplain]

/-- Of the characters before the first blank none is gained. -/
theorem length_takeWhile_value {quoted : Bool} {text source value rest : Str}
    (h : scan quoted text = some (source, value, rest)) :
    (value.takeWhile fun c => !decide (c = ' ')).length ≤ (source.takeWhile fun c => !decide (c = ' ')).length := by
  fun_induction scan quoted text generalizing source value rest with
  | case1 | case7 | case9 => cases h
  | case2 | case5 =>
    cases h
    exact Nat.le_refl _
  | case3 s ih | case6 s _ ih =>
    obtain ⟨source', value', hscan, rfl, rfl⟩ := map_push_eq_some.1 h
    have hle := ih hscan
    simp
    omega
  | case4 c s _ ih | case10 c s _ _ _ _ ih =>
    obtain ⟨source', value', hscan, rfl, rfl⟩ := map_push_eq_some.1 h
    have hle := ih hscan
    by_cases hc : c = ' '
    · simp [hc]
    · simpa [hc] using hle
  | case8 d s _ _ ih =>
    obtain ⟨source', value', hscan, rfl, rfl⟩ := map_push_eq_some.1 h
    have hle := ih hscan
    by_cases hspace : d = ' '
    · simp [hspace]
    by_cases hline : d = '\n'
    · simp [hline]
      omega
    · simp [hspace, hline]
      omega

/-- A word is not empty where one begins. -/
theorem source_ne_nil {text source value rest : Str} (hstart : startsWord text = true)
    (h : scan false text = some (source, value, rest)) : source ≠ [] := by
  cases text with
  | nil => cases hstart
  | cons c s =>
    unfold startsWord at hstart
    have hend : endsWord c = false := by
      cases hend : endsWord c with
      | false => rfl
      | true => simp [hend] at hstart
    unfold scan at h
    rw [if_neg (by simp [hend])] at h
    split at h
    · obtain ⟨_, _, -, rfl, -⟩ := map_push_eq_some.1 h
      exact List.cons_ne_nil _ _
    split at h
    · split at h
      · cases h
      · obtain ⟨_, _, -, rfl, -⟩ := map_push_eq_some.1 h
        exact List.cons_ne_nil _ _
    split at h
    · cases h
    · obtain ⟨_, _, -, rfl, -⟩ := map_push_eq_some.1 h
      exact List.cons_ne_nil _ _

/-! ### Commands -/

/-- Put a command before others, if it has words. -/
def close (command : List Word) (commands : List (List Word)) : List (List Word) :=
  if command.isEmpty then commands else command :: commands

/-- The commands of a text, behind the words of a command which has begun. -/
def lex (command : List Word) (text : Str) : Option (List (List Word)) :=
  match text with
  | [] => some (close command [])
  | c :: s =>
    if isBlank c then lex command s
    else if isSeparator c then (lex [] s).map (close command)
    else if c = '\\' ∧ s.head? = some '\n' then lex command s.tail
    else if startsWord (c :: s) then
      match h : scan false (c :: s) with
      | none => none
      | some (source, value, rest) => lex (command ++ [⟨source, value⟩]) rest
    else none
termination_by text.length
decreasing_by
  · simp
  · simp
  · simp only [List.length_tail, List.length_cons]
    omega
  · have hstart : startsWord (c :: s) = true := by assumption
    have hsource := congrArg List.length (scan_source h)
    have hpos := List.length_pos_iff.2 (source_ne_nil hstart h)
    rw [List.length_append] at hsource
    omega

/-- A word as it is read somewhere. -/
def Lexed (w : Word) : Prop :=
  ∃ rest, startsWord (w.source ++ rest) = true ∧ scan false (w.source ++ rest) = some (w.source, w.value, rest)

theorem mem_close {command : List Word} {commands : List (List Word)} {words : List Word}
    (h : words ∈ close command commands) : words = command ∨ words ∈ commands := by
  unfold close at h
  split at h
  · exact Or.inr h
  · exact List.mem_cons.1 h

/-- The words of the commands are read from the text. -/
theorem lexed_of_lex {command : List Word} {text : Str} {commands : List (List Word)}
    (h : lex command text = some commands) :
    ∀ words ∈ commands, ∀ w ∈ words, w ∈ command ∨ Lexed w := by
  fun_induction lex command text generalizing commands with
  | case1 command =>
    cases h
    intro words hwords w hw
    rcases mem_close hwords with rfl | hnil
    · exact Or.inl hw
    · cases hnil
  | case2 command c s hblank ih => exact ih h
  | case3 command c s hblank hsep ih =>
    obtain ⟨commands', hlex, rfl⟩ := Option.map_eq_some_iff.1 h
    intro words hwords w hw
    rcases mem_close hwords with rfl | hrest
    · exact Or.inl hw
    · exact Or.inr ((ih hlex words hrest w hw).resolve_left List.not_mem_nil)
  | case4 command c s hblank hsep hline ih => exact ih h
  | case5 => cases h
  | case6 command c s hblank hsep hline hstart source value rest hscan ih =>
    intro words hwords w hw
    rcases ih h words hwords w hw with hmem | hlexed
    · rcases List.mem_append.1 hmem with hmem | hnew
      · exact Or.inl hmem
      · rw [List.mem_singleton.1 hnew]
        refine Or.inr ⟨rest, ?_, ?_⟩
        · rw [← scan_source hscan]
          exact hstart
        · rw [← scan_source hscan]
          exact hscan
    · exact Or.inr hlexed
  | case7 => cases h

/-- A word which stands for itself. -/
def IsPlainWord (text : Str) : Prop := startsWord text = true ∧ text.all isPlain = true

/-- A word that is its own source is plain. -/
theorem isPlainWord_of_lexed {text : Str} (h : Lexed ⟨text, text⟩) : IsPlainWord text := by
  obtain ⟨rest, hstart, hscan⟩ := h
  have hplain : text.all isPlain = true := by
    rcases length_value hscan with hlt | ⟨-, -, hplain⟩
    · exact absurd hlt (Nat.lt_irrefl _)
    · exact hplain
  refine ⟨?_, hplain⟩
  cases text with
  | nil => exact absurd rfl (source_ne_nil hstart hscan)
  | cons c s =>
    have hc : isPlain c = true := List.all_eq_true.1 hplain c List.mem_cons_self
    have hbackslash : c ≠ '\\' := by
      rintro rfl
      cases hc
    unfold startsWord at hstart ⊢
    simpa [hbackslash] using hstart

/-- In a quoted text a quote ends the quotes. -/
theorem scan_quote {before : Str} (h : '\'' ∉ before) (text : Str) :
    scan true (before ++ '\'' :: text) = (scan false text).map (push (before ++ ['\'']) before) := by
  induction before with
  | nil => exact scan_closeQuote text
  | cons c before ih =>
    rw [List.mem_cons, not_or] at h
    rw [List.cons_append, scan_inQuotes (Ne.symm h.1), ih h.2, Option.map_map]
    rfl

theorem scan_plain {word rest : Str} (h : word.all isPlain = true) (hrest : scan false rest = some ([], [], rest)) :
    scan false (word ++ rest) = some (word, word, rest) := by
  induction word with
  | nil => exact hrest
  | cons c word ih =>
    rw [List.all_cons, Bool.and_eq_true] at h
    rw [List.cons_append, scan_isPlain h.1, ih h.2]
    rfl

/-- A word and then the others. -/
theorem lex_word {command : List Word} {text source value rest : Str} (hstart : startsWord text = true)
    (h : scan false text = some (source, value, rest)) :
    lex command text = lex (command ++ [⟨source, value⟩]) rest := by
  cases text with
  | nil => cases hstart
  | cons c s =>
    have hword := hstart
    unfold startsWord at hword
    simp only [Bool.and_eq_true, Bool.not_eq_true', ne_eq, decide_eq_true_eq, endsWord, Bool.or_eq_false_iff,
      Bool.and_eq_false_imp, decide_eq_false_iff_not] at hword
    obtain ⟨⟨⟨⟨hblank, hsep⟩, hline⟩, -⟩, -⟩ := hword
    rw [lex, if_neg (by simp [hblank]), if_neg (by simp [hsep]), if_neg (fun h => hline h.1 h.2), if_pos hstart]
    split
    · rename_i hnone
      rw [h] at hnone
      cases hnone
    · rename_i hsome
      rw [h] at hsome
      cases hsome
      rfl

theorem lex_blank (command : List Word) (text : Str) : lex command (' ' :: text) = lex command text := by
  rw [lex, if_pos (by decide)]

theorem lex_continued (command : List Word) (text : Str) : lex command ('\\' :: '\n' :: text) = lex command text := by
  rw [lex, if_neg (by decide), if_neg (by decide), if_pos ⟨rfl, rfl⟩]
  rfl

/-! ### Texts which are written word by word -/

/-- A text is read as words wherever a word ends behind it. -/
def Reads (text : Str) (words : List Word) : Prop :=
  ∀ command rest, scan false rest = some ([], [], rest) → lex command (text ++ rest) = lex (command ++ words) rest

/-- A text between words. -/
structure Gap (text : Str) : Prop where
  ends : ∀ rest, scan false (text ++ rest) = some ([], [], text ++ rest)
  skips : ∀ command rest, lex command (text ++ rest) = lex command rest

theorem reads_of_scan {source value : Str} (hstart : ∀ rest, startsWord (source ++ rest) = true)
    (h : ∀ rest, scan false rest = some ([], [], rest) → scan false (source ++ rest) = some (source, value, rest)) :
    Reads source [⟨source, value⟩] := fun _ rest hrest => lex_word (hstart rest) (h rest hrest)

theorem reads_plain {word : Str} (h : IsPlainWord word) : Reads word [⟨word, word⟩] := by
  refine reads_of_scan (fun rest => ?_) fun rest => scan_plain h.2
  obtain ⟨hstart, hplain⟩ := h
  cases word with
  | nil => cases hstart
  | cons c s =>
    have hbackslash : c ≠ '\\' := by
      rintro rfl
      exact absurd (List.all_eq_true.1 hplain _ List.mem_cons_self) (by decide)
    show startsWord (c :: (s ++ rest)) = true
    unfold startsWord at hstart ⊢
    simpa [hbackslash] using hstart

theorem Reads.append {a b gap : Str} {words words' : List Word} (ha : Reads a words) (hgap : Gap gap)
    (hb : Reads b words') : Reads (a ++ gap ++ b) (words ++ words') := by
  intro command rest hrest
  rw [List.append_assoc, List.append_assoc, ha _ _ (hgap.ends _), hgap.skips, hb _ _ hrest, List.append_assoc]

/-- Texts with gaps between them. -/
theorem reads_intercalate {gap : Str} (hgap : Gap gap) {parts : List (Str × List Word)} (hne : parts ≠ [])
    (h : ∀ part ∈ parts, Reads part.1 part.2) :
    Reads (List.intercalate gap (parts.map Prod.fst)) (parts.map Prod.snd).flatten := by
  induction parts with
  | nil => exact absurd rfl hne
  | cons part parts ih =>
    rw [List.forall_mem_cons] at h
    cases parts with
    | nil => simpa using h.1
    | cons next parts =>
      have hrest := ih (List.cons_ne_nil _ _) h.2
      have hboth := h.1.append hgap hrest
      simpa [List.intercalate_cons_cons] using hboth

/-- The words of a text as a whole. -/
theorem Reads.lex_eq {text : Str} {words : List Word} (h : Reads text words) (hne : words ≠ []) :
    lex [] text = some [words] := by
  have hall := h [] [] rfl
  rw [List.append_nil, List.nil_append] at hall
  rw [hall, lex]
  unfold close
  rw [if_neg (by simpa using hne)]

theorem gap_blank : Gap " " where
  ends rest := scan_end (by decide) rest
  skips command rest := lex_blank command rest

/-- A line which is continued. -/
theorem gap_continued : Gap " \\\n  " where
  ends _ := scan_end (by decide) _
  skips command rest := by
    show lex command (' ' :: '\\' :: '\n' :: ' ' :: ' ' :: rest) = lex command rest
    rw [lex_blank, lex_continued, lex_blank, lex_blank]

/-! ### Quotes -/

/-- A text within quotes, its own quotes outside of them. -/
def quoteEscaped (text : Str) : Str := Str.replace "'" "'\\''" text

theorem quoteEscaped_cons (c : Char) (text : Str) :
    quoteEscaped (c :: text) = (if c = '\'' then ("'\\''" : Str) else [c]) ++ quoteEscaped text := by
  unfold quoteEscaped
  by_cases hc : c = '\''
  · rw [if_pos hc, hc]
    exact Str.replace_append_self (show ("'" : Str) ≠ [] by decide) _ text
  · rw [if_neg hc]
    refine Str.replace_cons ?_
    cases hstart : Str.startsWith (c :: text) "'" with
    | false => rfl
    | true =>
      obtain ⟨r, hr⟩ := Str.startsWith_iff.1 hstart
      cases hr
      exact absurd rfl hc

/-- An escaped text within quotes, behind one without quotes. -/
theorem scan_quoteEscaped {before : Str} (h : '\'' ∉ before) (text rest : Str) :
    scan true (before ++ (quoteEscaped text ++ '\'' :: rest)) =
      (scan false rest).map (push (before ++ (quoteEscaped text ++ ['\''])) (before ++ text)) := by
  induction text generalizing before with
  | nil =>
    have hnil : quoteEscaped [] = [] := Str.replace_nil _ _
    rw [hnil, List.nil_append, List.append_nil]
    exact scan_quote h rest
  | cons c text ih =>
    rw [quoteEscaped_cons]
    by_cases hc : c = '\''
    · have hinner := ih (show '\'' ∉ ([] : Str) from List.not_mem_nil)
      have houter : scan false ('\\' :: '\'' :: '\'' :: (quoteEscaped text ++ '\'' :: rest)) =
          (scan true (quoteEscaped text ++ '\'' :: rest)).map (push "\\''" "'") := by
        rw [scan_backslash, scan_openQuote, Option.map_map]
        rfl
      rw [List.nil_append] at hinner
      rw [if_pos hc, hc]
      show scan true (before ++ '\'' :: '\\' :: '\'' :: '\'' :: (quoteEscaped text ++ '\'' :: rest)) = _
      rw [scan_quote h, houter, hinner, Option.map_map, Option.map_map]
      congr 1
      funext r
      simp [push]
    · have hbefore : '\'' ∉ before ++ [c] := by simp [h, Ne.symm hc]
      have hnext := ih hbefore
      rw [if_neg hc]
      simpa using hnext

theorem reads_quoted {before : Str} (h : '\'' ∉ before) (text : Str) :
    Reads ('\'' :: (before ++ (quoteEscaped text ++ ['\'']))) [⟨'\'' :: (before ++ (quoteEscaped text ++ ['\''])),
      before ++ text⟩] := by
  refine reads_of_scan (fun rest => rfl) fun rest hrest => ?_
  have hscan := scan_quoteEscaped h text rest
  rw [hrest] at hscan
  rw [List.cons_append, scan_openQuote, List.append_assoc, List.append_assoc, List.singleton_append, hscan]
  simp [push]

/-- A quoted word whose quotes end before its source does. -/
theorem scan_of_lexed {before after value : Str} (h : '\'' ∉ before)
    (hlexed : Lexed ⟨'\'' :: (before ++ '\'' :: after), before ++ value⟩) :
    ∃ rest, scan false (after ++ rest) = some (after, value, rest) := by
  obtain ⟨rest, -, hscan⟩ := hlexed
  change scan false ('\'' :: (before ++ '\'' :: after ++ rest)) = _ at hscan
  rw [scan_openQuote, List.append_assoc, List.cons_append, scan_quote h, Option.map_map] at hscan
  obtain ⟨⟨source', value', rest'⟩, hinner, heq⟩ := Option.map_eq_some_iff.1 hscan
  simp [push] at heq
  obtain ⟨rfl, rfl, rfl⟩ := heq
  exact ⟨rest', hinner⟩

end Shell
