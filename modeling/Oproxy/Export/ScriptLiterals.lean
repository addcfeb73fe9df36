import Oproxy.Export.Replay
import Oproxy.Lib.ScriptGrammars

/-!
# The literals of the fetch and Python exports (`export.rs`)

The URI and the method stand between quotes as they are.  The other texts are written as JSON in the one export, which
JavaScript reads as they are, and as `fmt::Debug` writes them in the other, which Python reads otherwise where a
character is written by its number or a null comes before a digit.
-/

namespace Oproxy

namespace Export

open LiteralGrammar (Piece Lexes)
open Json (quoteMark)

def codePieces (text : Str) : List Piece := text.map Piece.code

theorem lexes_codePieces {g : LiteralGrammar} {text s : Str} {pieces : List Piece} (h : text.any g.begins = false) :
    Lexes g (text ++ s) (codePieces text ++ pieces) ↔ Lexes g s pieces := LiteralGrammar.lexes_code h

/-- The member of an object or of a dictionary which a header field is. -/
def headerPieces (e : Str × Str) : List Piece :=
  codePieces "    " ++ Piece.literal e.1 :: (codePieces ": " ++ [Piece.literal e.2])

/-- The call which the fetch export is, with the texts of the request as its literals. -/
def fetchPieces (req : RequestContext) : List Piece :=
  codePieces "fetch(" ++ Piece.literal req.uri :: (codePieces ", \x7b\n  method: " ++ Piece.literal req.method ::
    (codePieces ",\n  headers: \x7b\n" ++
      (List.intercalate (codePieces ",\n") ((replayHeaders req.headers false).map headerPieces) ++
        (codePieces "\n  \x7d" ++
          ((if req.body.isEmpty then [] else codePieces ",\n  body: " ++ [Piece.literal req.bodyText]) ++
            codePieces "\n\x7d);")))))

/-- The program which the Python export is. -/
def pythonPieces (req : RequestContext) : List Piece :=
  codePieces "import requests\n\nurl = " ++ Piece.literal req.uri :: (codePieces "\nheaders = \x7b\n" ++
    (List.intercalate (codePieces ",\n") ((replayHeaders req.headers false).map headerPieces) ++
      (codePieces "\n\x7d" ++
        ((if req.body.isEmpty then [] else codePieces "\ndata = " ++ Piece.literal req.bodyText :: codePieces "\n") ++
          (codePieces "\nresponse = requests.request(" ++ Piece.literal req.method ::
            (codePieces ", url, headers=headers" ++ codePieces (if req.body.isEmpty then [] else ", data=data") ++
              codePieces ")\nprint(response.text)"))))))

/-- Both exports are one call, and their literals are the texts of the request. -/
def ScriptsExact (charNamed : Str → Option Char) (unprintable : Char → Bool) (parseJson : Str → Option Json)
    (ex : Exchange) : Prop :=
  Lexes .javascript (exportAsFetchRaw parseJson ex) (fetchPieces ex.request) ∧
    Lexes (.python charNamed) (exportAsPythonRaw unprintable parseJson ex) (pythonPieces ex.request)

/-! ### Debug texts in Python -/

/-- A character with an escape which both sides know. -/
def isEscapedByName (c : Char) : Bool := c = '\t' || c = '\r' || c = '\n' || c = '\\' || c = quoteMark

/-- No character is written by its number, and there is no octal digit behind a null. -/
def debugReads (unprintable : Char → Bool) : Str → Bool
  | [] => true
  | c :: s =>
    (if c.toNat = 0 then !s.head?.any LiteralGrammar.isOctalDigit else isEscapedByName c || !unprintable c) &&
      debugReads unprintable s

variable {unprintable : Char → Bool}

/-- What is behind the opening quote of a text. -/
def debugText (unprintable : Char → Bool) (value rest : Str) : Str :=
  value.flatMap (debugChar unprintable) ++ quoteMark :: rest

theorem debugText_cons (c : Char) (value rest : Str) :
    debugText unprintable (c :: value) rest = debugChar unprintable c ++ debugText unprintable value rest := by
  simp [debugText]

theorem debugChar_zero {c : Char} (h : c.toNat = 0) : debugChar unprintable c = ['\\', '0'] := if_pos h

theorem debugChar_plain {c : Char} (hzero : c.toNat ≠ 0) (hname : isEscapedByName c = false)
    (hunprintable : unprintable c = false) : debugChar unprintable c = [c] := by
  simp only [isEscapedByName, Bool.or_eq_false_iff, decide_eq_false_iff_not] at hname
  simp [debugChar, hzero, hname, hunprintable]

theorem debugChar_unprintable {c : Char} (hzero : c.toNat ≠ 0) (hname : isEscapedByName c = false)
    (hunprintable : unprintable c = true) : ∃ t, debugChar unprintable c = '\\' :: 'u' :: '\x7b' :: t := by
  simp only [isEscapedByName, Bool.or_eq_false_iff, decide_eq_false_iff_not] at hname
  refine ⟨Nat.toDigits 16 c.toNat ++ ['\x7d'], ?_⟩
  simp [debugChar, hzero, hname, hunprintable]

/-- A character stands as it is or begins with a backslash. -/
theorem debugChar_cases (c : Char) :
    (debugChar unprintable c = [c] ∧ c ≠ quoteMark) ∨ ∃ t, debugChar unprintable c = '\\' :: t := by
  unfold debugChar
  split_ifs with h1 h2 h3 h4 h5 h6 h7
  · exact Or.inr ⟨_, rfl⟩
  · exact Or.inr ⟨_, rfl⟩
  · exact Or.inr ⟨_, rfl⟩
  · exact Or.inr ⟨_, rfl⟩
  · exact Or.inr ⟨_, rfl⟩
  · exact Or.inr ⟨_, rfl⟩
  · exact Or.inr ⟨_, rfl⟩
  · exact Or.inl ⟨rfl, h6⟩

section Python

variable {charNamed : Str → Option Char}

open LiteralGrammar (python pythonEscape)

theorem read_debug_escape {c d : Char} (hchar : debugChar unprintable c = ['\\', d])
    (hescape : ∀ s, (python charNamed).backslash (d :: s) = some ([c], s)) (s : Str) :
    (python charNamed).read (debugChar unprintable c ++ s) =
      ((python charNamed).read s).map fun r => (c :: r.1, r.2) := by
  rw [hchar]
  exact LiteralGrammar.read_backslash (hescape s)

theorem read_debug_named {c : Char} (hname : isEscapedByName c = true) (s : Str) :
    (python charNamed).read (debugChar unprintable c ++ s) =
      ((python charNamed).read s).map fun r => (c :: r.1, r.2) := by
  simp only [isEscapedByName, Bool.or_eq_true, decide_eq_true_eq] at hname
  rcases hname with (((rfl | rfl) | rfl) | rfl) | rfl
  · exact read_debug_escape (d := 't') rfl (fun _ => rfl) s
  · exact read_debug_escape (d := 'r') rfl (fun _ => rfl) s
  · exact read_debug_escape (d := 'n') rfl (fun _ => rfl) s
  · exact read_debug_escape (d := '\\') rfl (fun _ => rfl) s
  · exact read_debug_escape (d := quoteMark) rfl (fun _ => rfl) s

theorem read_debug_plain {c : Char} (hzero : c.toNat ≠ 0) (hname : isEscapedByName c = false)
    (hunprintable : unprintable c = false) (s : Str) :
    (python charNamed).read (debugChar unprintable c ++ s) =
      ((python charNamed).read s).map fun r => (c :: r.1, r.2) := by
  rw [debugChar_plain hzero hname hunprintable]
  simp only [isEscapedByName, Bool.or_eq_false_iff, decide_eq_false_iff_not] at hname
  obtain ⟨⟨⟨⟨-, hr⟩, hn⟩, hbackslash⟩, hquote⟩ := hname
  have hforbidden : (python charNamed).forbidden c = false := by
    simp [python, LiteralGrammar.isLineEnd, hr, hn, hzero]
  exact LiteralGrammar.read_char hquote hforbidden hbackslash s

/-- Python has no number in braces. -/
theorem read_debug_unprintable {c : Char} (hzero : c.toNat ≠ 0) (hname : isEscapedByName c = false)
    (hunprintable : unprintable c = true) (s : Str) :
    (python charNamed).read (debugChar unprintable c ++ s) = none := by
  obtain ⟨t, ht⟩ := debugChar_unprintable hzero hname hunprintable
  rw [ht]
  exact LiteralGrammar.read_backslash_none rfl

/-- The digits behind a null: none are taken and there are none, or characters of the text are taken. -/
theorem octalDigits_debugText (n number : Nat) (value rest : Str) :
    (LiteralGrammar.octalDigits n number (debugText unprintable value rest) =
        (number, debugText unprintable value rest) ∧
      (n = 0 ∨ value.head?.any (fun c => LiteralGrammar.isOctalDigit c && debugChar unprintable c == [c]) = false)) ∨
    ∃ number' value', LiteralGrammar.octalDigits n number (debugText unprintable value rest) =
        (number', debugText unprintable value' rest) ∧ value'.length < value.length := by
  induction n generalizing number value with
  | zero => exact Or.inl ⟨rfl, Or.inl rfl⟩
  | succ n ih =>
    cases value with
    | nil => exact Or.inl ⟨rfl, Or.inr rfl⟩
    | cons c value =>
      rw [debugText_cons]
      rcases @debugChar_cases unprintable c with ⟨hchar, -⟩ | ⟨t, hchar⟩
      · rw [hchar, List.singleton_append, LiteralGrammar.octalDigits]
        by_cases hdigit : LiteralGrammar.isOctalDigit c = true
        · rw [if_pos hdigit]
          right
          rcases ih (8 * number + (c.toNat - '0'.toNat)) value with ⟨heq, -⟩ | ⟨number', value', heq, hlt⟩
          · exact ⟨_, value, heq, Nat.lt_succ_self _⟩
          · exact ⟨number', value', heq, Nat.lt_succ_of_lt hlt⟩
        · rw [if_neg hdigit]
          exact Or.inl ⟨rfl, Or.inr (by simp [hdigit])⟩
      · left
        rw [hchar]
        refine ⟨rfl, Or.inr ?_⟩
        have hne : ('\\' :: t == [c]) = true → c = '\\' := by
          intro h
          rw [beq_iff_eq] at h
          cases h
          rfl
        rw [List.head?_cons, Option.any_some, hchar, Bool.and_eq_false_iff, or_iff_not_imp_right]
        intro h
        rw [hne (by simpa using h)]
        decide

theorem octalDigits_of_head {value : Str} (h : value.head?.any LiteralGrammar.isOctalDigit = false) (n number : Nat)
    (rest : Str) : LiteralGrammar.octalDigits (n + 1) number (debugText unprintable value rest) =
      (number, debugText unprintable value rest) := by
  cases value with
  | nil => rfl
  | cons c value =>
    rw [debugText_cons]
    rcases @debugChar_cases unprintable c with ⟨hchar, -⟩ | ⟨t, hchar⟩
    · have hdigit : ¬ LiteralGrammar.isOctalDigit c = true := by simpa using h
      rw [hchar, List.singleton_append, LiteralGrammar.octalDigits, if_neg hdigit]
    · rw [hchar]
      rfl

theorem read_debug_zero {c : Char} (hzero : c.toNat = 0) (s : Str) :
    (python charNamed).backslash ('0' :: s) = LiteralGrammar.numbered (LiteralGrammar.octalDigits 2 0 s) ∧
      LiteralGrammar.numbered (0, s) = some ([c], s) := by
  have hc : c = Char.ofNat 0 := by rw [← hzero, Char.ofNat_toNat]
  rw [hc]
  exact ⟨rfl, rfl⟩

/-- A character which Python reads as itself. -/
theorem read_debug_char {c : Char} (hzero : c.toNat ≠ 0) (h : (isEscapedByName c || !unprintable c) = true) (s : Str) :
    (python charNamed).read (debugChar unprintable c ++ s) =
      ((python charNamed).read s).map fun r => (c :: r.1, r.2) := by
  cases hname : isEscapedByName c with
  | true => exact read_debug_named hname s
  | false =>
    rw [hname, Bool.false_or, Bool.not_eq_true'] at h
    exact read_debug_plain hzero hname h s

/-- A digit which stands as it is cannot follow a null. -/
theorem head_of_debugReads {value : Str} (hreads : debugReads unprintable value = true)
    (hhead : value.head?.any (fun c => LiteralGrammar.isOctalDigit c && debugChar unprintable c == [c]) = false) :
    value.head?.any LiteralGrammar.isOctalDigit = false := by
  cases value with
  | nil => rfl
  | cons c value =>
    rw [List.head?_cons, Option.any_some] at hhead ⊢
    by_contra hdigit
    rw [Bool.not_eq_false] at hdigit
    have hzero : c.toNat ≠ 0 := by
      intro hzero
      have hc : c = Char.ofNat 0 := by rw [← hzero, Char.ofNat_toNat]
      rw [hc] at hdigit
      revert hdigit
      decide
    have hname : isEscapedByName c = false := by
      by_contra hname
      simp only [Bool.not_eq_false, isEscapedByName, Bool.or_eq_true, decide_eq_true_eq] at hname
      rcases hname with (((rfl | rfl) | rfl) | rfl) | rfl <;> revert hdigit <;> decide
    rw [debugReads, if_neg hzero, Bool.and_eq_true, hname, Bool.false_or, Bool.not_eq_true'] at hreads
    rw [debugChar_plain hzero hname hreads.1, hdigit, beq_self_eq_true] at hhead
    cases hhead

/-- What Python reads is not longer than the text, and as long only where it is the text. -/
theorem read_debugText {value rest v after : Str}
    (h : (python charNamed).read (debugText unprintable value rest) = some (v, after)) :
    v.length ≤ value.length ∧
      (value.length ≤ v.length → v = value ∧ after = rest ∧ debugReads unprintable value = true) := by
  -- by induction on the text: an escape that is read takes one character of it, or more
  induction hn : value.length using Nat.strong_induction_on generalizing value v with
  | _ n ih =>
    subst hn
    cases value with
    | nil =>
      have hquote : (python charNamed).read (quoteMark :: rest) = some (v, after) := h
      rw [LiteralGrammar.read_quote] at hquote
      cases hquote
      exact ⟨Nat.le.refl, fun _ => ⟨rfl, rfl, rfl⟩⟩
    | cons c value =>
      rw [debugText_cons] at h
      by_cases hzero : c.toNat = 0
      · obtain ⟨hbackslash, hnumbered⟩ :=
          @read_debug_zero charNamed _ hzero (debugText unprintable value rest)
        rw [debugChar_zero hzero] at h
        -- the zero is written as an octal escape, which digits that follow prolong
        rcases @octalDigits_debugText unprintable 2 0 value rest with
          ⟨heq, hhead⟩ | ⟨number, value', heq, hlt⟩
        · rw [heq, hnumbered] at hbackslash
          have hread := (LiteralGrammar.read_backslash hbackslash).symm.trans h
          obtain ⟨⟨v', after'⟩, hrest, hv⟩ := Option.map_eq_some_iff.1 hread
          cases hv
          obtain ⟨hle, hexact⟩ := ih value.length (Nat.lt_succ_self _) hrest rfl
          refine ⟨Nat.succ_le_succ hle, fun hge => ?_⟩
          obtain ⟨rfl, rfl, hreads⟩ := hexact (Nat.le_of_succ_le_succ hge)
          refine ⟨rfl, rfl, ?_⟩
          have hdigit := head_of_debugReads hreads (hhead.resolve_left (by decide))
          rw [debugReads, if_pos hzero, hdigit, hreads]
          rfl
        · -- digits of the text are read as part of the number
          rw [heq] at hbackslash
          unfold LiteralGrammar.numbered at hbackslash
          split at hbackslash
          · have hread := (LiteralGrammar.read_backslash hbackslash).symm.trans h
            obtain ⟨⟨v', after'⟩, hrest, hv⟩ := Option.map_eq_some_iff.1 hread
            cases hv
            obtain ⟨hle, -⟩ := ih value'.length (Nat.lt_succ_of_lt hlt) hrest rfl
            have hshort : v'.length < value.length := Nat.lt_of_le_of_lt hle hlt
            refine ⟨Nat.succ_le_succ hshort.le, fun hge => ?_⟩
            exact absurd (Nat.le_of_succ_le_succ hge) (Nat.not_le.2 hshort)
          · have hnone := (LiteralGrammar.read_backslash_none hbackslash).symm.trans h
            cases hnone
      · cases hchar : isEscapedByName c || !unprintable c with
        | true =>
          rw [read_debug_char hzero hchar] at h
          obtain ⟨⟨v', after'⟩, hrest, hv⟩ := Option.map_eq_some_iff.1 h
          cases hv
          obtain ⟨hle, hexact⟩ := ih value.length (Nat.lt_succ_self _) hrest rfl
          refine ⟨Nat.succ_le_succ hle, fun hge => ?_⟩
          obtain ⟨rfl, rfl, hreads⟩ := hexact (Nat.le_of_succ_le_succ hge)
          refine ⟨rfl, rfl, ?_⟩
          rw [debugReads, if_neg hzero, hchar, hreads]
          rfl
        | false =>
          rw [Bool.or_eq_false_iff, Bool.not_eq_false'] at hchar
          rw [read_debug_unprintable hzero hchar.1 hchar.2] at h
          cases h

theorem read_debugText_of_reads {value : Str} (h : debugReads unprintable value = true) (rest : Str) :
    (python charNamed).read (debugText unprintable value rest) = some (value, rest) := by
  induction value with
  | nil => exact LiteralGrammar.read_quote rest
  | cons c value ih =>
    rw [debugReads, Bool.and_eq_true] at h
    rw [debugText_cons]
    by_cases hzero : c.toNat = 0
    · obtain ⟨hbackslash, hnumbered⟩ :=
        @read_debug_zero charNamed _ hzero (debugText unprintable value rest)
      rw [if_pos hzero, Bool.not_eq_true'] at h
      rw [octalDigits_of_head h.1, hnumbered] at hbackslash
      rw [debugChar_zero hzero]
      refine (LiteralGrammar.read_backslash hbackslash).trans ?_
      rw [ih h.2]
      rfl
    · rw [if_neg hzero] at h
      rw [read_debug_char hzero h.1, ih h.2]
      rfl

/-- A text as Python has it, before a character which is no quote. -/
theorem lexes_pythonString {value s : Str} {pieces : List Piece} (hs : s.head? ≠ some quoteMark) :
    Lexes (python charNamed) (pythonString unprintable value ++ s) (Piece.literal value :: pieces) ↔
      debugReads unprintable value = true ∧ Lexes (python charNamed) s pieces := by
  have htext : pythonString unprintable value ++ s = quoteMark :: debugText unprintable value s := by
    simp [pythonString, debugText]
  rw [htext, LiteralGrammar.lexes_literal]
  constructor
  · rintro ⟨after, -, hread, hrest⟩
    obtain ⟨-, rfl, hreads⟩ := (read_debugText hread).2 Nat.le.refl
    exact ⟨hreads, hrest⟩
  · rintro ⟨hreads, hrest⟩
    refine ⟨s, ?_, read_debugText_of_reads hreads s, hrest⟩
    refine LiteralGrammar.opens_append ?_ hs
    cases value with
    | nil => exact fun h => by cases h
    | cons c value =>
      intro h
      rw [List.flatMap_cons] at h
      rcases @debugChar_cases unprintable c with ⟨hchar, hc⟩ | ⟨t, hchar⟩
      · rw [hchar] at h
        exact hc (Option.some.inj h)
      · rw [hchar] at h
        cases h

theorem lexes_pythonHeader (e : Str × Str) {s : Str} {pieces : List Piece} (hs : s.head? ≠ some quoteMark) :
    Lexes (python charNamed) (pythonHeader unprintable e ++ s) (headerPieces e ++ pieces) ↔
      (debugReads unprintable e.1 = true ∧ debugReads unprintable e.2 = true) ∧ Lexes (python charNamed) s pieces := by
  have htext : pythonHeader unprintable e ++ s = ("    " : Str) ++ (pythonString unprintable e.1 ++
      ((": " : Str) ++ (pythonString unprintable e.2 ++ s))) := by simp only [pythonHeader, List.append_assoc]
  have hpieces : headerPieces e ++ pieces = codePieces "    " ++ Piece.literal e.1 ::
      (codePieces ": " ++ Piece.literal e.2 :: pieces) := by simp [headerPieces]
  have hcolon : ((": " : Str) ++ (pythonString unprintable e.2 ++ s)).head? ≠ some quoteMark :=
    fun h => by cases h
  rw [htext, hpieces, lexes_codePieces rfl, lexes_pythonString hcolon, lexes_codePieces rfl, lexes_pythonString hs,
    and_assoc]

theorem lexes_pythonHeaders (headers : List (Str × Str)) {s : Str} {pieces : List Piece}
    (hs : s.head? ≠ some quoteMark) :
    Lexes (python charNamed) (List.intercalate ",\n" (headers.map (pythonHeader unprintable)) ++ s)
        (List.intercalate (codePieces ",\n") (headers.map headerPieces) ++ pieces) ↔
      (∀ e ∈ headers, debugReads unprintable e.1 = true ∧ debugReads unprintable e.2 = true) ∧
        Lexes (python charNamed) s pieces :=
  LiteralGrammar.lexes_intercalate rfl (List.cons_ne_nil _ _) (fun h => by cases h) hs
    (fun e _ _ ht => lexes_pythonHeader e ht) headers

end Python

/-! ### JSON texts in JavaScript -/

theorem lexes_jsString {value s : Str} {pieces : List Piece} :
    Lexes .javascript (jsString value ++ s) (Piece.literal value :: pieces) ↔ Lexes .javascript s pieces := by
  have htext : jsString value ++ s = quoteMark :: (value.flatMap Json.escaped ++ quoteMark :: s) := by
    simp [jsString, Json.quoted]
  rw [htext, LiteralGrammar.lexes_literal, LiteralGrammar.read_escaped]
  constructor
  · rintro ⟨after, -, hread, hrest⟩
    cases hread
    exact hrest
  · exact fun hrest => ⟨s, rfl, rfl, hrest⟩

theorem lexes_fetchHeader (e : Str × Str) {s : Str} {pieces : List Piece} :
    Lexes .javascript (fetchHeader e ++ s) (headerPieces e ++ pieces) ↔ Lexes .javascript s pieces := by
  have htext : fetchHeader e ++ s = ("    " : Str) ++ (jsString e.1 ++ ((": " : Str) ++ (jsString e.2 ++ s))) := by
    simp only [fetchHeader, List.append_assoc]
  have hpieces : headerPieces e ++ pieces = codePieces "    " ++ Piece.literal e.1 ::
      (codePieces ": " ++ Piece.literal e.2 :: pieces) := by simp [headerPieces]
  rw [htext, hpieces, lexes_codePieces rfl, lexes_jsString, lexes_codePieces rfl, lexes_jsString]

theorem lexes_fetchHeaders (headers : List (Str × Str)) {s : Str} {pieces : List Piece}
    (hs : s.head? ≠ some quoteMark) :
    Lexes .javascript (List.intercalate ",\n" (headers.map fetchHeader) ++ s)
        (List.intercalate (codePieces ",\n") (headers.map headerPieces) ++ pieces) ↔
      Lexes .javascript s pieces := by
  have hpart : ∀ (e : Str × Str) (t : Str) (pieces : List Piece), t.head? ≠ some quoteMark →
      (Lexes .javascript (fetchHeader e ++ t) (headerPieces e ++ pieces) ↔ True ∧ Lexes .javascript t pieces) :=
    fun e _ _ _ => (lexes_fetchHeader e).trans (iff_of_eq (true_and _)).symm
  have hparts : Lexes .javascript (List.intercalate ",\n" (headers.map fetchHeader) ++ s)
      (List.intercalate (codePieces ",\n") (headers.map headerPieces) ++ pieces) ↔
        (∀ e ∈ headers, True) ∧ Lexes .javascript s pieces :=
    LiteralGrammar.lexes_intercalate rfl (List.cons_ne_nil _ _) (fun h => by cases h) hs hpart headers
  exact hparts.trans (and_iff_right fun _ _ => trivial)

/-! ### The exports -/

/-- The URI and the method have no quote, backslash, line end or null, and Python reads what `fmt::Debug` writes. -/
structure PlainScripts (unprintable : Char → Bool) (req : RequestContext) : Prop where
  uri : ∀ c ∈ req.uri, LiteralGrammar.isPlainChar c = true
  method : ∀ c ∈ req.method, LiteralGrammar.isPlainChar c = true
  headers : ∀ e ∈ replayHeaders req.headers false,
    debugReads unprintable e.1 = true ∧ debugReads unprintable e.2 = true
  body : req.body.isEmpty = false → debugReads unprintable req.bodyText = true

/-- The body of the fetch export. -/
def fetchBody (req : RequestContext) : Str :=
  if req.body.isEmpty then [] else (",\n  body: " : Str) ++ jsString req.bodyText

theorem exportAsFetchRaw_eq (parseJson : Str → Option Json) (ex : Exchange) : exportAsFetchRaw parseJson ex =
    ("fetch(" : Str) ++ quoteMark :: (ex.request.uri ++ quoteMark :: ((", \x7b" : Str) ++ '\n' ::
      (("  method: " : Str) ++ quoteMark :: (ex.request.method ++ quoteMark :: (("," : Str) ++ '\n' ::
        (("  headers: \x7b\n" : Str) ++
          (List.intercalate ",\n" ((replayHeaders ex.request.headers false).map fetchHeader) ++
            (("\n  \x7d" : Str) ++ (fetchBody ex.request ++ ("\n\x7d);" : Str)))))))))) := by
  have hopen : ("fetch(\"" : Str) = ("fetch(" : Str) ++ [quoteMark] := rfl
  have hurl : ("\", \x7b\n" : Str) = quoteMark :: ((", \x7b" : Str) ++ ['\n']) := rfl
  have hmethod : ("  method: \"" : Str) = ("  method: " : Str) ++ [quoteMark] := rfl
  have hquote : ("\"" : Str) = [quoteMark] := rfl
  have hcomma : (",\n" : Str) = ("," : Str) ++ ['\n'] := rfl
  have hbody : (",\n  body: " : Str) = ("," : Str) ++ '\n' :: ("  body: " : Str) := rfl
  unfold exportAsFetchRaw exportAsFetchWithRedaction fetchBody
  rw [hopen, hurl, hmethod, hquote, hbody]
  by_cases hempty : ex.request.body.isEmpty = true
  · simp only [if_pos hempty]
    rw [List.append_nil, List.intercalate_cons_cons, List.intercalate_singleton, hcomma]
    simp
  · simp only [if_neg hempty]
    rw [List.cons_append, List.cons_append, List.nil_append, List.intercalate_cons_cons, List.intercalate_cons_cons,
      List.intercalate_singleton, hcomma]
    simp [replayBody]

theorem lexes_fetchBody {req : RequestContext} {s : Str} {pieces : List Piece} :
    Lexes .javascript (fetchBody req ++ s)
      ((if req.body.isEmpty then [] else codePieces ",\n  body: " ++ [Piece.literal req.bodyText]) ++ pieces) ↔
        Lexes .javascript s pieces := by
  unfold fetchBody
  split
  · exact Iff.rfl
  · rw [List.append_assoc, List.append_assoc, List.singleton_append, lexes_codePieces rfl,
      lexes_jsString]

/-- The fetch export is the call exactly where the URI and the method are plain. -/
theorem lexes_fetch_iff (parseJson : Str → Option Json) (ex : Exchange) :
    Lexes .javascript (exportAsFetchRaw parseJson ex) (fetchPieces ex.request) ↔
      LiteralGrammar.javascript.plain ex.request.uri = true ∧
        LiteralGrammar.javascript.plain ex.request.method = true := by
  have hmethod : ∀ s : Str, (", \x7b" : Str) ++ '\n' :: (("  method: " : Str) ++ s) =
      (", \x7b\n  method: " : Str) ++ s := fun _ => rfl
  have hheaders : ∀ s : Str, ("," : Str) ++ '\n' :: (("  headers: \x7b\n" : Str) ++ s) =
      (",\n  headers: \x7b\n" : Str) ++ s := fun _ => rfl
  have hrest : Lexes .javascript (("\n  \x7d" : Str) ++ (fetchBody ex.request ++ ("\n\x7d);" : Str)))
      (codePieces "\n  \x7d" ++
        ((if ex.request.body.isEmpty then [] else codePieces ",\n  body: " ++ [Piece.literal ex.request.bodyText]) ++
          codePieces "\n\x7d);")) :=
    (lexes_codePieces rfl).2 (lexes_fetchBody.2 (LiteralGrammar.lexes_code_end rfl))
  rw [exportAsFetchRaw_eq]
  unfold fetchPieces
  rw [lexes_codePieces rfl, LiteralGrammar.lexes_exact (by decide) (by decide), hmethod, lexes_codePieces rfl,
    LiteralGrammar.lexes_exact (by decide) (by decide), hheaders, lexes_codePieces rfl,
    lexes_fetchHeaders _ (fun h => by cases h)]
  rw [and_iff_left hrest]

/-- The lines of the body in the Python export. -/
def pythonBody (unprintable : Char → Bool) (req : RequestContext) : Str :=
  if req.body.isEmpty then [] else ("\ndata = " : Str) ++ (pythonString unprintable req.bodyText ++ ("\n" : Str))

/-- The line of the call behind the method. -/
def pythonCall (req : RequestContext) : Str :=
  if req.body.isEmpty then ", url, headers=headers)" else ", url, headers=headers, data=data)"

theorem exportAsPythonRaw_eq (unprintable : Char → Bool) (parseJson : Str → Option Json) (ex : Exchange) :
    exportAsPythonRaw unprintable parseJson ex = ("import requests\n\nurl = " : Str) ++
      quoteMark :: (ex.request.uri ++ quoteMark :: ([] ++ '\n' :: (("headers = \x7b\n" : Str) ++
        (List.intercalate ",\n" ((replayHeaders ex.request.headers false).map (pythonHeader unprintable)) ++
          (("\n\x7d" : Str) ++ (pythonBody unprintable ex.request ++ (("\nresponse = requests.request(" : Str) ++
            quoteMark :: (ex.request.method ++ quoteMark :: (pythonCall ex.request ++
              '\n' :: ("print(response.text)" : Str)))))))))) := by
  have hopen : ("import requests\n\nurl = \"" : Str) = ("import requests\n\nurl = " : Str) ++ [quoteMark] := rfl
  have hheaders : ("\"\nheaders = " : Str) = quoteMark :: '\n' :: ("headers = " : Str) := rfl
  have hbrace : ("headers = \x7b\n" : Str) = ("headers = " : Str) ++ ("\x7b\n" : Str) := rfl
  have hcall : ("\nresponse = requests.request(\"" : Str) = ("\nresponse = requests.request(" : Str) ++ [quoteMark] :=
    rfl
  have hurl : ("\", url, headers=headers" : Str) = quoteMark :: (", url, headers=headers" : Str) := rfl
  have hclose : (")\nprint(response.text)" : Str) = (")" : Str) ++ '\n' :: ("print(response.text)" : Str) := rfl
  have hnone : (", url, headers=headers)" : Str) = (", url, headers=headers" : Str) ++ (")" : Str) := rfl
  have hdata : (", url, headers=headers, data=data)" : Str) =
      (", url, headers=headers" : Str) ++ ((", data=data" : Str) ++ (")" : Str)) := rfl
  unfold exportAsPythonRaw exportAsPythonWithRedaction pythonBody pythonCall
  rw [hopen, hheaders, hbrace, hcall, hurl, hclose, hnone, hdata]
  by_cases hempty : ex.request.body.isEmpty = true
  · simp only [if_pos hempty]
    simp
  · simp only [if_neg hempty]
    simp [replayBody]

theorem lexes_pythonBody {charNamed : Str → Option Char} {req : RequestContext} {s : Str} {pieces : List Piece} :
    Lexes (.python charNamed) (pythonBody unprintable req ++ s)
      ((if req.body.isEmpty then [] else codePieces "\ndata = " ++ Piece.literal req.bodyText :: codePieces "\n") ++
        pieces) ↔
      (req.body.isEmpty = false → debugReads unprintable req.bodyText = true) ∧ Lexes (.python charNamed) s pieces := by
  unfold pythonBody
  split
  · rename_i hempty
    rw [and_iff_right fun h => by rw [hempty] at h; cases h]
    exact Iff.rfl
  · rename_i hempty
    rw [Bool.not_eq_true] at hempty
    rw [List.append_assoc, List.append_assoc, List.append_assoc, List.cons_append, lexes_codePieces rfl,
      lexes_pythonString (fun h => by cases h), lexes_codePieces rfl]
    exact and_congr_left fun _ => ⟨fun h _ => h, fun h => h hempty⟩

theorem lexes_python_iff (charNamed : Str → Option Char) (unprintable : Char → Bool) (parseJson : Str → Option Json)
    (ex : Exchange) :
    Lexes (.python charNamed) (exportAsPythonRaw unprintable parseJson ex) (pythonPieces ex.request) ↔
      (LiteralGrammar.python charNamed).plain ex.request.uri = true ∧
        (∀ e ∈ replayHeaders ex.request.headers false,
          debugReads unprintable e.1 = true ∧ debugReads unprintable e.2 = true) ∧
        (ex.request.body.isEmpty = false → debugReads unprintable ex.request.bodyText = true) ∧
        (LiteralGrammar.python charNamed).plain ex.request.method = true := by
  have hheaders : ∀ s : Str, [] ++ '\n' :: (("headers = \x7b\n" : Str) ++ s) =
      ("\nheaders = \x7b\n" : Str) ++ s := fun _ => rfl
  have hquote : quoteMark ∉ pythonCall ex.request ∧ '\\' ∉ pythonCall ex.request := by
    unfold pythonCall
    split <;> decide
  have hcall : Lexes (.python charNamed) (pythonCall ex.request ++ '\n' :: ("print(response.text)" : Str))
      (codePieces ", url, headers=headers" ++ codePieces (if ex.request.body.isEmpty then [] else ", data=data") ++
        codePieces ")\nprint(response.text)") := by
    unfold pythonCall
    split
    · exact @LiteralGrammar.lexes_code_end _ ", url, headers=headers)\nprint(response.text)" rfl
    · exact @LiteralGrammar.lexes_code_end _ ", url, headers=headers, data=data)\nprint(response.text)" rfl
  rw [exportAsPythonRaw_eq]
  unfold pythonPieces
  rw [lexes_codePieces rfl, LiteralGrammar.lexes_exact List.not_mem_nil List.not_mem_nil, hheaders,
    lexes_codePieces rfl, lexes_pythonHeaders _ (fun h => by cases h), lexes_codePieces rfl, lexes_pythonBody,
    lexes_codePieces rfl, LiteralGrammar.lexes_exact hquote.1 hquote.2, and_iff_left hcall]

theorem plainScripts_of_scriptsExact {charNamed : Str → Option Char} {unprintable : Char → Bool}
    {parseJson : Str → Option Json} {ex : Exchange} (h : ScriptsExact charNamed unprintable parseJson ex) :
    PlainScripts unprintable ex.request := by
  unfold ScriptsExact at h
  rw [lexes_fetch_iff, lexes_python_iff] at h
  obtain ⟨⟨huri, hmethod⟩, huri', hheaders, hbody, hmethod'⟩ := h
  exact ⟨LiteralGrammar.plain_both.1 ⟨huri, huri'⟩, LiteralGrammar.plain_both.1 ⟨hmethod, hmethod'⟩, hheaders, hbody⟩

/-- Both exports are the captured request exactly where its texts are plain. -/
theorem scriptsExact_iff (charNamed : Str → Option Char) (unprintable : Char → Bool) (parseJson : Str → Option Json)
    (ex : Exchange) :
    ScriptsExact charNamed unprintable parseJson ex ↔ PlainScripts unprintable ex.request := by
  constructor
  · exact plainScripts_of_scriptsExact
  · rintro ⟨huri, hmethod, hheaders, hbody⟩
    unfold ScriptsExact
    rw [lexes_fetch_iff, lexes_python_iff]
    obtain ⟨hjs, hpy⟩ := LiteralGrammar.plain_both.2 huri
    obtain ⟨hjs', hpy'⟩ := LiteralGrammar.plain_both.2 hmethod
    exact ⟨⟨hjs, hjs'⟩, hpy, hheaders, hbody, hpy'⟩

/-! ### A URI which ends its literal -/

private def scriptUri : Exchange where
  id := "e1"
  timestamp := 0
  updatedAt := none
  request := { RequestContext.default with method := "GET", uri := "/\");alert(1);(\"" }
  response := none
  metrics := none
  source := .proxy
  wsFrames := []
  events := []
  flow := []
  note := none
  tags := []
  inspectorData := none
  pausedAt := none
  connectionId := none
  streamId := none
  downstreamProtocol := none
  protocolContext := none

/-- The URI ends the literal of the address, and the rest of it is a call of its own. -/
theorem not_scriptsExact : ¬ ∀ (charNamed : Str → Option Char) (unprintable : Char → Bool)
    (parseJson : Str → Option Json) (ex : Exchange), ScriptsExact charNamed unprintable parseJson ex := by
  intro h
  have hplain := plainScripts_of_scriptsExact (h (fun _ => none) (fun _ => false) (fun _ => none) scriptUri)
  exact absurd (hplain.uri quoteMark (by decide)) (by decide)

end Export

end Oproxy
