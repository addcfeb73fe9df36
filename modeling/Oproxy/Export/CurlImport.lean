import Oproxy.Export.ParseCurl
import Oproxy.Export.Replay
import Oproxy.Lib.Http
import Oproxy.Lib.Replacing

/-!
# A curl export which is read back (`export.rs`)

The importer ends a text in single quotes at the first quote and does not join what follows, so that a quote in the URI,
in a name, in a value or in the body is lost.  That nothing later in the text can make up for it is an argument of
weights: what the importer reads weighs at most as much as the text, and a request weighs as much as its export.
-/

namespace Oproxy

namespace Export

open Json (quoteMark)

/-! ### Weights -/

/-- The characters which count: every flag which adds something has one of them, and the exporter itself writes no
others. -/
def isWeighed (c : Char) : Bool := c = 'H' || c = 'd' || c = 'I' || c = quoteMark

def weight (s : Str) : Nat := s.countP isWeighed

def totalWeight (tokens : List Str) : Nat := (tokens.map weight).sum

theorem weight_append (a b : Str) : weight (a ++ b) = weight a + weight b := List.countP_append

theorem weight_cons {c : Char} (h : isWeighed c = false) (s : Str) : weight (c :: s) = weight s :=
  List.countP_cons_of_neg (by rw [h]; exact Bool.false_ne_true)

theorem weight_singleton_append (c : Char) (s : Str) : weight (c :: s) = weight [c] + weight s := weight_append [c] s

theorem weight_le_of_sublist {a b : Str} (h : a.Sublist b) : weight a ≤ weight b := h.countP_le

theorem totalWeight_cons (t : Str) (tokens : List Str) : totalWeight (t :: tokens) = weight t + totalWeight tokens :=
  List.sum_cons

theorem weight_quote (s : Str) : weight (quoteMark :: s) = weight s + 1 := List.countP_cons_of_pos (by decide)

theorem weight_unescape_le (c : Char) (s : Str) : weight (unescape c :: s) ≤ weight (c :: s) := by
  unfold unescape
  split_ifs with h1 h2
  · rw [h1]
    exact Nat.le.refl
  · rw [h2]
    exact Nat.le.refl
  · exact Nat.le.refl

/-- The quotes are lost. -/
theorem weight_readDouble {s v rest : Str} (h : readDouble s = some (v, rest)) : weight v + weight rest < weight s := by
  induction s using readDouble.induct generalizing v with
  | case1 => cases h
  | case2 =>
    cases h
    decide
  | case3 c hc =>
    rw [readDouble, if_neg hc] at h
    cases h
  | case4 d s =>
    rw [readDouble, if_pos rfl] at h
    cases h
    rw [weight_quote]
    exact Nat.lt_succ_of_le (Nat.le_of_eq (Nat.zero_add _))
  | case5 d s hc ih =>
    rw [readDouble, if_neg hc, if_pos rfl] at h
    obtain ⟨⟨v', rest'⟩, hread, hr⟩ := Option.map_eq_some_iff.1 h
    simp only [Prod.mk.injEq] at hr
    obtain ⟨rfl, rfl⟩ := hr
    have hrest := ih hread
    have hunescape := weight_unescape_le d v'
    have hbackslash := weight_singleton_append '\\' (d :: s)
    rw [weight_singleton_append d] at hunescape hbackslash
    omega
  | case6 c d s hc hc' ih =>
    rw [readDouble, if_neg hc, if_neg hc'] at h
    obtain ⟨⟨v', rest'⟩, hread, hr⟩ := Option.map_eq_some_iff.1 h
    simp only [Prod.mk.injEq] at hr
    obtain ⟨rfl, rfl⟩ := hr
    have hrest := ih hread
    have hvalue := weight_singleton_append c v'
    have htext := weight_singleton_append c (d :: s)
    omega

theorem ok_of_map {α β : Type} {x : Except Str α} {f : α → β} {b : β} (h : x.map f = .ok b) :
    ∃ a, x = .ok a ∧ f a = b := by
  cases x with
  | error e => cases h
  | ok a =>
    cases h
    exact ⟨a, rfl, rfl⟩

/-- What is known of the tokens of a text. -/
def Weighs (tokens : List Str) (s : Str) : Prop :=
  totalWeight tokens ≤ weight s ∧ ((∃ t ∈ tokens, t.head? = some '\'') → totalWeight tokens < weight s)

theorem Weighs.cons {t rest s : Str} {tokens : List Str} (hle : weight t + weight rest ≤ weight s)
    (hlt : t.head? = some '\'' → weight t + weight rest < weight s) (h : Weighs tokens rest) :
    Weighs (t :: tokens) s := by
  have hcons := totalWeight_cons t tokens
  refine ⟨by have := h.1; omega, ?_⟩
  rintro ⟨u, hmem, hu⟩
  rcases List.mem_cons.1 hmem with rfl | hmem
  · have := hlt hu
    have := h.1
    omega
  · have := h.2 ⟨u, hmem, hu⟩
    omega

theorem weight_dropWhile {p : Char → Bool} {s t : Str} (h : s.dropWhile p = t) : weight t ≤ weight s :=
  h ▸ weight_le_of_sublist (List.dropWhile_suffix p).sublist

/-- The tokens weigh at most as much as the text, and less where a token begins with a single quote, as only one in
double quotes does. -/
theorem weight_tokens {s : Str} {tokens : List Str} (h : tokeniseShell s = .ok tokens) : Weighs tokens s := by
  revert h
  fun_induction tokeniseShell s generalizing tokens with
  | case1 =>
    intro h
    cases h
    exact ⟨Nat.zero_le _, fun ⟨_, hmem, _⟩ => by cases hmem⟩
  | case2 | case4 =>
    intro h
    cases h
  | case3 s rest token rest' hquoted hs ih =>
    intro h
    obtain ⟨tokens', htokens, rfl⟩ := ok_of_map h
    obtain ⟨rfl, hmem⟩ := Str.splitOnce_eq_some.1 hquoted
    have hdrop := weight_dropWhile hs
    have hsplit := weight_append token ('\'' :: rest')
    rw [weight_cons (by decide)] at hdrop hsplit
    refine Weighs.cons (by omega) (fun hhead => ?_) (ih htokens)
    exact absurd (List.mem_of_mem_head? hhead) hmem
  | case5 s rest token rest' hquoted hs _ ih =>
    intro h
    obtain ⟨tokens', htokens, rfl⟩ := ok_of_map h
    have hdrop := weight_dropWhile hs
    have hread := weight_readDouble hquoted
    rw [weight_quote] at hdrop
    exact Weighs.cons (by omega) (fun _ => by omega) (ih htokens)
  | case6 s c rest hs hquote _ ih =>
    intro h
    obtain ⟨tokens', htokens, rfl⟩ := ok_of_map h
    have hdrop := weight_dropWhile hs
    have hsplit := weight_append ((c :: rest).takeWhile fun c => !isBlank c) ((c :: rest).dropWhile fun c => !isBlank c)
    rw [List.takeWhile_append_dropWhile] at hsplit
    refine Weighs.cons (by omega) (fun hhead => ?_) (ih htokens)
    rw [List.takeWhile_cons] at hhead
    split at hhead
    · exact absurd (Option.some.inj hhead) hquote
    · cases hhead

/-! ### What the loop reads -/

/-- The weight of a field, where there is one. -/
def fieldWeight (headers : IndexMap Str Str) (name : Str) : Nat :=
  ((headers.get? name).map fun value => 1 + weight name + weight value).getD 0

def bodyWeight (body : Str) : Nat := if body = [] then 0 else 1 + weight body

/-- The weight of what a request has of the fields with these names, of its method, its address and its body. -/
def potential (names : List Str) (out : ParsedCurl) : Nat :=
  weight out.method + weight out.url + (names.map (fieldWeight out.headers)).sum + bodyWeight out.body

/-- A sum in which one summand changes. -/
theorem sum_update {names : List Str} (hnodup : names.Nodup) {f g : Str → Nat} {k : Str}
    (h : ∀ name, name ≠ k → f name = g name) :
    (k ∉ names → (names.map f).sum = (names.map g).sum) ∧
      (k ∈ names → (names.map f).sum + g k = (names.map g).sum + f k) := by
  induction names with
  | nil => exact ⟨fun _ => rfl, fun hmem => by cases hmem⟩
  | cons name names ih =>
    rw [List.nodup_cons] at hnodup
    obtain ⟨hnot, hin⟩ := ih hnodup.2
    simp only [List.map_cons, List.sum_cons]
    by_cases hname : name = k
    · subst hname
      have hrest := hnot hnodup.1
      exact ⟨fun hmem => absurd List.mem_cons_self hmem, fun _ => by omega⟩
    · have hhead := h name hname
      rw [hhead]
      refine ⟨fun hmem => ?_, fun hmem => ?_⟩
      · rw [hnot fun h' => hmem (List.mem_cons_of_mem _ h')]
      · have := hin ((List.mem_cons.1 hmem).resolve_left (Ne.symm hname))
        omega

variable {names : List Str}

theorem fieldWeight_insert_ne {headers : IndexMap Str Str} {k name : Str} (h : name ≠ k) (v : Str) :
    fieldWeight (headers.insert k v) name = fieldWeight headers name := by
  unfold fieldWeight
  rw [IndexMap.get?_insert, if_neg (Ne.symm h)]

theorem fieldWeight_insert_self (headers : IndexMap Str Str) (k v : Str) :
    fieldWeight (headers.insert k v) k = 1 + weight k + weight v := by
  unfold fieldWeight
  rw [IndexMap.get?_insert, if_pos rfl]
  rfl

/-- A field adds at most its weight, and less where it takes the place of another. -/
theorem potential_insert (hnodup : names.Nodup) (out : ParsedCurl) (k v : Str) :
    potential names { out with headers := out.headers.insert k v } ≤ potential names out + (1 + weight k + weight v) ∧
      (k ∈ names → ∀ x, out.headers.get? k = some x →
        potential names { out with headers := out.headers.insert k v } <
          potential names out + (1 + weight k + weight v)) := by
  obtain ⟨hnot, hin⟩ := sum_update hnodup fun name hname => @fieldWeight_insert_ne out.headers k name hname v
  rw [fieldWeight_insert_self] at hin
  unfold potential
  constructor
  · by_cases hmem : k ∈ names
    · have := hin hmem
      dsimp only
      omega
    · have := hnot hmem
      dsimp only
      omega
  · intro hmem x hx
    have hsum := hin hmem
    have hfield : fieldWeight out.headers k = 1 + weight k + weight x := by
      unfold fieldWeight
      rw [hx]
      rfl
    dsimp only
    omega

theorem weight_trim_le (s : Str) : weight s.trim ≤ weight s := weight_le_of_sublist (Str.trim_sublist s)

theorem weight_field_le {token k v : Str} (h : Str.splitOnce ':' token = some (k, v)) :
    weight k.trim + weight v.trim ≤ weight token := by
  obtain ⟨rfl, -⟩ := Str.splitOnce_eq_some.1 h
  rw [weight_append, weight_cons (by decide)]
  exact Nat.add_le_add (weight_trim_le k) (weight_trim_le v)

theorem potential_insertHeader (hnodup : names.Nodup) (out : ParsedCurl) (token : Str) :
    potential names (out.insertHeader token) ≤ potential names out + (1 + weight token) ∧
      ∀ name ∈ names, ∀ x, out.headers.get? name = some x → (out.insertHeader token).headers.get? name ≠ some x →
        potential names (out.insertHeader token) < potential names out + (1 + weight token) := by
  unfold ParsedCurl.insertHeader
  cases hsplit : Str.splitOnce ':' token with
  | none => exact ⟨Nat.le_add_right _ _, fun name _ x hx hne => absurd hx hne⟩
  | some r =>
    obtain ⟨k, v⟩ := r
    have hweight := weight_field_le hsplit
    obtain ⟨hle, hlt⟩ := potential_insert hnodup out k.trim v.trim
    dsimp only
    refine ⟨by omega, fun name hmem x hx hne => ?_⟩
    have hname : name = k.trim := by
      by_contra hname
      rw [IndexMap.get?_insert, if_neg (Ne.symm hname)] at hne
      exact hne hx
    have := hlt (hname ▸ hmem) x (hname ▸ hx)
    omega

theorem weight_header_flag {t : Str} (h : t = "-H" ∨ t = "--header") : weight t = 1 := by
  rcases h with rfl | rfl <;> rfl

theorem weight_data_flag {t : Str}
    (h : t = "-d" ∨ t = "--data" ∨ t = "--data-raw" ∨ t = "--data-binary" ∨ t = "--data-ascii") : weight t = 1 := by
  rcases h with rfl | rfl | rfl | rfl | rfl <;> rfl

theorem weight_head_flag {t : Str} (h : t = "-I" ∨ t = "--head") : weight t = 1 := by
  rcases h with rfl | rfl <;> rfl

theorem bodyWeight_data_le (data : Str) : bodyWeight (data.dropWhile (· = '@')) ≤ 1 + weight data := by
  unfold bodyWeight
  split
  · exact Nat.zero_le _
  · exact Nat.add_le_add_left (weight_le_of_sublist (List.dropWhile_suffix _).sublist) 1

/-- What one turn of the loop takes, and what it makes of the request. -/
inductive Takes : ParsedCurl → List Str → ParsedCurl → Prop where
  | method {out : ParsedCurl} (t method : Str) : Takes out [t, method] { out with method }
  | header {out : ParsedCurl} {t : Str} (ht : weight t = 1) (header : Str) :
      Takes out [t, header] (out.insertHeader header)
  | data {out : ParsedCurl} {t : Str} (ht : weight t = 1) (data : Str) :
      Takes out [t, data] { out with body := data.dropWhile (· = '@') }
  | get {out : ParsedCurl} (t : Str) : Takes out [t] { out with method := "GET" }
  | head {out : ParsedCurl} {t : Str} (ht : weight t = 1) : Takes out [t] { out with method := "HEAD" }
  | url {out : ParsedCurl} (t : Str) (hurl : out.url = []) : Takes out [t] { out with url := t }
  | skip {out : ParsedCurl} (t : Str) : Takes out [t] out

/-- The turns of the loop; a flag without an argument ends them. -/
inductive Run : ParsedCurl → List Str → ParsedCurl → Prop where
  | done (out : ParsedCurl) (tokens : List Str) : Run out tokens out
  | step {out out' final : ParsedCurl} {taken rest : List Str} (htakes : Takes out taken out')
      (hrun : Run out' rest final) : Run out (taken ++ rest) final

theorem run_parseTokens (tokens : List Str) (out : ParsedCurl) : Run out tokens (parseTokens tokens out) := by
  fun_induction parseTokens tokens out with
  | case1 | case2 | case4 | case6 => exact .done _ _
  | case3 t out ht method rest ih => exact .step (.method t method) ih
  | case5 t out _ ht header rest ih => exact .step (.header (weight_header_flag ht) header) ih
  | case7 t out _ _ ht data rest ih => exact .step (.data (weight_data_flag ht) data) ih
  | case8 t rest out _ _ _ ht ih => exact .step (.get t) ih
  | case9 t rest out _ _ _ _ ht ih => exact .step (.head (weight_head_flag ht)) ih
  | case10 t rest out _ _ _ _ _ ht ih =>
    rw [Bool.and_eq_true, List.isEmpty_iff] at ht
    exact .step (.url t ht.2) ih
  | case11 t rest out _ _ _ _ _ ht ih => exact .step (.skip t) ih

variable {out out' final : ParsedCurl} {taken tokens : List Str}

theorem totalWeight_append (a b : List Str) : totalWeight (a ++ b) = totalWeight a + totalWeight b := by
  unfold totalWeight
  rw [List.map_append, List.sum_append]

theorem totalWeight_singleton (t : Str) : totalWeight [t] = weight t := Nat.add_zero _

theorem totalWeight_pair (t u : Str) : totalWeight [t, u] = weight t + weight u := by
  rw [totalWeight_cons, totalWeight_singleton]

theorem Takes.potential_le (hnodup : names.Nodup) (h : Takes out taken out') :
    potential names out' ≤ potential names out + totalWeight taken := by
  cases h with
  | method t method =>
    rw [totalWeight_pair]
    unfold potential
    dsimp only
    omega
  | header ht header =>
    rw [totalWeight_pair, ht]
    exact (potential_insertHeader hnodup out header).1
  | data ht data =>
    have hdata := bodyWeight_data_le data
    rw [totalWeight_pair, ht]
    unfold potential
    dsimp only
    omega
  | get t =>
    have hget : weight "GET" = 0 := rfl
    unfold potential
    rw [hget]
    dsimp only
    omega
  | head ht =>
    have hhead : weight "HEAD" = 1 := rfl
    rw [totalWeight_singleton, ht]
    unfold potential
    rw [hhead]
    dsimp only
    omega
  | url t =>
    rw [totalWeight_singleton]
    unfold potential
    dsimp only
    omega
  | skip t => exact Nat.le_add_right _ _

/-- What the loop reads weighs at most as much as the tokens. -/
theorem Run.potential_le (hnodup : names.Nodup) (h : Run out tokens final) :
    potential names final ≤ potential names out + totalWeight tokens := by
  induction h with
  | done out tokens => exact Nat.le_add_right _ _
  | step htakes _ ih =>
    have hstep := htakes.potential_le hnodup
    rw [totalWeight_append]
    omega

/-- A field which is written again was in vain. -/
theorem Takes.header_lt (hnodup : names.Nodup) {name x : Str} (hmem : name ∈ names) (h : Takes out taken out')
    (hx : out.headers.get? name = some x) (hne : out'.headers.get? name ≠ some x) :
    potential names out' < potential names out + totalWeight taken := by
  cases h with
  | header ht header =>
    rw [totalWeight_pair, ht]
    exact (potential_insertHeader hnodup out header).2 name hmem x hx hne
  | method | data | get | head | url | skip => exact absurd hx hne

theorem Run.header_lt (hnodup : names.Nodup) {name x : Str} (hmem : name ∈ names) (h : Run out tokens final)
    (hx : out.headers.get? name = some x) (hne : final.headers.get? name ≠ some x) :
    potential names final < potential names out + totalWeight tokens := by
  induction h with
  | done => exact absurd hx hne
  | @step out out' final taken rest htakes hrun ih =>
    rw [totalWeight_append]
    by_cases hx' : out'.headers.get? name = some x
    · have hstep := htakes.potential_le hnodup
      have := ih hx' hne
      omega
    · have hstep := htakes.header_lt hnodup hmem hx hx'
      have := hrun.potential_le hnodup
      omega

theorem insertHeader_same (out : ParsedCurl) (token : Str) :
    (out.insertHeader token).method = out.method ∧ (out.insertHeader token).url = out.url ∧
      (out.insertHeader token).body = out.body := by
  unfold ParsedCurl.insertHeader
  split <;> exact ⟨rfl, rfl, rfl⟩

/-- A body which is written again was in vain. -/
theorem Takes.body_lt (h : Takes out taken out') (hbody : out.body ≠ [])
    (hne : out'.body ≠ out.body) : potential names out' < potential names out + totalWeight taken := by
  cases h with
  | data ht data =>
    have hdata := bodyWeight_data_le data
    have hold : 1 ≤ bodyWeight out.body := by
      unfold bodyWeight
      rw [if_neg hbody]
      exact Nat.le_add_right 1 _
    rw [totalWeight_pair, ht]
    unfold potential
    dsimp only
    omega
  | header ht header => exact absurd (insertHeader_same out header).2.2 hne
  | method | get | head | url | skip => exact absurd rfl hne

theorem Run.body_lt (hnodup : names.Nodup) (h : Run out tokens final) (hbody : out.body ≠ [])
    (hne : final.body ≠ out.body) : potential names final < potential names out + totalWeight tokens := by
  induction h with
  | done => exact absurd rfl hne
  | @step out out' final taken rest htakes hrun ih =>
    rw [totalWeight_append]
    by_cases hsame : out'.body = out.body
    · have hstep := htakes.potential_le hnodup
      have := ih (hsame ▸ hbody) (hsame ▸ hne)
      omega
    · have hstep := @Takes.body_lt names _ _ _ htakes hbody hsame
      have := hrun.potential_le hnodup
      omega

/-- The first address stays. -/
theorem Run.url_eq (h : Run out tokens final) (hurl : out.url ≠ []) : final.url = out.url := by
  induction h with
  | done => rfl
  | @step out _ _ _ _ htakes _ ih =>
    cases htakes with
    | header ht header =>
      have hsame := (insertHeader_same out header).2.1
      rw [ih (hsame ▸ hurl), hsame]
    | url t hnone => exact absurd hnone hurl
    | method | data | get | head | skip => exact ih hurl

/-- The method is a token or one of two constants, where it changes. -/
theorem Run.method_cases (h : Run out tokens final) :
    final.method = out.method ∨ final.method ∈ tokens ∨ final.method = "GET" ∨ final.method = "HEAD" := by
  induction h with
  | done => exact Or.inl rfl
  | step htakes _ ih =>
    rcases ih with heq | hmem | hconst
    · cases htakes with
      | method t method => exact Or.inr (Or.inl (by rw [heq]; simp))
      | header ht header => exact Or.inl (heq.trans (insertHeader_same _ header).1)
      | get => exact Or.inr (Or.inr (Or.inl heq))
      | head => exact Or.inr (Or.inr (Or.inr heq))
      | data | url | skip => exact Or.inl heq
    · exact Or.inr (Or.inl (List.mem_append_right _ hmem))
    · exact Or.inr (Or.inr hconst)

/-! ### The tokens of an export -/

theorem tokeniseShell_single {s rest token rest' : Str} (hs : s.dropWhile Str.isWhitespace = '\'' :: rest)
    (hquoted : Str.splitOnce '\'' rest = some (token, rest')) :
    tokeniseShell s = (tokeniseShell rest').map (token :: ·) := by
  rw [tokeniseShell]
  split
  · rename_i hnil
    rw [hs] at hnil
    cases hnil
  · rename_i c' rest'' hcons
    rw [hs] at hcons
    cases hcons
    rw [if_pos rfl]
    split
    · rename_i hnone
      rw [hquoted] at hnone
      cases hnone
    · rename_i hsome
      rw [hquoted] at hsome
      cases hsome
      rfl

theorem tokeniseShell_other {s rest : Str} {c : Char} (hs : s.dropWhile Str.isWhitespace = c :: rest)
    (hquote : c ≠ '\'')
    (hdouble : c ≠ quoteMark) : tokeniseShell s =
      (tokeniseShell ((c :: rest).dropWhile fun c => !isBlank c)).map
        ((c :: rest).takeWhile (fun c => !isBlank c) :: ·) := by
  rw [tokeniseShell]
  split
  · rename_i hnil
    rw [hs] at hnil
    cases hnil
  · rename_i c' rest'' hcons
    rw [hs] at hcons
    cases hcons
    rw [if_neg hquote, if_neg hdouble]

theorem tokeniseShell_nil : tokeniseShell [] = .ok [] := by
  rw [tokeniseShell]
  rfl

/-- A text in single quotes, behind blanks. -/
theorem tokeniseShell_quoted {blanks token : Str} (hblanks : ∀ c ∈ blanks, Str.isWhitespace c = true)
    (h : '\'' ∉ token) (s : Str) :
    tokeniseShell (blanks ++ '\'' :: (token ++ '\'' :: s)) = (tokeniseShell s).map (token :: ·) := by
  refine tokeniseShell_single ?_ (Str.splitOnce_append h s)
  rw [List.dropWhile_append_of_pos hblanks, List.dropWhile_cons_of_neg (by decide)]

theorem tokeniseShell_space_quoted {token : Str} (h : '\'' ∉ token) (s : Str) :
    tokeniseShell (' ' :: '\'' :: (token ++ '\'' :: s)) = (tokeniseShell s).map (token :: ·) :=
  @tokeniseShell_quoted [' '] token (by decide) h s

/-- A word without quotes, between blanks. -/
theorem tokeniseShell_bare {blanks token : Str} (hblanks : ∀ c ∈ blanks, Str.isWhitespace c = true) {c : Char}
    (hspace : Str.isWhitespace c = false) (hquote : c ≠ '\'') (hdouble : c ≠ quoteMark)
    (htoken : ∀ d ∈ c :: token, isBlank d = false) (s : Str) :
    tokeniseShell (blanks ++ c :: (token ++ ' ' :: s)) = (tokeniseShell (' ' :: s)).map ((c :: token) :: ·) := by
  have hs : (blanks ++ c :: (token ++ ' ' :: s)).dropWhile Str.isWhitespace = c :: (token ++ ' ' :: s) := by
    rw [List.dropWhile_append_of_pos hblanks, List.dropWhile_cons_of_neg (by rw [hspace]; exact Bool.false_ne_true)]
  have hword : ∀ d ∈ c :: token, (!isBlank d) = true := fun d hd => by rw [htoken d hd]; rfl
  have htext : c :: (token ++ ' ' :: s) = (c :: token) ++ ' ' :: s := rfl
  rw [tokeniseShell_other hs hquote hdouble, htext, List.takeWhile_append_of_pos hword,
    List.dropWhile_append_of_pos hword, List.dropWhile_cons_of_neg (by decide), List.takeWhile_cons_of_neg (by decide),
    List.append_nil]

/-- A flag and its argument in quotes, as the exporter writes them. -/
def flagText (flag token s : Str) : Str := ("    " : Str) ++ (flag ++ ' ' :: '\'' :: (token ++ '\'' :: s))

theorem tokeniseShell_flag {flag token : Str} (hflag : flag = "-H" ∨ flag = "--data") (h : '\'' ∉ token) (s : Str) :
    tokeniseShell (flagText flag token s) = (tokeniseShell s).map fun tokens => flag :: token :: tokens := by
  have hmap : ∀ {x : Except Str (List Str)}, (x.map (token :: ·)).map (flag :: ·) =
      x.map fun tokens => flag :: token :: tokens := by
    intro x
    cases x <;> rfl
  rw [← hmap, ← tokeniseShell_space_quoted h]
  rcases hflag with rfl | rfl
  · exact @tokeniseShell_bare "    " ['H'] (by decide) '-' (by decide) (by decide) (by decide) (by decide) _
  · exact @tokeniseShell_bare "    " "-data" (by decide) '-' (by decide) (by decide) (by decide) (by decide) _

theorem weight_flagText {flag : Str} (hflag : flag = "-H" ∨ flag = "--data") (token s : Str) :
    weight (flagText flag token s) = 1 + weight token + weight s := by
  have hone : weight flag = 1 := by
    rcases hflag with rfl | rfl <;> rfl
  have hblanks : weight ("    " : Str) = 0 := rfl
  unfold flagText
  rw [weight_append, weight_append, hblanks, hone, weight_cons (by decide), weight_cons (by decide), weight_append,
    weight_cons (by decide)]
  omega

/-- The text of the header fields and of the body, without continuations. -/
def tailText (body : Option Str) : List (Str × Str) → Str
  | [] =>
    match body with
    | none => []
    | some body => flagText "--data" (normalised (escapeQuotes body)) []
  | e :: fields => flagText "-H" (e.1 ++ ':' :: ' ' :: escapeQuotes e.2) (tailText body fields)

/-- A body which is read as it is. -/
structure ReadableBody (body : Str) : Prop where
  quote : '\'' ∉ body
  file : body.head? ≠ some '@'
  continuation : Str.contains "\\\n" body = false
  returned : Str.contains "\\\r\n" body = false

theorem escapeQuotes_of_not_mem {s : Str} (h : '\'' ∉ s) : escapeQuotes s = s := by
  refine Str.replace_of_not_contains ?_ _
  rw [← Bool.not_eq_true, Str.contains_iff]
  exact fun hpart => h (hpart.subset (by decide))

/-- The first quote is where the text ends for the importer. -/
theorem escapeQuotes_append {a : Str} (h : '\'' ∉ a) (b : Str) :
    escapeQuotes (a ++ '\'' :: b) = a ++ '\'' :: ('\\' :: '\'' :: '\'' :: escapeQuotes b) := by
  have hstart : ∀ c, c ≠ '\'' → ∀ s : Str, Str.startsWith (c :: s) ("'" : Str) = false := by
    intro c hc s
    have hne : ¬ '\'' = c := Ne.symm hc
    simp [Str.startsWith, Str.stripPrefix, hne]
  induction a with
  | nil => exact Str.replace_append_self (List.cons_ne_nil '\'' []) "'\\''" b
  | cons c a ih =>
    rw [List.mem_cons, not_or] at h
    have hcons : escapeQuotes (c :: (a ++ '\'' :: b)) = c :: escapeQuotes (a ++ '\'' :: b) :=
      Str.replace_cons (hstart c (Ne.symm h.1) _)
    rw [List.cons_append, hcons, ih h.2]
    rfl

theorem weight_escapeQuotes (s : Str) : weight (escapeQuotes s) = weight s := by
  have hnew : weight "'\\''" = weight "'" := rfl
  exact Str.countP_replace (List.cons_ne_nil '\'' []) hnew s

theorem weight_normalised (s : Str) : weight (normalised s) = weight s := by
  have hfirst : weight " " = weight "\\\n" := rfl
  have hsecond : weight " " = weight "\\\r\n" := rfl
  exact (Str.countP_replace (by decide) hsecond _).trans (Str.countP_replace (by decide) hfirst s)

theorem normalised_append_quote (a b : Str) : normalised (a ++ '\'' :: b) = normalised a ++ '\'' :: normalised b := by
  unfold normalised
  rw [Str.replace_append_of_not_mem (by decide) (by decide), Str.replace_append_of_not_mem (by decide) (by decide)]

theorem normalised_of_not_mem {s : Str} (h : '\n' ∉ s) : normalised s = s := by
  have hnone : ∀ pat : Str, '\n' ∈ pat → Str.contains pat s = false := by
    intro pat hpat
    rw [← Bool.not_eq_true, Str.contains_iff]
    exact fun hpart => h (hpart.subset hpat)
  unfold normalised
  rw [Str.replace_of_not_contains (hnone _ (by decide)), Str.replace_of_not_contains (hnone _ (by decide))]

theorem normalised_of_contains {s : Str} (hfirst : Str.contains "\\\n" s = false)
    (hsecond : Str.contains "\\\r\n" s = false) : normalised s = s := by
  unfold normalised
  rw [Str.replace_of_not_contains hfirst, Str.replace_of_not_contains hsecond]

/-- A text which stays as long has no continuation. -/
theorem contains_of_length_normalised {s : Str} (h : s.length ≤ (normalised s).length) :
    Str.contains "\\\n" s = false ∧ Str.contains "\\\r\n" s = false := by
  have hsecond := @Str.length_replace_le "\\\r\n" (by decide) " " (by decide) (Str.replace "\\\n" " " s)
  unfold normalised at h
  have hnone := @Str.contains_of_length_replace "\\\n" (by decide) " " (by decide) s (h.trans hsecond)
  refine ⟨hnone, ?_⟩
  rw [Str.replace_of_not_contains hnone] at h
  exact @Str.contains_of_length_replace "\\\r\n" (by decide) " " (by decide) s h

theorem not_mem_normalised {c : Char} (hc : c ≠ ' ') {s : Str} (h : c ∉ s) : c ∉ normalised s := by
  have hnew : c ∉ (" " : Str) := fun hmem => hc (List.mem_singleton.1 hmem)
  exact Str.not_mem_replace (by decide) hnew (Str.not_mem_replace (by decide) hnew h)

theorem not_mem_escapeQuotes {c : Char} (hc : c ∉ ("'\\''" : Str)) {s : Str} (h : c ∉ s) : c ∉ escapeQuotes s :=
  Str.not_mem_replace (List.cons_ne_nil '\'' []) hc h

/-- A continuation is one blank, so that the parts of the export stand after four. -/
theorem normalised_separator (s : Str) : normalised ((" \\\n  " : Str) ++ s) = ("    " : Str) ++ normalised s := by
  have hblank : ∀ (pat : Str), pat ≠ [] → ' ' ∉ pat → ∀ t : Str,
      Str.replace pat " " (' ' :: t) = ' ' :: Str.replace pat " " t := by
    intro pat hpat hmem t
    have happend := Str.replace_append_of_not_mem hpat hmem " " [] t
    rwa [Str.replace_nil] at happend
  have hseparator : (" \\\n  " : Str) ++ s = ' ' :: (("\\\n" : Str) ++ (' ' :: ' ' :: s)) := rfl
  have hfirst : Str.replace "\\\n" " " ((" \\\n  " : Str) ++ s) =
      ' ' :: ' ' :: ' ' :: ' ' :: Str.replace "\\\n" " " s := by
    rw [hseparator, hblank _ (by decide) (by decide), Str.replace_append_self (by decide),
      hblank _ (by decide) (by decide), hblank _ (by decide) (by decide)]
    rfl
  unfold normalised
  rw [hfirst, hblank _ (by decide) (by decide), hblank _ (by decide) (by decide), hblank _ (by decide) (by decide),
    hblank _ (by decide) (by decide)]
  rfl

/-- A flag and its argument behind a continuation. -/
theorem normalised_flag {flag : Str} (hflag : '\n' ∉ flag) (token s : Str) :
    normalised ((" \\\n  " : Str) ++ (flag ++ ' ' :: '\'' :: (token ++ '\'' :: s))) =
      flagText flag (normalised token) (normalised s) := by
  have htext : flag ++ ' ' :: '\'' :: (token ++ '\'' :: s) = (flag ++ [' ']) ++ '\'' :: (token ++ '\'' :: s) := by simp
  have hplain : '\n' ∉ flag ++ [' '] := by
    rw [List.mem_append, not_or]
    exact ⟨hflag, by decide⟩
  unfold flagText
  rw [normalised_separator, htext, normalised_append_quote, normalised_append_quote, normalised_of_not_mem hplain]
  simp

/-! ### A quote is lost -/

/-- A field of the export, without the condition on quotes. -/
structure ExportedField (names : List Str) (final : ParsedCurl) (e : Str × Str) : Prop where
  name : Http.isToken e.1 = true
  value : e.2.trim = e.2
  mem : e.1 ∈ names
  read : final.headers.get? e.1 = some e.2

theorem colon_not_mem_of_isToken {s : Str} (h : Http.isToken s = true) : ':' ∉ s := by
  intro hmem
  rw [Http.isToken, Bool.and_eq_true, List.all_eq_true] at h
  have hcolon := h.2 ':' hmem
  revert hcolon
  decide

theorem insertHeader_of_not_mem (out : ParsedCurl) {token : Str} (h : ':' ∉ token) : out.insertHeader token = out := by
  unfold ParsedCurl.insertHeader
  rw [Str.splitOnce_eq_none.2 h]

theorem trim_cons_space (s : Str) : Str.trim (' ' :: s) = s.trim := by
  unfold Str.trim
  rw [List.dropWhile_cons_of_pos (by decide)]

theorem insertHeader_field (out : ParsedCurl) {name : Str} (h : Http.isToken name = true) (value : Str) :
    out.insertHeader (name ++ ':' :: ' ' :: value) = { out with headers := out.headers.insert name value.trim } := by
  unfold ParsedCurl.insertHeader
  rw [Str.splitOnce_append (colon_not_mem_of_isToken h)]
  dsimp only
  rw [Http.trim_of_token h, trim_cons_space]

/-- The turns of the loop behind a flag and its argument. -/
theorem tokens_of_flagText {flag token s : Str} {tokens : List Str} (hflag : flag = "-H" ∨ flag = "--data")
    (h : '\'' ∉ token) (htokens : tokeniseShell (flagText flag token s) = .ok tokens) :
    ∃ rest, tokeniseShell s = .ok rest ∧ tokens = flag :: token :: rest ∧ totalWeight rest ≤ weight s := by
  rw [tokeniseShell_flag hflag h] at htokens
  obtain ⟨rest, hrest, rfl⟩ := ok_of_map htokens
  exact ⟨rest, hrest, rfl, (weight_tokens hrest).1⟩

theorem parseTokens_header (header : Str) (rest : List Str) (out : ParsedCurl) :
    parseTokens ("-H" :: header :: rest) out = parseTokens rest (out.insertHeader header) := rfl

theorem parseTokens_data (data : Str) (rest : List Str) (out : ParsedCurl) :
    parseTokens ("--data" :: data :: rest) out = parseTokens rest { out with body := data.dropWhile (· = '@') } := rfl

/-- A field whose reading takes all the weight of its text has no quote. -/
theorem field_of_potential (hnodup : names.Nodup) {e : Str × Str} {s : Str} {out final : ParsedCurl} {tokens : List Str}
    (htokens : tokeniseShell (flagText "-H" (e.1 ++ ':' :: ' ' :: escapeQuotes e.2) s) = .ok tokens)
    (hfinal : parseTokens tokens out = final) (he : ExportedField names final e)
    (hle : potential names out + weight (flagText "-H" (e.1 ++ ':' :: ' ' :: escapeQuotes e.2) s) ≤
      potential names final) : '\'' ∉ e.1 ∧ '\'' ∉ e.2 := by
  have hflag : ("-H" : Str) = "-H" ∨ ("-H" : Str) = "--data" := Or.inl rfl
  have hquote : '\'' ∉ e.1 := by
    -- the argument of the flag is a part of the name
    intro hmem
    obtain ⟨before, after, hname, hbefore⟩ := List.eq_append_cons_of_mem hmem
    have htext : flagText "-H" (e.1 ++ ':' :: ' ' :: escapeQuotes e.2) s =
        flagText "-H" before (after ++ ':' :: ' ' :: (escapeQuotes e.2 ++ '\'' :: s)) := by
      unfold flagText
      rw [hname]
      simp
    rw [htext] at htokens hle
    obtain ⟨rest, hrest, rfl, hweight⟩ := tokens_of_flagText hflag hbefore htokens
    have hcolon : ':' ∉ before :=
      fun h => colon_not_mem_of_isToken he.name (by rw [hname]; exact List.mem_append_left _ h)
    rw [parseTokens_header, insertHeader_of_not_mem _ hcolon] at hfinal
    have hrun := (hfinal ▸ run_parseTokens rest out : Run out rest final).potential_le hnodup
    rw [weight_flagText hflag] at hle
    omega
  refine ⟨hquote, fun hmem => ?_⟩
  obtain ⟨before, after, hvalue, hbefore⟩ := List.eq_append_cons_of_mem hmem
  have htext : flagText "-H" (e.1 ++ ':' :: ' ' :: escapeQuotes e.2) s =
      flagText "-H" (e.1 ++ ':' :: ' ' :: before)
        ('\\' :: '\'' :: '\'' :: (escapeQuotes after ++ '\'' :: s)) := by
    unfold flagText
    rw [hvalue, escapeQuotes_append hbefore]
    simp
  have htoken : '\'' ∉ e.1 ++ ':' :: ' ' :: before := by
    simp only [List.mem_append, List.mem_cons, not_or]
    exact ⟨hquote, by decide, by decide, hbefore⟩
  rw [htext] at htokens hle
  obtain ⟨rest, hrest, rfl, hweight⟩ := tokens_of_flagText hflag htoken htokens
  rw [parseTokens_header, insertHeader_field _ he.name] at hfinal
  have hx : (out.headers.insert e.1 (Str.trim before)).get? e.1 = some (Str.trim before) := by
    rw [IndexMap.get?_insert, if_pos rfl]
  have hne : final.headers.get? e.1 ≠ some (Str.trim before) := by
    rw [he.read]
    intro heq
    rw [Option.some.inj heq] at hmem
    exact hbefore ((Str.trim_sublist before).subset hmem)
  have hrun := (hfinal ▸ run_parseTokens rest _ :
    Run { out with headers := out.headers.insert e.1 (Str.trim before) } rest final).header_lt hnodup he.mem hx hne
  have hinsert := (potential_insert hnodup out e.1 (Str.trim before)).1
  have htrim := weight_trim_le before
  have htokenWeight := weight_append e.1 (':' :: ' ' :: before)
  rw [weight_cons (by decide), weight_cons (by decide)] at htokenWeight
  rw [weight_flagText hflag] at hle
  omega

/-- A body whose reading takes all the weight of its text is read as it is. -/
theorem body_of_potential (hnodup : names.Nodup) {body : Str} {out final : ParsedCurl} {tokens : List Str}
    (htokens : tokeniseShell (flagText "--data" (normalised (escapeQuotes body)) []) = .ok tokens)
    (hfinal : parseTokens tokens out = final) (hbody : final.body = body)
    (hle : potential names out + weight (flagText "--data" (normalised (escapeQuotes body)) []) ≤
      potential names final) : ReadableBody body := by
  have hflag : ("--data" : Str) = "-H" ∨ ("--data" : Str) = "--data" := Or.inr rfl
  -- a quote ends the body early, and no later word makes up for what is lost
  have hquote : '\'' ∉ body := by
    intro hmem
    obtain ⟨before, after, heq, hbefore⟩ := List.eq_append_cons_of_mem hmem
    have htext : flagText "--data" (normalised (escapeQuotes body)) [] = flagText "--data" (normalised before)
        (normalised ('\\' :: '\'' :: '\'' :: escapeQuotes after) ++ ['\'']) := by
      unfold flagText
      rw [heq, escapeQuotes_append hbefore, normalised_append_quote]
      simp
    rw [htext] at htokens hle
    have htoken := not_mem_normalised (by decide) hbefore
    obtain ⟨rest, hrest, rfl, hweight⟩ := tokens_of_flagText hflag htoken htokens
    rw [parseTokens_data] at hfinal
    have hrun := hfinal ▸ run_parseTokens rest { out with body := (normalised before).dropWhile (· = '@') }
    have hdata := bodyWeight_data_le (normalised before)
    have hne : final.body ≠ (normalised before).dropWhile (· = '@') := by
      rw [hbody]
      intro hsame
      rw [hsame] at hmem
      exact htoken ((List.dropWhile_suffix _).subset hmem)
    rw [weight_flagText hflag] at hle
    by_cases hnil : (normalised before).dropWhile (· = '@') = []
    · have hbound := hrun.potential_le hnodup
      have hnone : bodyWeight ((normalised before).dropWhile (· = '@')) = 0 := if_pos hnil
      unfold potential at hbound hle
      dsimp only at hbound
      omega
    · have hbound := hrun.body_lt hnodup hnil hne
      unfold potential at hbound hle
      dsimp only at hbound
      omega
  rw [escapeQuotes_of_not_mem hquote] at htokens
  obtain ⟨rest, hrest, rfl, -⟩ := tokens_of_flagText hflag (not_mem_normalised (by decide) hquote) htokens
  rw [tokeniseShell_nil] at hrest
  cases hrest
  -- without a quote the body comes back but for the @ signs at its start
  have hread : final.body = (normalised body).dropWhile (· = '@') := by
    rw [← hfinal]
    rfl
  rw [hbody] at hread
  have hsuffix := List.dropWhile_suffix (fun c => decide (c = '@')) (l := normalised body)
  have hlength : body.length ≤ (normalised body).length := (congrArg List.length hread).le.trans hsuffix.length_le
  obtain ⟨hfirst, hsecond⟩ := contains_of_length_normalised hlength
  refine ⟨hquote, fun hhead => ?_, hfirst, hsecond⟩
  rw [normalised_of_contains hfirst hsecond] at hread
  obtain ⟨rest, rfl⟩ := List.head?_eq_some_iff.1 hhead
  rw [List.dropWhile_cons_of_pos (by decide)] at hread
  have hlt := (List.dropWhile_suffix (fun c => decide (c = '@')) (l := rest)).length_le
  rw [← hread, List.length_cons] at hlt
  omega

/-- Fields and a body whose reading takes all the weight of their text are read as they are. -/
theorem fields_of_potential (hnodup : names.Nodup) {body : Option Str} {fields : List (Str × Str)}
    {out final : ParsedCurl} {tokens : List Str} (htokens : tokeniseShell (tailText body fields) = .ok tokens)
    (hfinal : parseTokens tokens out = final) (hfields : ∀ e ∈ fields, ExportedField names final e)
    (hbody : ∀ text, body = some text → final.body = text)
    (hle : potential names out + weight (tailText body fields) ≤ potential names final) :
    (∀ e ∈ fields, '\'' ∉ e.1 ∧ '\'' ∉ e.2) ∧ ∀ text, body = some text → ReadableBody text := by
  induction fields generalizing out tokens with
  | nil =>
    refine ⟨List.forall_mem_nil _, ?_⟩
    rintro text rfl
    exact body_of_potential hnodup htokens hfinal (hbody text rfl) hle
  | cons e fields ih =>
    rw [List.forall_mem_cons] at hfields ⊢
    have hflag : ("-H" : Str) = "-H" ∨ ("-H" : Str) = "--data" := Or.inl rfl
    obtain ⟨hname, hvalue⟩ := field_of_potential hnodup htokens hfinal hfields.1 hle
    rw [tailText, escapeQuotes_of_not_mem hvalue] at htokens hle
    have htoken : '\'' ∉ e.1 ++ ':' :: ' ' :: e.2 := by
      simp only [List.mem_append, List.mem_cons, not_or]
      exact ⟨hname, by decide, by decide, hvalue⟩
    obtain ⟨rest, hrest, rfl, -⟩ := tokens_of_flagText hflag htoken htokens
    have hinsert := (potential_insertHeader hnodup out (e.1 ++ ':' :: ' ' :: e.2)).1
    rw [weight_flagText hflag] at hle
    have hrest := ih hrest hfinal hfields.2 (by omega)
    exact ⟨⟨⟨hname, hvalue⟩, hrest.1⟩, hrest.2⟩

/-! ### The whole export -/

/-- An absolute address for HTTP: the scheme in any case, and no white space. -/
def isAbsoluteHttpUri (uri : Str) : Bool :=
  (Str.startsWith uri.toAsciiLowercase "http://" || Str.startsWith uri.toAsciiLowercase "https://") &&
    uri.all fun c => !Str.isWhitespace c

/-- The requests for which the export is meant to be read back. -/
structure Exportable (req : RequestContext) : Prop where
  method : Http.isToken req.method = true
  uri : isAbsoluteHttpUri req.uri = true
  names : ∀ e ∈ req.headers.entries, Http.isToken e.1 = true
  distinct : (req.headers.entries.map Prod.fst).Nodup
  values : ∀ e ∈ req.headers.entries, e.2.trim = e.2 ∧ '\n' ∉ e.2 ∧ '\r' ∉ e.2
  body : Utf8.Valid req.body

/-- The library takes the text for an address of HTTP, and every token for a method. -/
structure HttpLibrary.Accepts (lib : HttpLibrary) (uri : Str) : Prop where
  uri : lib.parseUrl uri = .ok "http" ∨ lib.parseUrl uri = .ok "https"
  method : ∀ method, Http.isToken method = true → lib.methodFromBytes (Str.toUtf8 method) = true

/-- The body which is exported. -/
def exportedBody (req : RequestContext) : Option Str := if req.body.isEmpty then none else some req.bodyText

/-- The parts of the export behind the first. -/
def rawTail (body : Option Str) : List (Str × Str) → List Str
  | [] =>
    match body with
    | none => []
    | some body => [curlData body]
  | e :: fields => curlHeader e :: rawTail body fields

theorem newline_not_mem_of_isToken {s : Str} (h : Http.isToken s = true) : '\n' ∉ s := by
  intro hmem
  rw [Http.isToken, Bool.and_eq_true, List.all_eq_true] at h
  have hnewline := h.2 '\n' hmem
  revert hnewline
  decide

theorem intercalate_cons_eq (sep p : Str) (ps : List Str) :
    List.intercalate sep (p :: ps) = p ++ ps.flatMap fun part => sep ++ part := by
  induction ps generalizing p with
  | nil => simp
  | cons q ps ih => rw [List.intercalate_cons_cons, ih, List.flatMap_cons, List.append_assoc, List.append_assoc]

theorem normalised_rawTail (body : Option Str) {fields : List (Str × Str)}
    (hfields : ∀ e ∈ fields, Http.isToken e.1 = true ∧ '\n' ∉ e.2) :
    normalised ((rawTail body fields).flatMap fun part => (" \\\n  " : Str) ++ part) = tailText body fields := by
  induction fields with
  | nil =>
    cases body with
    | none => rfl
    | some body =>
      have hpart : curlData body = ("--data" : Str) ++ ' ' :: '\'' :: (escapeQuotes body ++ '\'' :: []) := by
        have hhead : ("--data '" : Str) = ("--data" : Str) ++ [' ', '\''] := rfl
        unfold curlData
        rw [hhead]
        simp
      show normalised (((" \\\n  " : Str) ++ curlData body) ++ []) = _
      rw [List.append_nil, hpart, normalised_flag (by decide)]
      rfl
  | cons e fields ih =>
    rw [List.forall_mem_cons] at hfields
    have hpart : curlHeader e = ("-H" : Str) ++ ' ' :: '\'' ::
        ((e.1 ++ ':' :: ' ' :: escapeQuotes e.2) ++ '\'' :: []) := by
      have hhead : ("-H '" : Str) = ("-H" : Str) ++ [' ', '\''] := rfl
      have hcolon : (": " : Str) = [':', ' '] := rfl
      unfold curlHeader
      rw [hhead, hcolon]
      simp
    have htoken : '\n' ∉ e.1 ++ ':' :: ' ' :: escapeQuotes e.2 := by
      simp only [List.mem_append, List.mem_cons, not_or]
      exact ⟨newline_not_mem_of_isToken hfields.1.1, by decide, by decide, not_mem_escapeQuotes (by decide) hfields.1.2⟩
    have htext : (rawTail body (e :: fields)).flatMap (fun part => (" \\\n  " : Str) ++ part) =
        (" \\\n  " : Str) ++ (("-H" : Str) ++ ' ' :: '\'' :: ((e.1 ++ ':' :: ' ' :: escapeQuotes e.2) ++ '\'' ::
          (rawTail body fields).flatMap fun part => (" \\\n  " : Str) ++ part)) := by
      rw [rawTail, List.flatMap_cons, hpart]
      simp
    rw [htext, normalised_flag (by decide), ih hfields.2, normalised_of_not_mem htoken]
    rfl

theorem getLast_append_quote (a : Str) : (a ++ ("'" : Str)).getLast? = some '\'' := by
  have hquote : ("'" : Str) = ['\''] := rfl
  rw [hquote, List.getLast?_concat]

/-- Every part ends with a quote, and so do all of them together. -/
theorem getLast_parts {sep : Str} {parts : List Str} (h : ∀ part ∈ parts, part.getLast? = some '\'') {a : Str}
    (ha : a.getLast? = some '\'') : (a ++ parts.flatMap fun part => sep ++ part).getLast? = some '\'' := by
  induction parts generalizing a with
  | nil => rwa [List.flatMap_nil, List.append_nil]
  | cons part parts ih =>
    rw [List.forall_mem_cons] at h
    rw [List.flatMap_cons, ← List.append_assoc]
    apply ih h.2
    rw [List.getLast?_append, List.getLast?_append, h.1]
    rfl

theorem getLast_rawTail (body : Option Str) (fields : List (Str × Str)) :
    ∀ part ∈ rawTail body fields, part.getLast? = some '\'' := by
  induction fields with
  | nil =>
    cases body with
    | none => exact List.forall_mem_nil _
    | some body => exact List.forall_mem_cons.2 ⟨getLast_append_quote _, List.forall_mem_nil _⟩
  | cons e fields ih => exact List.forall_mem_cons.2 ⟨getLast_append_quote _, ih⟩

/-- The first part of the export. -/
def commandText (req : RequestContext) : Str :=
  ("curl -X " : Str) ++ req.method ++ (" '" : Str) ++ req.uri ++ ("'" : Str)

theorem rawTail_eq (body : Option Str) (fields : List (Str × Str)) :
    rawTail body fields = fields.map curlHeader ++ rawTail body [] := by
  induction fields with
  | nil => rfl
  | cons e fields ih => rw [rawTail, ih, List.map_cons, List.cons_append]

theorem exportAsCurlRaw_parts (parseJson : Str → Option Json) (ex : Exchange) :
    exportAsCurlRaw parseJson ex = commandText ex.request ++
      (rawTail (exportedBody ex.request) (replayHeaders ex.request.headers false)).flatMap
        fun part => (" \\\n  " : Str) ++ part := by
  rw [← intercalate_cons_eq, rawTail_eq]
  unfold exportAsCurlRaw exportAsCurlWithRedaction exportedBody
  by_cases hbody : ex.request.body.isEmpty = true
  · simp only [if_pos hbody]
    rfl
  · simp only [if_neg hbody]
    rfl

variable {req : RequestContext}

theorem forall_replayHeaders {p : Str × Str → Prop} (h : ∀ e ∈ req.headers.entries, p e) :
    ∀ e ∈ replayHeaders req.headers false, p e :=
  fun e he => h e (List.mem_of_mem_filter he)

theorem newline_not_mem_uri (h : isAbsoluteHttpUri req.uri = true) : '\n' ∉ req.uri := by
  intro hmem
  rw [isAbsoluteHttpUri, Bool.and_eq_true, List.all_eq_true] at h
  have hspace := h.2 '\n' hmem
  revert hspace
  decide

/-- The text which is cut into tokens. -/
theorem normalised_export (parseJson : Str → Option Json) {ex : Exchange} (h : Exportable ex.request) :
    normalised (exportAsCurlRaw parseJson ex).trim =
      commandText ex.request ++ tailText (exportedBody ex.request) (replayHeaders ex.request.headers false) := by
  have htrim : (exportAsCurlRaw parseJson ex).trim = exportAsCurlRaw parseJson ex := by
    apply Str.trim_eq_self
    · rw [exportAsCurlRaw_parts]
      intro c hc
      cases hc
      rfl
    · have hlast : (commandText ex.request).getLast? = some '\'' := getLast_append_quote _
      rw [exportAsCurlRaw_parts, getLast_parts (getLast_rawTail _ _) hlast]
      intro c hc
      cases hc
      rfl
  have hcommand : commandText ex.request =
      (("curl -X " : Str) ++ ex.request.method ++ (" '" : Str) ++ ex.request.uri) ++ '\'' :: [] := rfl
  have hplain : '\n' ∉ ("curl -X " : Str) ++ ex.request.method ++ (" '" : Str) ++ ex.request.uri := by
    simp only [List.mem_append, not_or]
    exact ⟨⟨⟨by decide, newline_not_mem_of_isToken h.method⟩, by decide⟩, newline_not_mem_uri h.uri⟩
  have hfields := normalised_rawTail (exportedBody ex.request) (forall_replayHeaders fun e he =>
    ⟨h.names e he, (h.values e he).2.1⟩)
  rw [htrim, exportAsCurlRaw_parts, hcommand, List.append_assoc, List.cons_append, List.nil_append,
    normalised_append_quote, normalised_of_not_mem hplain, hfields]
  simp

/-! ### The words before the fields -/

theorem weight_tailText (body : Option Str) (fields : List (Str × Str)) :
    weight (tailText body fields) = (fields.map fun e => 1 + weight e.1 + weight e.2).sum +
      match body with
      | none => 0
      | some body => 1 + weight body := by
  have hheader : ("-H" : Str) = "-H" ∨ ("-H" : Str) = "--data" := Or.inl rfl
  have hdata : ("--data" : Str) = "-H" ∨ ("--data" : Str) = "--data" := Or.inr rfl
  induction fields with
  | nil =>
    cases body with
    | none => rfl
    | some body =>
      rw [tailText, weight_flagText hdata, weight_normalised, weight_escapeQuotes]
      exact (Nat.zero_add _).symm
  | cons e fields ih =>
    have htoken : weight (e.1 ++ ':' :: ' ' :: escapeQuotes e.2) = weight e.1 + weight e.2 := by
      rw [weight_append, weight_cons (by decide), weight_cons (by decide), weight_escapeQuotes]
    rw [tailText, weight_flagText hheader, ih, htoken, List.map_cons, List.sum_cons]
    omega

theorem not_isBlank_of_isToken {s : Str} (h : Http.isToken s = true) : ∀ c ∈ s, isBlank c = false := by
  intro c hc
  rw [Http.isToken, Bool.and_eq_true, List.all_eq_true] at h
  by_contra hblank
  simp only [isBlank, Bool.not_eq_false, Bool.or_eq_true, decide_eq_true_eq] at hblank
  have hchar := h.2 c hc
  rcases hblank with rfl | rfl <;> revert hchar <;> decide

theorem tokenChar_head {c : Char} (h : Http.isTokenChar c = true) : Str.isWhitespace c = false ∧ c ≠ quoteMark := by
  constructor
  · by_contra hspace
    have hdrop : Str.trim [c] = [] := by
      unfold Str.trim
      rw [List.dropWhile_cons_of_pos ((Bool.not_eq_false _).mp hspace)]
      rfl
    have htoken : Http.isToken [c] = true := by
      rw [Http.isToken, List.all_cons, h]
      rfl
    rw [Http.trim_of_token htoken] at hdrop
    cases hdrop
  · rintro rfl
    revert h
    decide

/-- The words before the method. -/
theorem tokens_of_command {rest : Str} :
    tokeniseShell (("curl -X " : Str) ++ rest) =
      (tokeniseShell (' ' :: rest)).map fun tokens => ("curl" : Str) :: ("-X" : Str) :: tokens := by
  have hcurl : ("curl -X " : Str) ++ rest = [] ++ 'c' :: (("url" : Str) ++ ' ' :: (("-X " : Str) ++ rest)) := rfl
  have hflag : ' ' :: (("-X " : Str) ++ rest) = [' '] ++ '-' :: (("X" : Str) ++ ' ' :: rest) := rfl
  rw [hcurl, tokeniseShell_bare (List.forall_mem_nil _) (by decide) (by decide) (by decide) (by decide), hflag,
    tokeniseShell_bare (by decide) (by decide) (by decide) (by decide) (by decide)]
  cases tokeniseShell (' ' :: rest) <;> rfl

/-- A method which does not begin with a quote is a word. -/
theorem tokens_of_method {method : Str} (htoken : Http.isToken method = true) (hquote : method.head? ≠ some '\'')
    (rest : Str) : tokeniseShell (' ' :: (method ++ ' ' :: rest)) =
      (tokeniseShell (' ' :: rest)).map (method :: ·) := by
  have hblank := not_isBlank_of_isToken htoken
  rw [Http.isToken, Bool.and_eq_true, List.all_eq_true] at htoken
  cases method with
  | nil => cases htoken.1
  | cons c method =>
    obtain ⟨hspace, hdouble⟩ := tokenChar_head (htoken.2 c List.mem_cons_self)
    have hne : c ≠ '\'' := fun hc => hquote (congrArg some hc)
    exact @tokeniseShell_bare [' '] method (by decide) c hspace hne hdouble hblank rest

/-- A word which begins as an address does is the address. -/
theorem parseTokens_url {url : Str} (hhead : url.head? ≠ some '-') (hne : url ≠ []) (rest : List Str) {out : ParsedCurl}
    (hout : out.url = []) : parseTokens (url :: rest) out = parseTokens rest { out with url := url } := by
  have hmethod : ¬ (url = ("-X" : Str) ∨ url = ("--request" : Str)) := by
    rintro (rfl | rfl) <;> exact hhead rfl
  have hheader : ¬ (url = ("-H" : Str) ∨ url = ("--header" : Str)) := by
    rintro (rfl | rfl) <;> exact hhead rfl
  have hdata : ¬ (url = ("-d" : Str) ∨ url = ("--data" : Str) ∨ url = ("--data-raw" : Str) ∨
      url = ("--data-binary" : Str) ∨ url = ("--data-ascii" : Str)) := by
    rintro (rfl | rfl | rfl | rfl | rfl) <;> exact hhead rfl
  have hget : ¬ (url = ("-G" : Str) ∨ url = ("--get" : Str)) := by
    rintro (rfl | rfl) <;> exact hhead rfl
  have hheadFlag : ¬ (url = ("-I" : Str) ∨ url = ("--head" : Str)) := by
    rintro (rfl | rfl) <;> exact hhead rfl
  have hstart : Str.startsWith url ("-" : Str) = false := by
    obtain ⟨c, url, rfl⟩ := List.exists_cons_of_ne_nil hne
    have hc : ¬ '-' = c := fun h => hhead (by rw [← h]; rfl)
    simp [Str.startsWith, Str.stripPrefix, hc]
  have hurl : (!Str.startsWith url ("-" : Str) && out.url.isEmpty) = true := by rw [hstart, hout]; rfl
  rw [parseTokens.eq_def]
  dsimp only
  rw [if_neg hmethod, if_neg hheader, if_neg hdata, if_neg hget, if_neg hheadFlag, if_pos hurl]

/-! ### Reading back -/

/-- A field without quotes, as it is exported. -/
structure PlainField (e : Str × Str) : Prop where
  name : Http.isToken e.1 = true
  value : e.2.trim = e.2
  quotes : '\'' ∉ e.1 ∧ '\'' ∉ e.2

/-- Fields without quotes and a plain body are read as they are. -/
theorem parse_tailText {body : Option Str} (hbody : ∀ text, body = some text → ReadableBody text)
    {fields : List (Str × Str)} (hfields : ∀ e ∈ fields, PlainField e) (out : ParsedCurl) :
    ∃ tokens, tokeniseShell (tailText body fields) = .ok tokens ∧ parseTokens tokens out =
      { out with headers := fields.foldl (fun m e => m.insert e.1 e.2) out.headers, body := body.getD out.body } := by
  induction fields generalizing out with
  | nil =>
    cases body with
    | none => exact ⟨[], tokeniseShell_nil, rfl⟩
    | some text =>
      have hread := hbody text rfl
      have hdrop : text.dropWhile (fun c => decide (c = '@')) = text := by
        cases text with
        | nil => rfl
        | cons c text =>
          have hc : c ≠ '@' := fun hc => hread.file (congrArg some hc)
          rw [List.dropWhile_cons_of_neg (by simpa using hc)]
      refine ⟨["--data", text], ?_, ?_⟩
      · rw [tailText, escapeQuotes_of_not_mem hread.quote, normalised_of_contains hread.continuation hread.returned,
          tokeniseShell_flag (Or.inr rfl) hread.quote, tokeniseShell_nil]
        rfl
      · rw [parseTokens_data, hdrop]
        rfl
  | cons e fields ih =>
    rw [List.forall_mem_cons] at hfields
    obtain ⟨hname, hvalue⟩ := hfields.1.quotes
    have htoken : '\'' ∉ e.1 ++ ':' :: ' ' :: e.2 := by
      simp only [List.mem_append, List.mem_cons, not_or]
      exact ⟨hname, by decide, by decide, hvalue⟩
    obtain ⟨tokens, htokens, hparse⟩ := ih hfields.2 (out.insertHeader (e.1 ++ ':' :: ' ' :: e.2))
    refine ⟨"-H" :: (e.1 ++ ':' :: ' ' :: e.2) :: tokens, ?_, ?_⟩
    · rw [tailText, escapeQuotes_of_not_mem hvalue, tokeniseShell_flag (Or.inl rfl) htoken, htokens]
      rfl
    · rw [parseTokens_header, hparse, insertHeader_field out hfields.1.name, hfields.1.value]
      rfl

theorem get?_fields {fields : List (Str × Str)} (hnodup : (fields.map Prod.fst).Nodup) (name value : Str) :
    (fields.foldl (fun m e => m.insert e.1 e.2) (IndexMap.empty : IndexMap Str Str)).get? name = some value ↔
      (name, value) ∈ fields := by
  have hkey := IndexMap.filter_key (IndexMap.mk fields hnodup) name
  rw [IndexMap.get?_insertAll, IndexMap.get?_empty, Option.or_none]
  dsimp only at hkey
  have hlast : ∀ o : Option Str, o.toList.getLast? = o := fun o => by cases o <;> rfl
  rw [hkey, hlast]
  exact ⟨IndexMap.mem_of_get?, @IndexMap.get?_of_mem _ _ _ ⟨fields, hnodup⟩ name value⟩

/-- The importer gives the exported request. -/
def ReadBack (lib : HttpLibrary) (parseJson : Str → Option Json) (ex : Exchange) : Prop :=
  ∃ out, parseCurl lib (exportAsCurlRaw parseJson ex) = .ok out ∧ out.method = ex.request.method ∧
    out.url = ex.request.uri ∧
    (∀ name value, out.headers.get? name = some value ↔ (name, value) ∈ replayHeaders ex.request.headers false) ∧
    out.body.toUtf8 = ex.request.body

/-- The texts which the importer reads as they are. -/
structure Importable (req : RequestContext) : Prop where
  method : req.method.head? ≠ some '\''
  uri : '\'' ∉ req.uri
  headers : ∀ e ∈ replayHeaders req.headers false, '\'' ∉ e.1 ∧ '\'' ∉ e.2
  body : ReadableBody req.bodyText

theorem toUtf8_bodyText (h : Utf8.Valid req.body) : req.bodyText.toUtf8 = req.body :=
  (Utf8.toUtf8_decodeLossy_iff _).2 h

theorem bodyText_eq_nil (h : Utf8.Valid req.body) : req.bodyText = [] ↔ req.body.isEmpty = true := by
  rw [List.isEmpty_iff, ← toUtf8_bodyText h]
  constructor
  · intro hnil
    rw [hnil]
    rfl
  · exact fun hnil => Utf8.toUtf8_inj.1 hnil

/-- An address begins with a letter. -/
theorem uri_head {uri : Str} (h : isAbsoluteHttpUri uri = true) :
    ∃ c rest, uri = c :: rest ∧ c ≠ '-' ∧ c ≠ '\'' := by
  cases uri with
  | nil => cases h
  | cons c rest =>
    have hne : ∀ d : Char, d.toLower ≠ 'h' → c ≠ d := by
      rintro d hd rfl
      have hlower : Str.toAsciiLowercase (c :: rest) = c.toLower :: Str.toAsciiLowercase rest := rfl
      rw [isAbsoluteHttpUri, hlower] at h
      simp [Str.startsWith, Str.stripPrefix, Ne.symm hd] at h
    exact ⟨c, rest, rfl, hne '-' (by decide), hne '\'' (by decide)⟩

/-- The words of the command, and then what stands behind the method. -/
theorem tokens_of_commandText (htoken : Http.isToken req.method = true) (hquote : req.method.head? ≠ some '\'')
    (s : Str) : tokeniseShell (commandText req ++ s) =
      (tokeniseShell (' ' :: '\'' :: (req.uri ++ '\'' :: s))).map fun tokens =>
        ("curl" : Str) :: ("-X" : Str) :: req.method :: tokens := by
  have htext : commandText req ++ s =
      ("curl -X " : Str) ++ (req.method ++ ' ' :: '\'' :: (req.uri ++ '\'' :: s)) := by
    have hblank : (" '" : Str) = [' ', '\''] := rfl
    have hend : ("'" : Str) = ['\''] := rfl
    unfold commandText
    rw [hblank, hend]
    simp
  rw [htext, tokens_of_command, tokens_of_method htoken hquote]
  cases tokeniseShell (' ' :: '\'' :: (req.uri ++ '\'' :: s)) <;> rfl

theorem parseTokens_method (method : Str) (rest : List Str) (out : ParsedCurl) :
    parseTokens ("-X" :: method :: rest) out = parseTokens rest { out with method } := rfl

theorem parseCurl_of_tokens {lib : HttpLibrary} {input : Str} {tokens : List Str}
    (h : tokeniseShell (normalised input.trim) = .ok ("curl" :: tokens)) :
    parseCurl lib input = finishCurl lib (parseTokens tokens ParsedCurl.empty) := by
  unfold parseCurl
  rw [h]
  rfl

/-- The checks behind the loop accept a request with a method and an address. -/
theorem finishCurl_of_accepts {lib : HttpLibrary} {out : ParsedCurl} (hlib : lib.Accepts out.url)
    (hmethod : Http.isToken out.method = true) (hurl : isAbsoluteHttpUri out.url = true) :
    finishCurl lib out = .ok out := by
  obtain ⟨c, rest, huri, -, -⟩ := uri_head hurl
  have hvalid : validateHttpUrl lib out.url = .ok () := by
    unfold validateHttpUrl
    rcases hlib.uri with h | h <;> rw [h] <;> rfl
  have hnil : out.url.isEmpty = false := by rw [huri]; rfl
  have hsome : out.method.isEmpty = false := by
    rw [Http.isToken, Bool.and_eq_true, Bool.not_eq_true'] at hmethod
    exact hmethod.1
  unfold finishCurl
  rw [hnil, hvalid, hsome]
  simp [hlib.method out.method hmethod]

/-- The request as the importer has it. -/
def importedCurl (req : RequestContext) : ParsedCurl where
  method := req.method
  url := req.uri
  headers := (replayHeaders req.headers false).foldl (fun m e => m.insert e.1 e.2) IndexMap.empty
  body := (exportedBody req).getD []

theorem readBack_of_importable {lib : HttpLibrary} {ex : Exchange} (hlib : lib.Accepts ex.request.uri)
    (parseJson : Str → Option Json) (h : Exportable ex.request) (himport : Importable ex.request) :
    ReadBack lib parseJson ex := by
  have hfields : ∀ e ∈ replayHeaders ex.request.headers false, PlainField e := fun e he =>
    ⟨forall_replayHeaders h.names e he, (forall_replayHeaders h.values e he).1, himport.headers e he⟩
  have hbody : ∀ text, exportedBody ex.request = some text → ReadableBody text := by
    intro text htext
    unfold exportedBody at htext
    split at htext
    · cases htext
    · cases htext
      exact himport.body
  obtain ⟨c, rest, huri, hdash, -⟩ := uri_head h.uri
  have hhead : ex.request.uri.head? ≠ some '-' := by
    rw [huri]
    exact fun hc => hdash (Option.some.inj hc)
  have hne : ex.request.uri ≠ [] := by
    rw [huri]
    exact List.cons_ne_nil _ _
  obtain ⟨tokens, htokens, hparse⟩ := parse_tailText hbody hfields
    { method := ex.request.method, url := ex.request.uri, headers := IndexMap.empty, body := [] }
  have hall : tokeniseShell (normalised (exportAsCurlRaw parseJson ex).trim) =
      .ok ("curl" :: "-X" :: ex.request.method :: ex.request.uri :: tokens) := by
    rw [normalised_export parseJson h, tokens_of_commandText h.method himport.method,
      tokeniseShell_space_quoted himport.uri, htokens]
    rfl
  have hrun : parseTokens ("-X" :: ex.request.method :: ex.request.uri :: tokens) ParsedCurl.empty =
      importedCurl ex.request := by
    rw [parseTokens_method, parseTokens_url hhead hne tokens rfl]
    exact hparse
  have hnodup : ((replayHeaders ex.request.headers false).map Prod.fst).Nodup :=
    h.distinct.sublist (List.filter_sublist.map _)
  refine ⟨importedCurl ex.request, ?_, ?_⟩
  · rw [parseCurl_of_tokens hall, hrun]
    exact finishCurl_of_accepts hlib h.method h.uri
  · refine ⟨rfl, rfl, get?_fields hnodup, ?_⟩
    unfold importedCurl exportedBody
    split
    · rename_i hempty
      rw [List.isEmpty_iff.1 hempty]
      rfl
    · exact toUtf8_bodyText h.body

/-! ### What is read back -/

theorem finishCurl_ok {lib : HttpLibrary} {read out : ParsedCurl} (h : finishCurl lib read = .ok out) :
    out.url = read.url ∧ out.headers = read.headers ∧ out.body = read.body ∧
      (out.method = read.method ∨ read.method = [] ∧ (out.method = "GET" ∨ out.method = "POST")) := by
  unfold finishCurl at h
  split at h
  · cases h
  · split at h
    · cases h
    · dsimp only at h
      generalize hmethod : (if read.method.isEmpty = true then if read.body.isEmpty = true then ("GET" : Str)
        else ("POST" : Str) else read.method) = method at h
      by_cases haccepted : lib.methodFromBytes (Str.toUtf8 method) = true
      · rw [if_pos haccepted] at h
        cases h
        refine ⟨rfl, rfl, rfl, ?_⟩
        dsimp only
        rw [← hmethod]
        split
        · rename_i hnone
          refine Or.inr ⟨List.isEmpty_iff.1 hnone, ?_⟩
          split
          · exact Or.inl rfl
          · exact Or.inr rfl
        · exact Or.inl rfl
      · rw [if_neg haccepted] at h
        cases h

theorem parseCurl_ok {lib : HttpLibrary} {input : Str} {out : ParsedCurl} (h : parseCurl lib input = .ok out) :
    ∃ command tokens, tokeniseShell (normalised input.trim) = .ok (command :: tokens) ∧
      finishCurl lib (parseTokens tokens ParsedCurl.empty) = .ok out := by
  unfold parseCurl at h
  split at h
  · cases h
  · cases h
  · rename_i command tokens htokens
    dsimp only at h
    split at h
    · cases h
    · exact ⟨command, tokens, htokens, h⟩

theorem potential_start (method url : Str) : potential names
    { method := method, url := url, headers := IndexMap.empty, body := [] } = weight method + weight url := by
  have hfields : (names.map (fieldWeight IndexMap.empty)).sum = 0 := by
    apply List.sum_eq_zero
    intro n hn
    obtain ⟨name, -, rfl⟩ := List.mem_map.1 hn
    rfl
  unfold potential
  dsimp only
  rw [hfields]
  rfl

/-- A request which is read back weighs as much as the text of its export. -/
theorem potential_of_read {read out : ParsedCurl}
    (hfinish : out.url = read.url ∧ out.headers = read.headers ∧ out.body = read.body ∧
      (out.method = read.method ∨ read.method = [] ∧ (out.method = "GET" ∨ out.method = "POST")))
    (hmethod : out.method = req.method) (hurl : out.url = req.uri)
    (hheaders : ∀ name value, out.headers.get? name = some value ↔ (name, value) ∈ replayHeaders req.headers false)
    (hbody : out.body = req.bodyText) (hvalid : Utf8.Valid req.body) :
    potential ((replayHeaders req.headers false).map Prod.fst) read =
      weight req.method + weight req.uri + weight (tailText (exportedBody req) (replayHeaders req.headers false)) := by
  obtain ⟨hurl', hheaders', hbody', hmethod'⟩ := hfinish
  have hmethodWeight : weight read.method = weight req.method := by
    rw [← hmethod]
    rcases hmethod' with heq | ⟨hnil, heq | heq⟩
    · rw [heq]
    · rw [hnil, heq]
      rfl
    · rw [hnil, heq]
      rfl
  have hfields : ((replayHeaders req.headers false).map Prod.fst).map (fieldWeight read.headers) =
      (replayHeaders req.headers false).map fun e => 1 + weight e.1 + weight e.2 := by
    rw [List.map_map]
    apply List.map_congr_left
    intro e he
    have hget : read.headers.get? e.1 = some e.2 := by
      rw [← hheaders']
      exact (hheaders e.1 e.2).2 he
    show fieldWeight read.headers e.1 = _
    unfold fieldWeight
    rw [hget]
    rfl
  have hbodyWeight : bodyWeight read.body =
      match exportedBody req with
      | none => 0
      | some body => 1 + weight body := by
    rw [← hbody', hbody]
    unfold exportedBody bodyWeight
    have hnil := bodyText_eq_nil hvalid
    by_cases hempty : req.body.isEmpty = true
    · rw [if_pos (hnil.2 hempty), if_pos hempty]
    · rw [if_neg fun h => hempty (hnil.1 h), if_neg hempty]
  unfold potential
  rw [weight_tailText, hfields, hbodyWeight, hmethodWeight, ← hurl', hurl]
  omega

theorem importable_of_readBack {lib : HttpLibrary} {parseJson : Str → Option Json} {ex : Exchange}
    (h : Exportable ex.request) (hread : ReadBack lib parseJson ex) : Importable ex.request := by
  obtain ⟨out, hout, hmethod, hurl, hheaders, hbody⟩ := hread
  obtain ⟨command, tokens, htokens, hfinish⟩ := parseCurl_ok hout
  have hfields := finishCurl_ok hfinish
  have htext : out.body = ex.request.bodyText := by
    rw [← toUtf8_bodyText h.body] at hbody
    exact Utf8.toUtf8_inj.1 hbody
  have hnodup : ((replayHeaders ex.request.headers false).map Prod.fst).Nodup :=
    h.distinct.sublist (List.filter_sublist.map _)
  have hpotential := potential_of_read hfields hmethod hurl hheaders htext h.body
  have hrun := run_parseTokens tokens ParsedCurl.empty
  rw [normalised_export parseJson h] at htokens
  have hcommand : weight (commandText ex.request) = weight ex.request.method + weight ex.request.uri := by
    have hcurl : weight ("curl -X " : Str) = 0 := rfl
    have hopen : weight (" '" : Str) = 0 := rfl
    have hclose : weight ("'" : Str) = 0 := rfl
    unfold commandText
    rw [weight_append, weight_append, weight_append, weight_append, hcurl, hopen, hclose]
    omega
  have hquote : ex.request.method.head? ≠ some '\'' := by
    -- only a text in double quotes begins with a quote, and then the tokens weigh less
    intro hhead
    have hmem : ex.request.method ∈ tokens := by
      rcases hfields.2.2.2 with heq | ⟨-, heq | heq⟩
      · rw [← hmethod, heq]
        rcases hrun.method_cases with hnil | hmem | hconst | hconst
        · rw [← hmethod, heq, hnil] at hhead
          cases hhead
        · exact hmem
        · rw [← hmethod, heq, hconst] at hhead
          cases hhead
        · rw [← hmethod, heq, hconst] at hhead
          cases hhead
      · rw [← hmethod, heq] at hhead
        cases hhead
      · rw [← hmethod, heq] at hhead
        cases hhead
    have hlt := (weight_tokens htokens).2 ⟨_, List.mem_cons_of_mem _ hmem, hhead⟩
    have hle := hrun.potential_le hnodup
    have hstart := @potential_start ((replayHeaders ex.request.headers false).map Prod.fst) [] []
    rw [totalWeight_cons, weight_append, hcommand] at hlt
    rw [hpotential] at hle
    have hzero : weight [] = 0 := rfl
    unfold ParsedCurl.empty at hle
    omega
  rw [tokens_of_commandText h.method hquote] at htokens
  obtain ⟨rest, hrest, heq⟩ := ok_of_map htokens
  cases heq
  obtain ⟨c, uriRest, huri, hdash, hletter⟩ := uri_head h.uri
  have huriQuote : '\'' ∉ ex.request.uri := by
    -- the address would end at its first quote, and the first address stays
    intro hmem
    obtain ⟨before, after, hsplit, hbefore⟩ := List.eq_append_cons_of_mem hmem
    have hcut : ex.request.uri ++ '\'' :: tailText (exportedBody ex.request) (replayHeaders ex.request.headers false) =
        before ++ '\'' :: (after ++ '\'' :: tailText (exportedBody ex.request)
          (replayHeaders ex.request.headers false)) := by
      rw [hsplit]
      simp
    rw [hcut, tokeniseShell_space_quoted hbefore] at hrest
    obtain ⟨rest', -, rfl⟩ := ok_of_map hrest
    cases before with
    | nil =>
      rw [huri] at hsplit
      cases hsplit
      exact hletter rfl
    | cons d before =>
      rw [huri] at hsplit
      cases hsplit
      have hhead : (c :: before).head? ≠ some '-' := fun hc => hdash (Option.some.inj hc)
      rw [parseTokens_method, parseTokens_url hhead (List.cons_ne_nil _ _) rest' rfl] at hfields
      have hkept := (run_parseTokens rest'
        { ParsedCurl.empty with method := ex.request.method, url := c :: before }).url_eq (List.cons_ne_nil _ _)
      rw [← hfields.1, hurl] at hkept
      rw [hkept] at hmem
      exact hbefore hmem
  rw [tokeniseShell_space_quoted huriQuote] at hrest
  obtain ⟨rest', htail, rfl⟩ := ok_of_map hrest
  have hhead : ex.request.uri.head? ≠ some '-' := by
    rw [huri]
    exact fun hc => hdash (Option.some.inj hc)
  have hne : ex.request.uri ≠ [] := by
    rw [huri]
    exact List.cons_ne_nil _ _
  rw [parseTokens_method, parseTokens_url hhead hne rest' rfl] at hfields hpotential
  have hexported : ∀ e ∈ replayHeaders ex.request.headers false,
      ExportedField ((replayHeaders ex.request.headers false).map Prod.fst) (parseTokens rest'
        { ParsedCurl.empty with method := ex.request.method, url := ex.request.uri }) e := by
    intro e he
    refine ⟨forall_replayHeaders h.names e he, (forall_replayHeaders h.values e he).1, List.mem_map_of_mem he, ?_⟩
    rw [← hfields.2.1]
    exact (hheaders e.1 e.2).2 he
  have hbodies : ∀ text, exportedBody ex.request = some text → (parseTokens rest'
      { ParsedCurl.empty with method := ex.request.method, url := ex.request.uri }).body = text := by
    intro text hsome
    rw [← hfields.2.2.1, htext]
    unfold exportedBody at hsome
    split at hsome
    · cases hsome
    · exact Option.some.inj hsome
  obtain ⟨hplain, hreadable⟩ := fields_of_potential hnodup htail rfl hexported hbodies (by
    rw [hpotential]
    exact Nat.add_le_add_right (potential_start _ _).le _)
  refine ⟨hquote, huriQuote, hplain, ?_⟩
  unfold exportedBody at hreadable
  split at hreadable
  · rename_i hempty
    rw [(bodyText_eq_nil h.body).2 hempty]
    exact ⟨List.not_mem_nil, by decide, by decide, by decide⟩
  · exact hreadable _ rfl

/-- The importer gives the exported request exactly where no quote is in its texts, except inside the method, and the
body does not begin with an at sign and has no continuation. -/
theorem readBack_iff {lib : HttpLibrary} {ex : Exchange} (hlib : lib.Accepts ex.request.uri)
    (parseJson : Str → Option Json) (h : Exportable ex.request) :
    ReadBack lib parseJson ex ↔ Importable ex.request :=
  ⟨importable_of_readBack h, readBack_of_importable hlib parseJson h⟩

/-! ### A value with a quote -/

/-- A library which knows the two schemes of the web by their beginning, and takes a token for a method. -/
private def schemeLibrary : HttpLibrary where
  parseUrl uri :=
    if Str.startsWith uri.toAsciiLowercase "http://" then .ok "http"
    else if Str.startsWith uri.toAsciiLowercase "https://" then .ok "https"
    else .error "relative URL without a base"
  methodFromBytes method := Http.isToken (Utf8.decodeLossy method)

private theorem schemeLibrary_accepts {uri : Str} (h : isAbsoluteHttpUri uri = true) : schemeLibrary.Accepts uri where
  uri := by
    rw [isAbsoluteHttpUri, Bool.and_eq_true, Bool.or_eq_true] at h
    unfold schemeLibrary
    dsimp only
    by_cases hhttp : Str.startsWith uri.toAsciiLowercase "http://" = true
    · rw [if_pos hhttp]
      exact Or.inl rfl
    · rw [if_neg hhttp, if_pos (h.1.resolve_left hhttp)]
      exact Or.inr rfl
  method method h := by
    unfold schemeLibrary
    dsimp only
    rwa [Utf8.decodeLossy_toUtf8]

private def noteExchange (request : RequestContext) : Exchange where
  id := "e1"
  timestamp := 0
  updatedAt := none
  request := request
  response := none
  metrics := none
  source := .proxy
  wsFrames := []
  events := []
  flow := []
  note := none
  tags := []
  inspectorData := none
  pausedAt := none
  connectionId := none
  streamId := none
  downstreamProtocol := none
  protocolContext := none

private def quotedValue : Exchange :=
  noteExchange { RequestContext.default with
    method := "GET", uri := "http://a/", headers := HeaderMap.new.append "x-note" "it's" }

private def plainValue : Exchange :=
  noteExchange { RequestContext.default with
    method := "POST", uri := "http://a/notes", headers := HeaderMap.new.append "x-note" "it is"
    body := Str.toUtf8 "text=\\back" }

private theorem quotedValue_exportable : Exportable quotedValue.request where
  method := by decide
  uri := by decide
  names := by decide
  distinct := by decide
  values := by decide
  body := ⟨[], rfl⟩

private theorem plainValue_exportable : Exportable plainValue.request where
  method := by decide
  uri := by decide
  names := by decide
  distinct := by decide
  values := by decide
  body := ⟨"text=\\back", rfl⟩

/-- A request which comes back, and one of whose value only the part before the quote does. -/
theorem readBack_iff_quoted :
    ReadBack schemeLibrary (fun _ => none) plainValue ∧
      (ReadBack schemeLibrary (fun _ => none) quotedValue ↔ Importable quotedValue.request) := by
  constructor
  · refine (readBack_iff (schemeLibrary_accepts (by decide)) (fun _ => none) plainValue_exportable).2 ?_
    exact ⟨by decide, by decide, by decide, by decide, by decide, by decide +kernel, by decide +kernel⟩
  · exact readBack_iff (schemeLibrary_accepts (by decide)) (fun _ => none) quotedValue_exportable

theorem not_readBack : ¬ ∀ (lib : HttpLibrary) (parseJson : Str → Option Json) (ex : Exchange),
    lib.Accepts ex.request.uri → Exportable ex.request → ReadBack lib parseJson ex := by
  intro h
  have hread := h schemeLibrary (fun _ => none) quotedValue (schemeLibrary_accepts (by decide)) quotedValue_exportable
  have himport := importable_of_readBack quotedValue_exportable hread
  exact (himport.headers ("x-note", "it's") (by decide)).2 (by decide)

end Export

end Oproxy
