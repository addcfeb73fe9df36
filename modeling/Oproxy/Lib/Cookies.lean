import Oproxy.Lib.Http

/-!
# Cookies as a client keeps them

What a client stores of a `Set-Cookie` field, and the field it sends back.  All separators are ASCII, so a text stands
for its bytes.
-/

namespace Http

def isBlank (c : Char) : Bool := c == ' ' || c == '\t'

def trimBlanks (s : Str) : Str := (s.dropWhile isBlank).rdropWhile isBlank

structure Cookie where
  name : Str
  value : Str
  deriving DecidableEq

namespace Cookie

/-- The pair before the first semicolon, without the blanks around name and value; a field without an equals sign or
without a name is ignored. -/
def ofSetCookie (field : Str) : Option Cookie :=
  (Str.splitOnce '=' (field.takeWhile (· ≠ ';'))).bind fun (name, value) =>
    if (trimBlanks name).isEmpty then none else some ⟨trimBlanks name, trimBlanks value⟩

/-- The `Cookie` field of a client which keeps this cookie. -/
def text (cookie : Cookie) : Str := cookie.name ++ '=' :: cookie.value

end Cookie

theorem isWhitespace_of_isBlank {c : Char} (h : isBlank c = true) : Str.isWhitespace c = true := by
  unfold isBlank at h
  rw [Bool.or_eq_true, beq_iff_eq, beq_iff_eq] at h
  rcases h with rfl | rfl <;> decide

/-- A text without white space around it has no blanks around it. -/
theorem trimBlanks_trim (s : Str) : trimBlanks s.trim = s.trim := by
  have hfront : s.trim.dropWhile isBlank = s.trim := by
    cases htrim : s.trim with
    | nil => rfl
    | cons c rest =>
      have hc : Str.isWhitespace c = false := Str.isWhitespace_of_head_trim (s := s) (by rw [htrim]; rfl)
      rw [List.dropWhile_cons_of_neg]
      intro hblank
      rw [isWhitespace_of_isBlank hblank] at hc
      cases hc
  unfold trimBlanks
  rw [hfront, List.rdropWhile_eq_self_iff]
  intro hne hblank
  have hlast : s.trim.getLast hne ∈ s.trim.getLast? := by rw [List.getLast?_eq_getLast_of_ne_nil hne]; rfl
  have hwhite := Str.isWhitespace_of_getLast_trim hlast
  rw [isWhitespace_of_isBlank hblank] at hwhite
  cases hwhite

/-- The cookie of a field in the order `name=value; attributes`. -/
theorem Cookie.ofSetCookie_append {name : Str} (hname : '=' ∉ name) (hfree : ';' ∉ name)
    (hkept : trimBlanks name = name) (hne : name ≠ []) (value attributes : Str) :
    ofSetCookie (name ++ '=' :: (value ++ ';' :: attributes)) =
      some ⟨name, trimBlanks (value.takeWhile (· ≠ ';'))⟩ := by
  have hbefore : ∀ c ∈ name, (decide (c ≠ ';')) = true := by
    rintro c hc
    rw [decide_eq_true_eq]
    rintro rfl
    exact hfree hc
  have hvalue : (value ++ ';' :: attributes).takeWhile (· ≠ ';') = value.takeWhile (· ≠ ';') := by
    induction value with
    | nil => rfl
    | cons c value ih =>
      rw [List.cons_append, List.takeWhile_cons, List.takeWhile_cons, ih]
  have hpair : (name ++ '=' :: (value ++ ';' :: attributes)).takeWhile (· ≠ ';') =
      name ++ '=' :: value.takeWhile (· ≠ ';') := by
    rw [List.takeWhile_append_of_pos hbefore, List.takeWhile_cons_of_pos (by decide), hvalue]
  unfold ofSetCookie
  rw [hpair, Str.splitOnce_append hname, Option.bind_some]
  dsimp only
  rw [hkept, if_neg (by simpa using hne)]

end Http
