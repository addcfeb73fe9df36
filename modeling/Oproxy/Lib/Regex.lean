import Oproxy.Lib.Text

/-!
# Regular expressions

What a program uses of a regular-expression library: compilation, which may fail, the unanchored test, the
replacement of all matches and the groups of the first match.  The library is a parameter wherever one is used.
-/

structure Regex where
  isMatch : Str → Bool
  replaceAll : Str → Str → Str
  /-- The texts of the groups, the whole match first; a group which takes no part in the match is empty. -/
  captures : Str → Option (List Str)

/-- Compilation of a pattern; none for a pattern with a syntax error. -/
abbrev RegexEngine := Str → Option Regex
