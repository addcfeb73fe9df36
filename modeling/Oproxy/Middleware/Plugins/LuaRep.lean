import Oproxy.Lib.Text

/-!
# `string.rep` in the sandbox (`middleware/plugins/lua_engine.rs`)

The replacement of `string.rep` computes the size of its result in machine words, of which one product and the sum may
wrap around, and compares it with its limit before it writes anything.
-/

namespace Oproxy

namespace LuaEngine

/-! ### Machine words -/

def wordBound : Nat := 2 ^ 64 - 1

/-- `usize::saturating_sub`. -/
def saturatingSub (a b : UInt64) : UInt64 := UInt64.ofNat (a.toNat - b.toNat)

/-- `usize::saturating_mul`. -/
def saturatingMul (a b : UInt64) : UInt64 := UInt64.ofNat (min (a.toNat * b.toNat) wordBound)

theorem toNat_saturatingSub (a b : UInt64) : (saturatingSub a b).toNat = a.toNat - b.toNat :=
  UInt64.toNat_ofNat_of_lt (Nat.lt_of_le_of_lt (Nat.sub_le _ _) a.toNat_lt)

theorem toNat_saturatingMul (a b : UInt64) : (saturatingMul a b).toNat = min (a.toNat * b.toNat) wordBound := by
  apply UInt64.toNat_ofNat_of_lt
  have hle := Nat.min_le_right (a.toNat * b.toNat) wordBound
  have hsize : wordBound < UInt64.size := by decide
  omega

/-! ### The replacement -/

/-- A string of the program: its bytes fit into half of the address space. -/
structure LuaString where
  text : Str
  len_lt : text.utf8Len < 2 ^ 63

namespace LuaString

def default : LuaString := ⟨[], by decide⟩

def len (s : LuaString) : UInt64 := UInt64.ofNat s.text.utf8Len

theorem toNat_len (s : LuaString) : s.len.toNat = s.text.utf8Len := by
  apply UInt64.toNat_ofNat_of_lt
  have hlt := s.len_lt
  have hsize : UInt64.size = 2 ^ 64 := rfl
  omega

end LuaString

def repError : Str := "string.rep: output exceeds 1 MiB limit"

/-- The loop: what is left of the rounds, and the round that comes next. -/
def pushCopies (s sep : Str) : (remaining i : Nat) → (result : Str) → Str
  | 0, _, result => result
  | remaining + 1, i, result =>
    pushCopies s sep remaining (i + 1) ((if i > 0 then result ++ sep else result) ++ s)

/-- The size as the machine computes it. -/
def repSize (s : LuaString) (n : UInt64) (sep : LuaString) : UInt64 :=
  s.len * n + saturatingMul sep.len (saturatingSub n 1)

def rep (s : LuaString) (n : UInt64) (sep : Option LuaString) : Except Str Str :=
  let sep := sep.getD LuaString.default
  if repSize s n sep > 1048576 then .error repError else .ok (pushCopies s.text sep.text n.toNat 0 [])

/-- The size of the result. -/
def trueSize (s : LuaString) (n : UInt64) (sep : LuaString) : Nat :=
  s.text.utf8Len * n.toNat + sep.text.utf8Len * (n.toNat - 1)

/-- A result which is too long is refused, any other is the copies with the separator between them, and no size of
one that is not refused overflows. -/
structure RepCorrect (s : LuaString) (n : UInt64) (sep : Option LuaString) : Prop where
  refuses : 1048576 < trueSize s n (sep.getD LuaString.default) → rep s n sep = .error repError
  returns : trueSize s n (sep.getD LuaString.default) ≤ 1048576 →
    rep s n sep = .ok (List.intercalate (sep.getD LuaString.default).text (List.replicate n.toNat s.text))
  fits : ∀ result, rep s n sep = .ok result →
    s.text.utf8Len * n.toNat < 2 ^ 64 ∧ (sep.getD LuaString.default).text.utf8Len * (n.toNat - 1) < 2 ^ 64 ∧
      trueSize s n (sep.getD LuaString.default) < 2 ^ 64

/-- The loop after its first round. -/
theorem pushCopies_succ (s sep : Str) (remaining i : Nat) (result : Str) :
    pushCopies s sep remaining (i + 1) result = result ++ (List.replicate remaining (sep ++ s)).flatten := by
  induction remaining generalizing i result with
  | zero => simp [pushCopies]
  | succ remaining ih =>
    unfold pushCopies
    rw [if_pos (Nat.succ_pos i), ih, List.replicate_succ, List.flatten_cons]
    simp

theorem intercalate_replicate_succ (s sep : Str) (k : Nat) :
    List.intercalate sep (List.replicate (k + 1) s) = s ++ (List.replicate k (sep ++ s)).flatten := by
  induction k with
  | zero => simp
  | succ k ih =>
    rw [List.replicate_succ, List.replicate_succ, List.intercalate_cons_cons, ← List.replicate_succ, ih,
      List.replicate_succ, List.flatten_cons]
    simp

theorem pushCopies_zero (s sep : Str) (n : Nat) :
    pushCopies s sep n 0 [] = List.intercalate sep (List.replicate n s) := by
  cases n with
  | zero => rfl
  | succ k =>
    unfold pushCopies
    rw [if_neg (Nat.lt_irrefl 0), pushCopies_succ, intercalate_replicate_succ]
    rfl

theorem toNat_repSize (s : LuaString) (n : UInt64) (sep : LuaString) :
    (repSize s n sep).toNat =
      (s.text.utf8Len * n.toNat + min (sep.text.utf8Len * (n.toNat - 1)) wordBound) % 2 ^ 64 := by
  have hone : (1 : UInt64).toNat = 1 := rfl
  unfold repSize
  rw [UInt64.toNat_add, UInt64.toNat_mul, toNat_saturatingMul, toNat_saturatingSub, s.toNat_len, sep.toNat_len, hone,
    Nat.mod_add_mod]

theorem rep_eq (s : LuaString) (n : UInt64) (sep : Option LuaString) :
    rep s n sep = if (repSize s n (sep.getD LuaString.default)).toNat > 1048576 then .error repError
      else .ok (List.intercalate (sep.getD LuaString.default).text (List.replicate n.toNat s.text)) := by
  have hlimit : (1048576 : UInt64).toNat = 1048576 := rfl
  unfold rep
  simp only [gt_iff_lt, UInt64.lt_iff_toNat_lt, hlimit, pushCopies_zero]

/-- A size within the limit is computed as it is. -/
theorem toNat_repSize_of_le {s : LuaString} {n : UInt64} {sep : LuaString} (h : trueSize s n sep ≤ 1048576) :
    (repSize s n sep).toNat = trueSize s n sep := by
  have hbound : wordBound = 2 ^ 64 - 1 := rfl
  unfold trueSize at h ⊢
  rw [toNat_repSize, Nat.min_eq_left (by omega)]
  exact Nat.mod_eq_of_lt (by omega)

/-- A repetition which is too large is refused by the size that is computed for it. -/
theorem RepCorrect.refused {s : LuaString} {n : UInt64} {sep : Option LuaString} (h : RepCorrect s n sep)
    (hlarge : 1048576 < trueSize s n (sep.getD LuaString.default)) :
    1048576 < (repSize s n (sep.getD LuaString.default)).toNat := by
  have hrep := rep_eq s n sep
  by_contra hwrap
  rw [h.refuses hlarge, if_neg hwrap] at hrep
  cases hrep

/-- The limit holds exactly where the size is within it, or wraps around to one which is not. -/
theorem repCorrect_iff (s : LuaString) (n : UInt64) (sep : Option LuaString) :
    RepCorrect s n sep ↔ trueSize s n (sep.getD LuaString.default) ≤ 1048576 ∨
      1048576 < (s.text.utf8Len * n.toNat +
        min ((sep.getD LuaString.default).text.utf8Len * (n.toNat - 1)) (2 ^ 64 - 1)) % 2 ^ 64 := by
  have hsize := toNat_repSize s n (sep.getD LuaString.default)
  have hrep := rep_eq s n sep
  unfold wordBound at hsize
  rw [← hsize]
  constructor
  · intro h
    by_cases hle : trueSize s n (sep.getD LuaString.default) ≤ 1048576
    · exact Or.inl hle
    · exact Or.inr (h.refused (by omega))
  · intro h
    by_cases hle : trueSize s n (sep.getD LuaString.default) ≤ 1048576
    · have hexact := toNat_repSize_of_le hle
      rw [if_neg (by omega)] at hrep
      refine ⟨fun hlt => absurd hle (by omega), fun _ => hrep, fun _ _ => ?_⟩
      unfold trueSize at hle ⊢
      omega
    · have hwrap := h.resolve_left hle
      rw [if_pos hwrap] at hrep
      refine ⟨fun _ => hrep, fun hsmall => absurd hsmall hle, fun result hok => ?_⟩
      rw [hrep] at hok
      cases hok

/-- Half of the words times a text of two bytes is no size at all. -/
theorem not_repCorrect : ¬ ∀ (s : LuaString) (n : UInt64) (sep : Option LuaString), RepCorrect s n sep := by
  intro h
  have hrefused := (h ⟨"xx", by decide⟩ 9223372036854775808 none).refused (by decide)
  revert hrefused
  decide

end LuaEngine

end Oproxy
