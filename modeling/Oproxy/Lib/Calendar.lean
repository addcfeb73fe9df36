import Mathlib.Data.Char
import Mathlib.Data.Int.ConditionallyCompleteOrder
import Mathlib.Data.List.Lex
import Mathlib.Data.Nat.Find
import Mathlib.Order.Monotone.Basic
import Mathlib.Tactic.IntervalCases
import Oproxy.Lib.Text

/-!
# Dates and their texts

The Gregorian calendar, and the text of RFC 3339 for a time in nanoseconds since 1970, with no digits of a fraction or
with three, six or nine of them.  In the years with four digits the order of the texts is the order of the times: where
one text has no more digits of the fraction it has the `+` of the zone, which is before the point and before the digits.
-/

namespace Calendar

/-! ### Dates -/

structure Date where
  year : Int
  month : Nat
  day : Nat

/-- The days of a cycle of 400 years before a year of it. -/
def daysBeforeYear (year : Nat) : Nat := 365 * year + (year + 3) / 4 - (year + 99) / 100 + (year + 399) / 400

def isLeap (year : Nat) : Bool := year % 4 == 0 && (year % 100 != 0 || year % 400 == 0)

/-- The days of a year before a month; the first month is 0. -/
def daysBeforeMonth (leap : Bool) (month : Nat) : Nat :=
  [0, 31, 59, 90, 120, 151, 181, 212, 243, 273, 304, 334].getD month 0 + if leap && decide (2 ≤ month) then 1 else 0

/-- The last span which has begun. -/
def spanOf (start : Nat → Nat) (last n : Nat) : Nat := Nat.findGreatest (fun i => start i ≤ n) last

/-- The date of a day counted from the first of January of the year 0. -/
def civil (days : Int) : Date :=
  let inCycle := (days % 146097).toNat
  let year := spanOf daysBeforeYear 399 inCycle
  let inYear := inCycle - daysBeforeYear year
  let month := spanOf (daysBeforeMonth (isLeap year)) 11 inYear
  ⟨400 * (days / 146097) + year, month + 1, inYear - daysBeforeMonth (isLeap year) month + 1⟩

def Date.Before (a b : Date) : Prop :=
  a.year < b.year ∨ a.year = b.year ∧ (a.month < b.month ∨ a.month = b.month ∧ a.day < b.day)

/-- The days from the year 0 to 1970 are 719528. -/
def daysOf (time : Int) : Int := time / 86400000000000 + 719528

def nanosOfDay (time : Int) : Nat := (time % 86400000000000).toNat

def year (time : Int) : Int := (civil (daysOf time)).year

section

variable {start : Nat → Nat} {last n m : Nat}

theorem start_spanOf_le (h : start 0 = 0) : start (spanOf start last n) ≤ n :=
  Nat.findGreatest_spec (P := fun i => start i ≤ n) (Nat.zero_le last) (h.le.trans (Nat.zero_le n))

theorem spanOf_le : spanOf start last n ≤ last := Nat.findGreatest_le last

theorem lt_start_succ (h : spanOf start last n < last) : n < start (spanOf start last n + 1) :=
  Nat.lt_of_not_le (Nat.findGreatest_is_greatest (P := fun i => start i ≤ n) (Nat.lt_succ_self _) h)

/-- A later point is in a later span, or further on in the same one. -/
theorem spanOf_lt_or (h : start 0 = 0) (hlt : n < m) :
    spanOf start last n < spanOf start last m ∨
      spanOf start last n = spanOf start last m ∧
        n - start (spanOf start last n) < m - start (spanOf start last m) := by
  have hle : spanOf start last n ≤ spanOf start last m :=
    Nat.findGreatest_mono_left (fun i (hi : start i ≤ n) => hi.trans hlt.le) last
  rcases Nat.lt_or_eq_of_le hle with hspan | hspan
  · exact Or.inl hspan
  · have hn : start (spanOf start last n) ≤ n := start_spanOf_le h
    refine Or.inr ⟨hspan, ?_⟩
    rw [← hspan]
    omega

end

theorem daysBeforeMonth_zero (leap : Bool) : daysBeforeMonth leap 0 = 0 := by
  cases leap <;> rfl

theorem inCycle_lt (days : Int) : (days % 146097).toNat < 146097 := by omega

/-- The order of the dates is that of the days. -/
theorem civil_before {a b : Int} (h : a < b) : (civil a).Before (civil b) := by
  have ha : spanOf daysBeforeYear 399 (a % 146097).toNat ≤ 399 := spanOf_le
  by_cases hcycle : a / 146097 = b / 146097
  · have hlt : (a % 146097).toNat < (b % 146097).toNat := by omega
    rcases @spanOf_lt_or daysBeforeYear 399 _ _ rfl hlt with hyear | ⟨hyear, hday⟩
    · refine Or.inl ?_
      show 400 * (a / 146097) + _ < 400 * (b / 146097) + _
      omega
    · refine Or.inr ⟨by show 400 * (a / 146097) + _ = 400 * (b / 146097) + _; omega, ?_⟩
      rcases @spanOf_lt_or (daysBeforeMonth _) 11 _ _ (daysBeforeMonth_zero (isLeap _)) hday
        with hmonth | ⟨hmonth, hday⟩
      · refine Or.inl ?_
        show spanOf _ 11 _ + 1 < spanOf _ 11 _ + 1
        rw [← hyear] at hmonth ⊢
        exact Nat.succ_lt_succ hmonth
      · rw [← hyear] at hmonth hday
        refine Or.inr ⟨?_, ?_⟩
        · show spanOf _ 11 _ + 1 = spanOf _ 11 _ + 1
          rw [← hyear]
          exact congrArg (· + 1) hmonth
        · show _ - _ + 1 < _ - _ + 1
          rw [← hyear]
          exact Nat.succ_lt_succ hday
  · refine Or.inl ?_
    show 400 * (a / 146097) + _ < 400 * (b / 146097) + _
    omega

theorem daysBeforeYear_succ_le (year : Nat) : daysBeforeYear (year + 1) ≤ daysBeforeYear year + 366 := by
  unfold daysBeforeYear
  omega

/-- A year has at most 366 days. -/
theorem inYear_lt {n : Nat} (h : n < 146097) : n - daysBeforeYear (spanOf daysBeforeYear 399 n) < 366 := by
  have hle : spanOf daysBeforeYear 399 n ≤ 399 := spanOf_le
  have hstart : daysBeforeYear (spanOf daysBeforeYear 399 n) ≤ n := start_spanOf_le rfl
  rcases Nat.lt_or_eq_of_le hle with hlt | hlast
  · have hnext := lt_start_succ hlt
    have hlength := daysBeforeYear_succ_le (spanOf daysBeforeYear 399 n)
    omega
  · rw [hlast, show daysBeforeYear 399 = 145732 from rfl]
    omega

theorem daysBeforeMonth_succ_le (leap : Bool) {month : Nat} (h : month < 11) :
    daysBeforeMonth leap (month + 1) ≤ daysBeforeMonth leap month + 32 := by
  interval_cases month <;> cases leap <;> decide

/-- A month has two digits, and so has a day. -/
theorem civil_lt_hundred (days : Int) : (civil days).month < 100 ∧ (civil days).day < 100 := by
  have hyear := inYear_lt (inCycle_lt days)
  generalize hleap : isLeap (spanOf daysBeforeYear 399 (days % 146097).toNat) = leap at *
  generalize hinYear : (days % 146097).toNat - daysBeforeYear (spanOf daysBeforeYear 399 (days % 146097).toNat) =
    inYear at *
  have hle : spanOf (daysBeforeMonth leap) 11 inYear ≤ 11 := spanOf_le
  refine ⟨?_, ?_⟩
  · show spanOf (daysBeforeMonth (isLeap _)) 11 (_ - _) + 1 < 100
    rw [hleap, hinYear]
    omega
  · show _ - daysBeforeMonth (isLeap _) (spanOf (daysBeforeMonth (isLeap _)) 11 (_ - _)) + 1 < 100
    rw [hleap, hinYear]
    rcases Nat.lt_or_eq_of_le hle with hlt | hlast
    · have hnext := lt_start_succ hlt
      have hlength := daysBeforeMonth_succ_le leap hlt
      omega
    · have hstart : 334 ≤ daysBeforeMonth leap 11 := by cases leap <;> decide
      rw [hlast]
      omega

/-! ### Texts -/

/-- The last digits of a number, as many as wanted. -/
def padded : Nat → Nat → Str
  | 0, _ => []
  | width + 1, n => padded width (n / 10) ++ [Nat.digitChar (n % 10)]

/-- A year with four digits and no sign. -/
def HasFourDigits (year : Int) : Prop := 0 ≤ year ∧ year ≤ 9999

instance : DecidablePred HasFourDigits := fun year => inferInstanceAs (Decidable (0 ≤ year ∧ year ≤ 9999))

/-- Four digits, or a sign and at least four. -/
def yearText (year : Int) : Str :=
  if HasFourDigits year then padded 4 year.toNat
  else (if year < 0 then '-' else '+') ::
    (List.replicate (4 - (Str.ofNat year.natAbs).length) '0' ++ Str.ofNat year.natAbs)

def dateText (date : Date) : Str :=
  yearText date.year ++ '-' :: (padded 2 date.month ++ '-' :: padded 2 date.day)

def zone : Str := "+00:00"

/-- Thousandths, millionths or thousand-millionths of a second, or nothing for a whole second. -/
def fraction (nano : Nat) : Str :=
  if nano = 0 then []
  else if nano % 1000000 = 0 then '.' :: padded 3 (nano / 1000000)
  else if nano % 1000 = 0 then '.' :: padded 6 (nano / 1000)
  else '.' :: padded 9 nano

/-- The text of the nanoseconds of a day. -/
def clockText (nanos : Nat) : Str :=
  let inHour := nanos % 3600000000000
  let inMinute := inHour % 60000000000
  padded 2 (nanos / 3600000000000) ++ ':' :: (padded 2 (inHour / 60000000000) ++ ':' ::
    (padded 2 (inMinute / 1000000000) ++ (fraction (inMinute % 1000000000) ++ zone)))

def toRfc3339 (time : Int) : Str := dateText (civil (daysOf time)) ++ 'T' :: clockText (nanosOfDay time)

section

variable {width n m : Nat} {x y : Str}

theorem digitChar_lt {n m : Nat} (hlt : n < m) (hm : m < 10) : Nat.digitChar n < Nat.digitChar m := by
  interval_cases m <;> interval_cases n <;> decide

/-- Texts of as many digits are ordered like the numbers. -/
theorem padded_append_lt (hlt : n < m) (hm : m < 10 ^ width) (x y : Str) :
    padded width n ++ x < padded width m ++ y := by
  induction width generalizing n m x y with
  | zero => rw [Nat.pow_zero] at hm; omega
  | succ width ih =>
    rw [padded, padded, List.append_assoc, List.append_assoc]
    rcases Nat.lt_or_ge (n / 10) (m / 10) with h | h
    · exact ih h (by rw [Nat.pow_succ] at hm; omega) _ _
    · rw [show n / 10 = m / 10 by omega]
      refine List.append_left_lt ?_
      exact List.cons_lt_cons_iff.2 (Or.inl (digitChar_lt (by omega) (by omega)))

/-- The first digits and the last ones. -/
theorem padded_add (width more n : Nat) : padded (width + more) n = padded width (n / 10 ^ more) ++ padded more n := by
  induction more generalizing n with
  | zero => rw [Nat.pow_zero, Nat.div_one, padded, List.append_nil, Nat.add_zero]
  | succ more ih =>
    rw [← Nat.add_assoc, padded, ih, padded, Nat.div_div_eq_div_mul, Nat.pow_succ', List.append_assoc]

theorem plus_lt_digitChar (n : Nat) : '+' < Nat.digitChar (n % 10) := by
  have h : n % 10 < 10 := Nat.mod_lt _ (by decide)
  interval_cases n % 10 <;> decide

/-- The zone is before any digit. -/
theorem zone_lt_padded (width n : Nat) (x : Str) : zone < padded (width + 1) n ++ x := by
  induction width generalizing n x with
  | zero => exact List.cons_lt_cons_iff.2 (Or.inl (plus_lt_digitChar n))
  | succ width ih =>
    rw [padded, List.append_assoc]
    exact ih _ _

/-- The digits which are written down decide, whether one of two fractions has more of them or the other. -/
theorem fraction_lt {width width' : Nat} (hwidth : width ≤ 9) (hwidth' : width' ≤ 9) (hlt : n < m)
    (hm : m < 1000000000) (hn0 : 10 ^ (9 - width) ∣ n) (hm0 : 10 ^ (9 - width') ∣ m) :
    padded width (n / 10 ^ (9 - width)) ++ zone < padded width' (m / 10 ^ (9 - width')) ++ zone := by
  rcases Nat.le_total width width' with hle | hle
  · obtain ⟨more, rfl⟩ := Nat.exists_eq_add_of_le hle
    have hexp : 9 - width = 9 - (width + more) + more := by omega
    rw [padded_add, Nat.div_div_eq_div_mul, ← Nat.pow_add, ← hexp, List.append_assoc]
    have hquot : n / 10 ^ (9 - width) ≤ m / 10 ^ (9 - width) := Nat.div_le_div_right hlt.le
    rcases Nat.lt_or_eq_of_le hquot with hquot | hquot
    · refine padded_append_lt hquot (Nat.div_lt_of_lt_mul ?_) _ _
      rwa [← Nat.pow_add, show 9 - width + width = 9 by omega]
    · rw [hquot]
      refine List.append_left_lt ?_
      cases more with
      | zero =>
        have hmul := Nat.div_mul_cancel hm0
        rw [Nat.add_zero, ← hquot, Nat.div_mul_cancel hn0] at hmul
        omega
      | succ more => exact zone_lt_padded _ _ _
  · obtain ⟨more, rfl⟩ := Nat.exists_eq_add_of_le hle
    have hexp : 9 - width' = 9 - (width' + more) + more := by omega
    rw [padded_add, Nat.div_div_eq_div_mul, ← Nat.pow_add, ← hexp, List.append_assoc]
    refine padded_append_lt (Nat.div_lt_of_lt_mul ?_) (Nat.div_lt_of_lt_mul ?_) _ _
    · rwa [Nat.mul_div_cancel' hm0]
    · rwa [← Nat.pow_add, show 9 - width' + width' = 9 by omega]

/-- How many digits of the fraction are written down. -/
def fractionWidth (nano : Nat) : Nat :=
  if nano = 0 then 0 else if nano % 1000000 = 0 then 3 else if nano % 1000 = 0 then 6 else 9

theorem fractionWidth_le (nano : Nat) : fractionWidth nano ≤ 9 := by
  unfold fractionWidth
  split_ifs <;> decide

theorem pow_fractionWidth_dvd (nano : Nat) : 10 ^ (9 - fractionWidth nano) ∣ nano := by
  unfold fractionWidth
  split_ifs with h0 h3 h6
  · rw [h0]
    exact Nat.dvd_zero _
  · exact Nat.dvd_of_mod_eq_zero h3
  · exact Nat.dvd_of_mod_eq_zero h6
  · exact Nat.one_dvd _

theorem fraction_eq {nano : Nat} (h : nano ≠ 0) :
    fraction nano = '.' :: padded (fractionWidth nano) (nano / 10 ^ (9 - fractionWidth nano)) := by
  unfold fraction fractionWidth
  rw [if_neg h, if_neg h]
  split_ifs
  · rfl
  · rfl
  · rw [Nat.sub_self, Nat.pow_zero, Nat.div_one]

theorem fraction_append_zone_lt (hlt : n < m) (hm : m < 1000000000) : fraction n ++ zone < fraction m ++ zone := by
  have hm0 : m ≠ 0 := by omega
  rw [fraction_eq hm0]
  by_cases hn0 : n = 0
  · subst hn0
    exact List.cons_lt_cons_iff.2 (Or.inl (by decide))
  · rw [fraction_eq hn0]
    exact List.cons_lt_cons_iff.2 (Or.inr ⟨rfl, fraction_lt (fractionWidth_le n) (fractionWidth_le m) hlt hm
      (pow_fractionWidth_dvd n) (pow_fractionWidth_dvd m)⟩)

theorem div_lt_or (k : Nat) (hlt : n < m) : n / k < m / k ∨ n / k = m / k ∧ n % k < m % k := by
  rcases Nat.lt_or_eq_of_le (Nat.div_le_div_right (c := k) hlt.le) with h | h
  · exact Or.inl h
  · refine Or.inr ⟨h, ?_⟩
    have hn := Nat.div_add_mod n k
    have hm := Nat.div_add_mod m k
    rw [h] at hn
    omega

theorem clockText_lt (hlt : n < m) (hm : m < 86400000000000) : clockText n < clockText m := by
  have hminute : m % 3600000000000 / 60000000000 < 10 ^ 2 := by omega
  have hsecond : m % 3600000000000 % 60000000000 / 1000000000 < 10 ^ 2 := by omega
  rcases div_lt_or 3600000000000 hlt with h | ⟨h, hlt⟩
  · exact padded_append_lt h (by omega) _ _
  · unfold clockText
    rw [h]
    refine List.append_left_lt (List.cons_lt_cons_iff.2 (Or.inr ⟨rfl, ?_⟩))
    rcases div_lt_or 60000000000 hlt with h | ⟨h, hlt⟩
    · exact padded_append_lt h hminute _ _
    · rw [h]
      refine List.append_left_lt (List.cons_lt_cons_iff.2 (Or.inr ⟨rfl, ?_⟩))
      rcases div_lt_or 1000000000 hlt with h | ⟨h, hlt⟩
      · exact padded_append_lt h hsecond _ _
      · rw [h]
        exact List.append_left_lt (fraction_append_zone_lt hlt (Nat.mod_lt _ (by decide)))

theorem dateText_append_lt {a b : Date} (hbefore : a.Before b) (ha : HasFourDigits a.year) (hb : HasFourDigits b.year)
    (hmonth : b.month < 100) (hday : b.day < 100) (x y : Str) : dateText a ++ x < dateText b ++ y := by
  unfold dateText yearText
  rw [if_pos ha, if_pos hb, List.append_assoc, List.append_assoc]
  obtain ⟨ha0, -⟩ := ha
  obtain ⟨hb0, hb1⟩ := hb
  rcases hbefore with hyear | ⟨hyear, hbefore⟩
  · exact padded_append_lt (by omega) (by omega) _ _
  · rw [hyear, List.cons_append, List.cons_append, List.append_assoc, List.append_assoc]
    refine List.append_left_lt (List.cons_lt_cons_iff.2 (Or.inr ⟨rfl, ?_⟩))
    rcases hbefore with hmonth' | ⟨hmonth', hday'⟩
    · exact padded_append_lt hmonth' hmonth _ _
    · rw [hmonth']
      refine List.append_left_lt ?_
      rw [List.cons_append, List.cons_append]
      exact List.cons_lt_cons_iff.2 (Or.inr ⟨rfl, padded_append_lt hday' hday _ _⟩)

/-- The days of ten thousand years. -/
theorem daysOf_bounds {time : Int} (h : HasFourDigits (year time)) : 0 ≤ daysOf time ∧ daysOf time < 3652425 := by
  obtain ⟨h0, h1⟩ := h
  have hle : spanOf daysBeforeYear 399 (daysOf time % 146097).toNat ≤ 399 := spanOf_le
  have hyear : year time = 400 * (daysOf time / 146097) + spanOf daysBeforeYear 399 (daysOf time % 146097).toNat := rfl
  omega

/-- In the years with four digits the order of the texts is the order of the times. -/
theorem strictMonoOn_toRfc3339 : StrictMonoOn toRfc3339 {time | HasFourDigits (year time)} := by
  intro a ha b hb hlt
  by_cases hday : daysOf a = daysOf b
  · have hnanos : nanosOfDay a < nanosOfDay b := by
      unfold daysOf at hday
      unfold nanosOfDay
      omega
    unfold toRfc3339
    rw [hday]
    refine List.append_left_lt (List.cons_lt_cons_iff.2 (Or.inr ⟨rfl, clockText_lt hnanos ?_⟩))
    unfold nanosOfDay
    omega
  · have hdays : daysOf a < daysOf b := by
      unfold daysOf at hday ⊢
      omega
    exact dateText_append_lt (civil_before hdays) ha hb (civil_lt_hundred _).1 (civil_lt_hundred _).2 _ _

example : toRfc3339 951782400123000000 = "2000-02-29T00:00:00.123+00:00".toList := by decide +kernel

end

end Calendar
