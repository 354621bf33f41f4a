import PerfGate.Calendar
import Mathlib.Data.Prod.Lex
import Mathlib.Tactic

/-!
# Day after day

The date of a day number is computed by divisions in years that begin in March. Here the calendar
is put by its rules, the lengths of its months and the leap years, and each day number is shown to
have the date that these rules let follow on the one before. So later days have later dates.
-/

set_option autoImplicit false

namespace PerfGate.Date

/-! ## The rules of the calendar -/

def isLeap (year : Int) : Bool := year % 4 = 0 && (year % 100 ≠ 0 || year % 400 = 0)

def monthLength (year : Int) (month : Nat) : Nat :=
  if month = 2 then if isLeap year then 29 else 28
  else if month = 4 ∨ month = 6 ∨ month = 9 ∨ month = 11 then 30
  else 31

theorem monthLength_le (year : Int) (month : Nat) : monthLength year month ≤ 31 := by
  rw [monthLength]
  split
  · split <;> omega
  · split <;> omega

def next (d : Date) : Date :=
  if d.day < monthLength d.year d.month then ⟨d.year, d.month, d.day + 1⟩
  else if d.month < 12 then ⟨d.year, d.month + 1, 1⟩
  else ⟨d.year + 1, 1, 1⟩

structure Valid (d : Date) : Prop where
  month_pos : 0 < d.month
  month_le : d.month ≤ 12
  day_pos : 0 < d.day
  day_le : d.day ≤ monthLength d.year d.month

/-! ## Years that begin in March -/

def marchLength (year : Int) : Nat := if isLeap (year + 1) then 366 else 365

theorem marchLength_pos (year : Int) : 0 < marchLength year := by
  rw [marchLength]
  split <;> omega

theorem marchLength_le (year : Int) : marchLength year ≤ 366 := by
  rw [marchLength]
  split <;> omega

theorem marchLength_add_era (year era : Int) :
    marchLength (year + era * 400) = marchLength year := by
  have h4 : (year + era * 400 + 1) % 4 = (year + 1) % 4 := by omega
  have h100 : (year + era * 400 + 1) % 100 = (year + 1) % 100 := by omega
  have h400 : (year + era * 400 + 1) % 400 = (year + 1) % 400 := by omega
  rw [marchLength, marchLength, isLeap, isLeap, h4, h100, h400]

theorem daysBefore_succ {y : Nat} (h : y < 399) :
    daysBefore (y + 1) = daysBefore y + marchLength y := by
  simp only [marchLength, isLeap, daysBefore, Bool.and_eq_true, Bool.or_eq_true, decide_eq_true_eq]
  split <;> omega

/-- A day of an era in a year of the era, counted from 1 March. -/
structure OnDay (day year dayOfYear : Nat) : Prop where
  of_era : year < 400
  of_year : dayOfYear < marchLength year
  days : day = daysBefore year + dayOfYear

section
variable {d y r : Nat}

theorem OnDay.lt (h : OnDay d y r) : d < 146097 := by
  obtain ⟨hera, hyear, rfl⟩ := h
  have hlength : marchLength y ≤ 366 := marchLength_le y
  rw [daysBefore]
  omega

theorem OnDay.succ (h : OnDay d y r) (hr : r + 1 < marchLength y) : OnDay (d + 1) y (r + 1) :=
  ⟨h.of_era, hr, by rw [h.days, Nat.add_assoc]⟩

theorem OnDay.newYear (h : OnDay d y r) (hd : d + 1 < 146097) (hr : r + 1 = marchLength y) :
    OnDay (d + 1) (y + 1) 0 := by
  obtain ⟨hera, -, hdays⟩ := h
  have hy : y < 399 := by
    by_contra hlast
    obtain rfl : y = 399 := by omega
    have hlength : marchLength (399 : Nat) = 366 := by decide
    have hbefore : daysBefore 399 = 145731 := by decide
    omega
  refine ⟨by omega, marchLength_pos _, ?_⟩
  rw [daysBefore_succ hy, hdays, ← hr]
  rfl

theorem exists_onDay (h : d < 146097) : ∃ y r, OnDay d y r := by
  induction d with
  | zero => exact ⟨0, 0, by decide, by decide, by decide⟩
  | succ d ih =>
    obtain ⟨y, r, hday⟩ := ih (by omega)
    by_cases hr : r + 1 < marchLength y
    · exact ⟨y, r + 1, hday.succ hr⟩
    · have hlast : r + 1 = marchLength y := by
        have hyear := hday.of_year
        omega
      exact ⟨y + 1, 0, hday.newYear h hlast⟩

theorem yearOfEra_mono : Monotone yearOfEra := by
  apply monotone_nat_of_le_succ
  intro d
  rw [yearOfEra, yearOfEra]
  omega

theorem yearOfEra_ends : ∀ y < 400, yearOfEra (daysBefore y) = y ∧
    yearOfEra (daysBefore y + (marchLength y - 1)) = y := by
  decide +kernel

/-- Between the first and the last day of a year the quotient cannot change. -/
theorem OnDay.yearOfEra_eq (h : OnDay d y r) : yearOfEra d = y := by
  obtain ⟨hera, hyear, rfl⟩ := h
  obtain ⟨hfirst, hlast⟩ := yearOfEra_ends y hera
  have hlow : yearOfEra (daysBefore y) ≤ yearOfEra (daysBefore y + r) :=
    yearOfEra_mono (Nat.le_add_right _ _)
  have hhigh : yearOfEra (daysBefore y + r) ≤ yearOfEra (daysBefore y + (marchLength y - 1)) :=
    yearOfEra_mono (by omega)
  omega

end

/-! ## Months from March on -/

def monthStart (m : Nat) : Nat := (153 * m + 2) / 5

/-- Days of a month; the last one lasts as long as the year. -/
def span (year : Int) (m : Nat) : Nat :=
  if m = 11 then marchLength year - monthStart 11 else monthStart (m + 1) - monthStart m

def fromMarch (year : Int) (m k : Nat) : Date where
  year := year + if m < 10 then 0 else 1
  month := if m < 10 then m + 3 else m - 9
  day := k + 1

theorem monthStart_lt_marchLength (year : Int) {m : Nat} (hm : m < 12) :
    monthStart m < marchLength year := by
  rw [monthStart, marchLength]
  split <;> omega

theorem span_pos (year : Int) (m : Nat) : 0 < span year m := by
  rw [span, marchLength, monthStart, monthStart, monthStart]
  split
  · split <;> omega
  · omega

theorem span_add_era (year era : Int) (m : Nat) : span (year + era * 400) m = span year m := by
  rw [span, span, marchLength_add_era]

/-- The months of a year follow one another, and the last one ends with the year. -/
theorem monthStart_add_span (year : Int) {m : Nat} (hm : m < 12) :
    monthStart m + span year m = if m = 11 then marchLength year else monthStart (m + 1) := by
  by_cases hlast : m = 11
  · subst hlast
    rw [span, if_pos rfl, if_pos rfl, marchLength, monthStart]
    split <;> omega
  · rw [span, if_neg hlast, if_neg hlast, monthStart, monthStart]
    omega

theorem monthLength_fromMarch (year : Int) {m : Nat} (hm : m < 12) (k : Nat) :
    monthLength (fromMarch year m k).year (fromMarch year m k).month = span year m := by
  by_cases hlast : m = 11
  · subst hlast
    simp [fromMarch, monthLength, span, marchLength]
    split <;> rfl
  · have hm : m < 11 := by omega
    interval_cases m <;> simp [fromMarch, monthLength, span, monthStart]

theorem next_fromMarch (year : Int) {m k : Nat} (hm : m < 12) :
    (fromMarch year m k).next =
      if k + 1 < span year m then fromMarch year m (k + 1)
      else if m = 11 then fromMarch (year + 1) 0 0
      else fromMarch year (m + 1) 0 := by
  rw [next, monthLength_fromMarch year hm]
  by_cases hday : k + 1 < span year m
  · have hstay : (fromMarch year m k).day < span year m := hday
    rw [if_pos hstay, if_pos hday]
    rfl
  · have hmove : ¬ (fromMarch year m k).day < span year m := hday
    rw [if_neg hmove, if_neg hday]
    interval_cases m <;> simp [fromMarch]

structure InMonth (year : Int) (dayOfYear m k : Nat) : Prop where
  of_year : m < 12
  of_month : k < span year m
  days : dayOfYear = monthStart m + k

theorem exists_inMonth {year : Int} {r : Nat} (h : r < marchLength year) :
    ∃ m k, InMonth year r m k := by
  have hlength := marchLength_le year
  have hm : (5 * r + 2) / 153 < 12 := by omega
  have hstart : monthStart ((5 * r + 2) / 153) ≤ r := by
    rw [monthStart]
    omega
  have hend := monthStart_add_span year hm
  refine ⟨(5 * r + 2) / 153, r - monthStart ((5 * r + 2) / 153), hm, ?_, by omega⟩
  split at hend
  · omega
  · have hnext : r < monthStart ((5 * r + 2) / 153 + 1) := by
      rw [monthStart]
      omega
    omega

theorem InMonth.month_eq {year : Int} {r m k : Nat} (h : InMonth year r m k) :
    (5 * r + 2) / 153 = m := by
  obtain ⟨hm, hk, rfl⟩ := h
  have hend := monthStart_add_span year hm
  have hlength := marchLength_le year
  split at hend
  next hlast =>
    subst hlast
    have hstart : monthStart 11 = 337 := by decide
    omega
  next =>
    rw [monthStart, monthStart] at *
    omega

/-! ## Dates of day numbers -/

structure Located (n era : Int) (d y r m k : Nat) : Prop where
  days : n + 719468 = era * 146097 + d
  in_era : OnDay d y r
  in_year : InMonth y r m k

theorem exists_located (n : Int) : ∃ era d y r m k, Located n era d y r m k := by
  obtain ⟨d, hd⟩ : ∃ d : Nat, (n + 719468) % 146097 = d :=
    Int.eq_ofNat_of_zero_le (Int.emod_nonneg _ (by decide))
  obtain ⟨y, r, hday⟩ := exists_onDay (d := d) (by omega)
  obtain ⟨m, k, hmonth⟩ := exists_inMonth hday.of_year
  exact ⟨(n + 719468) / 146097, d, y, r, m, k, by omega, hday, hmonth⟩

section
variable {n era : Int} {d y r m k : Nat}

theorem Located.ofDays_eq (h : Located n era d y r m k) :
    ofDays n = fromMarch (y + era * 400) m k := by
  obtain ⟨hn, hday, hmonth⟩ := h
  have hd := hday.lt
  have hera : (n + 719468).fdiv 146097 = era := by
    rw [Int.fdiv_eq_ediv_of_nonneg _ (by decide)]
    omega
  have hdayOfEra : ((n + 719468).fmod 146097).toNat = d := by
    rw [Int.fmod_eq_emod_of_nonneg _ (by decide)]
    omega
  have hrest : d - daysBefore y = r := by
    rw [hday.days]
    omega
  have hm := hmonth.of_year
  have hk : r - (153 * m + 2) / 5 = k := by
    have hdays := hmonth.days
    rw [monthStart] at hdays
    omega
  simp only [ofDays, hera, hdayOfEra, hday.yearOfEra_eq, hrest, hmonth.month_eq, hk, fromMarch]
  by_cases hlate : m < 10
  · have hmonth : ¬ m + 3 ≤ 2 := by omega
    simp [hlate, hmonth]
  · have hmonth : m - 9 ≤ 2 := by omega
    simp [hlate, hmonth]

theorem Located.nextDay (h : Located n era d y r m k) (hk : k + 1 < span y m) :
    Located (n + 1) era (d + 1) y (r + 1) m (k + 1) := by
  obtain ⟨hn, hday, hm, -, hr⟩ := h
  have hend := monthStart_add_span y hm
  have hyear : r + 1 < marchLength y := by
    split at hend
    · omega
    · have hnext := monthStart_lt_marchLength y (show m + 1 < 12 by omega)
      omega
  exact ⟨by omega, hday.succ hyear, hm, hk, by omega⟩

theorem Located.nextMonth (h : Located n era d y r m k) (hk : k + 1 = span y m) (hlast : m ≠ 11) :
    Located (n + 1) era (d + 1) y (r + 1) (m + 1) 0 := by
  obtain ⟨hn, hday, hm, -, hr⟩ := h
  have hend := monthStart_add_span y hm
  have hnext : m + 1 < 12 := by omega
  have hyear := monthStart_lt_marchLength y hnext
  rw [if_neg hlast] at hend
  have hfirst : r + 1 = monthStart (m + 1) + 0 := by omega
  exact ⟨by omega, hday.succ (by omega), hnext, span_pos _ _, hfirst⟩

/-- After the last day of an era a new one begins. -/
theorem Located.nextYear (h : Located n era d y r 11 k) (hk : k + 1 = span y 11) :
    ∃ (era' : Int) (d' y' : Nat), y' + era' * 400 = y + era * 400 + 1 ∧
      Located (n + 1) era' d' y' 0 0 0 := by
  obtain ⟨hn, hday, hm, -, hr⟩ := h
  have hend := monthStart_add_span y hm
  rw [if_pos rfl] at hend
  have hyear : r + 1 = marchLength y := by omega
  have hfirst : ∀ year : Int, InMonth year 0 0 0 := fun year => ⟨by omega, span_pos year 0, rfl⟩
  by_cases hera : d + 1 < 146097
  · exact ⟨era, d + 1, y + 1, by omega, by omega, hday.newYear hera hyear, hfirst _⟩
  · have hd := hday.lt
    obtain rfl : d = 146096 := by omega
    have hy : 399 = y := hday.yearOfEra_eq
    have hzero : OnDay 0 0 0 := ⟨by decide, by decide, rfl⟩
    exact ⟨era + 1, 0, 0, by omega, by omega, hzero, hfirst _⟩

end

theorem ofDays_valid (n : Int) : Valid (ofDays n) := by
  obtain ⟨era, d, y, r, m, k, h⟩ := exists_located n
  obtain ⟨hm, hk, -⟩ := h.in_year
  rw [h.ofDays_eq]
  constructor
  · simp only [fromMarch]
    split <;> omega
  · simp only [fromMarch]
    split <;> omega
  · exact Nat.succ_pos k
  · rw [monthLength_fromMarch _ hm, span_add_era]
    exact hk

/-- Each day has the date that follows on that of the day before. -/
theorem ofDays_succ (n : Int) : ofDays (n + 1) = (ofDays n).next := by
  obtain ⟨era, d, y, r, m, k, h⟩ := exists_located n
  rw [h.ofDays_eq, next_fromMarch _ h.in_year.of_year, span_add_era]
  by_cases hday : k + 1 < span y m
  · rw [if_pos hday]
    exact (h.nextDay hday).ofDays_eq
  · have hlast : k + 1 = span y m := by
      have hk := h.in_year.of_month
      omega
    rw [if_neg hday]
    by_cases hm : m = 11
    · subst hm
      obtain ⟨era', d', y', hyear, hnext⟩ := h.nextYear hlast
      rw [if_pos rfl, hnext.ofDays_eq, hyear]
    · rw [if_neg hm]
      exact (h.nextMonth hlast hm).ofDays_eq

example : ofDays 0 = ⟨1970, 1, 1⟩ := by decide

/-! ## The order of dates -/

def order (d : Date) : ℤ ×ₗ ℕ ×ₗ ℕ := toLex (d.year, toLex (d.month, d.day))

theorem order_lt_iff {d e : Date} : d.order < e.order ↔
    d.year < e.year ∨ d.year = e.year ∧
      (d.month < e.month ∨ d.month = e.month ∧ d.day < e.day) := by
  simp [order, Prod.Lex.toLex_lt_toLex]

theorem order_lt_next (d : Date) : d.order < d.next.order := by
  rw [order_lt_iff, next]
  split
  · simp
  · split <;> simp

theorem ofDays_strictMono : StrictMono fun n => (ofDays n).order := by
  apply strictMono_int_of_lt_succ
  intro n
  rw [ofDays_succ]
  exact order_lt_next _

end PerfGate.Date
