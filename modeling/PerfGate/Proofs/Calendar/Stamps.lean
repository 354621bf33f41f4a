import PerfGate.Report.Refresh
import PerfGate.Proofs.Calendar.Succession
import PerfGate.Proofs.Text.Bytewise

/-!
# Stamps in names of reports

A report is named for the second in which it is made, by the date and the time of day in numbers of
fixed width, the greatest unit first. Numbers of one width are in the order of their texts, and
later seconds have later dates or, on one date, later times of day. So the names of reports of years
with up to four digits are in the order in which the reports were made.
-/

set_option autoImplicit false

namespace PerfGate.Stamps

open Report (refreshReportName)

/-! ## Padded numbers -/

theorem digitChar_lt {a b : Nat} (hb : b < 10) (h : a < b) : Nat.digitChar a < Nat.digitChar b := by
  have hall : ∀ b < 10, ∀ a < b, Nat.digitChar a < Nat.digitChar b := by decide
  exact hall b hb a h

theorem padded_one {n : Nat} (h : n < 10) : (padded 1 n).toList = [Nat.digitChar n] := by
  simp [padded, Nat.toDigits_of_lt_base h]

/-- The last digit comes off the end. -/
theorem padded_succ {w : Nat} (hw : 0 < w) (n : Nat) :
    (padded (w + 1) n).toList = (padded w (n / 10)).toList ++ [Nat.digitChar (n % 10)] := by
  rw [padded, padded, String.toList_ofList, String.toList_ofList]
  by_cases hn : n < 10
  · obtain ⟨v, rfl⟩ : ∃ v, w = v + 1 := ⟨w - 1, by omega⟩
    rw [Nat.toDigits_of_lt_base hn, Nat.div_eq_of_lt hn, Nat.mod_eq_of_lt hn, Nat.toDigits_zero]
    simp [List.replicate_succ']
  · rw [Nat.toDigits_eq_if (by decide), if_neg hn]
    simp [List.append_assoc]

/-- Numbers of one width are in the order of their texts, whatever follows them. -/
theorem padded_append_lt {w a b : Nat} (hw : 0 < w) (hb : b < 10 ^ w) (h : a < b)
    (l l' : List Char) : (padded w a).toList ++ l < (padded w b).toList ++ l' := by
  induction w, hw using Nat.le_induction generalizing a b l l' with
  | base =>
    have hten : b < 10 := hb
    rw [padded_one (h.trans hten), padded_one hten]
    exact List.cons_lt_cons_iff.mpr (.inl (digitChar_lt hten h))
  | succ w hw ih =>
    have hdigit : b % 10 < 10 := Nat.mod_lt b (by decide)
    rw [padded_succ hw, padded_succ hw, List.append_assoc, List.append_assoc]
    by_cases hhigh : a / 10 = b / 10
    · rw [hhigh]
      exact List.append_left_lt (List.cons_lt_cons_iff.mpr
        (.inl (digitChar_lt hdigit (by omega))))
    · have hquotient : b / 10 < 10 ^ w := by
        rw [pow_succ] at hb
        omega
      exact ih hquotient (by omega) _ _

/-! ## Stamps -/

def dateChars (d : Date) (rest : List Char) : List Char :=
  (padded 4 d.year.toNat).toList ++
    ((padded 2 d.month).toList ++ ((padded 2 d.day).toList ++ rest))

def timeChars (t : TimeOfDay) (rest : List Char) : List Char :=
  (padded 2 t.hour).toList ++
    ((padded 2 t.minute).toList ++ ((padded 2 t.second).toList ++ rest))

/-- Instants of the years that have up to four digits. -/
structure Datable (t : Instant) : Prop where
  nonneg : 0 ≤ t.date.year
  le : t.date.year ≤ 9999

theorem reportName_eq (t : Instant) : refreshReportName t =
    "BENCHMARK_REPORT_" ++ (t.date.text "" ++ "_" ++ t.timeOfDay.text "") ++ ".md" := rfl

theorem reportName_toList {t : Instant} (h : Datable t) :
    (refreshReportName t).toList = "BENCHMARK_REPORT_".toList ++
      dateChars t.date ('_' :: timeChars t.timeOfDay ".md".toList) := by
  obtain ⟨hnonneg, hle⟩ := h
  have hyear : t.date.yearText = padded 4 t.date.year.toNat := by
    rw [Date.yearText, if_neg (by omega), if_neg (by omega)]
    congr 1
    omega
  rw [reportName_eq, Date.text, TimeOfDay.text, hyear]
  generalize t.date = d
  generalize t.timeOfDay = c
  simp [dateChars, timeChars]

theorem dateChars_lt {d e : Date} (hd : 0 ≤ d.year) (he : e.year ≤ 9999) (hvalid : e.Valid)
    (h : d.order < e.order) (l l' : List Char) : dateChars d l < dateChars e l' := by
  have hmonths := hvalid.month_le
  have hdays := hvalid.day_le.trans (Date.monthLength_le _ _)
  rw [Date.order_lt_iff] at h
  rcases h with hyear | ⟨hyear, hmonth | ⟨hmonth, hday⟩⟩
  · exact padded_append_lt (by decide) (by omega) (by omega) _ _
  · rw [dateChars, dateChars, hyear]
    exact List.append_left_lt (padded_append_lt (by decide) (by omega) hmonth _ _)
  · rw [dateChars, dateChars, hyear, hmonth]
    exact List.append_left_lt (List.append_left_lt
      (padded_append_lt (by decide) (by omega) hday _ _))

theorem dateChars_append_lt (d : Date) {l l' : List Char} (h : l < l') :
    dateChars d l < dateChars d l' :=
  List.append_left_lt (List.append_left_lt (List.append_left_lt h))

theorem timeChars_lt {t u : TimeOfDay} (hhours : u.hour < 24) (hminutes : u.minute < 60)
    (hseconds : u.second < 60)
    (h : t.hour < u.hour ∨ t.hour = u.hour ∧
      (t.minute < u.minute ∨ t.minute = u.minute ∧ t.second < u.second))
    (rest : List Char) : timeChars t rest < timeChars u rest := by
  rcases h with hhour | ⟨hhour, hminute | ⟨hminute, hsecond⟩⟩
  · exact padded_append_lt (by decide) (by omega) hhour _ _
  · rw [timeChars, timeChars, hhour]
    exact List.append_left_lt (padded_append_lt (by decide) (by omega) hminute _ _)
  · rw [timeChars, timeChars, hhour, hminute]
    exact List.append_left_lt (List.append_left_lt
      (padded_append_lt (by decide) (by omega) hsecond _ _))

/-- Within a day. -/
theorem timeOfDay_lt {t u : Instant} (h : t.seconds.fmod 86400 < u.seconds.fmod 86400)
    (rest : List Char) : timeChars t.timeOfDay rest < timeChars u.timeOfDay rest := by
  have hlow : 0 ≤ t.seconds.fmod 86400 := Int.fmod_nonneg_of_pos _ (by decide)
  have hhigh : u.seconds.fmod 86400 < 86400 := Int.fmod_lt_of_pos _ (by decide)
  have hlt : (t.seconds.fmod 86400).toNat < (u.seconds.fmod 86400).toNat := by omega
  have hday : (u.seconds.fmod 86400).toNat < 86400 := by omega
  simp only [Instant.timeOfDay]
  generalize (t.seconds.fmod 86400).toNat = a at hlt ⊢
  generalize (u.seconds.fmod 86400).toNat = b at hlt hday ⊢
  apply timeChars_lt <;> dsimp only <;> omega

theorem reportName_lt {t u : Instant} (ht : Datable t) (hu : Datable u)
    (h : t.seconds < u.seconds) : refreshReportName t < refreshReportName u := by
  have hsplit : t.seconds.fdiv 86400 < u.seconds.fdiv 86400 ∨
      t.seconds.fdiv 86400 = u.seconds.fdiv 86400 ∧
        t.seconds.fmod 86400 < u.seconds.fmod 86400 := by
    rw [Int.fdiv_eq_ediv_of_nonneg _ (by decide), Int.fdiv_eq_ediv_of_nonneg _ (by decide),
      Int.fmod_eq_emod_of_nonneg _ (by decide), Int.fmod_eq_emod_of_nonneg _ (by decide)]
    omega
  change (refreshReportName t).toList < (refreshReportName u).toList
  rw [reportName_toList ht, reportName_toList hu]
  apply List.append_left_lt
  rcases hsplit with hday | ⟨hday, htime⟩
  · have hdate : t.date.order < u.date.order := Date.ofDays_strictMono hday
    exact dateChars_lt ht.nonneg hu.le (Date.ofDays_valid _) hdate _ _
  · have hdate : t.date = u.date := by rw [Instant.date, Instant.date, hday]
    rw [hdate]
    exact dateChars_append_lt _ (List.cons_lt_cons_iff.mpr (.inr ⟨rfl, timeOfDay_lt htime _⟩))

theorem reportName_congr {t u : Instant} (h : t.seconds = u.seconds) :
    refreshReportName t = refreshReportName u := by
  have hdate : t.date = u.date := by rw [Instant.date, Instant.date, h]
  have htime : t.timeOfDay = u.timeOfDay := by rw [Instant.timeOfDay, Instant.timeOfDay, h]
  rw [reportName_eq, reportName_eq, hdate, htime]

/-- Names of reports are equal exactly if the reports are of the same second, and otherwise the
name of the earlier one is the lesser, byte by byte. -/
theorem report_names_sort {t u : Instant} (ht : Datable t) (hu : Datable u) :
    (refreshReportName t = refreshReportName u ↔ t.seconds = u.seconds) ∧
    (Bytewise.bytes (refreshReportName t) < Bytewise.bytes (refreshReportName u) ↔
      t.seconds < u.seconds) := by
  rw [Bytewise.bytes_lt_bytes_iff]
  rcases lt_trichotomy t.seconds u.seconds with h | h | h
  · have hname := reportName_lt ht hu h
    exact ⟨iff_of_false hname.ne h.ne, iff_of_true hname h⟩
  · have hname := reportName_congr h
    exact ⟨iff_of_true hname h, iff_of_false hname.not_lt h.not_lt⟩
  · have hname := reportName_lt hu ht h
    exact ⟨iff_of_false hname.ne' h.ne', iff_of_false hname.asymm h.asymm⟩

/-- The first and the last second that can be dated. -/
theorem report_names_sort_ends :
    (Datable ⟨-62167219200, 0⟩ ∧ Datable ⟨253402300799, 999999999⟩) ∧
    Bytewise.bytes (refreshReportName ⟨-62167219200, 0⟩) <
      Bytewise.bytes (refreshReportName ⟨253402300799, 999999999⟩) := by
  have hfirst : Datable ⟨-62167219200, 0⟩ := ⟨by decide, by decide⟩
  have hlast : Datable ⟨253402300799, 999999999⟩ := ⟨by decide, by decide⟩
  exact ⟨⟨hfirst, hlast⟩, (report_names_sort hfirst hlast).2.mpr (by decide)⟩

end PerfGate.Stamps
